import DasIndexer.Bubblegum.LedgerProofs
import DasIndexer.Streams.AtLeastOnce

/-! The ingester shows the ledger that the Bubblegum program keeps. -/

namespace DasIndexer.Streams
open Blockbuster Bubblegum Sql Merkle

section Showing
variable [BubblegumCrates] [Programs] [PlerkleCrate] {s : Ingester} {trace : List Statement} {chain : Chain}
  {events : List Event} {l : Ledger} (sound : s.Sound trace) (ledger : l.Sound chain events)
include sound

/-- What took effect are statements of the ledger. -/
theorem Ingester.Sound.part (included : ∀ e ∈ s.events, e ∈ events) :
    ∀ statement ∈ trace, statement ∈ events.flatMap Event.statements := by
  intro statement member
  obtain ⟨program, inPrograms, inProgram⟩ := sound.causal.mem member
  obtain ⟨e, inEvents, isProgram⟩ := List.mem_map.mp inPrograms
  rw [← isProgram] at inProgram
  exact List.mem_flatMap.mpr ⟨e, included e inEvents, inProgram⟩

include ledger

/-- Whatever was handled so far, the tables are fit for proofs. -/
theorem Ingester.Sound.proofTables (included : ∀ e ∈ s.events, e ∈ events) : ProofTables s.db := by
  obtain ⟨accounts, state⟩ := sound.effects.state
  refine ledger.proofTables (sound.part included) ?_ ?_
  · rw [state]
  · rw [state]

variable (same : ∀ e, e ∈ s.events ↔ e ∈ events)
  (acked : ∀ message ∈ s.published, message.events ≠ [] → (message.streamKey, message.id) ∈ s.acked)
include same acked

theorem Ingester.Sound.shown : l.Shown chain s.db :=
  ledger.shown (sound.converges same ledger.histories acked)

end Showing

/-- In every state of every run, whatever was handled, lost or handled again so far, a batch
of proofs has exactly the proofs that the assets have one by one. -/
theorem batches_agree [BubblegumCrates] [Programs] [PlerkleCrate] (chain : Chain) (events : List Event) (l : Ledger)
    (ledger : Ledger.Run chain events l) (streams : List String) (acker : Bool) (actions : List Action) (s : Ingester)
    (run : Runs.Reaches Ingester.step (.empty streams acker) actions s) (included : ∀ e ∈ s.events, e ∈ events)
    (assetIds : List Pubkey) :
    ∃ proofs, getAssetProofs s.db assetIds = some proofs ∧ ∀ key proof, proofs.lookup key = some proof ↔
      ∃ id ∈ assetIds, id.toBase58 = key ∧ getProofForAsset s.db id = .ok proof := by
  obtain ⟨trace, sound⟩ := (Ingester.sound_empty streams acker).reaches run
  have tables := sound.proofTables ledger.sound included
  obtain ⟨proofs, computed, entries⟩ := getAssetProofs_eq tables assetIds
  refine ⟨proofs, computed, fun key proof => ?_⟩
  rw [entries]
  constructor
  · rintro ⟨info, inLeaves, here, single⟩
    exact ⟨info.id, (mem_findLeaves.mp inLeaves).1, here, single⟩
  · rintro ⟨id, asked, here, single⟩
    obtain ⟨info, inLeaves, isId⟩ := getProofForAsset_ok tables asked single
    exact ⟨info, inLeaves, by rw [isId, here], by rw [isId, single]⟩

/-- When the transactions of the ledger are acknowledged, in whatever order and after
whatever failures they were handled, the tables show the ledger. -/
theorem ledger_shown [BubblegumCrates] [Programs] [PlerkleCrate] (chain : Chain) (events : List Event) (l : Ledger)
    (ledger : Ledger.Run chain events l) (streams : List String) (acker : Bool) (actions : List Action) (s : Ingester)
    (run : Runs.Reaches Ingester.step (.empty streams acker) actions s) (same : ∀ e, e ∈ s.events ↔ e ∈ events)
    (acked : ∀ message ∈ s.published, message.events ≠ [] → (message.streamKey, message.id) ∈ s.acked) :
    l.Shown chain s.db := by
  obtain ⟨trace, sound⟩ := (Ingester.sound_empty streams acker).reaches run
  exact sound.shown ledger.sound same acked

/-- Then the proof of every asset, even a redeemed or a burnt one, leads from its leaf on the
chain to the root of its tree on the chain. -/
theorem ledger_proved [BubblegumCrates] [Programs] [PlerkleCrate] (chain : Chain)
    (doubling : ∀ level, Programs.emptyNode (level + 1) =
      chain.hash (Programs.emptyNode level) (Programs.emptyNode level))
    (events : List Event) (l : Ledger) (ledger : Ledger.Run chain events l) (streams : List String) (acker : Bool)
    (actions : List Action) (s : Ingester) (run : Runs.Reaches Ingester.step (.empty streams acker) actions s)
    (same : ∀ e, e ∈ s.events ↔ e ∈ events)
    (acked : ∀ message ∈ s.published, message.events ≠ [] → (message.streamKey, message.id) ∈ s.acked) (id : Pubkey)
    (h : Holding) (holds : l.holdings id = some h) :
    ∃ siblings : List Hash,
      getProofForAsset s.db id = .ok
        { root := (node chain.hash (chain.depth h.tree) (leavesAfter (Programs.emptyNode 0) (l.writes h.tree)) 0).toBase58
          leaf := (h.value chain id).toBase58
          proof := siblings.map Bytes32.toBase58
          nodeIndex := 2 ^ chain.depth h.tree + h.leaf
          treeId := h.tree.toBase58 } ∧
      siblings.length = chain.depth h.tree ∧
      climb chain.hash (h.value chain id) (2 ^ chain.depth h.tree + h.leaf) siblings =
        node chain.hash (chain.depth h.tree) (leavesAfter (Programs.emptyNode 0) (l.writes h.tree)) 0 := by
  obtain ⟨trace, sound⟩ := (Ingester.sound_empty streams acker).reaches run
  obtain ⟨row, stored, shown⟩ := ((sound.shown ledger.sound same acked).holding id h holds).row
  have tables := sound.proofTables ledger.sound (fun e member => (same e).mp member)
  have items := (sound.converges same ledger.sound.histories acked).clItems
  exact ledger.sound.proof_served doubling holds tables items stored shown.tree shown.nonce

namespace Example

/-- The asset in the first leaf of the tree. -/
def key : Pubkey where
  bytes := [87, 13, 94, 207, 173, 241, 62, 40, 73, 58, 207, 90, 31, 248, 32, 74,
    67, 84, 1, 232, 140, 98, 100, 100, 36, 60, 5, 247, 151, 70, 143, 212]
  size := rfl

theorem key_eq : Programs.findAssetAddress (.fill 8) 0 = key := by decide +kernel

/-- The discriminator of `mint_v1`, with the arguments in Borsh behind it. -/
def mintData : Bytes :=
  [145, 98, 192, 118, 184, 147, 118, 104] ++ ([7, 0, 0, 0] ++ utf8 "example" ++ [2, 0, 0, 0] ++ utf8 "EX" ++
    [19, 0, 0, 0] ++ utf8 "https://example.com" ++ [244, 1, 0, 1, 0, 0, 0, 0, 0] ++ [1, 0, 0, 0] ++
    List.replicate 32 3 ++ [0, 100])

def mintedMetadata : MetadataArgs := Bubblegum.Example.metadata Bubblegum.Example.oneCreator none

@[reducible] def mintCrates : BubblegumCrates :=
  { BubblegumCrates.eventsOnly with
    getInstructionType := fun data =>
      if data.take 8 = [145, 98, 192, 118, 184, 147, 118, 104] then .mintV1
      else if data = transferData then .transfer else .unknown
    metadataArgs := fun data => if data = mintData.drop 8 then .ok mintedMetadata else .error "not read" }

def keyCall (owner : UInt8) : CompiledInstruction where
  programIdIndex := 2
  accounts := []
  data := [1, 0, 203, 0, 0, 0] ++ [1, 0, 0] ++ key.bytes ++ List.replicate 32 owner ++
    List.replicate 32 owner ++ List.replicate 8 0 ++ List.replicate 64 0 ++ List.replicate 32 9

def ledgerTransaction (seq owner : UInt8) (ix : CompiledInstruction) : TransactionInfo where
  slot := 10
  signature := []
  accountKeys := [.fill 1, Mainnet.bubblegumId, mintCrates.splNoopId, .fill 8, .fill 4, .fill 5, .fill 6]
  messageInstructions := [ix]
  metaInnerInstructions := [{ index := 0, instructions := [keyCall owner, logCall seq] }]

@[reducible] def ledgerPlerkle : PlerkleCrate where
  transactionInfo data :=
    if data = [1] then
      some (ledgerTransaction 1 1 { programIdIndex := 1, accounts := [4, 0, 0, 3, 0, 0, 2, 5, 6], data := mintData })
    else if data = [2] then
      some (ledgerTransaction 2 2 { programIdIndex := 1, accounts := [4, 0, 0, 0, 3, 2, 5, 6], data := transferData })
    else none

def leafEvent (owner : Pubkey) : LeafSchemaEvent where
  schema := .v1 key owner owner 0 .zero .zero
  leafHash := .fill 9

def minting : Event where
  parsingResult :=
    { instruction := .mintV1
      treeUpdate := some (Bubblegum.Example.changeLog 1)
      leafUpdate := some (leafEvent (.fill 1))
      payload := some (.mint mintedMetadata (.fill 4) (.fill 8)) }
  bundle := { txnId := [], slot := 10 }

def moving : Event where
  parsingResult :=
    { instruction := .transfer
      treeUpdate := some (Bubblegum.Example.changeLog 2)
      leafUpdate := some (leafEvent (.fill 2))
      payload := none }
  bundle := { txnId := [], slot := 10 }

def chain : Chain where
  hash := keccakNode
  leafHash _ := .fill 9
  depth _ := 0

def owned (owner : Pubkey) : Holding where
  tree := .fill 8
  leaf := 0
  authority := .fill 4
  contents :=
    { owner
      delegate := owner
      dataHash := .zero
      creatorHash := .zero
      second := none
      metadata := mintedMetadata }
  status := .held
  seq := 0

def mintedLedger : Ledger := Ledger.empty.write key (owned (.fill 1)) (.fill 9)

def movedLedger : Ledger := mintedLedger.write key (owned (.fill 2)) (.fill 9)

theorem minted_step : Ledger.Step chain .empty minting mintedLedger := by
  have emits : Ledger.Emits chain .empty minting (Programs.findAssetAddress (.fill 8) 0) (owned (.fill 1)) := by
    rw [key_eq]
    exact ⟨rfl, rfl⟩
  have step := @Ledger.Step.mint _ chain .empty minting (owned (.fill 1)) rfl (by decide) rfl rfl rfl emits
  rw [show Programs.findAssetAddress (owned (.fill 1)).tree (owned (.fill 1)).leaf = key from key_eq] at step
  exact step

theorem moved_step : Ledger.Step chain mintedLedger moving movedLedger := by
  have holds : mintedLedger.holdings key = some { owned (.fill 1) with seq := 1 } := Ledger.write_holdings_self
  have emits : Ledger.Emits chain mintedLedger moving key { owned (.fill 2) with seq := 1 } := ⟨rfl, rfl⟩
  exact @Ledger.Step.change _ chain mintedLedger moving key { owned (.fill 1) with seq := 1 } (owned (.fill 2)).contents
    .transfer holds rfl rfl rfl rfl emits

/-- The asset is minted and transferred. -/
theorem ledger_run : Ledger.Run chain [minting, moving] movedLedger :=
  .next (.next .start minted_step (by simp)) moved_step (by simp [minting, moving])

theorem moved_holds : movedLedger.holdings key = some { owned (.fill 2) with seq := 2 } := Ledger.write_holdings_self

/-- The transfer is received before the mint and fails once; then both are handled beside each other. -/
def shown : List Action :=
  [.publish first, .publish second, .recv 0 [second], .step 0 0 { reported := true, applied := false }, .join 0 0,
    .recv 0 [second, first], .step 0 0 .none, .step 0 1 .none, .step 0 0 .none, .step 0 0 .none, .step 0 0 .none,
    .step 0 1 .none, .step 0 1 .none, .step 0 1 .none, .step 0 1 .none, .join 0 1, .join 0 0, .ackRecv, .ackRecv,
    .tick (fun _ => true)]

set_option maxRecDepth 4000

theorem shown_ended : ((shown.foldlM (@Ingester.step mintCrates _ ledgerPlerkle) (.empty ["TXN"] true)).map
    (fun s => (s.published, s.acked))) = some ([first, second], [("TXN", "1"), ("TXN", "2")]) := by rfl

theorem shown_halfway : ((shown.take 9).foldlM (@Ingester.step mintCrates _ ledgerPlerkle)
    (.empty ["TXN"] true)).map Ingester.published = some [first, second] := by
  rfl

theorem shown_run : ∃ s, Runs.Reaches (@Ingester.step mintCrates _ ledgerPlerkle) (.empty ["TXN"] true) shown s ∧
    s.published = [first, second] ∧ s.acked = [("TXN", "1"), ("TXN", "2")] := by
  obtain ⟨s, ran, same⟩ := Option.map_eq_some_iff.mp shown_ended
  obtain ⟨published, acked⟩ := Prod.mk.inj same
  exact ⟨s, Runs.Reaches.of_foldlM ran, published, acked⟩

theorem events_shown : [first, second].flatMap (@Message.events mintCrates _ ledgerPlerkle) = [minting, moving] := by
  rfl

theorem events_eq {s : Ingester} (published : s.published = [first, second]) :
    @Ingester.events mintCrates _ ledgerPlerkle s = [minting, moving] := by
  show s.published.flatMap (@Message.events mintCrates _ ledgerPlerkle) = _
  rw [published]
  exact events_shown

theorem acked_all {s : Ingester} (published : s.published = [first, second])
    (acked : s.acked = [("TXN", "1"), ("TXN", "2")]) :
    ∀ message ∈ s.published, (message.streamKey, message.id) ∈ s.acked := by
  intro message member
  rw [published] at member
  simp only [List.mem_cons, List.not_mem_nil, or_false] at member
  rw [acked]
  rcases member with one | two
  · simp [one, first]
  · simp [two, second]

end Example

/-- A batch for the asset, in the middle of everything. -/
theorem batches_agree_halfway :
    ∃ s, Runs.Reaches (@Ingester.step Example.mintCrates _ Example.ledgerPlerkle) (.empty ["TXN"] true)
        (Example.shown.take 9) s ∧
      ∃ proofs, getAssetProofs s.db [Example.key] = some proofs ∧ ∀ key proof, proofs.lookup key = some proof ↔
        ∃ id ∈ [Example.key], id.toBase58 = key ∧ getProofForAsset s.db id = .ok proof := by
  obtain ⟨s, ran, published⟩ := Option.map_eq_some_iff.mp Example.shown_halfway
  have run := Runs.Reaches.of_foldlM ran
  refine ⟨s, run, ?_⟩
  refine @batches_agree Example.mintCrates _ Example.ledgerPlerkle Example.chain _ _ Example.ledger_run ["TXN"] true _ s
    run (fun e member => ?_) [Example.key]
  rwa [Example.events_eq published] at member

theorem ledger_shown_moved :
    ∃ s, Runs.Reaches (@Ingester.step Example.mintCrates _ Example.ledgerPlerkle) (.empty ["TXN"] true) Example.shown s ∧
      Example.movedLedger.Shown Example.chain s.db := by
  obtain ⟨s, run, published, acked⟩ := Example.shown_run
  refine ⟨s, run, ?_⟩
  refine @ledger_shown Example.mintCrates _ Example.ledgerPlerkle Example.chain _ _ Example.ledger_run ["TXN"] true _ s
    run (fun e => by rw [Example.events_eq published]) (fun message member _ => ?_)
  exact Example.acked_all published acked message member

theorem ledger_proved_moved :
    ∃ s, Runs.Reaches (@Ingester.step Example.mintCrates _ Example.ledgerPlerkle) (.empty ["TXN"] true) Example.shown s ∧
      getProofForAsset s.db Example.key = .ok
        { root := (Bytes32.fill 9).toBase58
          leaf := (Bytes32.fill 9).toBase58
          proof := []
          nodeIndex := 1
          treeId := (Bytes32.fill 8).toBase58 } := by
  obtain ⟨s, run, published, acked⟩ := Example.shown_run
  refine ⟨s, run, ?_⟩
  obtain ⟨siblings, served, none, -⟩ := @ledger_proved Example.mintCrates _ Example.ledgerPlerkle Example.chain
    (fun _ => rfl) _ _ Example.ledger_run ["TXN"] true _ s run (fun e => by rw [Example.events_eq published])
    (fun message member _ => Example.acked_all published acked message member) Example.key _ Example.moved_holds
  rw [List.length_eq_zero_iff.mp none] at served
  exact served

end DasIndexer.Streams
