import DasIndexer.Bubblegum.Executions
import DasIndexer.MerkleProofs

/-! What the Bubblegum program keeps on the chain, and the events of its instructions. The
indexer is there to show this ledger. -/

namespace DasIndexer.Bubblegum
open Sql Latest Merkle

/-- What a leaf says about its asset, with the metadata behind its hashes. For the second
leaf schema there are also the hash of the collection, the hash of the asset data and flags. -/
structure Contents where
  owner : Pubkey
  delegate : Pubkey
  dataHash : Hash
  creatorHash : Hash
  second : Option (Hash × Hash × UInt8)
  metadata : MetadataArgs

inductive Status where
  | held
  | redeemed
  | burnt
  deriving DecidableEq

/-- A compressed asset, with the sequence number of its tree at its last change. -/
structure Holding where
  tree : Pubkey
  leaf : Nat
  authority : Pubkey
  contents : Contents
  status : Status
  seq : Nat

/-- What `update_metadata` leaves of the metadata. -/
def MetadataArgs.updated (current : MetadataArgs) (args : UpdateArgs) : MetadataArgs :=
  { current with
    name := args.name.getD current.name
    symbol := args.symbol.getD current.symbol
    uri := args.uri.getD current.uri
    creators := args.creators.getD current.creators
    sellerFeeBasisPoints := args.sellerFeeBasisPoints.getD current.sellerFeeBasisPoints
    primarySaleHappened := args.primarySaleHappened.getD current.primarySaleHappened
    isMutable := args.isMutable.getD current.isMutable }

/-- The writes to the leaves of each tree so far, and the assets. -/
structure Ledger where
  writes : Pubkey → List (Nat × Hash)
  holdings : Pubkey → Option Holding

/-- The hashes of the programs and the depths of the trees. -/
structure Chain where
  hash : Hash → Hash → Hash
  leafHash : LeafSchema → Hash
  depth : Pubkey → Nat

namespace Contents

def version (contents : Contents) : SchemaVersion := if contents.second.isSome then .v2 else .v1

def schema (contents : Contents) (id : Pubkey) (leaf : Nat) : LeafSchema :=
  match contents.second with
  | none => .v1 id contents.owner contents.delegate leaf contents.dataHash contents.creatorHash
  | some (collectionHash, assetDataHash, flags) =>
    .v2 id contents.owner contents.delegate leaf contents.dataHash contents.creatorHash collectionHash assetDataHash flags

theorem schema_version (contents : Contents) (id : Pubkey) (leaf : Nat) :
    (contents.schema id leaf).version = contents.version := by
  unfold schema version
  cases contents.second <;> rfl

end Contents

namespace Ledger
variable [Programs] (chain : Chain)

def empty : Ledger where
  writes _ := []
  holdings _ := none

/-- A write to the leaf of an asset. -/
def write (l : Ledger) (id : Pubkey) (h : Holding) (value : Hash) : Ledger where
  writes := Function.update l.writes h.tree (l.writes h.tree ++ [(h.leaf, value)])
  holdings := Function.update l.holdings id (some { h with seq := (l.writes h.tree).length + 1 })

/-- The change log of the write. -/
def log (l : Ledger) (h : Holding) (value : Hash) : ChangeLogEvent :=
  changeLogOf chain.hash (Programs.emptyNode 0) h.tree (chain.depth h.tree) (l.writes h.tree) (h.leaf, value)

/-- The event of an instruction that leaves its contents in the leaf. -/
structure Emits (l : Ledger) (event : Event) (id : Pubkey) (h : Holding) : Prop where
  treeUpdate : event.parsingResult.treeUpdate = some (l.log chain h (chain.leafHash (h.contents.schema id h.leaf)))
  leafUpdate : event.parsingResult.leafUpdate =
    some { schema := h.contents.schema id h.leaf, leafHash := chain.leafHash (h.contents.schema id h.leaf) }

/-- The event of an instruction that clears the leaf. -/
structure Clears (l : Ledger) (event : Event) (h : Holding) : Prop where
  treeUpdate : event.parsingResult.treeUpdate = some (l.log chain h .zero)
  leafUpdate : event.parsingResult.leafUpdate = none

/-- The arguments of the instructions that change the contents of a leaf, and what they do to
the owner and to the metadata. -/
def Changes (handler : Handler) (payload : Option Payload) (h : Holding) (contents : Contents) : Prop :=
  match handler with
  | .transfer | .delegate => contents.metadata = h.contents.metadata
  | .updateMetadata => (contents.owner = h.contents.owner ∧ contents.delegate = h.contents.delegate) ∧
    ∃ args, payload = some (.updateMetadata h.contents.metadata args h.tree) ∧
      contents.metadata = h.contents.metadata.updated args
  | .creatorVerification => (contents.owner = h.contents.owner ∧ contents.delegate = h.contents.delegate) ∧
    ∃ creator verify, payload = some (.creatorVerification h.contents.metadata creator verify) ∧
      contents.metadata =
        { h.contents.metadata with creators := updatedCreators h.contents.metadata.creators creator verify }
  | .collectionVerification => (contents.owner = h.contents.owner ∧ contents.delegate = h.contents.delegate) ∧
    ∃ collection verify, payload = some (.collectionVerification collection verify) ∧
      contents.metadata = { h.contents.metadata with collection := verifiedCollection collection verify }
  | .mint | .redeem | .cancelRedeem | .burn => False

/-- The instructions, with the events that they emit. -/
inductive Step : Ledger → Event → Ledger → Prop
  | mint {l : Ledger} {event : Event} {h : Holding}
      (handler : event.handler = some .mint) (inTree : h.leaf < 2 ^ chain.depth h.tree) (isHeld : h.status = .held)
      (fresh : l.holdings (Programs.findAssetAddress h.tree h.leaf) = none)
      (payload : event.parsingResult.payload = some (.mint h.contents.metadata h.authority h.tree))
      (emits : Emits chain l event (Programs.findAssetAddress h.tree h.leaf) h) :
      Step l event (l.write (Programs.findAssetAddress h.tree h.leaf) h
        (chain.leafHash (h.contents.schema (Programs.findAssetAddress h.tree h.leaf) h.leaf)))
  | change {l : Ledger} {event : Event} {id : Pubkey} {h : Holding} {contents : Contents} {handler : Handler}
      (holds : l.holdings id = some h) (isHeld : h.status = .held) (isHandler : event.handler = some handler)
      (changes : Changes handler event.parsingResult.payload h contents) (version : contents.version = h.contents.version)
      (emits : Emits chain l event id { h with contents }) :
      Step l event (l.write id { h with contents } (chain.leafHash (contents.schema id h.leaf)))
  | redeem {l : Ledger} {event : Event} {id : Pubkey} {h : Holding} (holds : l.holdings id = some h)
      (isHeld : h.status = .held) (handler : event.handler = some .redeem) (version : h.contents.version = .v1)
      (clears : Clears chain l event h) : Step l event (l.write id { h with status := .redeemed } .zero)
  | cancelRedeem {l : Ledger} {event : Event} {id : Pubkey} {h : Holding} (holds : l.holdings id = some h)
      (isRedeemed : h.status = .redeemed) (handler : event.handler = some .cancelRedeem)
      (version : h.contents.version = .v1) (emits : Emits chain l event id h) :
      Step l event (l.write id { h with status := .held } (chain.leafHash (h.contents.schema id h.leaf)))
  | burn {l : Ledger} {event : Event} {id : Pubkey} {h : Holding} (holds : l.holdings id = some h)
      (isHeld : h.status = .held) (handler : event.handler = some .burn) (clears : Clears chain l event h) :
      Step l event (l.write id { h with status := .burnt } .zero)

/-- The events of a run of the program, slot after slot, and the ledger after it. -/
inductive Run : List Event → Ledger → Prop
  | start : Run [] empty
  | next {events : List Event} {l m : Ledger} {event : Event} (run : Run events l) (step : Step chain l event m)
      (slots : ∀ e ∈ events, e.bundle.slot ≤ event.bundle.slot) : Run (events ++ [event]) m

end Ledger

section Schemas

@[simp] theorem Contents.from_id (contents : Contents) (id : Pubkey) (leaf : Nat) :
    (NormalizedLeafFields.from (contents.schema id leaf)).id = id := by
  unfold Contents.schema
  cases contents.second <;> rfl

@[simp] theorem Contents.from_nonce (contents : Contents) (id : Pubkey) (leaf : Nat) :
    (NormalizedLeafFields.from (contents.schema id leaf)).nonce = leaf := by
  unfold Contents.schema
  cases contents.second <;> rfl

@[simp] theorem Contents.from_owner (contents : Contents) (id : Pubkey) (leaf : Nat) :
    (NormalizedLeafFields.from (contents.schema id leaf)).owner = contents.owner := by
  unfold Contents.schema
  cases contents.second <;> rfl

@[simp] theorem Contents.from_delegate (contents : Contents) (id : Pubkey) (leaf : Nat) :
    (NormalizedLeafFields.from (contents.schema id leaf)).delegate = contents.delegate := by
  unfold Contents.schema
  cases contents.second <;> rfl

theorem Contents.schema_v1 {contents : Contents} (version : contents.version = .v1) (id : Pubkey) (leaf : Nat) :
    contents.schema id leaf = .v1 id contents.owner contents.delegate leaf contents.dataHash contents.creatorHash := by
  unfold Contents.version at version
  unfold Contents.schema
  cases second : contents.second with
  | none => rfl
  | some hashes =>
    rw [second] at version
    cases version

end Schemas

section Statements
variable [Programs] {chain : Chain} {l : Ledger} {event : Event} {id : Pubkey} {h : Holding}

/-- The leaf columns that belong to the state of an asset. -/
def Holding.leafInfo (chain : Chain) (id : Pubkey) (h : Holding) : LeafInfo :=
  match h.status with
  | .redeemed =>
    { nonce := h.leaf
      treeId := h.tree
      leaf := .zero
      dataHash := .zero
      creatorHash := .zero
      collectionHash := none
      assetDataHash := none
      flags := none
      seq := h.seq }
  | .held | .burnt => leafInfoOf (.from (h.contents.schema id h.leaf)) (chain.leafHash (h.contents.schema id h.leaf))
      h.leaf h.tree h.seq

/-- The groups of columns that are written apart from the leaf. -/
inductive Part where
  | owner
  | data
  | base
  | creators
  | collection

def Part.kind : Part → Kind
  | .owner => .ownerInfo
  | .data => .assetData
  | .base => .baseInfo
  | .creators => .creators
  | .collection => .collectionInfo

def MetadataArgs.dataInfo (metadata : MetadataArgs) (slot seq : Nat) : AssetDataInfo where
  chainDataMutability := chainMutability metadata.isMutable
  chainData := (chainDataOf metadata.name metadata.symbol metadata.editionNonce metadata.primarySaleHappened
    metadata.uses).toJson
  metadataUrl := removeNul metadata.uri
  metadataMutability := .mutable
  metadata := .str "processing"
  slotUpdated := slot
  reindex := some true
  rawName := utf8 metadata.name
  rawSymbol := utf8 metadata.symbol
  seq := seq

/-- The statement that writes a part of the contents. -/
def Contents.statement (contents : Contents) (id : Pubkey) (slot seq : Nat) : Part → Statement
  | .owner => .ownerInfo id (ownerInfoOf contents.owner contents.delegate seq)
  | .data => .assetData id (contents.metadata.dataInfo slot seq)
  | .base => .baseInfo id (compressedBaseInfo contents.metadata.sellerFeeBasisPoints slot seq)
  | .creators => .creators id { creators := contents.metadata.creators, slotUpdated := slot, seq := seq }
  | .collection => .collectionInfo id { collection := contents.metadata.collection, slotUpdated := slot, seq := seq }

omit [Programs] in
@[simp] theorem Contents.statement_kind (contents : Contents) (id : Pubkey) (slot seq : Nat) (part : Part) :
    (contents.statement id slot seq part).kind = part.kind := by
  cases part <;> rfl

omit [Programs] in
@[simp] theorem Contents.statement_subject (contents : Contents) (id : Pubkey) (slot seq : Nat) (part : Part) :
    (contents.statement id slot seq part).subject = some id := by
  cases part <;> rfl

omit [Programs] in
@[simp] theorem Contents.statement_version (contents : Contents) (id : Pubkey) (slot seq : Nat) (part : Part) :
    (contents.statement id slot seq part).version = some seq := by
  cases part <;> rfl

/-- The state of the asset after the instruction of a handler. -/
def Handler.status : Handler → Status
  | .redeem => .redeemed
  | .burn => .burnt
  | _ => .held

/-- The statements that a handler writes for the new state of an asset. -/
def Handler.body (chain : Chain) (id : Pubkey) (h : Holding) (slot : Nat) : Handler → List Statement
  | .transfer | .delegate | .cancelRedeem =>
    [.leafInfo id (h.leafInfo chain id), h.contents.statement id slot h.seq .owner, .assetSeq id h.seq]
  | .mint =>
    [h.contents.statement id slot h.seq .data, h.contents.statement id slot h.seq .base,
      .compressionInfo id { compressed := true, compressible := false, supply := 1, supplyMint := none },
      .leafInfo id (h.leafInfo chain id), h.contents.statement id slot h.seq .owner, .assetSeq id h.seq,
      h.contents.statement id slot h.seq .creators,
      .authority id { authority := h.authority, slotUpdated := h.seq, seq := slot },
      h.contents.statement id slot h.seq .collection]
  | .updateMetadata =>
    [h.contents.statement id slot h.seq .data, h.contents.statement id slot h.seq .base,
      .leafInfo id (h.leafInfo chain id), .assetSeq id h.seq, h.contents.statement id slot h.seq .creators]
  | .creatorVerification =>
    [.leafInfo id (h.leafInfo chain id), h.contents.statement id slot h.seq .owner, .assetSeq id h.seq,
      h.contents.statement id slot h.seq .creators]
  | .collectionVerification =>
    [.leafInfo id (h.leafInfo chain id), .assetSeq id h.seq, h.contents.statement id slot h.seq .collection]
  | .redeem => [.leafInfo id (h.leafInfo chain id), .assetSeq id h.seq]
  | .burn => [.burnt id, .assetSeq id h.seq]

/-- The handlers that have the whole leaf find what they need. -/
def Accepts (handler : Handler) (payload : Option Payload) (h : Holding) : Prop :=
  match handler with
  | .transfer | .delegate => True
  | .mint => payload = some (.mint h.contents.metadata h.authority h.tree)
  | .updateMetadata => ∃ current args, payload = some (.updateMetadata current args h.tree) ∧
    h.contents.metadata = current.updated args
  | .creatorVerification => ∃ metadata creator verify, payload = some (.creatorVerification metadata creator verify) ∧
    h.contents.metadata.creators = updatedCreators metadata.creators creator verify
  | .collectionVerification => ∃ collection verify, payload = some (.collectionVerification collection verify) ∧
    h.contents.metadata.collection = verifiedCollection collection verify
  | .cancelRedeem => h.contents.version = .v1
  | .redeem | .burn => False

theorem Ledger.Emits.body (emits : l.Emits chain event id h) {handler : Handler}
    (isHandler : event.handler = some handler) (accepts : Accepts handler event.parsingResult.payload h)
    (isHeld : h.status = .held) : event.plan.body =
      handler.body chain id { h with seq := (l.writes h.tree).length + 1 } event.bundle.slot := by
  have leafUpdate := emits.leafUpdate
  have treeUpdate := emits.treeUpdate
  cases handler with
  | transfer | delegate =>
    simp [Event.plan, isHandler, transfer, delegationFreezingNontransferability, leafAndOwner, leafUpdate, treeUpdate,
      Plan.body, Ledger.log, changeLogOf, Handler.body, Holding.leafInfo, Contents.statement, isHeld]
  | mint =>
    have payload : event.parsingResult.payload = some (.mint h.contents.metadata h.authority h.tree) := accepts
    simp [Event.plan, isHandler, mint, leafUpdate, treeUpdate, payload, Plan.body, Ledger.log, changeLogOf,
      Handler.body, Holding.leafInfo, Contents.statement, MetadataArgs.dataInfo, isHeld]
  | updateMetadata =>
    obtain ⟨current, args, payload, updated⟩ := accepts
    simp [Event.plan, isHandler, updateMetadata, leafUpdate, treeUpdate, payload, Plan.body, Ledger.log, changeLogOf,
      Handler.body, Holding.leafInfo, Contents.statement, MetadataArgs.dataInfo, MetadataArgs.updated, updated, isHeld]
  | creatorVerification =>
    obtain ⟨metadata, creator, verify, payload, creators⟩ := accepts
    simp [Event.plan, isHandler, creatorVerification, leafUpdate, treeUpdate, payload, Plan.body, Ledger.log,
      changeLogOf, Handler.body, Holding.leafInfo, Contents.statement, creators, isHeld]
  | collectionVerification =>
    obtain ⟨collection, verify, payload, verified⟩ := accepts
    simp [Event.plan, isHandler, collectionVerification, leafUpdate, treeUpdate, payload, Plan.body, Ledger.log,
      changeLogOf, Handler.body, Holding.leafInfo, Contents.statement, verified, isHeld]
  | cancelRedeem =>
    have schema := Contents.schema_v1 accepts id h.leaf
    simp [Event.plan, isHandler, cancelRedeem, leafUpdate, treeUpdate, schema, Plan.body, Ledger.log, changeLogOf,
      Handler.body, Holding.leafInfo, Contents.statement, leafInfoOf, NormalizedLeafFields.from, isHeld]
  | redeem | burn => exact accepts.elim

/-- What the statements say about an asset whose leaf is cleared. -/
theorem Ledger.Clears.body (clears : l.Clears chain event h) (placed : id = Programs.findAssetAddress h.tree h.leaf)
    {handler : Handler} (isHandler : event.handler = some handler) (clearing : handler = .redeem ∨ handler = .burn) :
    event.plan.body = handler.body chain id
      { h with status := handler.status, seq := (l.writes h.tree).length + 1 } event.bundle.slot := by
  have treeUpdate := clears.treeUpdate
  rcases clearing with isRedeem | isBurn
  · subst isRedeem
    simp [Event.plan, isHandler, redeem, treeUpdate, Plan.body, Ledger.log, changeLogOf, Handler.body, Handler.status,
      Holding.leafInfo, placed]
  · subst isBurn
    simp [Event.plan, isHandler, burn, treeUpdate, Plan.body, Ledger.log, changeLogOf, Handler.body, placed]

section Bodies
variable {handler : Handler} {slot : Nat}

/-- The parts that a handler writes. -/
def Handler.writes : Handler → Part → Bool
  | .mint, _ => true
  | .transfer, .owner | .delegate, .owner | .cancelRedeem, .owner => true
  | .updateMetadata, .data | .updateMetadata, .base | .updateMetadata, .creators => true
  | .creatorVerification, .owner | .creatorVerification, .creators => true
  | .collectionVerification, .collection => true
  | _, _ => false

omit [Programs] in
theorem Handler.mem_body_part {part : Part} (writes : handler.writes part = true) :
    h.contents.statement id slot h.seq part ∈ handler.body chain id h slot := by
  cases handler <;> cases part <;> simp [Handler.writes, Handler.body] at writes ⊢

omit [Programs] in
theorem Handler.body_silent {part : Part} (writes : handler.writes part = false) :
    ∀ s ∈ handler.body chain id h slot, s.kind ≠ part.kind := by
  cases handler <;> cases part <;>
    simp [Handler.writes, Handler.body, Contents.statement, Statement.kind, Part.kind] at writes ⊢

omit [Programs] in
theorem Handler.mem_body_seq : .assetSeq id h.seq ∈ handler.body chain id h slot := by
  cases handler <;> simp [Handler.body]

omit [Programs] in
theorem Handler.mem_body_leaf (alive : handler.status ≠ .burnt) :
    .leafInfo id (h.leafInfo chain id) ∈ handler.body chain id h slot := by
  cases handler <;> simp [Handler.body, Handler.status] at alive ⊢

omit [Programs] in
/-- The leaf that an event states is that of the new state. -/
theorem Handler.leaf_of_mem_body {info : LeafInfo} (member : .leafInfo id info ∈ handler.body chain id h slot) :
    info = h.leafInfo chain id := by
  cases handler <;> simp [Handler.body, Contents.statement] at member <;> exact member

omit [Programs] in
theorem Handler.burnt_mem_body : .burnt id ∈ handler.body chain id h slot ↔ handler.status = .burnt := by
  cases handler <;> simp [Handler.body, Contents.statement, Handler.status]

omit [Programs] in
theorem Handler.mem_mint_compression :
    .compressionInfo id { compressed := true, compressible := false, supply := 1, supplyMint := none } ∈
      Handler.mint.body chain id h slot := by
  simp [Handler.body]

omit [Programs] in
theorem Handler.mem_mint_authority :
    .authority id { authority := h.authority, slotUpdated := h.seq, seq := slot } ∈
      Handler.mint.body chain id h slot := by
  simp [Handler.body]

end Bodies

/-- The leaf that belongs to the state of an asset. -/
def Holding.value (chain : Chain) (id : Pubkey) (h : Holding) : Hash :=
  match h.status with
  | .held => chain.leafHash (h.contents.schema id h.leaf)
  | .redeemed | .burnt => .zero

/-- Where the assets of a ledger are. -/
def Ledger.Placed (chain : Chain) (l : Ledger) : Prop :=
  ∀ id h, l.holdings id = some h → id = Programs.findAssetAddress h.tree h.leaf ∧ h.leaf < 2 ^ chain.depth h.tree

/-- An instruction about an asset that was there before. -/
structure Holding.Follows (handler : Handler) (old h : Holding) : Prop where
  tree : old.tree = h.tree
  leaf : old.leaf = h.leaf
  authority : old.authority = h.authority
  version : old.contents.version = h.contents.version
  notMint : handler ≠ .mint
  kept : ∀ part, handler.writes part = false → ∀ id slot seq,
    old.contents.statement id slot seq part = h.contents.statement id slot seq part
  alive : old.status ≠ .burnt

/-- What every instruction does: it writes the leaf of an asset, and the statements of its
event are those for the new state. -/
structure Ledger.Moves (chain : Chain) (l : Ledger) (event : Event) (handler : Handler) (id : Pubkey) (h : Holding) :
    Prop where
  isHandler : event.handler = some handler
  treeUpdate : event.parsingResult.treeUpdate = some (l.log chain h (h.value chain id))
  asset : event.assetId = some id
  version : event.OfVersion h.contents.version
  status : h.status = handler.status
  body : event.plan.body = handler.body chain id { h with seq := (l.writes h.tree).length + 1 } event.bundle.slot
  placed : id = Programs.findAssetAddress h.tree h.leaf
  inTree : h.leaf < 2 ^ chain.depth h.tree
  origin : (l.holdings id = none ∧ handler = .mint) ∨ ∃ old, l.holdings id = some old ∧ old.Follows handler h

theorem Ledger.Emits.version (emits : l.Emits chain event id h) (noRedeem : event.handler ≠ some .redeem) :
    event.OfVersion h.contents.version := by
  refine ⟨fun le update => ?_, fun isRedeem => absurd isRedeem noRedeem⟩
  rw [emits.leafUpdate] at update
  cases update
  exact h.contents.schema_version id h.leaf

theorem Ledger.Clears.version (clears : l.Clears chain event h)
    (v1 : event.handler = some .redeem → h.contents.version = .v1) :
    event.OfVersion h.contents.version := by
  refine ⟨fun le update => ?_, v1⟩
  rw [clears.leafUpdate] at update
  cases update

theorem Ledger.Emits.asset (emits : l.Emits chain event id h) {handler : Handler}
    (isHandler : event.handler = some handler) (withLeaf : handler ≠ .redeem ∧ handler ≠ .burn) : event.assetId = some id := by
  rw [Event.assetId, isHandler, emits.leafUpdate]
  cases handler with
  | redeem => exact absurd rfl withLeaf.1
  | burn => exact absurd rfl withLeaf.2
  | _ => simp

theorem Ledger.Clears.asset (clears : l.Clears chain event h) (placed : id = Programs.findAssetAddress h.tree h.leaf)
    (isHandler : event.handler = some .redeem ∨ event.handler = some .burn) : event.assetId = some id := by
  rcases isHandler with isRedeem | isBurn
  · rw [Event.assetId, isRedeem, clears.treeUpdate, placed]
    rfl
  · rw [Event.assetId, isBurn, clears.treeUpdate, placed]
    rfl

omit [Programs] in
/-- Only the status changes. -/
theorem Holding.follows_same {handler : Handler} (notMint : handler ≠ .mint) (alive : h.status ≠ .burnt)
    {status : Status} :
    h.Follows handler { h with status } where
  tree := rfl
  leaf := rfl
  authority := rfl
  version := rfl
  notMint := notMint
  kept _ _ _ _ _ := rfl
  alive := alive

theorem Ledger.Changes.spec {handler : Handler} {payload : Option Payload} {contents : Contents}
    (changes : Ledger.Changes handler payload h contents) :
    Accepts handler payload { h with contents } ∧ (handler ≠ .redeem ∧ handler ≠ .burn) ∧ handler ≠ .mint ∧
      handler.status = .held ∧ ∀ part, handler.writes part = false → ∀ id slot seq,
        h.contents.statement id slot seq part = contents.statement id slot seq part := by
  cases handler with
  | transfer | delegate =>
    have metadata : contents.metadata = h.contents.metadata := changes
    refine ⟨trivial, ⟨nofun, nofun⟩, nofun, rfl, fun part silent id slot seq => ?_⟩
    cases part with
    | owner => cases silent
    | _ => simp [Contents.statement, metadata]
  | updateMetadata =>
    obtain ⟨⟨owner, delegate⟩, args, payload, metadata⟩ := changes
    refine ⟨⟨h.contents.metadata, args, payload, metadata⟩, ⟨nofun, nofun⟩, nofun, rfl,
      fun part silent id slot seq => ?_⟩
    cases part with
    | owner => simp [Contents.statement, owner, delegate]
    | collection => simp [Contents.statement, metadata, MetadataArgs.updated]
    | data | base | creators => cases silent
  | creatorVerification =>
    obtain ⟨⟨owner, delegate⟩, creator, verify, payload, metadata⟩ := changes
    refine ⟨⟨h.contents.metadata, creator, verify, payload, by rw [metadata]⟩, ⟨nofun, nofun⟩, nofun, rfl,
      fun part silent id slot seq => ?_⟩
    cases part with
    | owner | creators => cases silent
    | _ => simp [Contents.statement, metadata, MetadataArgs.dataInfo]
  | collectionVerification =>
    obtain ⟨⟨owner, delegate⟩, collection, verify, payload, metadata⟩ := changes
    refine ⟨⟨collection, verify, payload, by rw [metadata]⟩, ⟨nofun, nofun⟩, nofun, rfl,
      fun part silent id slot seq => ?_⟩
    cases part with
    | owner => simp [Contents.statement, owner, delegate]
    | collection => cases silent
    | _ => simp [Contents.statement, metadata, MetadataArgs.dataInfo]
  | mint | redeem | cancelRedeem | burn => exact changes.elim

/-- Every instruction writes one leaf, that of the asset its event is about. -/
theorem Ledger.Step.moves {m : Ledger} (step : l.Step chain event m) (placed : l.Placed chain) :
    ∃ handler id h, m = l.write id h (h.value chain id) ∧ l.Moves chain event handler id h := by
  cases step with
  | @mint h handler inTree isHeld fresh payload emits =>
    have value : h.value chain (Programs.findAssetAddress h.tree h.leaf) =
        chain.leafHash (h.contents.schema (Programs.findAssetAddress h.tree h.leaf) h.leaf) := by
      rw [Holding.value, isHeld]
    have noRedeem : event.handler ≠ some .redeem := by
      rw [handler]
      exact nofun
    refine ⟨.mint, _, h, by rw [value], ?_⟩
    exact
      { isHandler := handler
        treeUpdate := by rw [value, emits.treeUpdate]
        asset := emits.asset handler ⟨nofun, nofun⟩
        version := emits.version noRedeem
        status := isHeld
        body := emits.body handler payload isHeld
        placed := rfl
        inTree
        origin := .inl ⟨fresh, rfl⟩ }
  | @change id h contents handler holds isHeld isHandler changes version emits =>
    obtain ⟨isPlaced, inTree⟩ := placed id h holds
    obtain ⟨accepts, withLeaf, notMint, status, kept⟩ := changes.spec
    have value : ({ h with contents } : Holding).value chain id = chain.leafHash (contents.schema id h.leaf) := by
      simp only [Holding.value, isHeld]
    have noRedeem : event.handler ≠ some .redeem := by
      rw [isHandler]
      exact fun same => withLeaf.1 (Option.some.inj same)
    have alive : h.status ≠ .burnt := by
      rw [isHeld]
      exact nofun
    refine ⟨handler, id, { h with contents }, by rw [value], ?_⟩
    exact
      { isHandler
        treeUpdate := by rw [value, emits.treeUpdate]
        asset := emits.asset isHandler withLeaf
        version := emits.version noRedeem
        status := isHeld.trans status.symm
        body := emits.body isHandler accepts isHeld
        placed := isPlaced
        inTree
        origin := .inr ⟨h, holds, rfl, rfl, rfl, version.symm, notMint, kept, alive⟩ }
  | @redeem id h holds isHeld handler version clears =>
    obtain ⟨isPlaced, inTree⟩ := placed id h holds
    have alive : h.status ≠ .burnt := by
      rw [isHeld]
      exact nofun
    refine ⟨.redeem, id, { h with status := .redeemed }, rfl, ?_⟩
    exact
      { isHandler := handler
        treeUpdate := clears.treeUpdate
        asset := clears.asset isPlaced (.inl handler)
        version := clears.version (fun _ => version)
        status := rfl
        body := clears.body isPlaced handler (.inl rfl)
        placed := isPlaced
        inTree
        origin := .inr ⟨h, holds, Holding.follows_same (fun other => by cases other) alive⟩ }
  | @cancelRedeem id h holds isRedeemed handler version emits =>
    obtain ⟨isPlaced, inTree⟩ := placed id h holds
    have noRedeem : event.handler ≠ some .redeem := by
      rw [handler]
      exact nofun
    have alive : h.status ≠ .burnt := by
      rw [isRedeemed]
      exact nofun
    have emits' : l.Emits chain event id { h with status := .held } := ⟨emits.treeUpdate, emits.leafUpdate⟩
    refine ⟨.cancelRedeem, id, { h with status := .held }, rfl, ?_⟩
    exact
      { isHandler := handler
        treeUpdate := emits.treeUpdate
        asset := emits.asset handler ⟨nofun, nofun⟩
        version := emits.version noRedeem
        status := rfl
        body := emits'.body handler version rfl
        placed := isPlaced
        inTree
        origin := .inr ⟨h, holds, Holding.follows_same (fun other => by cases other) alive⟩ }
  | @burn id h holds isHeld handler clears =>
    obtain ⟨isPlaced, inTree⟩ := placed id h holds
    have noRedeem : event.handler ≠ some .redeem := by
      rw [handler]
      exact nofun
    have alive : h.status ≠ .burnt := by
      rw [isHeld]
      exact nofun
    refine ⟨.burn, id, { h with status := .burnt }, rfl, ?_⟩
    exact
      { isHandler := handler
        treeUpdate := clears.treeUpdate
        asset := clears.asset isPlaced (.inr handler)
        version := clears.version (fun isRedeem => absurd isRedeem noRedeem)
        status := rfl
        body := clears.body isPlaced handler (.inr rfl)
        placed := isPlaced
        inTree
        origin := .inr ⟨h, holds, Holding.follows_same (fun other => by cases other) alive⟩ }

end Statements

end DasIndexer.Bubblegum
