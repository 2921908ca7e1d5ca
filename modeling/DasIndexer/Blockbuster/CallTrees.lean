import DasIndexer.Blockbuster.Borsh
import Mathlib.Data.List.TakeWhile

namespace DasIndexer.Blockbuster

/-- The CPIs that a program makes one after the other, each with its own. -/
inductive Calls where
  | done
  | call (ix : IxPair) (inner next : Calls)

/-- The invocation of a program. -/
structure CallTree where
  ix : IxPair
  inner : Calls

namespace Calls

def preorder : Calls → List IxPair
  | done => []
  | call ix inner next => ix :: (inner.preorder ++ next.preorder)

/-- All invocations, in the order in which they start. -/
def trees : Calls → List CallTree
  | done => []
  | call ix inner next => ⟨ix, inner⟩ :: (inner.trees ++ next.trees)

/-- The invocations, each with the instructions that start after it has ended. -/
def followed : Calls → List IxPair → List (CallTree × List IxPair)
  | done, _ => []
  | call ix inner next, after => (⟨ix, inner⟩, next.preorder ++ after) ::
      (inner.followed (next.preorder ++ after) ++ next.followed after)

theorem followed_trees (calls : Calls) (after : List IxPair) : (calls.followed after).map Prod.fst = calls.trees := by
  induction calls generalizing after with
  | done => rfl
  | call ix inner next ihInner ihNext =>
    rw [followed, trees, List.map_cons, List.map_append, ihInner, ihNext]

/-- What follows an invocation in the flat list: its own descendants, and then
what starts after it. -/
theorem suffixes_preorder (calls : Calls) (after : List IxPair) :
    Segments.suffixes (calls.preorder ++ after) =
      (calls.followed after).map (fun call => (call.1.ix, call.1.inner.preorder ++ call.2)) ++
        Segments.suffixes after := by
  induction calls generalizing after with
  | done => rfl
  | call ix inner next ihInner ihNext =>
    have flat : (call ix inner next).preorder ++ after = ix :: (inner.preorder ++ (next.preorder ++ after)) := by
      rw [preorder, List.cons_append, List.append_assoc]
    have split : Segments.suffixes (ix :: (inner.preorder ++ (next.preorder ++ after))) =
        (ix, inner.preorder ++ (next.preorder ++ after)) ::
          Segments.suffixes (inner.preorder ++ (next.preorder ++ after)) := rfl
    rw [flat, split, ihInner, ihNext, followed, List.map_cons, List.map_append, List.cons_append, List.append_assoc]

end Calls

/-- The invocations of a tree in the order in which they are handed out. -/
def CallTree.nodes (tree : CallTree) : List CallTree := tree.inner.trees ++ [tree]

section Transactions
variable {programs : Finset Pubkey} {accountKeys : List Pubkey} {trees : List CallTree}
  {groups : List InnerInstructions}

/-- A transaction records the trees: the account keys hold their programs, and
the group of each outer instruction lists its descendants. -/
structure Records (accountKeys : List Pubkey) (groups : List InnerInstructions) (trees : List CallTree) : Prop where
  programs : ∀ tree ∈ trees, ∀ ix ∈ tree.ix :: tree.inner.preorder, pair? accountKeys ix.2 = some ix
  groups : ∀ entry ∈ trees.zipIdx, groupOf groups entry.2 = entry.1.inner.preorder.map Prod.snd

/-- The outer instructions of a transaction. -/
def outersOf (trees : List CallTree) : List CompiledInstruction := trees.map (fun tree => tree.ix.2)

theorem pairs_resolved {ixs : List IxPair} (resolved : ∀ ix ∈ ixs, pair? accountKeys ix.2 = some ix) :
    pairs accountKeys (ixs.map Prod.snd) = ixs := by
  rw [pairs, List.filterMap_map]
  exact (List.filterMap_congr resolved).trans List.filterMap_some

/-- The known invocations of a tree with the entries they get. -/
def handedOut (programs : Finset Pubkey) (tree : CallTree) : List (CallTree × OrderedIx) :=
  ((tree.inner.followed []).filter (fun call => call.1.ix.1 ∈ programs)).map (fun call =>
    (call.1, (call.1.ix, some ((call.1.inner.preorder ++ call.2).takeWhile (fun inner => inner.1 ≠ call.1.ix.1))))) ++
  ([tree].filter (fun tree => tree.ix.1 ∈ programs)).map (fun tree => (tree, (tree.ix, some tree.inner.preorder)))

theorem handedOut_nodes (tree : CallTree) :
    (handedOut programs tree).map Prod.fst = tree.nodes.filter (fun node => node.ix.1 ∈ programs) := by
  rw [handedOut, CallTree.nodes, List.filter_append, List.map_append, List.map_map, List.map_map,
    ← Calls.followed_trees tree.inner [], List.filter_map]
  congr 1
  exact List.map_id _

theorem handedOut_entries {entry : CallTree × Nat} (records : Records accountKeys groups trees)
    (member : entry ∈ trees.zipIdx) :
    outerEntries programs accountKeys groups (entry.1.ix.2, entry.2) = (handedOut programs entry.1).map Prod.snd := by
  obtain ⟨tree, index⟩ := entry
  have inTrees : tree ∈ trees := List.mem_of_getElem? (List.mk_mem_zipIdx_iff_getElem?.mp member)
  have resolved := records.programs tree inTrees
  have inner : pairs accountKeys (groupOf groups index) = tree.inner.preorder := by
    rw [records.groups _ member]
    exact pairs_resolved (fun ix inPreorder => resolved ix (List.mem_cons_of_mem _ inPreorder))
  have own : pairs accountKeys [tree.ix.2] = [tree.ix] := by
    refine @pairs_resolved _ [tree.ix] (fun ix isRoot => ?_)
    rw [List.mem_singleton] at isRoot
    exact resolved ix (isRoot ▸ List.mem_cons_self)
  have flat := tree.inner.suffixes_preorder []
  rw [List.append_nil] at flat
  rw [outerEntries, inner, own, hoisted_eq, flat, handedOut, List.map_append, List.map_map, List.map_map, known]
  have tail : Segments.suffixes ([] : List IxPair) = [] := rfl
  rw [tail, List.append_nil, List.filter_map, List.map_map]
  by_cases isKnown : tree.ix.1 ∈ programs
  · simp [isKnown]
    rfl
  · simp [isKnown]
    rfl

/-- The entries of a transaction, beside the invocations that they belong to. -/
theorem orderInstructions_trees (wellFormed : WellFormed accountKeys (outersOf trees) groups)
    (records : Records accountKeys groups trees) :
    orderInstructions programs accountKeys (outersOf trees) groups =
      some ((trees.flatMap (handedOut programs)).map Prod.snd) := by
  have positions : (outersOf trees).zipIdx = trees.zipIdx.map (fun entry => (entry.1.ix.2, entry.2)) := by
    rw [outersOf, List.zipIdx_map]
    rfl
  have entries : trees.zipIdx.flatMap (fun entry => outerEntries programs accountKeys groups (entry.1.ix.2, entry.2)) =
      trees.zipIdx.flatMap (fun entry => (handedOut programs entry.1).map Prod.snd) :=
    List.flatMap_congr (fun entry member => handedOut_entries records member)
  have all : trees.zipIdx.flatMap (fun entry => (handedOut programs entry.1).map Prod.snd) =
      trees.flatMap (fun tree => (handedOut programs tree).map Prod.snd) := by
    conv_rhs => rw [← List.zipIdx_map_fst 0 trees, List.flatMap_map]
  rw [orderInstructions_eq wellFormed, positions, List.flatMap_map, entries, all, List.map_flatMap]

end Transactions

section Attribution
variable [BubblegumCrates]

/-- The instruction is one of Bubblegum. -/
def isBubblegum (ix : IxPair) : Bool := ix.1 = BubblegumCrates.bubblegumId

/-- The entry is that of the invocation, and if that is one of Bubblegum, the
events extracted are the last ones of its own subtree. -/
def OwnEvents (node : CallTree) (entry : OrderedIx) : Prop :=
  entry.1 = node.ix ∧ (isBubblegum node.ix = true → extractEvents entry.2 = .ok (lastEvents node.inner.preorder))

/-- The last events of the second list are already the last ones of the first. -/
def NothingNew (ixs more : List IxPair) : Prop :=
  (∀ event ∈ (treeEvents more).getLast?, (treeEvents ixs).getLast? = some event) ∧
    ∀ leaf ∈ (leafEvents more).getLast?, (leafEvents ixs).getLast? = some leaf

/-- What an inner invocation of Bubblegum is given: its subtree up to a nested
Bubblegum instruction, or without one also what comes after the subtree up to the
next. All application data there must be leaf schema events, and neither what is
missing nor what is foreign may carry later events. -/
structure Separate (node : CallTree) (after : List IxPair) : Prop where
  readable : Readable ((node.inner.preorder ++ after).takeWhile (fun ix => !isBubblegum ix))
  missing : NothingNew (node.inner.preorder.takeWhile (fun ix => !isBubblegum ix))
    (node.inner.preorder.dropWhile (fun ix => !isBubblegum ix))
  foreign : node.inner.preorder.any isBubblegum = false →
    NothingNew node.inner.preorder (after.takeWhile (fun ix => !isBubblegum ix))

instance (ixs more : List IxPair) : Decidable (NothingNew ixs more) := inferInstanceAs (Decidable (_ ∧ _))

instance (node : CallTree) (after : List IxPair) : Decidable (Separate node after) :=
  decidable_of_iff (_ ∧ _ ∧ (_ → _)) ⟨fun h => ⟨h.1, h.2.1, h.2.2⟩, fun h => ⟨h.readable, h.missing, h.foreign⟩⟩

/-- The Bubblegum instructions of a tree are kept apart. -/
def Separated (tree : CallTree) : Prop :=
  (∀ call ∈ tree.inner.followed [], isBubblegum call.1.ix = true → Separate call.1 call.2) ∧
    (isBubblegum tree.ix = true → Readable tree.inner.preorder)

instance (tree : CallTree) : Decidable (Separated tree) := inferInstanceAs (Decidable (_ ∧ _))

omit [BubblegumCrates] in
theorem getLast_append_iff {α : Type} (xs ys : List α) :
    (xs ++ ys).getLast? = xs.getLast? ↔ ∀ y ∈ ys.getLast?, xs.getLast? = some y := by
  rw [List.getLast?_append]
  cases ys.getLast? with
  | none => simp
  | some y => simp [eq_comm]

theorem lastEvents_append_iff (xs ys : List IxPair) : lastEvents (xs ++ ys) = lastEvents xs ↔ NothingNew xs ys := by
  rw [NothingNew, ← getLast_append_iff, ← getLast_append_iff, ← treeEvents_append, ← leafEvents_append]
  simp only [lastEvents, Events.mk.injEq]

theorem nothingNew_nil (xs : List IxPair) : NothingNew xs [] := ⟨nofun, nofun⟩

/-- Cut at the next Bubblegum instruction, a list has the last events of the
subtree exactly if nothing new is missing and nothing new is foreign. -/
theorem extract_own_iff (own after : List IxPair) :
    extractEvents (some ((own ++ after).takeWhile (fun ix => !isBubblegum ix))) = .ok (lastEvents own) ↔
      Readable ((own ++ after).takeWhile (fun ix => !isBubblegum ix)) ∧
        NothingNew (own.takeWhile (fun ix => !isBubblegum ix)) (own.dropWhile (fun ix => !isBubblegum ix)) ∧
        (own.any isBubblegum = false → NothingNew own (after.takeWhile (fun ix => !isBubblegum ix))) := by
  rw [extractEvents_iff]
  refine and_congr_right (fun _ => ?_)
  cases nested : own.any isBubblegum with
  | false =>
    have whole : ∀ ix ∈ own, (!isBubblegum ix) = true := by
      intro ix member
      rw [Bool.not_eq_true', ← Bool.not_eq_true]
      intro isNested
      rw [List.any_eq_true.mpr ⟨ix, member, isNested⟩] at nested
      cases nested
    rw [List.takeWhile_append_of_pos whole, List.takeWhile_eq_self_iff.mpr whole, List.dropWhile_eq_nil_iff.mpr whole,
      eq_comm, lastEvents_append_iff]
    exact ⟨fun foreign => ⟨nothingNew_nil own, fun _ => foreign⟩, fun both => both.2 rfl⟩
  | true =>
    obtain ⟨ix, member, isNested⟩ := List.any_eq_true.mp nested
    have cut : (own ++ after).takeWhile (fun ix => !isBubblegum ix) = own.takeWhile (fun ix => !isBubblegum ix) := by
      rw [List.takeWhile_append, if_neg]
      intro whole
      have kept := List.mem_takeWhile_imp (show ix ∈ own.takeWhile (fun ix => !isBubblegum ix) by
        rw [(List.takeWhile_prefix _).eq_of_length whole]
        exact member)
      rw [isNested] at kept
      cases kept
    have parts : lastEvents own =
        lastEvents (own.takeWhile (fun ix => !isBubblegum ix) ++ own.dropWhile (fun ix => !isBubblegum ix)) := by
      rw [List.takeWhile_append_dropWhile]
    rw [cut, parts, lastEvents_append_iff]
    exact ⟨fun missing => ⟨missing, nofun⟩, fun both => both.1⟩

theorem separate_iff (node : CallTree) (after : List IxPair) :
    Separate node after ↔ extractEvents (some ((node.inner.preorder ++ after).takeWhile (fun ix => !isBubblegum ix))) =
      .ok (lastEvents node.inner.preorder) := by
  rw [extract_own_iff]
  exact ⟨fun separate => ⟨separate.readable, separate.missing, separate.foreign⟩,
    fun ⟨readable, missing, foreign⟩ => ⟨readable, missing, foreign⟩⟩

theorem ownEvents_inner (node : CallTree) (after : List IxPair) :
    OwnEvents node
        (node.ix, some ((node.inner.preorder ++ after).takeWhile (fun inner => inner.1 ≠ node.ix.1))) ↔
      (isBubblegum node.ix = true → Separate node after) := by
  refine (and_iff_right rfl).trans (forall_congr' (fun ofBubblegum => ?_))
  have program := of_decide_eq_true ofBubblegum
  have cut : (fun inner : IxPair => decide (inner.1 ≠ node.ix.1)) = fun ix => !isBubblegum ix := by
    funext inner
    rw [program, decide_not]
    rfl
  rw [separate_iff, cut]

theorem ownEvents_outer (tree : CallTree) : OwnEvents tree (tree.ix, some tree.inner.preorder) ↔
    (isBubblegum tree.ix = true → Readable tree.inner.preorder) := by
  refine (and_iff_right rfl).trans (forall_congr' (fun _ => ?_))
  rw [extractEvents_iff, and_iff_left rfl]

theorem handedOut_own_iff {programs : Finset Pubkey} (isKnown : BubblegumCrates.bubblegumId ∈ programs)
    (tree : CallTree) : (∀ pair ∈ handedOut programs tree, OwnEvents pair.1 pair.2) ↔ Separated tree := by
  have ofProgram : ∀ ix : IxPair, isBubblegum ix = true → decide (ix.1 ∈ programs) = true := by
    intro ix ofBubblegum
    rw [of_decide_eq_true ofBubblegum]
    exact decide_eq_true isKnown
  rw [handedOut, List.forall_mem_append, List.forall_mem_map, List.forall_mem_map]
  refine and_congr ?_ ?_
  · constructor
    · intro own call member ofBubblegum
      exact (ownEvents_inner call.1 call.2).mp
        (own call (List.mem_filter.mpr ⟨member, ofProgram _ ofBubblegum⟩)) ofBubblegum
    · intro separate call member
      exact (ownEvents_inner call.1 call.2).mpr (separate call (List.mem_filter.mp member).1)
  · constructor
    · intro own ofBubblegum
      exact (ownEvents_outer tree).mp
        (own tree (List.mem_filter.mpr ⟨List.mem_singleton_self _, ofProgram _ ofBubblegum⟩)) ofBubblegum
    · intro readable root member
      have isTree := List.mem_singleton.mp (List.mem_filter.mp member).1
      subst isTree
      exact (ownEvents_outer root).mpr readable

/-- The invocations of the known programs, in the order of their entries. -/
def knownNodes (programs : Finset Pubkey) (trees : List CallTree) : List CallTree :=
  (trees.flatMap CallTree.nodes).filter (fun node => node.ix.1 ∈ programs)

/-- Every Bubblegum instruction of a transaction gets its own events. -/
def AllOwnEvents (programs : Finset Pubkey) (accountKeys : List Pubkey) (groups : List InnerInstructions)
    (trees : List CallTree) : Prop :=
  ∃ entries, orderInstructions programs accountKeys (outersOf trees) groups = some entries ∧
    List.Forall₂ OwnEvents (knownNodes programs trees) entries

theorem allOwnEvents_iff {programs : Finset Pubkey} (isKnown : BubblegumCrates.bubblegumId ∈ programs)
    {accountKeys : List Pubkey} {trees : List CallTree} {groups : List InnerInstructions}
    (ordered : orderInstructions programs accountKeys (outersOf trees) groups =
      some ((trees.flatMap (handedOut programs)).map Prod.snd)) :
    AllOwnEvents programs accountKeys groups trees ↔ ∀ tree ∈ trees, Separated tree := by
  have nodes : knownNodes programs trees = (trees.flatMap (handedOut programs)).map Prod.fst := by
    rw [knownNodes, List.filter_flatMap, List.map_flatMap]
    exact List.flatMap_congr (fun tree _ => (handedOut_nodes tree).symm)
  have beside : List.Forall₂ OwnEvents (knownNodes programs trees)
      ((trees.flatMap (handedOut programs)).map Prod.snd) ↔
        ∀ pair ∈ trees.flatMap (handedOut programs), OwnEvents pair.1 pair.2 := by
    rw [nodes, List.forall₂_map_left_iff, List.forall₂_map_right_iff, List.forall₂_same]
  rw [AllOwnEvents, ordered]
  constructor
  · rintro ⟨entries, isEntries, own⟩ tree inTrees
    cases isEntries
    refine (handedOut_own_iff isKnown tree).mp (fun pair member => beside.mp own pair ?_)
    exact List.mem_flatMap.mpr ⟨tree, inTrees, member⟩
  · intro separated
    refine ⟨_, rfl, beside.mpr (fun pair member => ?_)⟩
    obtain ⟨tree, inTrees, inTree⟩ := List.mem_flatMap.mp member
    exact (handedOut_own_iff isKnown tree).mpr (separated tree inTrees) pair inTree

/-- Whatever the call trees, the Bubblegum instructions get their own events
exactly when they are kept apart. -/
theorem own_events_iff {programs : Finset Pubkey} (isKnown : BubblegumCrates.bubblegumId ∈ programs)
    {accountKeys : List Pubkey} {trees : List CallTree} {groups : List InnerInstructions}
    (wellFormed : WellFormed accountKeys (outersOf trees) groups) (records : Records accountKeys groups trees) :
    AllOwnEvents programs accountKeys groups trees ↔ ∀ tree ∈ trees, Separated tree :=
  allOwnEvents_iff isKnown (orderInstructions_trees wellFormed records)

end Attribution

namespace CallTree.Example

def le (size n : Nat) : Bytes := (List.range size).map (fun i => UInt8.ofNat (n / 256 ^ i))

/-- The change log of a tree with a single node. -/
def changeLog (tree : UInt8) (seq : Nat) : Bytes :=
  [0, 0] ++ (Bytes32.fill tree).bytes ++ le 4 1 ++ (Bytes32.fill 1).bytes ++ le 4 1 ++ le 8 seq ++ le 4 0

def leaf : Bytes :=
  let schema := [1, 0, 0] ++ (Bytes32.fill 5).bytes ++ (Bytes32.fill 6).bytes ++ (Bytes32.fill 6).bytes ++ le 8 0 ++
    (Bytes32.fill 2).bytes ++ (Bytes32.fill 3).bytes ++ (Bytes32.fill 1).bytes
  [1, 0] ++ le 4 schema.length ++ schema

/-- Some program, Bubblegum, the noop program and the compression program. -/
def accountKeys : List Pubkey :=
  [.fill 9, Mainnet.bubblegumId, BubblegumCrates.eventsOnly.splNoopId, .fill 8]

def ix (program : UInt8) (data : Bytes) : IxPair :=
  (accountKeys.getD program.toNat .zero, { programIdIndex := program, accounts := [], data })

/-- A change of a tree, and what is called after it. -/
def append (tree : UInt8) (seq : Nat) (next : Calls) : Calls :=
  .call (ix 3 []) (.call (ix 2 (changeLog tree seq)) .done .done) next

/-- An outer instruction that mints, and what it calls after that. -/
def minting (next : Calls) : CallTree where
  ix := ix 0 []
  inner := .call (ix 1 []) (.call (ix 2 leaf) .done (append 7 3 .done)) next

def recorded (tree : CallTree) : List InnerInstructions :=
  [{ index := 0, instructions := tree.inner.preorder.map Prod.snd }]

def programs : Finset Pubkey := {Mainnet.bubblegumId}

set_option maxRecDepth 8000

theorem own_events_of_mint :
    @AllOwnEvents .eventsOnly programs accountKeys (recorded (minting .done)) [minting .done] := by
  have wellFormed : WellFormed accountKeys (outersOf [minting .done]) (recorded (minting .done)) :=
    ⟨by decide, by decide, by decide, by decide⟩
  have records : Records accountKeys (recorded (minting .done)) [minting .done] :=
    ⟨by decide, by decide⟩
  have separated : ∀ tree ∈ [minting .done], @Separated .eventsOnly tree := by decide
  exact (@own_events_iff .eventsOnly programs (by decide) _ _ _ wellFormed records).mpr separated

/-- Another tree that the same program changes after the mint is taken for the
tree of the mint. -/
theorem foreign_event_taken : ¬ @AllOwnEvents .eventsOnly programs accountKeys (recorded (minting (append 8 5 .done)))
    [minting (append 8 5 .done)] := by
  have wellFormed : WellFormed accountKeys (outersOf [minting (append 8 5 .done)])
      (recorded (minting (append 8 5 .done))) := ⟨by decide, by decide, by decide, by decide⟩
  have records : Records accountKeys (recorded (minting (append 8 5 .done))) [minting (append 8 5 .done)] :=
    ⟨by decide, by decide⟩
  have mixed : ¬ ∀ tree ∈ [minting (append 8 5 .done)], @Separated .eventsOnly tree := by decide
  intro own
  exact mixed ((@allOwnEvents_iff .eventsOnly programs (by decide) _ _ _
    (orderInstructions_trees wellFormed records)).mp own)

end CallTree.Example

end DasIndexer.Blockbuster
