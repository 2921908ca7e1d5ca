import DasIndexer.Backfill.Items
import DasIndexer.Lib.Leases
import DasIndexer.Lib.Runs

namespace DasIndexer.Backfill
open Sql

structure TreeWithSlot where
  tree : Pubkey
  slot : Nat
  deriving DecidableEq

structure BackfillTree where
  tree : Pubkey
  backfillFromSeq1 : Bool
  slot : Nat
  deriving DecidableEq

/-- The entry is neither failed nor locked for a transaction that has updated
the rows `mine`. -/
def isFree (mine : List Nat) (entry : Nat × BackfillItemRow) : Bool :=
  !entry.2.failed && !entry.2.locked && decide (entry.1 ∉ mine)

def freeRows (table : BackfillItems) (mine : List Nat) : List BackfillItemRow :=
  (table.entries.filter (isFree mine)).map Prod.snd

def freeRowsOf (table : BackfillItems) (mine : List Nat) (tree : Pubkey) : List BackfillItemRow :=
  (freeRows table mine).filter (fun row => row.tree = tree)

/-- The first query of `get_trees_to_backfill`, which is distinct on the tree
together with the slot. -/
def forceChkTrees (table : BackfillItems) : List TreeWithSlot :=
  (((freeRows table []).filter BackfillItemRow.forceChk).map
    (fun row => { tree := row.tree, slot := row.slot })).dedup

/-- Its second query, which groups by the tree. -/
def multiRowTrees (table : BackfillItems) (mine : List Nat) : List TreeWithSlot :=
  ((((freeRows table mine).map BackfillItemRow.tree).dedup).filter
      (fun tree => 1 < (freeRowsOf table mine tree).length)).map
    (fun tree => { tree, slot := (((freeRowsOf table mine tree).map BackfillItemRow.slot).max?).getD 0 })

/-- What `get_trees_to_backfill` returns. -/
def treesToBackfill (forceChk multiRow : List TreeWithSlot) : List BackfillTree :=
  forceChk.map (fun x => { tree := x.tree, backfillFromSeq1 := true, slot := x.slot }) ++
    multiRow.map (fun x => { tree := x.tree, backfillFromSeq1 := false, slot := x.slot })

def idsOf (table : BackfillItems) (tree : Pubkey) : List Nat :=
  (table.select (fun row => row.tree = tree)).map Prod.fst

/-- The commit makes the updates of the transaction visible. -/
def commitLocks (table : BackfillItems) (mine : List Nat) : BackfillItems :=
  table.modify (fun entry => if entry.1 ∈ mine then { entry.2 with locked := true } else entry.2)

/-- The statement that the pass over a tree runs next. -/
inductive Stage
  | backfilling
  | deleteRows (maxSeq : Nat)
  | findExtra (maxSeq : Nat)
  | deleteExtra (ids : List Nat)
  | clearForceChk
  | unlock
  | markFailed
  deriving DecidableEq

namespace Stage

def statement (table : BackfillItems) (tree : Pubkey) : Stage → BackfillItems
  | backfilling | findExtra _ => table
  | deleteRows maxSeq => table.delete (isExtra tree maxSeq)
  | deleteExtra (id :: _) => table.deleteById id
  | deleteExtra [] => markTreeAsBackfilled table tree
  | clearForceChk => clearForceChkFlag table tree
  | unlock => unlockTree table tree
  | markFailed => markTreeAsFailed table tree

/-- The rows that the statement writes. -/
def writes (tree : Pubkey) (entry : Nat × BackfillItemRow) : Stage → Bool
  | backfilling | findExtra _ => false
  | deleteRows maxSeq => isExtra tree maxSeq entry.2
  | deleteExtra (id :: _) => entry.1 = id
  | deleteExtra [] | clearForceChk | unlock | markFailed => entry.2.tree = tree

end Stage

/-- An instance of the backfiller: between two calls, after the first or the
second query of `get_trees_to_backfill` with the trees that are still to be
locked, in the pass over the first of the trees that the call returned, and
behind the pass over a tree when it is unlocked already. `mine` are the rows
that the transaction has locked. -/
inductive Worker
  | idle
  | forcing (forceChk todo : List TreeWithSlot) (mine : List Nat)
  | grouping (forceChk multiRow todo : List TreeWithSlot) (mine : List Nat)
  | passing (trees : List BackfillTree) (stage : Stage) (mine : List Nat)
  | unlocked (tree : Pubkey) (failing : Bool) (trees : List BackfillTree) (mine : List Nat)
  deriving DecidableEq

namespace Worker

/-- The trees that the queries of the open transaction returned. -/
def selected : Worker → List Pubkey
  | forcing forceChk _ _ => forceChk.map TreeWithSlot.tree
  | grouping forceChk multiRow _ _ => (forceChk ++ multiRow).map TreeWithSlot.tree
  | _ => []

/-- The trees that the instance was given and has not finished. -/
def held : Worker → List Pubkey
  | passing trees _ _ | unlocked _ _ trees _ => trees.map BackfillTree.tree
  | _ => []

def claims (worker : Worker) : List Pubkey := worker.selected ++ worker.held

def mine : Worker → List Nat
  | idle => []
  | forcing _ _ mine | grouping _ _ _ mine | passing _ _ mine | unlocked _ _ _ mine => mine

/-- The rows of which the open transaction keeps a changed version. -/
def uncommitted : Worker → List Nat
  | forcing _ _ mine | grouping _ _ _ mine => mine
  | _ => []

/-- The next query of the instance passes over a tree with these free rows. -/
def PassesOver : Worker → List BackfillItemRow → Prop
  | idle, rows => ∀ row ∈ rows, row.forceChk = false
  | forcing _ [] _, rows => rows.length ≤ 1
  | _, _ => True

instance (rows : List BackfillItemRow) : ∀ worker : Worker, Decidable (worker.PassesOver rows)
  | idle => inferInstanceAs (Decidable (∀ _, _))
  | forcing _ [] _ => inferInstanceAs (Decidable (_ ≤ _))
  | forcing _ (_ :: _) _ | grouping _ _ _ _ | passing _ _ _ | unlocked _ _ _ _ => inferInstanceAs (Decidable True)

/-- The pass over the first tree after the statement of the stage. -/
def afterStatement (table : BackfillItems) (tree : BackfillTree) (rest : List BackfillTree) (mine : List Nat) :
    Stage → Worker
  | .backfilling => passing (tree :: rest) .backfilling mine
  | .deleteRows maxSeq => passing (tree :: rest) (.findExtra maxSeq) mine
  | .findExtra maxSeq =>
    passing (tree :: rest) (.deleteExtra (((table.select (isExtra tree.tree maxSeq)).map Prod.fst).drop 1)) mine
  | .deleteExtra (_ :: ids) => passing (tree :: rest) (.deleteExtra ids) mine
  | .deleteExtra [] => passing (tree :: rest) .clearForceChk mine
  | .clearForceChk => passing (tree :: rest) .unlock mine
  | .unlock => unlocked tree.tree false rest mine
  | .markFailed => passing rest .backfilling mine

/-- The backfill of the first tree returned. -/
def returned (optMaxSeq : Option Nat) : Worker → Worker
  | passing (tree :: rest) .backfilling mine =>
    match optMaxSeq with
    | some maxSeq => passing (tree :: rest) (.deleteRows maxSeq) mine
    | none => passing (tree :: rest) .markFailed mine
  | worker => worker

/-- The statement that comes next, or the last try of a backfill, ends with an
error. A transaction is rolled back, and a pass marks the tree as failed. -/
def error : Worker → Worker
  | idle | forcing _ _ _ | grouping _ _ _ _ => idle
  | passing [] stage mine => passing [] stage mine
  | passing (_ :: rest) .markFailed mine => passing rest .backfilling mine
  | passing (tree :: rest) _ mine => passing (tree :: rest) .markFailed mine
  | unlocked tree false trees mine => unlocked tree true trees mine
  | unlocked _ true trees mine => passing trees .backfilling mine

end Worker

/-- The committed rows and the instances. -/
structure World (n : Nat) where
  table : BackfillItems
  workers : Fin n → Worker

inductive Action (n : Nat)
  | select (w : Fin n) (result : List TreeWithSlot)
  | advance (w : Fin n)
  | returned (w : Fin n) (optMaxSeq : Option Nat)
  | error (w : Fin n)
  | insert (tree : Pubkey) (item : SimpleBackfillItem) (forceChk : Bool)

namespace World
variable {n : Nat}

def become (world : World n) (w : Fin n) (table : BackfillItems) (worker : Worker) : World n :=
  { table, workers := Function.update world.workers w worker }

/-- What the query that comes next finds. -/
def query (world : World n) (w : Fin n) : List TreeWithSlot :=
  match world.workers w with
  | .idle => forceChkTrees world.table
  | .forcing _ [] mine => multiRowTrees world.table mine
  | _ => []

/-- A query returns what it finds in any order. -/
def select (world : World n) (w : Fin n) (result : List TreeWithSlot) : World n :=
  if result.Perm (world.query w) then
    match world.workers w with
    | .idle => world.become w world.table (.forcing result result [])
    | .forcing forceChk [] mine => world.become w world.table (.grouping forceChk result result mine)
    | _ => world
  else world

/-- A statement does not go on while another transaction has changed a row that
it writes. -/
def waits (world : World n) (w : Fin n) (writes : Nat × BackfillItemRow → Bool) : Bool :=
  world.table.entries.any (fun entry =>
    writes entry && decide (∃ v, v ≠ w ∧ entry.1 ∈ (world.workers v).uncommitted))

def advance (world : World n) (w : Fin n) : World n :=
  match world.workers w with
  | .forcing forceChk (x :: todo) mine =>
    if world.waits w (fun entry => entry.2.tree = x.tree) then world
    else world.become w world.table (.forcing forceChk todo (mine ++ idsOf world.table x.tree))
  | .grouping forceChk multiRow (x :: todo) mine =>
    if world.waits w (fun entry => entry.2.tree = x.tree) then world
    else world.become w world.table (.grouping forceChk multiRow todo (mine ++ idsOf world.table x.tree))
  | .grouping forceChk multiRow [] mine =>
    world.become w (commitLocks world.table mine) (.passing (treesToBackfill forceChk multiRow) .backfilling mine)
  | .passing (tree :: rest) stage mine =>
    if world.waits w (fun entry => stage.writes tree.tree entry) then world
    else world.become w (stage.statement world.table tree.tree)
      (Worker.afterStatement world.table tree rest mine stage)
  | .passing [] _ _ => world.become w world.table .idle
  | .unlocked tree failing trees mine =>
    if failing then
      if world.waits w (fun entry => entry.2.tree = tree) then world
      else world.become w (markTreeAsFailed world.table tree) (.passing trees .backfilling mine)
    else world.become w world.table (.passing trees .backfilling mine)
  | .idle | .forcing _ [] _ => world

def step (world : World n) : Action n → World n
  | .select w result => world.select w result
  | .advance w => world.advance w
  | .returned w optMaxSeq => world.become w world.table ((world.workers w).returned optMaxSeq)
  | .error w => world.become w world.table (world.workers w).error
  | .insert tree item forceChk => { world with table := world.table.insert (newRow tree item forceChk) }

/-- All instances before their first call. -/
def start (n : Nat) (table : BackfillItems) : World n := { table, workers := fun _ => .idle }

/-- No tree is in two passes, and no call returned a tree twice. -/
def Safe (world : World n) : Prop :=
  (∀ w, (world.workers w).held.Nodup) ∧
    ∀ v w, v ≠ w → ∀ tree ∈ (world.workers v).held, tree ∉ (world.workers w).held

/-- The next query of the instance does not find a tree that another open
transaction is locking, or that its own one has locked. -/
def NotOverlapping (world : World n) (w : Fin n) : Prop :=
  ∀ v, ∀ tree ∈ (world.workers v).selected,
    (world.workers w).PassesOver (freeRowsOf world.table (world.workers w).mine tree)

/-- The rows that were inserted for a tree of a pass since it was locked do not
make the query find it. -/
def NotGrown (world : World n) (w : Fin n) : Prop :=
  ∀ v, ∀ tree ∈ (world.workers v).held,
    (world.workers w).PassesOver (freeRowsOf world.table (world.workers v).mine tree)

/-- The rows of one tree that are to be checked have one slot. -/
def OneSlot (world : World n) : Prop :=
  ∀ row ∈ freeRows world.table [], ∀ other ∈ freeRows world.table [], row.forceChk = true → other.forceChk = true →
    row.tree = other.tree → row.slot = other.slot

def Allowed (world : World n) : Action n → Prop
  | .select w _ => world.NotOverlapping w ∧ world.NotGrown w ∧ (world.workers w = .idle → world.OneSlot)
  | _ => True

instance (world : World n) : Decidable world.Safe := inferInstanceAs (Decidable (_ ∧ _))

instance (world : World n) (w : Fin n) : Decidable (world.NotOverlapping w) := inferInstanceAs (Decidable (∀ _, _))

instance (world : World n) (w : Fin n) : Decidable (world.NotGrown w) := inferInstanceAs (Decidable (∀ _, _))

instance (world : World n) : Decidable world.OneSlot := inferInstanceAs (Decidable (∀ _, _))

instance (world : World n) : ∀ action, Decidable (world.Allowed action)
  | .select _ _ => inferInstanceAs (Decidable (_ ∧ _))
  | .advance _ | .returned _ _ | .error _ | .insert _ _ _ => inferInstanceAs (Decidable True)

end World

section Statements
variable {table : BackfillItems}

/-- The rows that are left keep their ids and trees, and are locked as before
unless their tree is released. -/
def KeepsLocks (released : List Pubkey) (table after : BackfillItems) : Prop :=
  after.nextId = table.nextId ∧ ∀ entry ∈ after.entries, ∃ old ∈ table.entries, old.1 = entry.1 ∧
    old.2.tree = entry.2.tree ∧ (old.2.locked = true → entry.2.tree ∉ released → entry.2.locked = true)

theorem keepsLocks_refl (released : List Pubkey) : KeepsLocks released table table :=
  ⟨rfl, fun entry member => ⟨entry, member, rfl, rfl, fun locked _ => locked⟩⟩

theorem keepsLocks_keep (released : List Pubkey) (condition : Nat × BackfillItemRow → Bool) :
    KeepsLocks released table (table.keep condition) :=
  ⟨rfl, fun entry member => ⟨entry, List.mem_of_mem_filter member, rfl, rfl, fun locked _ => locked⟩⟩

theorem keepsLocks_modify {released : List Pubkey} {change : Nat × BackfillItemRow → BackfillItemRow}
    (sameTree : ∀ entry, (change entry).tree = entry.2.tree)
    (locks : ∀ entry, entry.2.locked = true → entry.2.tree ∉ released → (change entry).locked = true) :
    KeepsLocks released table (table.modify change) := by
  refine ⟨rfl, fun entry member => ?_⟩
  obtain ⟨old, inTable, same⟩ := List.mem_map.mp member
  subst same
  refine ⟨old, inTable, rfl, (sameTree old).symm, fun locked kept => locks old locked ?_⟩
  rw [← sameTree old]
  exact kept

/-- An update of the rows of a tree that leaves tree and lock alone. -/
theorem keepsLocks_update {released : List Pubkey} {tree : Pubkey} {change : BackfillItemRow → BackfillItemRow}
    (sameTree : ∀ row, (change row).tree = row.tree) (sameLock : ∀ row, (change row).locked = row.locked) :
    KeepsLocks released table (table.update (fun row => row.tree = tree) change) := by
  refine keepsLocks_modify (fun entry => ?_) (fun entry locked _ => ?_)
  · split
    · exact sameTree entry.2
    · rfl
  · split
    · rw [sameLock]
      exact locked
    · exact locked

theorem keepsLocks_unlockTree (tree : Pubkey) : KeepsLocks [tree] table (unlockTree table tree) := by
  refine keepsLocks_modify (fun entry => ?_) (fun entry locked kept => ?_)
  · split
    · rfl
    · rfl
  · have otherTree : entry.2.tree ≠ tree := fun same => kept (List.mem_singleton.mpr same)
    rw [if_neg (fun accepted => otherTree (of_decide_eq_true accepted))]
    exact locked

theorem keepsLocks_commitLocks (released : List Pubkey) (mine : List Nat) :
    KeepsLocks released table (commitLocks table mine) := by
  refine keepsLocks_modify (fun entry => ?_) (fun entry locked _ => ?_)
  · split
    · rfl
    · rfl
  · split
    · rfl
    · exact locked

theorem commitLocks_locked {mine : List Nat} {entry : Nat × BackfillItemRow}
    (member : entry ∈ (commitLocks table mine).entries) (isMine : entry.1 ∈ mine) : entry.2.locked = true := by
  obtain ⟨old, inTable, same⟩ := List.mem_map.mp member
  subst same
  dsimp only at isMine ⊢
  rw [if_pos isMine]

/-- A transaction that updates one tree and commits runs the update. -/
theorem commitLocks_idsOf (tree : Pubkey) :
    (commitLocks table (idsOf table tree)).entries = (lockTree table tree).entries := by
  refine List.map_congr_left (fun entry member => ?_)
  have updated : entry.1 ∈ idsOf table tree ↔ entry.2.tree = tree := by
    constructor
    · intro inIds
      obtain ⟨other, selected, sameId⟩ := List.mem_map.mp inIds
      obtain ⟨inTable, ofTree⟩ := List.mem_filter.mp selected
      rw [← table.entry_unique inTable member sameId]
      exact of_decide_eq_true ofTree
    · intro ofTree
      exact List.mem_map.mpr ⟨entry, List.mem_filter.mpr ⟨member, decide_eq_true ofTree⟩, rfl⟩
  dsimp only
  by_cases ofTree : entry.2.tree = tree
  · rw [if_pos (updated.mpr ofTree), if_pos (decide_eq_true ofTree)]
  · rw [if_neg (fun inIds => ofTree (updated.mp inIds)),
      if_neg (fun accepted => ofTree (of_decide_eq_true accepted))]

/-- The trees that the statement unlocks. -/
def Stage.released (tree : Pubkey) : Stage → List Pubkey
  | .unlock => [tree]
  | _ => []

theorem Stage.statement_keepsLocks (stage : Stage) (tree : Pubkey) :
    KeepsLocks (stage.released tree) table (stage.statement table tree) := by
  cases stage with
  | backfilling => exact keepsLocks_refl _
  | findExtra maxSeq => exact keepsLocks_refl _
  | deleteRows maxSeq => exact keepsLocks_keep _ _
  | deleteExtra ids =>
    cases ids with
    | nil => exact keepsLocks_update (fun _ => rfl) (fun _ => rfl)
    | cons id rest => exact keepsLocks_keep _ _
  | clearForceChk => exact keepsLocks_update (fun _ => rfl) (fun _ => rfl)
  | unlock => exact keepsLocks_unlockTree tree
  | markFailed => exact keepsLocks_update (fun _ => rfl) (fun _ => rfl)

theorem idsOf_below {tree : Pubkey} {id : Nat} (member : id ∈ idsOf table tree) : id < table.nextId := by
  obtain ⟨entry, selected, same⟩ := List.mem_map.mp member
  rw [← same]
  exact table.below entry (List.mem_of_mem_filter selected)

end Statements

section Queries
variable {table : BackfillItems} {mine : List Nat}

theorem forceChkTrees_row {x : TreeWithSlot} (found : x ∈ forceChkTrees table) :
    ∃ row ∈ freeRows table [], row.forceChk = true ∧ row.tree = x.tree ∧ row.slot = x.slot := by
  obtain ⟨row, member, same⟩ := List.mem_map.mp (List.mem_dedup.mp found)
  obtain ⟨free, toCheck⟩ := List.mem_filter.mp member
  subst same
  exact ⟨row, free, toCheck, rfl, rfl⟩

theorem multiRowTrees_length {x : TreeWithSlot} (found : x ∈ multiRowTrees table mine) :
    1 < (freeRowsOf table mine x.tree).length := by
  obtain ⟨tree, member, same⟩ := List.mem_map.mp found
  subst same
  exact of_decide_eq_true (List.mem_filter.mp member).2

/-- With one slot for the rows to be checked of each tree, the first query
returns no tree twice. -/
theorem forceChkTrees_nodup (oneSlot : ∀ row ∈ freeRows table [], ∀ other ∈ freeRows table [],
      row.forceChk = true → other.forceChk = true → row.tree = other.tree → row.slot = other.slot) :
    ((forceChkTrees table).map TreeWithSlot.tree).Nodup := by
  refine (List.nodup_dedup _).map_on (fun x foundX y foundY same => ?_)
  obtain ⟨row, rowFree, rowToCheck, rowTree, rowSlot⟩ := forceChkTrees_row foundX
  obtain ⟨other, otherFree, otherToCheck, otherTree, otherSlot⟩ := forceChkTrees_row foundY
  have slots := oneSlot row rowFree other otherFree rowToCheck otherToCheck
    (rowTree.trans (same.trans otherTree.symm))
  cases x
  cases y
  dsimp only at same rowSlot otherSlot
  rw [same, ← rowSlot, slots, otherSlot]

theorem multiRowTrees_nodup : ((multiRowTrees table mine).map TreeWithSlot.tree).Nodup := by
  rw [multiRowTrees, List.map_map]
  have trees : TreeWithSlot.tree ∘ (fun tree => ({
      tree, slot := (((freeRowsOf table mine tree).map BackfillItemRow.slot).max?).getD 0 } : TreeWithSlot)) = id := rfl
  rw [trees, List.map_id]
  exact (List.nodup_dedup _).filter _

end Queries

namespace Worker
variable {table : BackfillItems} {tree : BackfillTree} {rest : List BackfillTree} {ids : List Nat}

/-- After a statement the pass goes on with the same trees, or with those
behind the first one, which alone the statement may have unlocked. -/
theorem afterStatement_held (stage : Stage) :
    (afterStatement table tree rest ids stage).selected = [] ∧
      (afterStatement table tree rest ids stage).mine = ids ∧
      (afterStatement table tree rest ids stage).held.Sublist ((tree :: rest).map BackfillTree.tree) ∧
      ∀ x ∈ (afterStatement table tree rest ids stage).held, x ∈ stage.released tree.tree →
        x ∈ rest.map BackfillTree.tree := by
  have whole : ∀ x ∈ (tree :: rest).map BackfillTree.tree, x ∈ ([] : List Pubkey) → x ∈ rest.map BackfillTree.tree :=
    fun x _ none => absurd none List.not_mem_nil
  have behind : (rest.map BackfillTree.tree).Sublist ((tree :: rest).map BackfillTree.tree) :=
    (List.sublist_cons_self tree rest).map _
  cases stage with
  | backfilling => exact ⟨rfl, rfl, List.Sublist.refl _, whole⟩
  | deleteRows maxSeq => exact ⟨rfl, rfl, List.Sublist.refl _, whole⟩
  | findExtra maxSeq => exact ⟨rfl, rfl, List.Sublist.refl _, whole⟩
  | deleteExtra extra =>
    cases extra with
    | nil => exact ⟨rfl, rfl, List.Sublist.refl _, whole⟩
    | cons id later => exact ⟨rfl, rfl, List.Sublist.refl _, whole⟩
  | clearForceChk => exact ⟨rfl, rfl, List.Sublist.refl _, whole⟩
  | unlock => exact ⟨rfl, rfl, behind, fun x inRest _ => inRest⟩
  | markFailed => exact ⟨rfl, rfl, behind, fun x inRest _ => inRest⟩

theorem returned_same (optMaxSeq : Option Nat) (worker : Worker) :
    (worker.returned optMaxSeq).claims = worker.claims ∧ (worker.returned optMaxSeq).mine = worker.mine ∧
      (worker.returned optMaxSeq).held = worker.held := by
  unfold returned
  split
  · split
    · exact ⟨rfl, rfl, rfl⟩
    · exact ⟨rfl, rfl, rfl⟩
  · exact ⟨rfl, rfl, rfl⟩

theorem PassesOver.sublist {worker : Worker} {rows fewer : List BackfillItemRow} (passes : worker.PassesOver rows)
    (smaller : fewer.Sublist rows) : worker.PassesOver fewer := by
  unfold PassesOver at passes ⊢
  split at passes
  · exact fun row member => passes row (smaller.subset member)
  · exact Nat.le_trans smaller.length_le passes
  · exact passes

/-- An error ends the transaction, or drops the first tree at most. -/
theorem error_cases (worker : Worker) :
    worker.error = idle ∨ (worker.error.selected = [] ∧ worker.error.mine = worker.mine ∧
      worker.error.held.Sublist worker.held) := by
  unfold error
  split
  · exact Or.inl rfl
  · exact Or.inl rfl
  · exact Or.inl rfl
  · exact Or.inr ⟨rfl, rfl, List.Sublist.refl _⟩
  · exact Or.inr ⟨rfl, rfl, (List.sublist_cons_self _ _).map _⟩
  · exact Or.inr ⟨rfl, rfl, List.Sublist.refl _⟩
  · exact Or.inr ⟨rfl, rfl, List.Sublist.refl _⟩
  · exact Or.inr ⟨rfl, rfl, List.Sublist.refl _⟩

end Worker

theorem treesToBackfill_trees (forceChk multiRow : List TreeWithSlot) :
    (treesToBackfill forceChk multiRow).map BackfillTree.tree = (forceChk ++ multiRow).map TreeWithSlot.tree := by
  rw [treesToBackfill, List.map_append, List.map_map, List.map_map, List.map_append]
  rfl

/-- The query passes over none of the trees that it finds. -/
theorem World.query_not_passed {n : Nat} {world : World n} {w : Fin n} {x : TreeWithSlot} (found : x ∈ world.query w) :
    ¬ (world.workers w).PassesOver (freeRowsOf world.table (world.workers w).mine x.tree) := by
  intro passes
  unfold World.query at found
  split at found
  case h_1 isIdle =>
    rw [isIdle] at passes
    obtain ⟨row, free, toCheck, ofTree, -⟩ := forceChkTrees_row found
    have unflagged := passes row (List.mem_filter.mpr ⟨free, decide_eq_true ofTree⟩)
    rw [toCheck] at unflagged
    cases unflagged
  case h_2 forceChk mine isForcing =>
    rw [isForcing] at passes
    have several := multiRowTrees_length found
    have atMostOne : (freeRowsOf world.table mine x.tree).length ≤ 1 := passes
    omega
  case h_3 => exact absurd found List.not_mem_nil

section Invariant
variable {n : Nat} {world : World n} {w : Fin n}

/-- No tree is claimed twice, and the rows that an instance locked for a tree
of its pass are still locked. -/
structure World.Inv (world : World n) : Prop where
  exclusive : Leases.Exclusive (fun w => (world.workers w).claims)
  locked : ∀ w, ∀ entry ∈ world.table.entries, entry.1 ∈ (world.workers w).mine →
    entry.2.tree ∈ (world.workers w).held → entry.2.locked = true
  known : ∀ w, ∀ id ∈ (world.workers w).mine, id < world.table.nextId

namespace World.Inv

theorem start (n : Nat) (table : BackfillItems) : (World.start n table).Inv where
  exclusive := Leases.exclusive_nil
  locked _ _ _ isMine _ := absurd isMine List.not_mem_nil
  known _ _ isMine := absurd isMine List.not_mem_nil

theorem safe (inv : world.Inv) : world.Safe := by
  have claimed : ∀ w, (world.workers w).held.Sublist (world.workers w).claims :=
    fun w => List.sublist_append_right _ _
  refine ⟨fun w => (inv.exclusive.nodup w).sublist (claimed w), fun v w different tree inV inW => ?_⟩
  exact inv.exclusive.disjoint v w different ((claimed v).subset inV) ((claimed w).subset inW)

/-- What one instance has to show when it runs a statement: the others only
need that their trees are not released. -/
theorem become (inv : world.Inv) {released : List Pubkey} {table : BackfillItems} {worker : Worker}
    (keeps : KeepsLocks released world.table table)
    (exclusive : Leases.Exclusive (Function.update (fun v => (world.workers v).claims) w worker.claims))
    (apart : ∀ tree ∈ released, tree ∈ (world.workers w).claims)
    (locked : ∀ entry ∈ table.entries, entry.1 ∈ worker.mine → entry.2.tree ∈ worker.held → entry.2.locked = true)
    (known : ∀ id ∈ worker.mine, id < world.table.nextId) : (world.become w table worker).Inv := by
  have workers : (world.become w table worker).workers = Function.update world.workers w worker := rfl
  refine ⟨?_, fun v => ?_, fun v => ?_⟩
  · have claims : (fun v => ((world.become w table worker).workers v).claims) =
        Function.update (fun v => (world.workers v).claims) w worker.claims := by
      rw [workers]
      exact Function.comp_update Worker.claims world.workers w worker
    rw [claims]
    exact exclusive
  · by_cases isWorker : v = w
    · subst isWorker
      rw [workers, Function.update_self]
      exact locked
    · rw [workers, Function.update_of_ne isWorker]
      intro entry member isMine inPass
      obtain ⟨old, inTable, sameId, sameTree, kept⟩ := keeps.2 entry member
      rw [← sameId] at isMine
      have wasLocked := inv.locked v old inTable isMine (by rw [sameTree]; exact inPass)
      refine kept wasLocked (fun inReleased => ?_)
      exact inv.exclusive.disjoint v w isWorker (List.mem_append_right _ inPass) (apart _ inReleased)
  · have sameNext : (world.become w table worker).table.nextId = world.table.nextId := keeps.1
    rw [sameNext]
    by_cases isWorker : v = w
    · subst isWorker
      rw [workers, Function.update_self]
      exact known
    · rw [workers, Function.update_of_ne isWorker]
      exact inv.known v

/-- An instance that goes on with its pass, or drops trees from it. -/
theorem goOn (inv : world.Inv) {released : List Pubkey} {table : BackfillItems} {worker : Worker}
    (keeps : KeepsLocks released world.table table) (smaller : worker.claims.Sublist (world.workers w).claims)
    (apart : ∀ tree ∈ released, tree ∈ (world.workers w).claims)
    (sameMine : worker.mine = (world.workers w).mine)
    (inPass : ∀ tree ∈ worker.held, tree ∈ (world.workers w).held ∧ tree ∉ released) :
    (world.become w table worker).Inv := by
  refine inv.become keeps (inv.exclusive.shrink w smaller) apart (fun entry member isMine ofPass => ?_) ?_
  · obtain ⟨old, inTable, sameId, sameTree, kept⟩ := keeps.2 entry member
    obtain ⟨wasHeld, notReleased⟩ := inPass _ ofPass
    rw [← sameId, sameMine] at isMine
    exact kept (inv.locked w old inTable isMine (by rw [sameTree]; exact wasHeld)) notReleased
  · rw [sameMine]
    exact inv.known w

/-- A transaction before its commit keeps its trees and adds to its rows, and
an idle instance has neither. -/
theorem transact (inv : world.Inv) {worker : Worker} (smaller : worker.claims.Sublist (world.workers w).claims)
    (noPass : worker.held = []) (known : ∀ id ∈ worker.mine, id < world.table.nextId) :
    (world.become w world.table worker).Inv := by
  refine inv.become (keepsLocks_refl []) (inv.exclusive.shrink w smaller) (fun tree none => ?_)
    (fun entry _ _ inPass => ?_) known
  · exact absurd none List.not_mem_nil
  · rw [noPass] at inPass
    exact absurd inPass List.not_mem_nil

theorem toIdle (inv : world.Inv) : (world.become w world.table .idle).Inv :=
  inv.transact (List.nil_sublist _) rfl (fun _ isMine => absurd isMine List.not_mem_nil)

theorem lockRows (inv : world.Inv) {worker : Worker} {tree : Pubkey}
    (sameClaims : worker.claims = (world.workers w).claims) (noPass : worker.held = [])
    (moreRows : worker.mine = (world.workers w).mine ++ idsOf world.table tree) :
    (world.become w world.table worker).Inv := by
  refine inv.transact (by rw [sameClaims]) noPass (fun id isMine => ?_)
  rw [moreRows] at isMine
  rcases List.mem_append.mp isMine with old | new
  · exact inv.known w id old
  · exact idsOf_below new

/-- With the commit the rows of the trees that the call returns are locked. -/
theorem commit (inv : world.Inv) {forceChk multiRow : List TreeWithSlot} {mine : List Nat}
    (isGrouping : world.workers w = .grouping forceChk multiRow [] mine) :
    (world.become w (commitLocks world.table mine)
      (.passing (treesToBackfill forceChk multiRow) .backfilling mine)).Inv := by
  have sameClaims : (Worker.passing (treesToBackfill forceChk multiRow) .backfilling mine).claims =
      (world.workers w).claims := by
    rw [isGrouping]
    change [] ++ (treesToBackfill forceChk multiRow).map BackfillTree.tree =
      (forceChk ++ multiRow).map TreeWithSlot.tree ++ []
    rw [treesToBackfill_trees, List.nil_append, List.append_nil]
  refine inv.become (keepsLocks_commitLocks [] mine) (inv.exclusive.shrink w (by rw [sameClaims]))
    (fun tree none => absurd none List.not_mem_nil) (fun entry member isMine _ => commitLocks_locked member isMine) ?_
  have known := inv.known w
  rw [isGrouping] at known
  exact known

theorem statement (inv : world.Inv) {tree : BackfillTree} {rest : List BackfillTree} {stage : Stage} {mine : List Nat}
    (isPassing : world.workers w = .passing (tree :: rest) stage mine) :
    (world.become w (stage.statement world.table tree.tree)
      (Worker.afterStatement world.table tree rest mine stage)).Inv := by
  obtain ⟨notSelected, sameMine, smaller, behind⟩ :=
    @Worker.afterStatement_held world.table tree rest mine stage
  have wasHeld : (world.workers w).held = (tree :: rest).map BackfillTree.tree := by
    rw [isPassing]
    rfl
  have claims : (world.workers w).claims = (tree :: rest).map BackfillTree.tree := by
    rw [isPassing]
    rfl
  have once : tree.tree ∉ rest.map BackfillTree.tree := by
    have nodup := inv.exclusive.nodup w
    rw [claims, List.map_cons] at nodup
    exact (List.nodup_cons.mp nodup).1
  have onlyFirst : ∀ x ∈ stage.released tree.tree, x = tree.tree := by
    intro x inReleased
    cases stage with
    | unlock => exact List.mem_singleton.mp inReleased
    | _ => exact absurd inReleased List.not_mem_nil
  refine inv.goOn (stage.statement_keepsLocks tree.tree) ?_ ?_ ?_ ?_
  · rw [claims, Worker.claims, notSelected]
    exact smaller
  · intro x inReleased
    rw [claims, onlyFirst x inReleased]
    exact List.mem_cons_self
  · rw [sameMine, isPassing]
    rfl
  · intro x stillHeld
    rw [wasHeld]
    refine ⟨smaller.subset stillHeld, fun inReleased => once ?_⟩
    rw [← onlyFirst x inReleased]
    exact behind x stillHeld inReleased

/-- The instance goes on, with the trees of its pass that are left. -/
theorem keepOn (inv : world.Inv) {worker : Worker} {table : BackfillItems} (keeps : KeepsLocks [] world.table table)
    (smaller : worker.claims.Sublist (world.workers w).claims) (sameMine : worker.mine = (world.workers w).mine)
    (inPass : worker.held.Sublist (world.workers w).held) : (world.become w table worker).Inv :=
  inv.goOn keeps smaller (fun _ none => absurd none List.not_mem_nil) sameMine
    (fun _ stillHeld => ⟨inPass.subset stillHeld, List.not_mem_nil⟩)

theorem advance (inv : world.Inv) (w : Fin n) : (world.advance w).Inv := by
  rw [World.advance]
  split
  case h_1 forceChk x todo mine isForcing =>
    split
    · exact inv
    · exact inv.lockRows (by rw [isForcing]; rfl) rfl (by rw [isForcing]; rfl)
  case h_2 forceChk multiRow x todo mine isGrouping =>
    split
    · exact inv
    · exact inv.lockRows (by rw [isGrouping]; rfl) rfl (by rw [isGrouping]; rfl)
  case h_3 forceChk multiRow mine isGrouping => exact inv.commit isGrouping
  case h_4 tree rest stage mine isPassing =>
    split
    · exact inv
    · exact inv.statement isPassing
  case h_5 => exact inv.toIdle
  case h_6 tree failing trees mine isUnlocked =>
    have smaller : (Worker.passing trees .backfilling mine).claims.Sublist (world.workers w).claims := by
      rw [isUnlocked]
      exact List.Sublist.refl _
    have inPass : (Worker.passing trees .backfilling mine).held.Sublist (world.workers w).held := by
      rw [isUnlocked]
      exact List.Sublist.refl _
    have sameMine : (Worker.passing trees .backfilling mine).mine = (world.workers w).mine := by
      rw [isUnlocked]
      rfl
    split
    · split
      · exact inv
      · exact inv.keepOn (keepsLocks_update (fun _ => rfl) (fun _ => rfl)) smaller sameMine inPass
    · exact inv.keepOn (keepsLocks_refl []) smaller sameMine inPass
  case h_7 => exact inv
  case h_8 => exact inv

theorem returned (inv : world.Inv) (w : Fin n) (optMaxSeq : Option Nat) :
    (world.become w world.table ((world.workers w).returned optMaxSeq)).Inv := by
  obtain ⟨sameClaims, sameMine, sameHeld⟩ := Worker.returned_same optMaxSeq (world.workers w)
  exact inv.keepOn (keepsLocks_refl []) (by rw [sameClaims]) sameMine (by rw [sameHeld])

theorem error (inv : world.Inv) (w : Fin n) : (world.become w world.table (world.workers w).error).Inv := by
  rcases Worker.error_cases (world.workers w) with isIdle | ⟨notSelected, sameMine, smaller⟩
  · rw [isIdle]
    exact inv.toIdle
  · refine inv.keepOn (keepsLocks_refl []) ?_ sameMine smaller
    rw [Worker.claims, notSelected]
    exact smaller.trans (List.sublist_append_right _ _)

/-- A row that is inserted has an id that no instance knows. -/
theorem insert (inv : world.Inv) (row : BackfillItemRow) :
    World.Inv { world with table := world.table.insert row } := by
  refine ⟨inv.exclusive, fun w entry member isMine inPass => ?_, fun w id isMine => ?_⟩
  · rcases List.mem_append.mp member with old | new
    · exact inv.locked w entry old isMine inPass
    · rw [List.mem_singleton.mp new] at isMine
      exact absurd (inv.known w _ isMine) (Nat.lt_irrefl _)
  · exact Nat.lt_succ_of_lt (inv.known w id isMine)

/-- Of a tree in a pass, every row that is free for any instance was inserted
since the tree was locked. -/
theorem freeRowsOf_sublist (inv : world.Inv) {tree : Pubkey} (inPass : tree ∈ (world.workers w).held)
    (mine : List Nat) :
    (freeRowsOf world.table mine tree).Sublist (freeRowsOf world.table (world.workers w).mine tree) := by
  have entries : ∀ ids, freeRowsOf world.table ids tree =
      (world.table.entries.filter (fun entry => decide (entry.2.tree = tree) && isFree ids entry)).map Prod.snd := by
    intro ids
    rw [freeRowsOf, freeRows, List.filter_map, List.filter_filter]
    rfl
  have fewer : world.table.entries.filter (fun entry => decide (entry.2.tree = tree) && isFree mine entry) =
      (world.table.entries.filter (fun entry => decide (entry.2.tree = tree) &&
        isFree (world.workers w).mine entry)).filter (isFree mine) := by
    rw [List.filter_filter]
    refine List.filter_congr (fun entry member => ?_)
    by_cases ofTree : entry.2.tree = tree
    · by_cases isMine : entry.1 ∈ (world.workers w).mine
      · have locked := inv.locked w entry member isMine (by rw [ofTree]; exact inPass)
        simp [isFree, locked]
      · cases failed : entry.2.failed with
        | true => simp [isFree, failed]
        | false =>
          cases locked : entry.2.locked with
          | true => simp [isFree, locked]
          | false => simp [isFree, failed, locked, isMine, ofTree]
    · simp [ofTree]
  rw [entries, entries, fewer]
  exact List.filter_sublist.map _

/-- The trees that a query finds are claimed by nobody. -/
theorem query_unclaimed (inv : world.Inv) (notOverlapping : world.NotOverlapping w) (notGrown : world.NotGrown w) :
    ∀ v, ∀ x ∈ world.query w, x.tree ∉ (world.workers v).claims := by
  intro v x found claimed
  refine World.query_not_passed found ?_
  rcases List.mem_append.mp claimed with selected | inPass
  · exact notOverlapping v x.tree selected
  · exact (notGrown v x.tree inPass).sublist (inv.freeRowsOf_sublist inPass _)

/-- A transaction may take trees that nobody claims. -/
theorem takeTrees (inv : world.Inv) {worker : Worker} {result : List TreeWithSlot}
    (found : result.Perm (world.query w)) (nodup : ((world.query w).map TreeWithSlot.tree).Nodup)
    (unclaimed : ∀ v, ∀ x ∈ world.query w, x.tree ∉ (world.workers v).claims)
    (moreClaims : worker.claims = (world.workers w).claims ++ result.map TreeWithSlot.tree)
    (noPass : worker.held = []) (known : ∀ id ∈ worker.mine, id < world.table.nextId) :
    (world.become w world.table worker).Inv := by
  have trees : (result.map TreeWithSlot.tree).Perm ((world.query w).map TreeWithSlot.tree) := found.map _
  refine inv.become (keepsLocks_refl []) ?_ (fun tree none => absurd none List.not_mem_nil)
    (fun entry _ _ inPass => ?_) known
  · rw [moreClaims]
    refine inv.exclusive.take w (trees.nodup_iff.mpr nodup) (fun v tree claimed inResult => ?_)
    obtain ⟨x, inQuery, same⟩ := List.mem_map.mp (trees.mem_iff.mp inResult)
    rw [← same] at claimed
    exact unclaimed v x inQuery claimed
  · rw [noPass] at inPass
    exact absurd inPass List.not_mem_nil

theorem select (inv : world.Inv) (w : Fin n) (result : List TreeWithSlot) (notOverlapping : world.NotOverlapping w)
    (notGrown : world.NotGrown w) (oneSlot : world.workers w = .idle → world.OneSlot) :
    (world.select w result).Inv := by
  rw [World.select]
  split
  case isFalse => exact inv
  case isTrue found =>
    split
    case h_1 isIdle =>
      refine inv.takeTrees found ?_ (inv.query_unclaimed notOverlapping notGrown) ?_ rfl ?_
      · rw [World.query, isIdle]
        exact forceChkTrees_nodup (oneSlot isIdle)
      · rw [isIdle]
        exact List.append_nil _
      · exact fun id none => absurd none List.not_mem_nil
    case h_2 forceChk mine isForcing =>
      refine inv.takeTrees found ?_ (inv.query_unclaimed notOverlapping notGrown) ?_ rfl ?_
      · rw [World.query, isForcing]
        exact multiRowTrees_nodup
      · rw [isForcing]
        simp [Worker.claims, Worker.selected, Worker.held]
      · have known := inv.known w
        rw [isForcing] at known
        exact known
    case h_3 => exact inv

theorem step (inv : world.Inv) (action : Action n) (allowed : world.Allowed action) : (world.step action).Inv := by
  cases action with
  | select w result =>
    obtain ⟨notOverlapping, notGrown, oneSlot⟩ := allowed
    exact inv.select w result notOverlapping notGrown oneSlot
  | advance w => exact inv.advance w
  | returned w optMaxSeq => exact inv.returned w optMaxSeq
  | error w => exact inv.error w
  | insert tree item forceChk => exact inv.insert _

end World.Inv

end Invariant

/-- As long as no query meets a tree of an open transaction, or one of a pass
that got new rows since it was locked, and the rows to be checked of a tree
have one slot, every tree is in one pass at a time and comes once in what a
call returns. -/
theorem one_backfill_per_tree (n : Nat) (table : BackfillItems) (actions : List (Action n))
    (allowed : Runs.Along World.step World.Allowed (World.start n table) actions) :
    ∀ earlier, earlier <+: actions → (earlier.foldl World.step (World.start n table)).Safe := by
  intro earlier begins
  have kept : ∀ (world : World n) action, world.Inv → world.Allowed action → (world.step action).Inv :=
    fun _ action inv allowed => inv.step action allowed
  have inv := @Runs.Along.invariant _ _ _ _ World.Inv _ _ kept (World.Inv.start n table) allowed earlier begins
  exact inv.safe

namespace Locks.Example

def tree : Pubkey := .fill 8

def newTree : Pubkey := .fill 9

/-- The first and the third event of a tree, and the second of another one. -/
def inserted : List (Action 2) :=
  [.insert tree { seq := 1, slot := 1 } false, .insert tree { seq := 3, slot := 3 } false,
    .insert newTree { seq := 2, slot := 2 } true]

/-- One instance takes both trees, and the other one looks for trees while the
first is in its passes and an event comes. -/
def inTurn : List (Action 2) :=
  inserted ++ [.select 0 [{ tree := newTree, slot := 2 }], .advance 0, .select 0 [{ tree, slot := 3 }],
    .advance 0, .advance 0, .insert tree { seq := 4, slot := 4 } false, .select 1 [], .select 1 [], .advance 1,
    .returned 0 (some 0), .advance 0]

def run (actions : List (Action 2)) : World 2 := actions.foldl World.step (World.start 2 Rows.empty)

/-- Both instances run their queries before either locks the tree. -/
def overlapping : List (Action 2) :=
  [.insert tree { seq := 1, slot := 1 } false, .insert tree { seq := 3, slot := 3 } false,
    .select 0 [], .select 1 [], .select 0 [{ tree, slot := 3 }], .select 1 [{ tree, slot := 3 }],
    .advance 0, .advance 0, .advance 1, .advance 1]

/-- Two events of a new tree are inserted before either sees the other. -/
def twoSlots : List (Action 2) :=
  [.insert newTree { seq := 2, slot := 2 } true, .insert newTree { seq := 3, slot := 3 } true,
    .select 0 [{ tree := newTree, slot := 2 }, { tree := newTree, slot := 3 }], .advance 0, .advance 0,
    .select 0 [], .advance 0]

/-- Two events of a tree come during the pass over it. -/
def grown : List (Action 2) :=
  [.insert tree { seq := 1, slot := 1 } false, .insert tree { seq := 3, slot := 3 } false,
    .select 0 [], .select 0 [{ tree, slot := 3 }], .advance 0, .advance 0,
    .insert tree { seq := 4, slot := 4 } false, .insert tree { seq := 5, slot := 5 } false,
    .select 1 [], .select 1 [{ tree, slot := 5 }], .advance 1, .advance 1]

end Locks.Example

theorem one_backfill_per_tree_in_turn :
    (∀ earlier, earlier <+: Locks.Example.inTurn →
        (earlier.foldl World.step (World.start 2 Rows.empty)).Safe) ∧
      ((Locks.Example.run Locks.Example.inTurn).workers 0).held = [Locks.Example.newTree, Locks.Example.tree] :=
  ⟨one_backfill_per_tree 2 Rows.empty Locks.Example.inTurn (by decide), by decide⟩

theorem two_backfills_of_one_tree :
    ¬ (Locks.Example.run Locks.Example.overlapping).Safe ∧ ¬ (Locks.Example.run Locks.Example.twoSlots).Safe ∧
      ¬ (Locks.Example.run Locks.Example.grown).Safe := by
  refine ⟨by decide, by decide, by decide⟩

end DasIndexer.Backfill
