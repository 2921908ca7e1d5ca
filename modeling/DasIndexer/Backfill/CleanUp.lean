import DasIndexer.Backfill.Pass

namespace DasIndexer.Backfill
open Sql

/-- What the backfill of a tree returns when every block can be fetched: the
way from the first sequence number on does not look at the table. -/
def backfillTree (table : BackfillItems) (tree : Pubkey) (backfillFromSeq1 : Bool) : Except DbErr (Option Nat) :=
  if backfillFromSeq1 then .ok (some 0) else (getMissingData table tree).map Prod.fst

/-- `clean_up_backfilled_tree` with no insertions in between. -/
def cleanUpBackfilledTree (table : BackfillItems) (tree : Pubkey) : Option Nat → BackfillItems
  | some maxSeq => deleteExtraRowsAndMarkAsBackfilled {} table tree maxSeq
  | none => markTreeAsFailed table tree

def rowsOf (table : BackfillItems) (tree : Pubkey) : List BackfillItemRow :=
  table.values.filter (fun row => row.tree = tree)

/-- One row is left of the tree, with the greatest sequence number it had, and
the row is backfilled, unlocked and not to be checked. -/
def Settled (before after : BackfillItems) (tree : Pubkey) : Prop :=
  ∃ row, rowsOf after tree = [row] ∧ (∃ old ∈ rowsOf before tree, old.seq = row.seq) ∧
    (∀ old ∈ rowsOf before tree, old.seq ≤ row.seq) ∧
    row.backfilled = true ∧ row.locked = false ∧ row.forceChk = false

/-- The next event of the tree does not force a full backfill, and the numbers
that are missing below it are found. -/
def NextEventSeen (table : BackfillItems) (tree : Pubkey) : Prop :=
  ∀ item : SimpleBackfillItem, (∀ row ∈ rowsOf table tree, row.seq < item.seq) →
    forceChkOf table tree item.seq = false ∧
      ∃ greatest gaps, getMissingData (table.insert (newRow tree item false)) tree = .ok (greatest, gaps) ∧
        ∀ n, (∃ row ∈ rowsOf table tree, row.seq < n) → n < item.seq → ∃ gap ∈ gaps, gap.prev.seq < n ∧ n < gap.curr.seq

/-- The way from the first sequence number on leaves only a row of sequence
number 0, and the other way every row of the greatest one. -/
def OneRowLeft (table : BackfillItems) (tree : Pubkey) (backfillFromSeq1 : Bool) : Prop :=
  if backfillFromSeq1 then ∃ row, rowsOf table tree = [row] ∧ row.seq = 0
  else ∃ row, (rowsOf table tree).filter (fun other => other.seq = row.seq) = [row] ∧
    ∀ other ∈ rowsOf table tree, other.seq ≤ row.seq

section CleanUp
variable {table : BackfillItems} {tree : Pubkey} {maxSeq : Nat}

/-- What the three updates make of the rows of the tree. -/
def settledRow (row : BackfillItemRow) : BackfillItemRow :=
  { row with backfilled := true, forceChk := false, locked := false }

theorem atMark_undisturbed : atMark {} table tree maxSeq = table.delete (isExtra tree maxSeq) := by
  have none : extraItems {} table tree maxSeq = [] := by
    have rows := @extraItems_rows {} table tree maxSeq
    exact List.map_eq_nil_iff.mp rows
  rw [atMark, none]
  rfl

theorem rowsOf_update {change : BackfillItemRow → BackfillItemRow} (sameTree : ∀ row, (change row).tree = row.tree) :
    rowsOf (table.update (fun row => row.tree = tree) change) tree = (rowsOf table tree).map change := by
  rw [rowsOf, Rows.values_update, rowsOf]
  induction table.values with
  | nil => rfl
  | cons row rest ih =>
    rw [List.map_cons]
    by_cases ofTree : row.tree = tree
    · rw [if_pos (decide_eq_true ofTree), List.filter_cons_of_pos (by simpa [sameTree] using ofTree),
        List.filter_cons_of_pos (by simpa using ofTree), List.map_cons, ih]
    · rw [if_neg (fun accepted => ofTree (of_decide_eq_true accepted)), List.filter_cons_of_neg (by simpa using ofTree),
        List.filter_cons_of_neg (by simpa using ofTree), ih]

/-- Without insertions in between, the clean-up keeps every row of the sequence
number it was given. -/
theorem rowsOf_cleanUp :
    rowsOf (cleanUpBackfilledTree table tree (some maxSeq)) tree =
      ((rowsOf table tree).filter (fun row => row.seq = maxSeq)).map settledRow := by
  have statements : cleanUpBackfilledTree table tree (some maxSeq) =
      unlockTree (clearForceChkFlag (markTreeAsBackfilled (atMark {} table tree maxSeq) tree) tree) tree := rfl
  have kept : rowsOf (table.delete (isExtra tree maxSeq)) tree =
      (rowsOf table tree).filter (fun row => row.seq = maxSeq) := by
    rw [rowsOf, Rows.values_delete, rowsOf, List.filter_filter, List.filter_filter]
    refine List.filter_congr (fun row _ => ?_)
    by_cases ofTree : row.tree = tree
    · by_cases isMax : row.seq = maxSeq
      · simp [isExtra, ofTree, isMax]
      · simp [isExtra, ofTree, isMax]
    · simp [ofTree]
  have unlocked : ∀ t, rowsOf (unlockTree t tree) tree =
      (rowsOf t tree).map (fun row => { row with locked := false }) :=
    fun t => rowsOf_update (fun _ => rfl)
  have cleared : ∀ t, rowsOf (clearForceChkFlag t tree) tree =
      (rowsOf t tree).map (fun row => { row with forceChk := false }) := fun t => rowsOf_update (fun _ => rfl)
  have marked : ∀ t, rowsOf (markTreeAsBackfilled t tree) tree =
      (rowsOf t tree).map (fun row => { row with backfilled := true }) := fun t => rowsOf_update (fun _ => rfl)
  rw [statements, unlocked, cleared, marked, atMark_undisturbed, kept, List.map_map, List.map_map]
  rfl

theorem settled_iff :
    Settled table (cleanUpBackfilledTree table tree (some maxSeq)) tree ↔
      (∃ row, (rowsOf table tree).filter (fun row => row.seq = maxSeq) = [row]) ∧
        ∀ old ∈ rowsOf table tree, old.seq ≤ maxSeq := by
  rw [Settled, rowsOf_cleanUp]
  constructor
  · rintro ⟨row, only, -, greatest, -⟩
    obtain ⟨kept, isKept, same⟩ := List.map_eq_singleton_iff.mp only
    have member : kept ∈ (rowsOf table tree).filter (fun row => row.seq = maxSeq) := by
      rw [isKept]
      exact List.mem_cons_self
    have isMax : kept.seq = maxSeq := by simpa using (List.mem_filter.mp member).2
    have rowSeq : row.seq = maxSeq := by
      rw [← same]
      exact isMax
    exact ⟨⟨kept, isKept⟩, fun old inTree => by rw [← rowSeq]; exact greatest old inTree⟩
  · rintro ⟨⟨kept, isKept⟩, greatest⟩
    have member : kept ∈ (rowsOf table tree).filter (fun row => row.seq = maxSeq) := by
      rw [isKept]
      exact List.mem_cons_self
    obtain ⟨inTree, isMax⟩ := List.mem_filter.mp member
    have keptSeq : kept.seq = maxSeq := by simpa using isMax
    refine ⟨settledRow kept, by rw [isKept]; rfl, ⟨kept, inTree, rfl⟩, fun old inRows => ?_, rfl, rfl, rfl⟩
    have small := greatest old inRows
    exact Nat.le_trans small (Nat.le_of_eq keptSeq.symm)

section NextEvent
variable {row : BackfillItemRow} {item : SimpleBackfillItem}

theorem mem_of_rowsOf_eq (only : rowsOf table tree = [row]) : row ∈ table.values ∧ row.tree = tree := by
  have member : row ∈ rowsOf table tree := by
    rw [only]
    exact List.mem_cons_self
  obtain ⟨inTable, isTree⟩ := List.mem_filter.mp member
  exact ⟨inTable, of_decide_eq_true isTree⟩

/-- A tree with a row is not checked from the first sequence number on. -/
theorem forceChkOf_of_mem (member : row ∈ table.values) (ofTree : row.tree = tree) (seq : Nat) :
    forceChkOf table tree seq = false := by
  rw [forceChkOf, Bool.and_eq_false_iff]
  refine Or.inl (Bool.eq_false_iff.mpr (fun unseen => ?_))
  have different := List.all_eq_true.mp unseen row member
  exact of_decide_eq_true different ofTree

theorem insert_newRow_rows (only : rowsOf table tree = [row]) :
    ∀ other ∈ (table.insert (newRow tree item false)).values, other.tree = tree →
      other = row ∨ other = newRow tree item false := by
  intro other inRows otherTree
  rw [Rows.values_insert] at inRows
  rcases List.mem_append.mp inRows with old | new
  · have inOnly : other ∈ rowsOf table tree := List.mem_filter.mpr ⟨old, decide_eq_true otherTree⟩
    rw [only] at inOnly
    exact Or.inl (List.mem_singleton.mp inOnly)
  · exact Or.inr (List.mem_singleton.mp new)

/-- The next pass starts at the one row that was left. -/
theorem startSeq_insert_newRow (only : rowsOf table tree = [row]) (backfilled : row.backfilled = true) :
    startSeq (table.insert (newRow tree item false)) tree = row.seq := by
  obtain ⟨inTable, ofTree⟩ := mem_of_rowsOf_eq only
  have rowKept : row ∈ (table.insert (newRow tree item false)).values := by
    rw [Rows.values_insert]
    exact List.mem_append_left _ inTable
  obtain ⟨found, inRows, foundTree, flag, same⟩ := startSeq_mem rowKept ofTree backfilled
  rcases insert_newRow_rows only found inRows foundTree with isRow | isNew
  · rw [← same, isRow]
  · rw [isNew] at flag
    cases flag

/-- What is missing between the one row that was left and the next event is
found. -/
theorem getMissingData_insert_newRow (only : rowsOf table tree = [row]) (backfilled : row.backfilled = true)
    (newer : row.seq < item.seq) :
    ∃ greatest gaps, getMissingData (table.insert (newRow tree item false)) tree = .ok (greatest, gaps) ∧
      ∀ n, row.seq < n → n < item.seq → ∃ gap ∈ gaps, gap.prev.seq < n ∧ n < gap.curr.seq := by
  have rows := @insert_newRow_rows table tree row item only
  obtain ⟨inTable, ofTree⟩ := mem_of_rowsOf_eq only
  have slots : ∀ other ∈ (table.insert (newRow tree item false)).values, other.tree = tree →
      other.slot = if other.seq = row.seq then row.slot else item.slot := by
    intro other inRows otherTree
    rcases rows other inRows otherTree with isRow | isNew
    · rw [isRow, if_pos rfl]
    · have different : (newRow tree item false).seq ≠ row.seq := by
        change item.seq ≠ row.seq
        omega
      rw [isNew, if_neg different]
      rfl
  obtain ⟨greatest, gaps, found, -, covers⟩ := @getMissingData_spec _ tree
    (fun seq => if seq = row.seq then row.slot else item.slot) slots
  rw [@startSeq_insert_newRow table tree row item only backfilled] at covers
  refine ⟨greatest, gaps, found, fun n above below => ?_⟩
  refine covers n (fun entry inFrom same => ?_) ?_ ?_
  · obtain ⟨stored, inStored, storedTree, -, isEntry⟩ := mem_rowsFrom.mp inFrom
    have entrySeq : stored.seq = n := by
      rw [← same, ← isEntry]
      rfl
    rcases rows stored inStored storedTree with isRow | isNew
    · rw [isRow] at entrySeq
      omega
    · rw [isNew] at entrySeq
      change item.seq = n at entrySeq
      omega
  · refine ⟨_, mem_rowsFrom.mpr ⟨row, ?_, ofTree, Nat.le_refl _, rfl⟩, above⟩
    rw [Rows.values_insert]
    exact List.mem_append_left _ inTable
  · refine ⟨item, mem_rowsFrom.mpr ⟨newRow tree item false, ?_, rfl, Nat.le_of_lt newer, rfl⟩, below⟩
    rw [Rows.values_insert]
    exact List.mem_append_right _ List.mem_cons_self

end NextEvent

/-- A settled tree is ready for its next event. -/
theorem Settled.nextEventSeen {before after : BackfillItems} (settled : Settled before after tree) :
    NextEventSeen after tree := by
  obtain ⟨row, only, -, -, backfilled, -, -⟩ := settled
  obtain ⟨inTable, ofTree⟩ := mem_of_rowsOf_eq only
  intro item newer
  rw [only] at newer
  have above := newer row List.mem_cons_self
  obtain ⟨greatest, gaps, found, covers⟩ := getMissingData_insert_newRow only backfilled above
  refine ⟨forceChkOf_of_mem inTable ofTree item.seq, greatest, gaps, found, fun n below small => ?_⟩
  obtain ⟨other, inRows, less⟩ := below
  rw [only, List.mem_singleton] at inRows
  rw [inRows] at less
  exact covers n less small

/-- After a full backfill every row but those of number 0 is deleted. -/
theorem settled_zero_iff :
    Settled table (cleanUpBackfilledTree table tree (some 0)) tree ↔
      ∃ row, rowsOf table tree = [row] ∧ row.seq = 0 := by
  rw [settled_iff]
  constructor
  · rintro ⟨⟨row, only⟩, greatest⟩
    have whole : (rowsOf table tree).filter (fun row => row.seq = 0) = rowsOf table tree := by
      refine List.filter_eq_self.mpr (fun old inTree => ?_)
      have small := greatest old inTree
      simp only [decide_eq_true_eq]
      omega
    rw [whole] at only
    refine ⟨row, only, ?_⟩
    have small := greatest row (by rw [only]; exact List.mem_cons_self)
    omega
  · rintro ⟨row, only, isZero⟩
    rw [only]
    refine ⟨⟨row, by simp [isZero]⟩, fun old inTree => ?_⟩
    rw [List.mem_singleton.mp inTree, isZero]

theorem backfillTree_missingData (returned : backfillTree table tree false = .ok (some maxSeq)) :
    ∃ gaps, missingData table tree (startSeq table tree) = .ok (some maxSeq, gaps) := by
  rw [backfillTree, if_neg Bool.false_ne_true, getMissingData] at returned
  cases result : missingData table tree (startSeq table tree) with
  | error problem =>
    rw [result] at returned
    cases returned
  | ok data =>
    rw [result] at returned
    have same : data.1 = some maxSeq := Except.ok.inj returned
    exact ⟨data.2, by rw [← same]⟩

/-- After a backfill of the gaps the rows of the greatest number are left. -/
theorem settled_greatest_iff (returned : backfillTree table tree false = .ok (some maxSeq)) :
    Settled table (cleanUpBackfilledTree table tree (some maxSeq)) tree ↔
      ∃ row, (rowsOf table tree).filter (fun other => other.seq = row.seq) = [row] ∧
        ∀ other ∈ rowsOf table tree, other.seq ≤ row.seq := by
  obtain ⟨gaps, missing⟩ := backfillTree_missingData returned
  obtain ⟨⟨top, topMember, topTree, -, topSeq⟩, greatest⟩ := missingData_max missing
  have below : ∀ old ∈ rowsOf table tree, old.seq ≤ maxSeq := by
    intro old inTree
    obtain ⟨member, ofTree⟩ := List.mem_filter.mp inTree
    exact greatest old member (of_decide_eq_true ofTree)
  rw [settled_iff]
  constructor
  · rintro ⟨⟨row, only⟩, -⟩
    have member : row ∈ (rowsOf table tree).filter (fun row => row.seq = maxSeq) := by
      rw [only]
      exact List.mem_cons_self
    have rowSeq : row.seq = maxSeq := of_decide_eq_true (List.mem_filter.mp member).2
    rw [← rowSeq] at only below
    exact ⟨row, only, below⟩
  · rintro ⟨row, only, rowGreatest⟩
    have member : row ∈ (rowsOf table tree).filter (fun other => other.seq = row.seq) := by
      rw [only]
      exact List.mem_cons_self
    have rowSeq : row.seq = maxSeq := by
      have small := below row (List.mem_filter.mp member).1
      have large := rowGreatest top (List.mem_filter.mpr ⟨topMember, decide_eq_true topTree⟩)
      omega
    rw [rowSeq] at only
    exact ⟨⟨row, only⟩, below⟩

end CleanUp

/-- The clean-up leaves the one row that stands for the tree exactly when the
table held no duplicates of it, and, after a full backfill, nothing else. -/
theorem clean_up_settles_iff (table : BackfillItems) (tree : Pubkey) (backfillFromSeq1 : Bool) (maxSeq : Nat)
    (returned : backfillTree table tree backfillFromSeq1 = .ok (some maxSeq)) :
    (Settled table (cleanUpBackfilledTree table tree (some maxSeq)) tree ∧
        NextEventSeen (cleanUpBackfilledTree table tree (some maxSeq)) tree) ↔
      OneRowLeft table tree backfillFromSeq1 := by
  have seen : (Settled table (cleanUpBackfilledTree table tree (some maxSeq)) tree ∧
      NextEventSeen (cleanUpBackfilledTree table tree (some maxSeq)) tree) ↔
      Settled table (cleanUpBackfilledTree table tree (some maxSeq)) tree :=
    ⟨And.left, fun settled => ⟨settled, settled.nextEventSeen⟩⟩
  rw [seen, OneRowLeft]
  cases backfillFromSeq1 with
  | true =>
    have isZero : 0 = maxSeq := Option.some_inj.mp (Except.ok.inj returned)
    subst isZero
    rw [if_pos rfl]
    exact settled_zero_iff
  | false =>
    rw [if_neg Bool.false_ne_true]
    exact settled_greatest_iff returned

theorem clean_up_settles_replayed_gap :
    backfillTree (atDelete Pass.Example.replayed Pass.Example.table Pass.Example.tree) Pass.Example.tree false =
        .ok (some 3) ∧
      Settled (atDelete Pass.Example.replayed Pass.Example.table Pass.Example.tree)
        (cleanUpBackfilledTree (atDelete Pass.Example.replayed Pass.Example.table Pass.Example.tree)
          Pass.Example.tree (some 3)) Pass.Example.tree := by
  refine ⟨rfl, ((clean_up_settles_iff _ Pass.Example.tree false 3 rfl).mpr ?_).1⟩
  exact ⟨newRow Pass.Example.tree { seq := 3, slot := 3 } false, by decide, by decide⟩

/-- The newest event of the tree was replayed. -/
def Pass.Example.duplicated : BackfillItems := insertItems Rows.empty tree [inserted 3, inserted 3]

theorem clean_up_leaves_duplicates :
    backfillTree Pass.Example.duplicated Pass.Example.tree false = .ok (some 3) ∧
      ¬ Settled Pass.Example.duplicated
        (cleanUpBackfilledTree Pass.Example.duplicated Pass.Example.tree (some 3)) Pass.Example.tree := by
  refine ⟨rfl, fun settled => ?_⟩
  obtain ⟨row, only, -⟩ := settled
  have rows : (rowsOf (cleanUpBackfilledTree Pass.Example.duplicated Pass.Example.tree (some 3))
      Pass.Example.tree).length = 2 := by decide
  rw [only] at rows
  cases rows

end DasIndexer.Backfill
