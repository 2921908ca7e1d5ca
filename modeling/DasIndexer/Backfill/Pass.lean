import DasIndexer.Backfill.Items
import DasIndexer.Lib.Latest

namespace DasIndexer.Backfill
open Sql

/-- A row that `insert_change_log` adds for the tree. -/
structure Insertion where
  item : SimpleBackfillItem
  forceChk : Bool
  deriving DecidableEq

def insertItems (table : BackfillItems) (tree : Pubkey) (insertions : List Insertion) : BackfillItems :=
  table.insertAll (insertions.map (fun x => newRow tree x.item x.forceChk))

/-- An interleaving of the insertions for a tree with the statements of one
backfill pass over it: what is inserted before the second query of
`get_missing_data`, before the deletion (while the gaps are plugged), before
the query for duplicates, before each deletion by id, before each of the three
updates, and after them up to the next pass. -/
structure Interleaving where
  beforeRows : List Insertion := []
  beforeDelete : List Insertion := []
  beforeExtra : List Insertion := []
  beforeEach : List (List Insertion) := []
  beforeMark : List Insertion := []
  beforeClear : List Insertion := []
  beforeUnlock : List Insertion := []
  afterwards : List Insertion := []

/-- The loop over the ids of the extra rows. -/
def deleteEach (tree : Pubkey) : List (List Insertion) → List Nat → BackfillItems → BackfillItems
  | [], ids, table => ids.foldl Rows.deleteById table
  | inserted :: later, [], table => deleteEach tree later [] (insertItems table tree inserted)
  | inserted :: later, id :: ids, table =>
    deleteEach tree later ids ((insertItems table tree inserted).deleteById id)

section Pass
variable (i : Interleaving) (table : BackfillItems) (tree : Pubkey) (maxSeq : Nat)

/-- The table when the extra rows are looked up. -/
def atExtra : BackfillItems := insertItems (table.delete (isExtra tree maxSeq)) tree i.beforeExtra

/-- The rows that are deleted one by one: `items.iter().skip(1)`. -/
def extraItems : List (Nat × BackfillItemRow) := ((atExtra i table tree maxSeq).select (isExtra tree maxSeq)).drop 1

/-- The table when its rows are marked as backfilled. -/
def atMark : BackfillItems :=
  insertItems (deleteEach tree i.beforeEach ((extraItems i table tree maxSeq).map Prod.fst)
    (atExtra i table tree maxSeq)) tree i.beforeMark

/-- `delete_extra_rows_and_mark_as_backfilled` on the table that its deletion
finds. -/
def deleteExtraRowsAndMarkAsBackfilled : BackfillItems :=
  let table := insertItems (markTreeAsBackfilled (atMark i table tree maxSeq) tree) tree i.beforeClear
  let table := insertItems (clearForceChkFlag table tree) tree i.beforeUnlock
  unlockTree table tree

/-- What the deletion and the deletions by id remove. -/
def deletedRows : List BackfillItemRow :=
  (table.select (isExtra tree maxSeq)).map Prod.snd ++ (extraItems i table tree maxSeq).map Prod.snd

/-- The table that the second query of `get_missing_data` reads. -/
def atRows : BackfillItems := insertItems table tree i.beforeRows

def atDelete : BackfillItems := insertItems (atRows i table tree) tree i.beforeDelete

/-- `get_missing_data` of the pass. -/
def passMissingData : Except DbErr (Option Nat × List GapInfo) :=
  missingData (atRows i table tree) tree (startSeq table tree)

/-- The table that the next pass finds. -/
def afterPass : BackfillItems :=
  insertItems (deleteExtraRowsAndMarkAsBackfilled i (atDelete i table tree) tree maxSeq) tree i.afterwards

end Pass

namespace Interleaving

/-- What is inserted between the deletion and the marking. -/
def marked (i : Interleaving) : List Insertion := i.beforeExtra ++ i.beforeEach.flatten ++ i.beforeMark

def all (i : Interleaving) : List Insertion :=
  i.beforeRows ++ i.beforeDelete ++ i.marked ++ i.beforeClear ++ i.beforeUnlock ++ i.afterwards

/-- Nothing newer than the greatest sequence number of the pass is inserted
before the deletion. Of what is inserted before the query for duplicates, only
the first row that is not a duplicate may be newer. Below what is inserted
before the marking, no newer number is missing in the end. -/
structure Undisturbed (i : Interleaving) (maxSeq : Nat) : Prop where
  beforeDelete : ∀ x ∈ i.beforeDelete, x.item.seq ≤ maxSeq
  beforeExtra : ∀ x ∈ (i.beforeExtra.filter (fun x => x.item.seq != maxSeq)).drop 1, x.item.seq ≤ maxSeq
  beforeMark : ∀ n, maxSeq < n → (∃ x ∈ i.marked, n < x.item.seq) → ∃ x ∈ i.all, x.item.seq = n

end Interleaving

/-- No row is deleted that is newer than what the pass looked at. -/
def KeepsLater (i : Interleaving) (table : BackfillItems) (tree : Pubkey) (maxSeq : Nat) : Prop :=
  ∀ row ∈ deletedRows i (atDelete i table tree) tree maxSeq, row.seq ≤ maxSeq

/-- A number that is missing above what the pass backfilled, and below the
greatest one inserted so far, lies in a gap that the next pass finds. -/
def ReportsMissing (i : Interleaving) (table : BackfillItems) (tree : Pubkey) (maxSeq : Nat) : Prop :=
  ∀ n, maxSeq < n → (∀ x ∈ i.all, x.item.seq ≠ n) → (∃ x ∈ i.all, n < x.item.seq) →
    ∃ greatest gaps, getMissingData (afterPass i table tree maxSeq) tree = .ok (greatest, gaps) ∧
      ∃ gap ∈ gaps, gap.prev.seq < n ∧ n < gap.curr.seq

/-- The tree has a row with these columns. -/
def Has (table : BackfillItems) (tree : Pubkey) (item : SimpleBackfillItem) (backfilled : Bool) : Prop :=
  ∃ row ∈ table.values, row.tree = tree ∧ SimpleBackfillItem.ofRow row = item ∧ row.backfilled = backfilled

section Rows
variable {table : BackfillItems} {tree : Pubkey} {maxSeq : Nat} {item : SimpleBackfillItem} {b : Bool}

theorem has_insertItems (insertions : List Insertion) :
    Has (insertItems table tree insertions) tree item b ↔
      Has table tree item b ∨ (b = false ∧ ∃ x ∈ insertions, x.item = item) := by
  rw [Has, insertItems, Rows.values_insertAll]
  constructor
  · rintro ⟨row, member, ofTree, same, flag⟩
    rcases List.mem_append.mp member with old | new
    · exact Or.inl ⟨row, old, ofTree, same, flag⟩
    · obtain ⟨x, inserted, isRow⟩ := List.mem_map.mp new
      subst isRow
      exact Or.inr ⟨flag.symm, x, inserted, same⟩
  · rintro (⟨row, old, ofTree, same, flag⟩ | ⟨flag, x, inserted, same⟩)
    · exact ⟨row, List.mem_append_left _ old, ofTree, same, flag⟩
    · exact ⟨_, List.mem_append_right _ (List.mem_map.mpr ⟨x, inserted, rfl⟩), rfl, same, flag.symm⟩

/-- An update of the rows of the tree that leaves number and slot alone. -/
theorem has_update {change : BackfillItemRow → BackfillItemRow} (sameTree : ∀ row, (change row).tree = row.tree)
    (sameItem : ∀ row, SimpleBackfillItem.ofRow (change row) = SimpleBackfillItem.ofRow row) :
    Has (table.update (fun row => row.tree = tree) change) tree item b ↔
      ∃ row ∈ table.values, row.tree = tree ∧ SimpleBackfillItem.ofRow row = item ∧ (change row).backfilled = b := by
  rw [Has, Rows.values_update]
  constructor
  · rintro ⟨row, member, ofTree, same, flag⟩
    obtain ⟨old, inTable, changed⟩ := List.mem_map.mp member
    by_cases oldTree : old.tree = tree
    · rw [if_pos (decide_eq_true oldTree)] at changed
      subst changed
      exact ⟨old, inTable, oldTree, (sameItem old).symm.trans same, flag⟩
    · rw [if_neg (fun accepted => oldTree (of_decide_eq_true accepted))] at changed
      subst changed
      exact absurd ofTree oldTree
  · rintro ⟨row, inTable, ofTree, same, flag⟩
    refine ⟨change row, List.mem_map.mpr ⟨row, inTable, if_pos (decide_eq_true ofTree)⟩, ?_, ?_, flag⟩
    · rw [sameTree, ofTree]
    · rw [sameItem, same]

theorem has_markTreeAsBackfilled :
    Has (markTreeAsBackfilled table tree) tree item b ↔ b = true ∧ ∃ before, Has table tree item before := by
  have updated := @has_update table tree item b (fun row => { row with backfilled := true })
    (fun _ => rfl) (fun _ => rfl)
  refine updated.trans ⟨?_, ?_⟩
  · rintro ⟨row, member, ofTree, same, flag⟩
    exact ⟨flag.symm, row.backfilled, row, member, ofTree, same, rfl⟩
  · rintro ⟨flag, before, row, member, ofTree, same, -⟩
    exact ⟨row, member, ofTree, same, flag.symm⟩

theorem has_clearForceChkFlag : Has (clearForceChkFlag table tree) tree item b ↔ Has table tree item b :=
  has_update (fun _ => rfl) (fun _ => rfl)

theorem has_unlockTree : Has (unlockTree table tree) tree item b ↔ Has table tree item b :=
  has_update (fun _ => rfl) (fun _ => rfl)

/-- Insertions add rows with ids that are not among the known ones. -/
theorem mem_insertItems_except {ids : List Nat} (known : ∀ id ∈ ids, id < table.nextId) (inserted : List Insertion)
    (row : BackfillItemRow) :
    (∃ entry ∈ (insertItems table tree inserted).entries, entry.1 ∉ ids ∧ entry.2 = row) ↔
      (∃ entry ∈ table.entries, entry.1 ∉ ids ∧ entry.2 = row) ∨
        ∃ x ∈ inserted, newRow tree x.item x.forceChk = row := by
  obtain ⟨added, entries, values, above, grown⟩ :=
    table.insertAll_entries (inserted.map (fun x => newRow tree x.item x.forceChk))
  have split : ∀ entry, entry ∈ (insertItems table tree inserted).entries ↔
      entry ∈ table.entries ∨ entry ∈ added := by
    intro entry
    rw [insertItems, entries, List.mem_append]
  have addedRows : (∃ entry ∈ added, entry.2 = row) ↔ ∃ x ∈ inserted, newRow tree x.item x.forceChk = row := by
    have members : row ∈ added.map Prod.snd ↔ row ∈ inserted.map (fun x => newRow tree x.item x.forceChk) := by
      rw [values]
    simpa only [List.mem_map] using members
  have fresh : ∀ entry ∈ added, entry.1 ∉ ids := by
    intro entry member inIds
    have small := known entry.1 inIds
    have large := above entry member
    omega
  constructor
  · rintro ⟨entry, member, kept, same⟩
    rcases (split entry).mp member with old | new
    · exact Or.inl ⟨entry, old, kept, same⟩
    · exact Or.inr (addedRows.mp ⟨entry, new, same⟩)
  · rintro (⟨entry, member, kept, same⟩ | new)
    · exact ⟨entry, (split entry).mpr (Or.inl member), kept, same⟩
    · obtain ⟨entry, member, same⟩ := addedRows.mpr new
      exact ⟨entry, (split entry).mpr (Or.inr member), fresh entry member, same⟩

theorem mem_deleteById_except (id : Nat) (rest : List Nat) (row : BackfillItemRow) :
    (∃ entry ∈ (table.deleteById id).entries, entry.1 ∉ rest ∧ entry.2 = row) ↔
      ∃ entry ∈ table.entries, entry.1 ∉ id :: rest ∧ entry.2 = row := by
  constructor
  · rintro ⟨entry, member, kept, same⟩
    obtain ⟨inTable, different⟩ := (Rows.mem_deleteById _ id entry).mp member
    exact ⟨entry, inTable, List.not_mem_cons_of_ne_of_not_mem different kept, same⟩
  · rintro ⟨entry, member, kept, same⟩
    obtain ⟨different, notLater⟩ := List.ne_and_not_mem_of_not_mem_cons kept
    exact ⟨entry, (Rows.mem_deleteById _ id entry).mpr ⟨member, different⟩, notLater, same⟩

/-- The rows that are deleted one by one are gone, those inserted in the
meantime are there. -/
theorem mem_deleteEach {ids : List Nat} (known : ∀ id ∈ ids, id < table.nextId) (insertions : List (List Insertion))
    (row : BackfillItemRow) :
    row ∈ (deleteEach tree insertions ids table).values ↔
      (∃ entry ∈ table.entries, entry.1 ∉ ids ∧ entry.2 = row) ∨
        ∃ x ∈ insertions.flatten, newRow tree x.item x.forceChk = row := by
  induction insertions generalizing ids table with
  | nil =>
    rw [deleteEach, Rows.values, List.mem_map]
    simp only [Rows.mem_foldl_deleteById, List.flatten_nil, List.not_mem_nil, false_and, exists_false, or_false,
      and_assoc]
  | cons inserted later ih =>
    have gathered : ((∃ entry ∈ (insertItems table tree inserted).entries, entry.1 ∉ ids ∧ entry.2 = row) ∨
        ∃ x ∈ later.flatten, newRow tree x.item x.forceChk = row) ↔
        ((∃ entry ∈ table.entries, entry.1 ∉ ids ∧ entry.2 = row) ∨
          ∃ x ∈ (inserted :: later).flatten, newRow tree x.item x.forceChk = row) := by
      rw [mem_insertItems_except known inserted row, or_assoc]
      simp only [List.flatten_cons, List.mem_append, or_and_right, exists_or]
    cases ids with
    | nil =>
      rw [deleteEach, ih (by simp)]
      exact gathered
    | cons id rest =>
      obtain ⟨-, -, -, -, grown⟩ := table.insertAll_entries (inserted.map (fun x => newRow tree x.item x.forceChk))
      have knownLater : ∀ other ∈ rest, other < ((insertItems table tree inserted).deleteById id).nextId :=
        fun other member => Nat.lt_of_lt_of_le (known other (List.mem_cons_of_mem _ member)) grown
      rw [deleteEach, ih knownLater, ← gathered, mem_deleteById_except]

end Rows

section Stages
variable {i : Interleaving} {table : BackfillItems} {tree : Pubkey} {maxSeq : Nat}
variable {item : SimpleBackfillItem} {b : Bool}

theorem isExtra_newRow (x : Insertion) :
    isExtra tree maxSeq (newRow tree x.item x.forceChk) = (x.item.seq != maxSeq) := by
  simp [isExtra, newRow]

/-- Only rows inserted after the deletion are deleted one by one, and the first
of them is spared. -/
theorem extraItems_rows :
    (extraItems i table tree maxSeq).map Prod.snd =
      ((i.beforeExtra.filter (fun x => x.item.seq != maxSeq)).drop 1).map (fun x => newRow tree x.item x.forceChk) := by
  have gone : (table.values.filter (fun row => !isExtra tree maxSeq row)).filter (isExtra tree maxSeq) = [] := by
    rw [List.filter_filter]
    simp
  have new : (i.beforeExtra.map (fun x => newRow tree x.item x.forceChk)).filter (isExtra tree maxSeq) =
      (i.beforeExtra.filter (fun x => x.item.seq != maxSeq)).map (fun x => newRow tree x.item x.forceChk) := by
    rw [List.filter_map]
    refine congrArg _ (List.filter_congr (fun x _ => ?_))
    exact isExtra_newRow x
  rw [extraItems, List.map_drop, Rows.values_select, atExtra, insertItems, Rows.values_insertAll, Rows.values_delete,
    List.filter_append, gone, new, List.nil_append, List.map_drop]

theorem extraItems_mem {entry : Nat × BackfillItemRow} (member : entry ∈ extraItems i table tree maxSeq) :
    entry ∈ (atExtra i table tree maxSeq).entries ∧ isExtra tree maxSeq entry.2 = true :=
  List.mem_filter.mp (List.mem_of_mem_drop member)

theorem extraItems_below :
    ∀ id ∈ (extraItems i table tree maxSeq).map Prod.fst, id < (atExtra i table tree maxSeq).nextId := by
  intro id inIds
  obtain ⟨extra, inExtra, same⟩ := List.mem_map.mp inIds
  rw [← same]
  exact (atExtra i table tree maxSeq).below extra (extraItems_mem inExtra).1

/-- A row of the table before the deletions by id stays unless it is one of the
rows to be deleted. -/
theorem atMark_of_kept {entry : Nat × BackfillItemRow} (member : entry ∈ (atExtra i table tree maxSeq).entries)
    (kept : entry ∉ extraItems i table tree maxSeq) : entry.2 ∈ (atMark i table tree maxSeq).values := by
  rw [atMark, insertItems, Rows.values_insertAll]
  refine List.mem_append_left _ ((mem_deleteEach extraItems_below _ _).mpr
    (Or.inl ⟨entry, member, fun inIds => kept ?_, rfl⟩))
  obtain ⟨extra, inExtra, same⟩ := List.mem_map.mp inIds
  rw [← (atExtra i table tree maxSeq).entry_unique (extraItems_mem inExtra).1 member same]
  exact inExtra

theorem atMark_origin {row : BackfillItemRow} (member : row ∈ (atMark i table tree maxSeq).values) :
    row ∈ (table.delete (isExtra tree maxSeq)).values ∨ ∃ x ∈ i.marked, newRow tree x.item x.forceChk = row := by
  rw [atMark, insertItems, Rows.values_insertAll] at member
  rcases List.mem_append.mp member with before | last
  · rcases (mem_deleteEach extraItems_below _ _).mp before with ⟨entry, inTable, -, same⟩ | ⟨x, inserted, same⟩
    · have value : row ∈ (atExtra i table tree maxSeq).values := List.mem_map.mpr ⟨entry, inTable, same⟩
      rw [atExtra, insertItems, Rows.values_insertAll] at value
      rcases List.mem_append.mp value with old | new
      · exact Or.inl old
      · obtain ⟨x, inserted, sameRow⟩ := List.mem_map.mp new
        exact Or.inr ⟨x, List.mem_append_left _ (List.mem_append_left _ inserted), sameRow⟩
    · exact Or.inr ⟨x, List.mem_append_left _ (List.mem_append_right _ inserted), same⟩
  · obtain ⟨x, inserted, same⟩ := List.mem_map.mp last
    exact Or.inr ⟨x, List.mem_append_right _ inserted, same⟩

/-- The rows with the greatest sequence number survive the pass. -/
theorem atMark_greatest {row : BackfillItemRow} (member : row ∈ table.values) (isMax : row.seq = maxSeq) :
    row ∈ (atMark i table tree maxSeq).values := by
  have notExtra : isExtra tree maxSeq row = false := by simp [isExtra, isMax]
  have value : row ∈ (atExtra i table tree maxSeq).values := by
    rw [atExtra, insertItems, Rows.values_insertAll, Rows.values_delete]
    exact List.mem_append_left _ (List.mem_filter.mpr ⟨member, by rw [notExtra]; rfl⟩)
  obtain ⟨entry, inTable, same⟩ := List.mem_map.mp value
  rw [← same]
  refine atMark_of_kept inTable (fun inExtra => ?_)
  have extra := (extraItems_mem inExtra).2
  rw [same, notExtra] at extra
  cases extra

/-- So do the newer rows, when only the first extra row is newer. -/
theorem atMark_newer
    (first : ∀ x ∈ (i.beforeExtra.filter (fun x => x.item.seq != maxSeq)).drop 1, x.item.seq ≤ maxSeq)
    {x : Insertion} (inserted : x ∈ i.marked) (newer : maxSeq < x.item.seq) :
    newRow tree x.item x.forceChk ∈ (atMark i table tree maxSeq).values := by
  rcases List.mem_append.mp inserted with between | last
  · rcases List.mem_append.mp between with early | each
    · have value : newRow tree x.item x.forceChk ∈ (atExtra i table tree maxSeq).values := by
        rw [atExtra, insertItems, Rows.values_insertAll]
        exact List.mem_append_right _ (List.mem_map.mpr ⟨x, early, rfl⟩)
      obtain ⟨entry, inTable, same⟩ := List.mem_map.mp value
      rw [← same]
      refine atMark_of_kept inTable (fun inExtra => ?_)
      have extraRow : entry.2 ∈ (extraItems i table tree maxSeq).map Prod.snd := List.mem_map.mpr ⟨entry, inExtra, rfl⟩
      rw [extraItems_rows] at extraRow
      obtain ⟨y, dropped, sameRow⟩ := List.mem_map.mp extraRow
      have small := first y dropped
      have sameSeq : y.item.seq = x.item.seq := congrArg BackfillItemRow.seq (sameRow.trans same)
      omega
    · rw [atMark, insertItems, Rows.values_insertAll]
      exact List.mem_append_left _ ((mem_deleteEach extraItems_below _ _).mpr (Or.inr ⟨x, each, rfl⟩))
  · rw [atMark, insertItems, Rows.values_insertAll]
    exact List.mem_append_right _ (List.mem_map.mpr ⟨x, last, rfl⟩)

theorem has_afterPass :
    Has (afterPass i table tree maxSeq) tree item b ↔
      (b = true ∧ ∃ before, Has (atMark i (atDelete i table tree) tree maxSeq) tree item before) ∨
        (b = false ∧ ∃ x ∈ i.beforeClear ++ i.beforeUnlock ++ i.afterwards, x.item = item) := by
  rw [afterPass, has_insertItems, deleteExtraRowsAndMarkAsBackfilled, has_unlockTree, has_insertItems,
    has_clearForceChkFlag, has_insertItems, has_markTreeAsBackfilled]
  simp only [List.mem_append, or_and_right, exists_or, or_assoc, ← and_or_left]

end Stages

section Later
variable {i : Interleaving} {table : BackfillItems} {tree : Pubkey} {maxSeq : Nat}
  (greatest : ∀ row ∈ (atRows i table tree).values, row.tree = tree → row.seq ≤ maxSeq)
include greatest

theorem keepsLater_iff :
    KeepsLater i table tree maxSeq ↔ (∀ x ∈ i.beforeDelete, x.item.seq ≤ maxSeq) ∧
      ∀ x ∈ (i.beforeExtra.filter (fun x => x.item.seq != maxSeq)).drop 1, x.item.seq ≤ maxSeq := by
  have deletion : (∀ row ∈ (atDelete i table tree).values.filter (isExtra tree maxSeq), row.seq ≤ maxSeq) ↔
      ∀ x ∈ i.beforeDelete, x.item.seq ≤ maxSeq := by
    rw [atDelete, insertItems, Rows.values_insertAll]
    constructor
    · intro small x inserted
      by_cases isMax : x.item.seq = maxSeq
      · omega
      · have extra : isExtra tree maxSeq (newRow tree x.item x.forceChk) = true := by
          rw [isExtra_newRow]
          simpa using isMax
        exact small _ (List.mem_filter.mpr ⟨List.mem_append_right _ (List.mem_map.mpr ⟨x, inserted, rfl⟩), extra⟩)
    · intro small row member
      obtain ⟨inTable, extra⟩ := List.mem_filter.mp member
      simp only [isExtra, Bool.and_eq_true, decide_eq_true_eq] at extra
      rcases List.mem_append.mp inTable with old | new
      · exact greatest row old extra.1
      · obtain ⟨x, inserted, same⟩ := List.mem_map.mp new
        rw [← same]
        exact small x inserted
  have byId : (∀ row ∈ (extraItems i (atDelete i table tree) tree maxSeq).map Prod.snd, row.seq ≤ maxSeq) ↔
      ∀ x ∈ (i.beforeExtra.filter (fun x => x.item.seq != maxSeq)).drop 1, x.item.seq ≤ maxSeq := by
    rw [extraItems_rows]
    exact List.forall_mem_map
  rw [KeepsLater, deletedRows, Rows.values_select, ← deletion, ← byId]
  exact List.forall_mem_append

omit greatest in
/-- A row that is newer than what the pass looked at was inserted meanwhile. -/
theorem has_newer {item : SimpleBackfillItem} {b : Bool} (newer : maxSeq < item.seq)
    (has : Has (afterPass i table tree maxSeq) tree item b) :
    (b = true ∧ ∃ x ∈ i.marked, x.item = item) ∨
      (b = false ∧ ∃ x ∈ i.beforeClear ++ i.beforeUnlock ++ i.afterwards, x.item = item) := by
  rcases has_afterPass.mp has with ⟨flag, before, row, member, ofTree, same, -⟩ | later
  · refine Or.inl ⟨flag, ?_⟩
    rcases atMark_origin member with old | ⟨x, inserted, sameRow⟩
    · rw [Rows.values_delete, List.mem_filter] at old
      have kept := old.2
      have rowSeq : row.seq = item.seq := congrArg SimpleBackfillItem.seq same
      simp only [isExtra, ofTree, decide_true, Bool.true_and, Bool.not_eq_true', bne_eq_false_iff_eq] at kept
      omega
    · refine ⟨x, inserted, ?_⟩
      rw [← same, ← sameRow]
      rfl
  · exact Or.inr later

end Later

section Reports
variable {i : Interleaving} {table : BackfillItems} {tree : Pubkey} {maxSeq : Nat}

theorem mem_all {x : Insertion} :
    x ∈ i.all ↔ x ∈ i.beforeRows ∨ x ∈ i.beforeDelete ∨ x ∈ i.marked ∨
      x ∈ i.beforeClear ++ i.beforeUnlock ++ i.afterwards := by
  simp only [Interleaving.all, List.mem_append, or_assoc]

theorem mem_rowsFrom_has {start : Nat} {item : SimpleBackfillItem} :
    item ∈ rowsFrom table tree start ↔ start ≤ item.seq ∧ ∃ b, Has table tree item b := by
  rw [mem_rowsFrom]
  constructor
  · rintro ⟨row, member, ofTree, late, same⟩
    refine ⟨?_, row.backfilled, row, member, ofTree, same, rfl⟩
    rw [← same]
    exact late
  · rintro ⟨late, b, row, member, ofTree, same, -⟩
    refine ⟨row, member, ofTree, ?_, same⟩
    rw [← same] at late
    exact late

/-- One slot for each sequence number of the tree. -/
theorem afterPass_oneSlot {slotOf : Nat → Nat}
    (tableSlots : ∀ row ∈ table.values, row.tree = tree → row.slot = slotOf row.seq)
    (insertedSlots : ∀ x ∈ i.all, x.item.slot = slotOf x.item.seq) :
    ∀ row ∈ (afterPass i table tree maxSeq).values, row.tree = tree → row.slot = slotOf row.seq := by
  have items : ∀ item b, Has (afterPass i table tree maxSeq) tree item b → item.slot = slotOf item.seq := by
    intro item b has
    rcases has_afterPass.mp has with ⟨-, before, row, member, ofTree, same, -⟩ | ⟨-, x, inserted, same⟩
    · rcases atMark_origin member with old | ⟨x, inserted, sameRow⟩
      · rw [Rows.values_delete, List.mem_filter, atDelete, insertItems, Rows.values_insertAll, atRows, insertItems,
          Rows.values_insertAll, List.append_assoc, List.mem_append, List.mem_append, List.mem_map, List.mem_map] at old
        rcases old.1 with stored | ⟨x, inserted, sameRow⟩ | ⟨x, inserted, sameRow⟩
        · rw [← same]
          exact tableSlots row stored ofTree
        · rw [← same, ← sameRow]
          exact insertedSlots x (mem_all.mpr (Or.inl inserted))
        · rw [← same, ← sameRow]
          exact insertedSlots x (mem_all.mpr (Or.inr (Or.inl inserted)))
      · rw [← same, ← sameRow]
        exact insertedSlots x (mem_all.mpr (Or.inr (Or.inr (Or.inl inserted))))
    · rw [← same]
      exact insertedSlots x (mem_all.mpr (Or.inr (Or.inr (Or.inr inserted))))
  intro row member ofTree
  exact items (SimpleBackfillItem.ofRow row) row.backfilled ⟨row, member, ofTree, rfl, rfl⟩

/-- The next pass starts from a number that this one was about or that was
inserted before the marking. -/
theorem startSeq_afterPass {row : BackfillItemRow} (member : row ∈ (atDelete i table tree).values)
    (ofTree : row.tree = tree) (isMax : row.seq = maxSeq) :
    (startSeq (afterPass i table tree maxSeq) tree ≤ maxSeq ∨
      ∃ x ∈ i.marked, x.item.seq = startSeq (afterPass i table tree maxSeq) tree) ∧
    ∃ item b, Has (afterPass i table tree maxSeq) tree item b ∧
      item.seq = startSeq (afterPass i table tree maxSeq) tree := by
  have survives : Has (afterPass i table tree maxSeq) tree (SimpleBackfillItem.ofRow row) true :=
    has_afterPass.mpr (Or.inl ⟨rfl, row.backfilled, row, atMark_greatest member isMax, ofTree, rfl, rfl⟩)
  obtain ⟨kept, inTable, keptTree, -, backfilled⟩ := survives
  obtain ⟨found, inRows, foundTree, flag, isStart⟩ := startSeq_mem inTable keptTree backfilled
  have has : Has (afterPass i table tree maxSeq) tree (SimpleBackfillItem.ofRow found) true :=
    ⟨found, inRows, foundTree, rfl, flag⟩
  refine ⟨?_, SimpleBackfillItem.ofRow found, true, has, isStart⟩
  by_cases newer : maxSeq < found.seq
  · rcases has_newer newer has with ⟨-, x, inserted, same⟩ | ⟨impossible, -⟩
    · refine Or.inr ⟨x, inserted, ?_⟩
      rw [same]
      exact isStart
    · cases impossible
  · exact Or.inl (by omega)

/-- What is newer and was inserted before the marking is not above the start of
the next pass. -/
theorem marked_le_startSeq
    (beforeExtra : ∀ x ∈ (i.beforeExtra.filter (fun x => x.item.seq != maxSeq)).drop 1, x.item.seq ≤ maxSeq)
    {x : Insertion} (inserted : x ∈ i.marked) (newer : maxSeq < x.item.seq) :
    x.item.seq ≤ startSeq (afterPass i table tree maxSeq) tree := by
  obtain ⟨row, member, ofTree, same, flag⟩ : Has (afterPass i table tree maxSeq) tree x.item true :=
    has_afterPass.mpr (Or.inl ⟨rfl, false, _, atMark_newer beforeExtra inserted newer, rfl, rfl, rfl⟩)
  have below := le_startSeq member ofTree flag
  rw [← same]
  exact below

/-- What is newer and was inserted is there after an undisturbed deletion. -/
theorem has_inserted (greatest : ∀ row ∈ (atRows i table tree).values, row.tree = tree → row.seq ≤ maxSeq)
    (beforeDelete : ∀ x ∈ i.beforeDelete, x.item.seq ≤ maxSeq)
    (beforeExtra : ∀ x ∈ (i.beforeExtra.filter (fun x => x.item.seq != maxSeq)).drop 1, x.item.seq ≤ maxSeq)
    {x : Insertion} (inAll : x ∈ i.all) (newer : maxSeq < x.item.seq) :
    ∃ b, Has (afterPass i table tree maxSeq) tree x.item b := by
  rcases mem_all.mp inAll with early | plugging | marked | late
  · have read : newRow tree x.item x.forceChk ∈ (atRows i table tree).values := by
      rw [atRows, insertItems, Rows.values_insertAll]
      exact List.mem_append_right _ (List.mem_map.mpr ⟨x, early, rfl⟩)
    have small : x.item.seq ≤ maxSeq := greatest _ read rfl
    omega
  · have small := beforeDelete x plugging
    omega
  · exact ⟨true, has_afterPass.mpr (Or.inl ⟨rfl, false, _, atMark_newer beforeExtra marked newer, rfl, rfl, rfl⟩)⟩
  · exact ⟨false, has_afterPass.mpr (Or.inr ⟨rfl, x, late, rfl⟩)⟩

theorem reportsMissing_iff {slotOf : Nat → Nat}
    (tableSlots : ∀ row ∈ table.values, row.tree = tree → row.slot = slotOf row.seq)
    (insertedSlots : ∀ x ∈ i.all, x.item.slot = slotOf x.item.seq)
    (greatest : ∀ row ∈ (atRows i table tree).values, row.tree = tree → row.seq ≤ maxSeq)
    {top : BackfillItemRow} (topMember : top ∈ (atRows i table tree).values) (topTree : top.tree = tree)
    (isMax : top.seq = maxSeq)
    (beforeDelete : ∀ x ∈ i.beforeDelete, x.item.seq ≤ maxSeq)
    (beforeExtra : ∀ x ∈ (i.beforeExtra.filter (fun x => x.item.seq != maxSeq)).drop 1, x.item.seq ≤ maxSeq) :
    ReportsMissing i table tree maxSeq ↔
      ∀ n, maxSeq < n → (∃ x ∈ i.marked, n < x.item.seq) → ∃ x ∈ i.all, x.item.seq = n := by
  have atDeletion : top ∈ (atDelete i table tree).values := by
    rw [atDelete, insertItems, Rows.values_insertAll]
    exact List.mem_append_left _ topMember
  obtain ⟨startOrigin, startItem, startFlag, startHas, startIs⟩ := startSeq_afterPass atDeletion topTree isMax
  obtain ⟨found, gaps, returned, members, covers⟩ :=
    getMissingData_spec (@afterPass_oneSlot i table tree maxSeq slotOf tableSlots insertedSlots)
  constructor
  · intro reports n newer marked
    by_contra absent
    have never : ∀ x ∈ i.all, x.item.seq ≠ n := fun x inAll same => absent ⟨x, inAll, same⟩
    obtain ⟨x, inserted, above⟩ := marked
    obtain ⟨_, others, result, gap, inGaps, inside⟩ := reports n newer never
      ⟨x, mem_all.mpr (Or.inr (Or.inr (Or.inl inserted))), above⟩
    rw [returned] at result
    have sameGaps : gaps = others := (Prod.mk.inj (Except.ok.inj result)).2
    rw [← sameGaps] at inGaps
    have fromStart := (mem_rowsFrom_has.mp (members gap inGaps)).1
    have startAbove := @marked_le_startSeq i table tree maxSeq beforeExtra x inserted (by omega)
    omega
  · intro complete n newer never above
    have startBelow : startSeq (afterPass i table tree maxSeq) tree < n := by
      rcases startOrigin with old | ⟨x, inserted, isStart⟩
      · omega
      · have different := never x (mem_all.mpr (Or.inr (Or.inr (Or.inl inserted))))
        by_contra late
        obtain ⟨y, inAll, isNumber⟩ := complete n newer ⟨x, inserted, by omega⟩
        exact never y inAll isNumber
    refine ⟨_, gaps, returned, covers n ?_ ?_ ?_⟩
    · intro item member same
      obtain ⟨-, b, has⟩ := mem_rowsFrom_has.mp member
      rcases has_newer (by omega) has with ⟨-, x, inserted, sameItem⟩ | ⟨-, x, inserted, sameItem⟩
      · exact never x (mem_all.mpr (Or.inr (Or.inr (Or.inl inserted)))) (by rw [sameItem, same])
      · exact never x (mem_all.mpr (Or.inr (Or.inr (Or.inr inserted)))) (by rw [sameItem, same])
    · exact ⟨startItem, mem_rowsFrom_has.mpr ⟨by omega, startFlag, startHas⟩, by omega⟩
    · obtain ⟨x, inAll, more⟩ := above
      have present := has_inserted greatest beforeDelete beforeExtra inAll (by omega)
      exact ⟨x.item, mem_rowsFrom_has.mpr ⟨by omega, present⟩, more⟩

/-- A pass loses no later row and hides no later gap exactly when it is not
disturbed. -/
theorem pass_keeps_later_iff (i : Interleaving) (table : BackfillItems) (tree : Pubkey) (slotOf : Nat → Nat)
    (tableSlots : ∀ row ∈ table.values, row.tree = tree → row.slot = slotOf row.seq)
    (insertedSlots : ∀ x ∈ i.all, x.item.slot = slotOf x.item.seq) (maxSeq : Nat) (gaps : List GapInfo)
    (returned : passMissingData i table tree = .ok (some maxSeq, gaps)) :
    (KeepsLater i table tree maxSeq ∧ ReportsMissing i table tree maxSeq) ↔ i.Undisturbed maxSeq := by
  obtain ⟨⟨top, topMember, topTree, -, isMax⟩, greatest⟩ := missingData_max returned
  have keeps := keepsLater_iff greatest
  constructor
  · rintro ⟨kept, reports⟩
    obtain ⟨beforeDelete, beforeExtra⟩ := keeps.mp kept
    exact ⟨beforeDelete, beforeExtra, (reportsMissing_iff tableSlots insertedSlots greatest topMember topTree isMax
      beforeDelete beforeExtra).mp reports⟩
  · rintro ⟨beforeDelete, beforeExtra, beforeMark⟩
    exact ⟨keeps.mpr ⟨beforeDelete, beforeExtra⟩, (reportsMissing_iff tableSlots insertedSlots greatest topMember
      topTree isMax beforeDelete beforeExtra).mpr beforeMark⟩

end Reports

namespace Pass.Example

def tree : Pubkey := .fill 8

def inserted (seq : Nat) : Insertion := { item := { seq, slot := seq }, forceChk := false }

/-- The first and the third event of the tree are known. -/
def table : BackfillItems := insertItems Rows.empty tree [inserted 1, inserted 3]

/-- The second event is replayed, and a later one comes after the pass. -/
def replayed : Interleaving := { beforeDelete := [inserted 2], afterwards := [inserted 5] }

/-- A later event comes while the gap is plugged. -/
def overtaken : Interleaving := { beforeDelete := [inserted 2, inserted 5] }

theorem tableSlots : ∀ row ∈ table.values, row.tree = tree → row.slot = row.seq := by decide

end Pass.Example

theorem pass_keeps_later_after_replay :
    passMissingData Pass.Example.replayed Pass.Example.table Pass.Example.tree =
        .ok (some 3, [{ prev := { seq := 1, slot := 1 }, curr := { seq := 3, slot := 3 } }]) ∧
      KeepsLater Pass.Example.replayed Pass.Example.table Pass.Example.tree 3 ∧
      ReportsMissing Pass.Example.replayed Pass.Example.table Pass.Example.tree 3 := by
  refine ⟨rfl, (pass_keeps_later_iff Pass.Example.replayed Pass.Example.table Pass.Example.tree id
    Pass.Example.tableSlots (by decide) 3 _ rfl).mpr ⟨by decide, by decide, ?_⟩⟩
  rintro n - ⟨x, inserted, -⟩
  exact absurd inserted List.not_mem_nil

theorem pass_loses_later_row :
    passMissingData Pass.Example.overtaken Pass.Example.table Pass.Example.tree =
        .ok (some 3, [{ prev := { seq := 1, slot := 1 }, curr := { seq := 3, slot := 3 } }]) ∧
      ¬ KeepsLater Pass.Example.overtaken Pass.Example.table Pass.Example.tree 3 ∧
      ¬ ReportsMissing Pass.Example.overtaken Pass.Example.table Pass.Example.tree 3 := by
  refine ⟨rfl, fun kept => ?_, fun reports => ?_⟩
  · have small := kept (newRow Pass.Example.tree { seq := 5, slot := 5 } false) (by decide)
    exact absurd small (by decide)
  · obtain ⟨greatest, gaps, returned, gap, inGaps, -⟩ := reports 4 (by decide) (by decide) (by decide)
    have none : getMissingData (afterPass Pass.Example.overtaken Pass.Example.table Pass.Example.tree 3)
        Pass.Example.tree = .ok (some 3, []) := rfl
    rw [none] at returned
    have empty : [] = gaps := (Prod.mk.inj (Except.ok.inj returned)).2
    rw [← empty] at inGaps
    exact absurd inGaps List.not_mem_nil

end DasIndexer.Backfill
