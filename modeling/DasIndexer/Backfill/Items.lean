import DasIndexer.Bubblegum.Db
import DasIndexer.Dao
import DasIndexer.Lib.Rows
import Mathlib.Data.List.Dedup
import Mathlib.Data.List.Sort

namespace DasIndexer.Backfill
open Sql

/-- The table `backfill_items` with the ids of its rows, which the backfiller
deletes by. -/
abbrev BackfillItems := Rows BackfillItemRow

structure SimpleBackfillItem where
  seq : Nat
  slot : Nat
  deriving DecidableEq

structure GapInfo where
  prev : SimpleBackfillItem
  curr : SimpleBackfillItem
  deriving DecidableEq

def SimpleBackfillItem.ofRow (row : BackfillItemRow) : SimpleBackfillItem := { seq := row.seq, slot := row.slot }

/-- The first query of `get_missing_data`: the greatest sequence number that
was backfilled. -/
def startSeq (table : BackfillItems) (tree : Pubkey) : Nat :=
  (((table.values.filter (fun row => row.tree = tree && row.backfilled)).map BackfillItemRow.seq).max?).getD 0

/-- The second query, `SELECT DISTINCT seq, slot .. ORDER BY seq`. Rows of one
sequence number stand next to each other, in any order. -/
def rowsFrom (table : BackfillItems) (tree : Pubkey) (start : Nat) : List SimpleBackfillItem :=
  ((table.values.filter (fun row => start ≤ row.seq && row.tree = tree)).map
    SimpleBackfillItem.ofRow).dedup.insertionSort (fun x y => x.seq ≤ y.seq)

def identicalSeq (prev curr : SimpleBackfillItem) : DbErr :=
  .custom ("Error in DB, identical sequence numbers with different slots: " ++ toString prev.slot ++ ", " ++
    toString curr.slot)

/-- The loop over the pairs of neighbours. -/
def findGaps : List SimpleBackfillItem → Except DbErr (List GapInfo)
  | prev :: curr :: rest =>
    if curr.seq = prev.seq then .error (identicalSeq prev curr)
    else (findGaps (curr :: rest)).map (fun gaps =>
      if 1 < curr.seq - prev.seq then { prev, curr } :: gaps else gaps)
  | _ => .ok []

/-- `get_missing_data`, given what its first query found. -/
def missingData (table : BackfillItems) (tree : Pubkey) (start : Nat) : Except DbErr (Option Nat × List GapInfo) :=
  let rows := rowsFrom table tree start
  (findGaps rows).map (fun gaps => (rows.getLast?.map SimpleBackfillItem.seq, gaps))

def getMissingData (table : BackfillItems) (tree : Pubkey) : Except DbErr (Option Nat × List GapInfo) :=
  missingData table tree (startSeq table tree)

def markTreeAsBackfilled (table : BackfillItems) (tree : Pubkey) : BackfillItems :=
  table.update (fun row => row.tree = tree) (fun row => { row with backfilled := true })

def clearForceChkFlag (table : BackfillItems) (tree : Pubkey) : BackfillItems :=
  table.update (fun row => row.tree = tree) (fun row => { row with forceChk := false })

def unlockTree (table : BackfillItems) (tree : Pubkey) : BackfillItems :=
  table.update (fun row => row.tree = tree) (fun row => { row with locked := false })

def markTreeAsFailed (table : BackfillItems) (tree : Pubkey) : BackfillItems :=
  table.update (fun row => row.tree = tree) (fun row => { row with failed := true })

/-- The update of `get_trees_to_backfill`. -/
def lockTree (table : BackfillItems) (tree : Pubkey) : BackfillItems :=
  table.update (fun row => row.tree = tree) (fun row => { row with locked := true })

/-- The row that `insert_change_log` adds. Its query for rows of the tree is a
statement of its own, so that `force_chk` may rest on an older state. -/
def newRow (tree : Pubkey) (item : SimpleBackfillItem) (forceChk : Bool) : BackfillItemRow :=
  { tree, seq := item.seq, slot := item.slot, forceChk, backfilled := false, failed := false }

/-- `force_chk` of a row whose query found the tree in this state. -/
def forceChkOf (table : BackfillItems) (tree : Pubkey) (seq : Nat) : Bool :=
  table.values.all (fun row => row.tree ≠ tree) && decide (1 < seq)

/-- Both the deletion and the query after it select by `seq <> max_seq`. -/
def isExtra (tree : Pubkey) (maxSeq : Nat) (row : BackfillItemRow) : Bool := row.tree = tree && row.seq != maxSeq

section Gaps

theorem findGaps_cons {prev curr : SimpleBackfillItem} {rest : List SimpleBackfillItem} {gaps : List GapInfo}
    (increasing : prev.seq < curr.seq) (found : findGaps (curr :: rest) = .ok gaps) :
    findGaps (prev :: curr :: rest) = .ok (if 1 < curr.seq - prev.seq then { prev, curr } :: gaps else gaps) := by
  rw [findGaps, if_neg (by omega), found]
  rfl

/-- Between rows of increasing sequence numbers, the gaps are exactly the
numbers that no row has. -/
theorem findGaps_spec (rows : List SimpleBackfillItem) (sorted : rows.Pairwise (fun x y => x.seq < y.seq)) :
    ∃ gaps, findGaps rows = .ok gaps ∧
      (∀ gap ∈ gaps, gap.prev ∈ rows ∧ gap.curr ∈ rows) ∧
      ∀ n, (∀ row ∈ rows, row.seq ≠ n) → (∃ row ∈ rows, row.seq < n) → (∃ row ∈ rows, n < row.seq) →
        ∃ gap ∈ gaps, gap.prev.seq < n ∧ n < gap.curr.seq := by
  induction rows with
  | nil => exact ⟨[], rfl, by simp, by simp⟩
  | cons prev rest ih =>
    rw [List.pairwise_cons] at sorted
    obtain ⟨gaps, found, members, covers⟩ := ih sorted.2
    cases rest with
    | nil =>
      refine ⟨[], rfl, by simp, fun n _ below above => ?_⟩
      obtain ⟨row, inRow, less⟩ := below
      obtain ⟨other, inOther, more⟩ := above
      rw [List.mem_singleton.mp inRow] at less
      rw [List.mem_singleton.mp inOther] at more
      omega
    | cons curr later =>
      have increasing := sorted.1 curr List.mem_cons_self
      refine ⟨_, findGaps_cons increasing found, ?_, ?_⟩
      · intro gap member
        have old : gap ∈ gaps → gap.prev ∈ prev :: curr :: later ∧ gap.curr ∈ prev :: curr :: later :=
          fun inGaps => ⟨List.mem_cons_of_mem _ (members gap inGaps).1, List.mem_cons_of_mem _ (members gap inGaps).2⟩
        by_cases wide : 1 < curr.seq - prev.seq
        · rw [if_pos wide] at member
          rcases List.mem_cons.mp member with new | inGaps
          · rw [new]
            exact ⟨List.mem_cons_self, List.mem_cons_of_mem _ List.mem_cons_self⟩
          · exact old inGaps
        · rw [if_neg wide] at member
          exact old member
      · intro n absent below above
        have notPrev := absent prev List.mem_cons_self
        have notCurr := absent curr (List.mem_cons_of_mem _ List.mem_cons_self)
        by_cases first : prev.seq < n ∧ n < curr.seq
        · refine ⟨{ prev, curr }, ?_, first⟩
          rw [if_pos (by omega)]
          exact List.mem_cons_self
        · have later : ∃ gap ∈ gaps, gap.prev.seq < n ∧ n < gap.curr.seq := by
            obtain ⟨row, inRow, less⟩ := below
            have afterPrev : prev.seq < n := by
              rcases List.mem_cons.mp inRow with isPrev | inRest
              · rw [← isPrev]
                exact less
              · have order := sorted.1 row inRest
                omega
            refine covers n (fun row member => absent row (List.mem_cons_of_mem _ member)) ?_ ?_
            · exact ⟨curr, List.mem_cons_self, by omega⟩
            · obtain ⟨other, inOther, more⟩ := above
              rcases List.mem_cons.mp inOther with isPrev | inRest
              · rw [isPrev] at more
                omega
              · exact ⟨other, inRest, more⟩
          obtain ⟨gap, inGaps, inside⟩ := later
          refine ⟨gap, ?_, inside⟩
          split
          · exact List.mem_cons_of_mem _ inGaps
          · exact inGaps

end Gaps

section Queries
variable {table : BackfillItems} {tree : Pubkey} {start : Nat}

/-- Without a statement in between, this is the insertion of the handlers. -/
theorem insert_newRow_values (db : Db) (rows : table.values = db.backfillItems) (seq slot : Nat) :
    (table.insert (newRow tree { seq, slot } (forceChkOf table tree seq))).values =
      (Bubblegum.insertBackfillItem db tree seq slot).backfillItems := by
  rw [Rows.values_insert, forceChkOf, rows]
  rfl

theorem mem_rowsFrom {item : SimpleBackfillItem} :
    item ∈ rowsFrom table tree start ↔
      ∃ row ∈ table.values, row.tree = tree ∧ start ≤ row.seq ∧ SimpleBackfillItem.ofRow row = item := by
  simp only [rowsFrom, List.mem_insertionSort, List.mem_dedup, List.mem_map, List.mem_filter, Bool.and_eq_true,
    decide_eq_true_eq]
  constructor
  · rintro ⟨row, ⟨member, late, ofTree⟩, same⟩
    exact ⟨row, member, ofTree, late, same⟩
  · rintro ⟨row, member, ofTree, late, same⟩
    exact ⟨row, ⟨member, late, ofTree⟩, same⟩

theorem rowsFrom_sorted (table : BackfillItems) (tree : Pubkey) (start : Nat) :
    (rowsFrom table tree start).Pairwise (fun x y => x.seq ≤ y.seq) := by
  have total : Std.Total (fun x y : SimpleBackfillItem => x.seq ≤ y.seq) := ⟨fun x y => Nat.le_total x.seq y.seq⟩
  have transitive : IsTrans SimpleBackfillItem (fun x y => x.seq ≤ y.seq) := ⟨fun _ _ _ => Nat.le_trans⟩
  exact List.pairwise_insertionSort _ _

theorem rowsFrom_last {item other : SimpleBackfillItem} (isLast : (rowsFrom table tree start).getLast? = some item)
    (member : other ∈ rowsFrom table tree start) : other.seq ≤ item.seq := by
  obtain ⟨before, split⟩ := List.getLast?_eq_some_iff.mp isLast
  have sorted := rowsFrom_sorted table tree start
  rw [split] at sorted member
  rcases List.mem_append.mp member with earlier | final
  · exact (List.pairwise_append.mp sorted).2.2 other earlier item List.mem_cons_self
  · rw [List.mem_singleton.mp final]

theorem rowsFrom_distinct (table : BackfillItems) (tree : Pubkey) (start : Nat) :
    (rowsFrom table tree start).Nodup := by
  have sorted := List.perm_insertionSort (fun x y : SimpleBackfillItem => x.seq ≤ y.seq)
    ((table.values.filter (fun row => start ≤ row.seq && row.tree = tree)).map SimpleBackfillItem.ofRow).dedup
  exact sorted.nodup_iff.mpr (List.nodup_dedup _)

/-- With one slot for each sequence number the loop meets no identical ones. -/
theorem rowsFrom_increasing {slotOf : Nat → Nat}
    (oneSlot : ∀ row ∈ table.values, row.tree = tree → row.slot = slotOf row.seq) :
    (rowsFrom table tree start).Pairwise (fun x y => x.seq < y.seq) := by
  have slots : ∀ item ∈ rowsFrom table tree start, item.slot = slotOf item.seq := by
    intro item member
    obtain ⟨row, inTable, ofTree, -, same⟩ := mem_rowsFrom.mp member
    rw [← same]
    exact oneSlot row inTable ofTree
  have both := (rowsFrom_sorted table tree start).and (rowsFrom_distinct table tree start)
  refine both.imp_of_mem (fun {x y} inX inY ordered => ?_)
  refine Nat.lt_of_le_of_ne ordered.1 (fun same => ordered.2 ?_)
  have slotX := slots x inX
  have slotY := slots y inY
  cases x
  cases y
  dsimp only at same slotX slotY
  subst same
  rw [slotX, slotY]

/-- Once a row of the tree is backfilled, the next pass starts at the greatest
such row. -/
theorem startSeq_greatest {row : BackfillItemRow} (member : row ∈ table.values) (ofTree : row.tree = tree)
    (backfilled : row.backfilled = true) :
    row.seq ≤ startSeq table tree ∧
      ∃ found ∈ table.values, found.tree = tree ∧ found.backfilled = true ∧ found.seq = startSeq table tree := by
  have present : row.seq ∈
      (table.values.filter (fun row => row.tree = tree && row.backfilled)).map BackfillItemRow.seq :=
    List.mem_map.mpr ⟨row, List.mem_filter.mpr ⟨member, by simp [ofTree, backfilled]⟩, rfl⟩
  rw [startSeq]
  cases greatest : ((table.values.filter (fun row => row.tree = tree && row.backfilled)).map
      BackfillItemRow.seq).max? with
  | none =>
    rw [List.max?_eq_none_iff.mp greatest] at present
    exact absurd present List.not_mem_nil
  | some n =>
    obtain ⟨isMember, atMost⟩ := List.max?_eq_some_iff.mp greatest
    obtain ⟨found, inRows, same⟩ := List.mem_map.mp isMember
    obtain ⟨inTable, chosen⟩ := List.mem_filter.mp inRows
    simp only [Bool.and_eq_true, decide_eq_true_eq] at chosen
    exact ⟨atMost row.seq present, found, inTable, chosen.1, chosen.2, same⟩

theorem le_startSeq {row : BackfillItemRow} (member : row ∈ table.values) (ofTree : row.tree = tree)
    (backfilled : row.backfilled = true) : row.seq ≤ startSeq table tree :=
  (startSeq_greatest member ofTree backfilled).1

theorem startSeq_mem {row : BackfillItemRow} (member : row ∈ table.values) (ofTree : row.tree = tree)
    (backfilled : row.backfilled = true) :
    ∃ found ∈ table.values, found.tree = tree ∧ found.backfilled = true ∧ found.seq = startSeq table tree :=
  (startSeq_greatest member ofTree backfilled).2

/-- The sequence number that `get_missing_data` returns is the greatest one of
the rows it looked at. -/
theorem missingData_max {maxSeq : Nat} {gaps : List GapInfo}
    (returned : missingData table tree start = .ok (some maxSeq, gaps)) :
    (∃ row ∈ table.values, row.tree = tree ∧ start ≤ row.seq ∧ row.seq = maxSeq) ∧
      ∀ row ∈ table.values, row.tree = tree → row.seq ≤ maxSeq := by
  have last : (rowsFrom table tree start).getLast?.map SimpleBackfillItem.seq = some maxSeq := by
    rw [missingData] at returned
    cases found : findGaps (rowsFrom table tree start) with
    | error problem =>
      rw [found] at returned
      cases returned
    | ok others =>
      rw [found] at returned
      exact (Prod.mk.inj (Except.ok.inj returned)).1
  obtain ⟨item, isLast, sameSeq⟩ := Option.map_eq_some_iff.mp last
  obtain ⟨row, member, ofTree, late, same⟩ := mem_rowsFrom.mp (List.mem_of_getLast? isLast)
  have rowSeq : row.seq = maxSeq := by
    rw [← sameSeq, ← same]
    rfl
  refine ⟨⟨row, member, ofTree, late, rowSeq⟩, fun other inTable otherTree => ?_⟩
  by_cases early : other.seq < start
  · omega
  · have inRows : SimpleBackfillItem.ofRow other ∈ rowsFrom table tree start :=
      mem_rowsFrom.mpr ⟨other, inTable, otherTree, by omega, rfl⟩
    have order : other.seq ≤ item.seq := rowsFrom_last isLast inRows
    omega

/-- With one slot for each sequence number, `get_missing_data` succeeds and
reports the numbers that are missing between the rows it looks at. -/
theorem getMissingData_spec {slotOf : Nat → Nat}
    (oneSlot : ∀ row ∈ table.values, row.tree = tree → row.slot = slotOf row.seq) :
    ∃ greatest gaps, getMissingData table tree = .ok (greatest, gaps) ∧
      (∀ gap ∈ gaps, gap.prev ∈ rowsFrom table tree (startSeq table tree)) ∧
      ∀ n, (∀ item ∈ rowsFrom table tree (startSeq table tree), item.seq ≠ n) →
        (∃ item ∈ rowsFrom table tree (startSeq table tree), item.seq < n) →
        (∃ item ∈ rowsFrom table tree (startSeq table tree), n < item.seq) →
        ∃ gap ∈ gaps, gap.prev.seq < n ∧ n < gap.curr.seq := by
  obtain ⟨gaps, found, members, covers⟩ := findGaps_spec (rowsFrom table tree (startSeq table tree))
    (rowsFrom_increasing oneSlot)
  have returned : getMissingData table tree = .ok
      ((rowsFrom table tree (startSeq table tree)).getLast?.map SimpleBackfillItem.seq, gaps) := by
    rw [getMissingData, missingData, found]
    rfl
  exact ⟨_, gaps, returned, fun gap inGaps => (members gap inGaps).1, covers⟩

end Queries

end DasIndexer.Backfill
