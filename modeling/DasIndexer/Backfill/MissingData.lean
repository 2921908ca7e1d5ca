import DasIndexer.Backfill.Items
import DasIndexer.Lib.Loops

namespace DasIndexer.Backfill

/-- Two rows have one sequence number and different slots. -/
def Conflict (item : SimpleBackfillItem → Prop) : Prop :=
  ∃ x y, item x ∧ item y ∧ x.seq = y.seq ∧ x.slot ≠ y.slot

/-- The gaps of some rows: pairs of rows in order, around all numbers between the
rows that no row has, and around nothing else. -/
structure Holes (item : SimpleBackfillItem → Prop) (gaps : List GapInfo) : Prop where
  ends : ∀ gap ∈ gaps, item gap.prev ∧ item gap.curr ∧ gap.prev.seq + 1 < gap.curr.seq
  ascending : gaps.Pairwise (fun g h => g.curr.seq ≤ h.prev.seq)
  empty : ∀ row, item row → ∀ gap ∈ gaps, row.seq ≤ gap.prev.seq ∨ gap.curr.seq ≤ row.seq
  covered : ∀ n low high, item low → item high → low.seq < n → n < high.seq →
    (∃ row, item row ∧ row.seq = n) ∨ ∃! gap, gap ∈ gaps ∧ gap.prev.seq < n ∧ n < gap.curr.seq

/-- A number lies in one gap only. -/
theorem inside_unique {gaps : List GapInfo} (ascending : gaps.Pairwise (fun g h => g.curr.seq ≤ h.prev.seq))
    {g h : GapInfo} (first : g ∈ gaps) (second : h ∈ gaps) {n : Nat} (inFirst : g.prev.seq < n ∧ n < g.curr.seq)
    (inSecond : h.prev.seq < n ∧ n < h.curr.seq) : g = h := by
  induction gaps with
  | nil => cases first
  | cons gap rest ih =>
    rw [List.pairwise_cons] at ascending
    rcases List.mem_cons.mp first with isFirst | firstLater
    · rcases List.mem_cons.mp second with isSecond | secondLater
      · rw [isFirst, isSecond]
      · have apart := ascending.1 h secondLater
        rw [← isFirst] at apart
        omega
    · rcases List.mem_cons.mp second with isSecond | secondLater
      · have apart := ascending.1 g firstLater
        rw [← isSecond] at apart
        omega
      · exact ih ascending.2 firstLater secondLater

/-- A loop over sorted rows that ends well met no sequence number twice. -/
theorem findGaps_increasing {rows : List SimpleBackfillItem} {gaps : List GapInfo}
    (sorted : rows.Pairwise (fun x y => x.seq ≤ y.seq)) (found : findGaps rows = .ok gaps) :
    rows.Pairwise (fun x y => x.seq < y.seq) := by
  induction rows generalizing gaps with
  | nil => exact .nil
  | cons prev rest ih =>
    rw [List.pairwise_cons] at sorted
    cases rest with
    | nil => exact List.pairwise_singleton _ _
    | cons curr later =>
      by_cases same : curr.seq = prev.seq
      · rw [findGaps, if_pos same] at found
        cases found
      · rw [findGaps, if_neg same] at found
        cases rested : findGaps (curr :: later) with
        | error problem =>
          rw [rested] at found
          cases found
        | ok others =>
          have increasing := ih sorted.2 rested
          refine List.pairwise_cons.mpr ⟨fun row member => ?_, increasing⟩
          have first := sorted.1 curr List.mem_cons_self
          rcases List.mem_cons.mp member with isCurr | inLater
          · rw [isCurr]
            omega
          · have order := (List.pairwise_cons.mp increasing).1 row inLater
            omega

/-- The gaps ascend from the first row on, and no row lies inside one. -/
theorem findGaps_ordered {rows : List SimpleBackfillItem} {gaps : List GapInfo}
    (increasing : rows.Pairwise (fun x y => x.seq < y.seq)) (found : findGaps rows = .ok gaps) :
    (∀ gap ∈ gaps, gap.prev ∈ rows ∧ gap.curr ∈ rows ∧ gap.prev.seq + 1 < gap.curr.seq) ∧
      gaps.Pairwise (fun g h => g.curr.seq ≤ h.prev.seq) ∧
      ∀ row ∈ rows, ∀ gap ∈ gaps, row.seq ≤ gap.prev.seq ∨ gap.curr.seq ≤ row.seq := by
  induction rows generalizing gaps with
  | nil =>
    cases found
    exact ⟨nofun, .nil, nofun⟩
  | cons prev rest ih =>
    rw [List.pairwise_cons] at increasing
    cases rest with
    | nil =>
      cases found
      exact ⟨nofun, .nil, fun _ _ _ => nofun⟩
    | cons curr later =>
      obtain ⟨others, rested, -, -⟩ := findGaps_spec (curr :: later) increasing.2
      have first := increasing.1 curr List.mem_cons_self
      rw [findGaps_cons first rested] at found
      cases found
      obtain ⟨ends, ascending, empty⟩ := ih increasing.2 rested
      have lowest : ∀ row ∈ curr :: later, curr.seq ≤ row.seq := by
        intro row member
        rcases List.mem_cons.mp member with isCurr | inLater
        · rw [isCurr]
        · exact ((List.pairwise_cons.mp increasing.2).1 row inLater).le
      have widened : ∀ gap ∈ others, gap.prev ∈ prev :: curr :: later ∧ gap.curr ∈ prev :: curr :: later ∧
          gap.prev.seq + 1 < gap.curr.seq := by
        intro gap member
        obtain ⟨inPrev, inCurr, wide⟩ := ends gap member
        exact ⟨List.mem_cons_of_mem _ inPrev, List.mem_cons_of_mem _ inCurr, wide⟩
      have apart : ∀ row ∈ prev :: curr :: later, ∀ gap ∈ others,
          row.seq ≤ gap.prev.seq ∨ gap.curr.seq ≤ row.seq := by
        intro row member gap inOthers
        rcases List.mem_cons.mp member with isPrev | inRest
        · have bound := lowest gap.prev (ends gap inOthers).1
          rw [isPrev]
          omega
        · exact empty row inRest gap inOthers
      by_cases wide : 1 < curr.seq - prev.seq
      · rw [if_pos wide]
        refine ⟨?_, List.pairwise_cons.mpr ⟨fun gap member => lowest gap.prev (ends gap member).1, ascending⟩, ?_⟩
        · intro gap member
          rcases List.mem_cons.mp member with isNew | inOthers
          · subst isNew
            exact ⟨List.mem_cons_self, List.mem_cons_of_mem _ List.mem_cons_self, by dsimp only; omega⟩
          · exact widened gap inOthers
        · intro row member gap inGaps
          rcases List.mem_cons.mp inGaps with isNew | inOthers
          · subst isNew
            rcases List.mem_cons.mp member with isPrev | inRest
            · rw [isPrev]
              exact .inl le_rfl
            · exact .inr (lowest row inRest)
          · exact apart row member gap inOthers
      · rw [if_neg wide]
        exact ⟨widened, ascending, apart⟩

theorem findGaps_holes {rows : List SimpleBackfillItem} {gaps : List GapInfo}
    (sorted : rows.Pairwise (fun x y => x.seq ≤ y.seq)) (found : findGaps rows = .ok gaps) :
    Holes (· ∈ rows) gaps := by
  have increasing := findGaps_increasing sorted found
  obtain ⟨ends, ascending, empty⟩ := findGaps_ordered increasing found
  refine ⟨ends, ascending, empty, fun n low high isLow isHigh below above => ?_⟩
  by_cases present : ∃ row, row ∈ rows ∧ row.seq = n
  · exact .inl present
  · obtain ⟨others, same, _, covers⟩ := findGaps_spec rows increasing
    rw [found] at same
    cases same
    have absent : ∀ row ∈ rows, row.seq ≠ n := fun row member isSeq => present ⟨row, member, isSeq⟩
    obtain ⟨gap, member, inside⟩ := covers n absent ⟨low, isLow, below⟩ ⟨high, isHigh, above⟩
    exact .inr ⟨gap, ⟨member, inside⟩, fun other isOther => inside_unique ascending isOther.1 member isOther.2 inside⟩

/-- Sorted rows without duplicates are refused exactly when two of them have one
sequence number. -/
theorem findGaps_error_iff {rows : List SimpleBackfillItem} (sorted : rows.Pairwise (fun x y => x.seq ≤ y.seq))
    (distinct : rows.Nodup) : (∃ problem, findGaps rows = .error problem) ↔ Conflict (· ∈ rows) := by
  constructor
  · rintro ⟨problem, failed⟩
    by_contra noConflict
    have increasing : rows.Pairwise (fun x y => x.seq < y.seq) := by
      refine (sorted.and distinct).imp_of_mem (fun {x y} inX inY ordered => ?_)
      refine Nat.lt_of_le_of_ne ordered.1 (fun same => noConflict ⟨x, y, inX, inY, same, fun sameSlot => ordered.2 ?_⟩)
      cases x
      cases y
      dsimp only at same sameSlot
      rw [same, sameSlot]
    obtain ⟨gaps, found, -, -⟩ := findGaps_spec rows increasing
    rw [failed] at found
    cases found
  · rintro ⟨x, y, inX, inY, same, different⟩
    cases found : findGaps rows with
    | error problem => exact ⟨problem, rfl⟩
    | ok gaps =>
      have increasing := findGaps_increasing sorted found
      have once : (rows.map SimpleBackfillItem.seq).Nodup := List.pairwise_map.mpr (increasing.imp Nat.ne_of_lt)
      have isSame : x = y := List.inj_on_of_nodup_map once inX inY same
      exact absurd (congrArg SimpleBackfillItem.slot isSame) different

section Queries
variable {table : BackfillItems} {tree : Pubkey} {start : Nat}

/-- The pairs of sequence number and slot of the rows from the start on. -/
def Considered (table : BackfillItems) (tree : Pubkey) (start : Nat) (item : SimpleBackfillItem) : Prop :=
  ∃ row ∈ table.values, row.tree = tree ∧ start ≤ row.seq ∧ SimpleBackfillItem.ofRow row = item

/-- The start of a pass: the greatest sequence number that was backfilled, or 0. -/
def IsStart (table : BackfillItems) (tree : Pubkey) (start : Nat) : Prop :=
  (∀ row ∈ table.values, row.tree = tree → row.backfilled = true → row.seq ≤ start) ∧
    ((∃ row ∈ table.values, row.tree = tree ∧ row.backfilled = true ∧ row.seq = start) ∨
      (start = 0 ∧ ∀ row ∈ table.values, row.tree = tree → row.backfilled = false))

theorem startSeq_isStart (table : BackfillItems) (tree : Pubkey) : IsStart table tree (startSeq table tree) := by
  refine ⟨fun row member ofTree backfilled => le_startSeq member ofTree backfilled, ?_⟩
  by_cases any : ∃ row ∈ table.values, row.tree = tree ∧ row.backfilled = true
  · obtain ⟨row, member, ofTree, backfilled⟩ := any
    exact .inl (startSeq_mem member ofTree backfilled)
  · have none : ∀ row ∈ table.values, row.tree = tree → row.backfilled = false := by
      intro row member ofTree
      rw [← Bool.not_eq_true]
      exact fun backfilled => any ⟨row, member, ofTree, backfilled⟩
    refine .inr ⟨?_, none⟩
    have nothing : table.values.filter (fun row => row.tree = tree && row.backfilled) = [] := by
      refine List.filter_eq_nil_iff.mpr (fun row member chosen => ?_)
      simp only [Bool.and_eq_true, decide_eq_true_eq] at chosen
      rw [none row member chosen.1] at chosen
      cases chosen.2
    rw [startSeq, nothing]
    rfl

/-- The sequence number that is returned is the greatest one of the rows. -/
def IsGreatest (item : SimpleBackfillItem → Prop) (greatest : Option Nat) : Prop :=
  (greatest = none ↔ ∀ row, ¬ item row) ∧
    ∀ n ∈ greatest, (∃ row, item row ∧ row.seq = n) ∧ ∀ row, item row → row.seq ≤ n

theorem last_isGreatest : IsGreatest (Considered table tree start)
    ((rowsFrom table tree start).getLast?.map SimpleBackfillItem.seq) := by
  cases last : (rowsFrom table tree start).getLast? with
  | none =>
    have nothing := List.getLast?_eq_none_iff.mp last
    refine ⟨⟨fun _ item considered => ?_, fun _ => rfl⟩, nofun⟩
    have member := mem_rowsFrom.mpr considered
    rw [nothing] at member
    cases member
  | some item =>
    have considered := mem_rowsFrom.mp (List.mem_of_getLast? last)
    refine ⟨⟨nofun, fun nothing => absurd considered (nothing item)⟩, fun n isSeq => ?_⟩
    cases isSeq
    exact ⟨⟨item, considered, rfl⟩, fun other isOther => rowsFrom_last last (mem_rowsFrom.mpr isOther)⟩

/-- `get_missing_data` refuses the rows of a tree exactly when two of them have one
sequence number and different slots. Otherwise it returns their greatest
sequence number and all the holes between them. -/
theorem getMissingData_holes (table : BackfillItems) (tree : Pubkey) : ∃ start, IsStart table tree start ∧
    ((∃ problem, getMissingData table tree = .error problem) ↔ Conflict (Considered table tree start)) ∧
    ∀ greatest gaps, getMissingData table tree = .ok (greatest, gaps) →
      Holes (Considered table tree start) gaps ∧ IsGreatest (Considered table tree start) greatest := by
  have considered : (· ∈ rowsFrom table tree (startSeq table tree)) = Considered table tree (startSeq table tree) :=
    funext (fun item => propext mem_rowsFrom)
  have sorted := rowsFrom_sorted table tree (startSeq table tree)
  have distinct := rowsFrom_distinct table tree (startSeq table tree)
  refine ⟨startSeq table tree, startSeq_isStart table tree, ?_, fun greatest gaps returned => ?_⟩
  · rw [← considered, ← findGaps_error_iff sorted distinct, getMissingData, missingData]
    cases findGaps (rowsFrom table tree (startSeq table tree)) with
    | error problem => exact ⟨fun _ => ⟨problem, rfl⟩, fun _ => ⟨problem, rfl⟩⟩
    | ok gaps =>
      constructor
      · rintro ⟨problem, failed⟩
        cases failed
      · rintro ⟨problem, failed⟩
        cases failed
  · obtain ⟨found, isFound, isReturned⟩ := Loops.map_eq_ok.mp returned
    cases isReturned
    have holes := findGaps_holes sorted isFound
    rw [considered] at holes
    exact ⟨holes, last_isGreatest⟩

end Queries

end DasIndexer.Backfill
