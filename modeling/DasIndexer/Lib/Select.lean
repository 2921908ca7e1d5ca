import DasIndexer.Lib.Sql
import Mathlib.Data.List.Sort

namespace Sql

namespace Truth

def not : Truth → Truth
  | .yes => .no
  | .no => .yes
  | .null => .null

/-- `AND` of all the terms. -/
def all (terms : List Truth) : Truth := terms.foldl and .yes

/-- `OR` of all the terms, of which there is at least one. -/
def any (terms : List Truth) : Truth := terms.foldl or .no

theorem holds_all (terms : List Truth) : (all terms).holds = terms.all holds := by
  have start : ∀ first : Truth, (terms.foldl and first).holds = (first.holds && terms.all holds) := by
    induction terms with
    | nil => simp
    | cons term rest ih =>
      intro first
      have step : (first.and term).holds = (first.holds && term.holds) := holds_and first term
      rw [List.foldl_cons, ih, step, List.all_cons, Bool.and_assoc]
  rw [all, start]
  rfl

theorem holds_any (terms : List Truth) : (any terms).holds = terms.any holds := by
  have start : ∀ first : Truth, (terms.foldl or first).holds = (first.holds || terms.any holds) := by
    induction terms with
    | nil => simp
    | cons term rest ih =>
      intro first
      have step : (first.or term).holds = (first.holds || term.holds) := holds_or first term
      rw [List.foldl_cons, ih, step, List.any_cons, Bool.or_assoc]
  rw [any, start]
  rfl

theorem holds_not {term : Truth} : term.not.holds = true ↔ term = .no := by
  cases term <;> decide

theorem all_eq_no_iff {terms : List Truth} : all terms = .no ↔ ∃ term ∈ terms, term = .no := by
  have start : ∀ first : Truth, terms.foldl and first = .no ↔ first = .no ∨ ∃ term ∈ terms, term = .no := by
    induction terms with
    | nil => simp
    | cons term rest ih =>
      intro first
      have step : first.and term = .no ↔ first = .no ∨ term = .no := by cases first <;> cases term <;> decide
      rw [List.foldl_cons, ih, step, List.exists_mem_cons_iff, or_assoc]
  rw [all, start]
  exact or_iff_right nofun

theorem any_eq_no_iff {terms : List Truth} : any terms = .no ↔ ∀ term ∈ terms, term = .no := by
  have start : ∀ first : Truth, terms.foldl or first = .no ↔ first = .no ∧ ∀ term ∈ terms, term = .no := by
    induction terms with
    | nil => simp
    | cons term rest ih =>
      intro first
      have step : first.or term = .no ↔ first = .no ∧ term = .no := by cases first <;> cases term <;> decide
      rw [List.foldl_cons, ih, step, List.forall_mem_cons, and_assoc]
  rw [any, start]
  exact and_iff_right rfl

end Truth

section Comparisons
variable {α : Type}

def eq [DecidableEq α] : Option α → Option α → Truth := compare (fun x y => x = y)

def lt [LT α] [DecidableLT α] : Option α → Option α → Truth := compare (fun x y => x < y)

def le [LE α] [DecidableLE α] : Option α → Option α → Truth := compare (fun x y => x ≤ y)

def isNotNull (x : Option α) : Truth := .ofBool x.isSome

@[simp] theorem holds_eq [DecidableEq α] (x : Option α) (y : α) :
    (Sql.eq x (some y)).holds = decide (x = some y) := by
  cases x with
  | none => rfl
  | some v => simp [Sql.eq, compare]

/-- A filter rejects a row for certain only when the column is not null. -/
theorem eq_no_iff [DecidableEq α] {x : Option α} {y : α} : Sql.eq x (some y) = .no ↔ ∃ v, x = some v ∧ v ≠ y := by
  cases x with
  | none => simp [Sql.eq, compare]
  | some v => simp [Sql.eq, compare, Truth.ofBool]

end Comparisons

/-- `LEFT JOIN`: a row without a partner stays, with nulls beside it. -/
def leftJoin {α β : Type} (left : List α) (right : List β) (on : α → β → Bool) : List (α × Option β) :=
  left.flatMap (fun a =>
    if right.any (on a) then (right.filter (on a)).map (fun b => (a, some b)) else [(a, none)])

/-- A `SELECT` statement under construction. -/
structure Select (R : Type) where
  source : List R
  filters : List (R → Truth) := []
  orderBy : Option (R → R → Bool) := none
  offset : Nat := 0
  limit : Option Nat := none

namespace Select
variable {R : Type}

def filter (stmt : Select R) (condition : R → Truth) : Select R :=
  { stmt with filters := stmt.filters ++ [condition] }

def keeps (stmt : Select R) (row : R) : Bool := stmt.filters.all (fun condition => (condition row).holds)

/-- The rows before they are cut by `OFFSET` and `LIMIT`. Without `ORDER BY`
they come in the order of the table. -/
def rows (stmt : Select R) : List R :=
  match stmt.orderBy with
  | some below => (stmt.source.filter stmt.keeps).insertionSort (fun x y => below x y)
  | none => stmt.source.filter stmt.keeps

def all (stmt : Select R) : List R :=
  match stmt.limit with
  | some limit => (stmt.rows.drop stmt.offset).take limit
  | none => stmt.rows.drop stmt.offset

theorem rows_perm (stmt : Select R) : stmt.rows.Perm (stmt.source.filter stmt.keeps) := by
  unfold rows
  split
  · exact List.perm_insertionSort _ _
  · exact .refl _

theorem all_subset (stmt : Select R) : stmt.all ⊆ stmt.rows := by
  intro row inAll
  unfold all at inAll
  split at inAll
  · exact List.mem_of_mem_drop (List.mem_of_mem_take inAll)
  · exact List.mem_of_mem_drop inAll

@[simp] theorem keeps_filter (stmt : Select R) (condition : R → Truth) (row : R) :
    (stmt.filter condition).keeps row = (stmt.keeps row && (condition row).holds) := by
  simp [keeps, filter]

/-- One more condition keeps some of the rows, up to their order. -/
theorem rows_filter_perm (stmt : Select R) (condition : R → Truth) :
    (stmt.filter condition).rows.Perm (stmt.rows.filter (fun row => (condition row).holds)) := by
  refine (rows_perm _).trans ?_
  have source : (stmt.filter condition).source = stmt.source := rfl
  have both : stmt.source.filter (stmt.filter condition).keeps =
      (stmt.source.filter stmt.keeps).filter (fun row => (condition row).holds) := by
    rw [List.filter_filter]
    exact List.filter_congr (fun row _ => by rw [keeps_filter, Bool.and_comm])
  rw [source, both]
  exact ((rows_perm stmt).filter _).symm

end Select

end Sql
