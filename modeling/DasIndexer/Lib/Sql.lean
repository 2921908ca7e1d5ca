import Mathlib.Algebra.Order.Ring.Nat
import Mathlib.Data.List.AList
import Mathlib.Data.List.Induction

namespace Sql

/-- Value of a `WHERE` clause: SQL comparisons with `NULL` are neither true
nor false, and only a true clause selects a row. -/
inductive Truth where
  | yes
  | no
  | null
  deriving DecidableEq, Repr

namespace Truth

def ofBool (b : Bool) : Truth := if b then .yes else .no

def and : Truth → Truth → Truth
  | .no, _ => .no
  | _, .no => .no
  | .yes, .yes => .yes
  | _, _ => .null

def or : Truth → Truth → Truth
  | .yes, _ => .yes
  | _, .yes => .yes
  | .no, .no => .no
  | _, _ => .null

def holds : Truth → Bool
  | .yes => true
  | _ => false

instance : AndOp Truth := ⟨Truth.and⟩
instance : OrOp Truth := ⟨Truth.or⟩

@[simp] theorem holds_ofBool (b : Bool) : (ofBool b).holds = b := by
  cases b <;> rfl

@[simp] theorem holds_and (a b : Truth) : (a &&& b).holds = (a.holds && b.holds) := by
  cases a <;> cases b <;> rfl

@[simp] theorem holds_or (a b : Truth) : (a ||| b).holds = (a.holds || b.holds) := by
  cases a <;> cases b <;> rfl

end Truth

section Comparisons
variable {α : Type}

/-- Lifts a comparison of values to nullable columns. -/
def compare (test : α → α → Bool) : Option α → Option α → Truth
  | some x, some y => .ofBool (test x y)
  | _, _ => .null

def ne [DecidableEq α] : Option α → Option α → Truth := compare (fun x y => x != y)

def ge [LE α] [DecidableLE α] : Option α → Option α → Truth := compare (fun x y => y ≤ x)

def gt [LT α] [DecidableLT α] : Option α → Option α → Truth := compare (fun x y => y < x)

def isNull (x : Option α) : Truth := .ofBool x.isNone

@[simp] theorem holds_ne [DecidableEq α] (x : Option α) (y : α) :
    (ne x (some y)).holds = (x.isSome && x != some y) := by
  cases x with
  | none => rfl
  | some v => simp [ne, compare]; rfl

@[simp] theorem holds_ge [LE α] [DecidableLE α] (x : α) (y : Option α) :
    (ge (some x) y).holds = y.any (fun v => v ≤ x) := by
  cases y with
  | none => rfl
  | some v => simp [ge, compare]

@[simp] theorem holds_gt [LT α] [DecidableLT α] (x : α) (y : Option α) :
    (gt (some x) y).holds = y.any (fun v => v < x) := by
  cases y with
  | none => rfl
  | some v => simp [gt, compare]

@[simp] theorem holds_isNull (x : Option α) : (isNull x).holds = x.isNone := by
  simp [isNull]

/-- `x != y OR x IS NULL`. -/
theorem holds_ne_or_isNull [DecidableEq α] {x : Option α} {y : α} (different : x ≠ some y) :
    (ne x (some y) ||| isNull x).holds = true := by
  cases x with
  | none => rfl
  | some v => simpa using different

/-- `x >= y OR y IS NULL`. -/
theorem holds_ge_or_isNull [LE α] [DecidableLE α] (x : α) (y : Option α) :
    (ge (some x) y ||| isNull y).holds = y.all (fun v => v ≤ x) := by
  cases y with
  | none => rfl
  | some v => simp

theorem holds_ge_or_isNull_of [LE α] [DecidableLE α] {x : Option α} {v : α} (known : x = some v)
    (y : Option α) : (ge x y ||| isNull y).holds = y.all (fun u => u ≤ v) := by
  rw [known, holds_ge_or_isNull]

/-- `(y != z AND x >= y) OR y IS NULL`. -/
theorem holds_ne_and_ge_or_isNull [DecidableEq α] [LE α] [DecidableLE α] (x z : α) (y : Option α) :
    ((ne y (some z) &&& ge (some x) y) ||| isNull y).holds = y.all (fun v => v != z && v ≤ x) := by
  cases y with
  | none => rfl
  | some v =>
    simp
    rfl

/-- `GREATEST` skips nulls and is null only when every argument is. -/
def greatest [Max α] : List (Option α) → Option α :=
  List.foldl (fun best x => match best, x with
    | none, _ => x
    | some _, none => best
    | some b, some v => some (max b v)) none

end Comparisons

/-- A table with a unique key. The surrogate ids of the real tables carry no
information and are left out; rows are found by the unique key alone. -/
abbrev Table (K R : Type) := AList (fun _ : K => R)

/-- The clause `ON CONFLICT (key) DO UPDATE SET .. WHERE ..`. Both parts see
the stored row first and the proposed row, `excluded`, second. -/
structure OnConflict (R : Type) where
  set : R → R → R
  filter : R → R → Truth

/-- `ON CONFLICT (key) DO NOTHING`. -/
def OnConflict.doNothing {R : Type} : OnConflict R where
  set row _ := row
  filter _ _ := .no

/-- The row under a key after an upsert that found `stored` there. -/
def OnConflict.resolve {R : Type} (clause : OnConflict R) (excluded : R) : Option R → R
  | none => excluded
  | some row => if (clause.filter row excluded).holds then clause.set row excluded else row

section Tables
variable {K R : Type} [DecidableEq K]

def Table.upsert (table : Table K R) (key : K) (excluded : R) (clause : OnConflict R) : Table K R :=
  table.insert key (clause.resolve excluded (table.lookup key))

/-- `INSERT` of several rows in one statement. The rows are assumed to have
different keys: Postgres refuses to change one row twice in a statement. -/
def Table.upsertMany (table : Table K R) (rows : List (K × R)) (clause : OnConflict R) : Table K R :=
  rows.foldl (fun t entry => Table.upsert t entry.1 entry.2 clause) table

@[simp] theorem Table.lookup_upsert_self (table : Table K R) (key : K) (excluded : R)
    (clause : OnConflict R) :
    (Table.upsert table key excluded clause).lookup key =
      some (clause.resolve excluded (table.lookup key)) :=
  AList.lookup_insert table

theorem Table.lookup_upsert_ne (table : Table K R) {key other : K} (different : other ≠ key)
    (excluded : R) (clause : OnConflict R) :
    (Table.upsert table key excluded clause).lookup other = table.lookup other :=
  AList.lookup_insert_ne different

theorem Table.lookup_upsert (table : Table K R) (key other : K) (excluded : R)
    (clause : OnConflict R) :
    (Table.upsert table key excluded clause).lookup other =
      if other = key then some (clause.resolve excluded (table.lookup other))
      else table.lookup other := by
  by_cases same : other = key
  · subst same
    simp
  · rw [if_neg same, Table.lookup_upsert_ne table same]

theorem Table.lookup_upsertMany_absent (table : Table K R) (rows : List (K × R))
    (clause : OnConflict R) {key : K} (absent : ∀ entry ∈ rows, entry.1 ≠ key) :
    (Table.upsertMany table rows clause).lookup key = table.lookup key := by
  induction rows generalizing table with
  | nil => rfl
  | cons entry rest ih =>
    have others : ∀ later ∈ rest, later.1 ≠ key := fun later member =>
      absent later (List.mem_cons_of_mem _ member)
    have first : key ≠ entry.1 := (absent entry List.mem_cons_self).symm
    rw [Table.upsertMany, List.foldl_cons]
    exact (ih _ others).trans (Table.lookup_upsert_ne table first _ _)

/-- A key proposed once in the statement is resolved once. -/
theorem Table.lookup_upsertMany_mem (table : Table K R) (rows : List (K × R))
    (clause : OnConflict R) {key : K} {row : R} (distinct : (rows.map Prod.fst).Nodup)
    (member : (key, row) ∈ rows) :
    (Table.upsertMany table rows clause).lookup key =
      some (clause.resolve row (table.lookup key)) := by
  induction rows generalizing table with
  | nil => simp at member
  | cons entry rest ih =>
    rw [List.map_cons, List.nodup_cons] at distinct
    rw [Table.upsertMany, List.foldl_cons]
    rcases List.mem_cons.mp member with same | later
    · subst same
      have absent : ∀ other ∈ rest, other.1 ≠ key := fun other inRest equal =>
        distinct.1 (List.mem_map.mpr ⟨other, inRest, equal⟩)
      exact (Table.lookup_upsertMany_absent _ rest clause absent).trans
        (Table.lookup_upsert_self table key row clause)
    · have different : key ≠ entry.1 := fun equal =>
        distinct.1 (List.mem_map.mpr ⟨(key, row), later, equal⟩)
      have rest := ih (Table.upsert table entry.1 entry.2 clause) distinct.2 later
      rwa [Table.lookup_upsert_ne table different] at rest

/-- A map filled by inserting one entry for each item, in order. -/
def Table.insertAll {α : Type} (items : List α) (key : α → K) (value : α → R) : Table K R :=
  items.foldl (fun table item => table.insert (key item) (value item)) ∅

theorem Table.insertAll_concat {α : Type} (items : List α) (item : α) (key : α → K) (value : α → R) :
    Table.insertAll (items ++ [item]) key value =
      (Table.insertAll items key value).insert (key item) (value item) := by
  rw [Table.insertAll, List.foldl_append]
  rfl

/-- When the key of an item determines its value, the order of the insertions
leaves no trace. -/
theorem Table.lookup_insertAll_iff {α : Type} {items : List α} {key : α → K} {value : α → R}
    (determined : ∀ x ∈ items, ∀ y ∈ items, key x = key y → value x = value y) (place : K) (found : R) :
    (Table.insertAll items key value).lookup place = some found ↔
      ∃ item ∈ items, key item = place ∧ value item = found := by
  induction items using List.reverseRecOn with
  | nil => simp [Table.insertAll]
  | append_singleton earlier last ih =>
    have before := ih (fun x inX y inY => determined x (List.mem_append_left _ inX) y (List.mem_append_left _ inY))
    have atEnd : last ∈ earlier ++ [last] := List.mem_append_right _ List.mem_cons_self
    rw [Table.insertAll_concat]
    by_cases here : place = key last
    · subst here
      rw [AList.lookup_insert, Option.some_inj]
      constructor
      · intro same
        exact ⟨last, atEnd, rfl, same⟩
      · rintro ⟨item, member, sameKey, sameValue⟩
        rw [← sameValue]
        exact (determined item member last atEnd sameKey).symm
    · rw [AList.lookup_insert_ne here, before]
      constructor
      · rintro ⟨item, member, sameKey, sameValue⟩
        exact ⟨item, List.mem_append_left _ member, sameKey, sameValue⟩
      · rintro ⟨item, member, sameKey, sameValue⟩
        rcases List.mem_append.mp member with old | new
        · exact ⟨item, old, sameKey, sameValue⟩
        · rw [List.mem_singleton.mp new] at sameKey
          exact absurd sameKey.symm here

/-- A map from the key of each item to the item itself. -/
theorem Table.lookup_insertAll_self {α : Type} {items : List α} {key : α → K}
    (determined : ∀ x ∈ items, ∀ y ∈ items, key x = key y → x = y) (place : K) (found : α) :
    (Table.insertAll items key id).lookup place = some found ↔ found ∈ items ∧ key found = place := by
  have inserted : (Table.insertAll items key id).lookup place = some found ↔
      ∃ item ∈ items, key item = place ∧ id item = found :=
    Table.lookup_insertAll_iff determined place found
  rw [inserted]
  constructor
  · rintro ⟨item, member, here, same⟩
    rw [← same]
    exact ⟨member, here⟩
  · rintro ⟨member, here⟩
    exact ⟨found, member, here, rfl⟩

theorem Table.lookup_insert_cases {table : Table K R} {key other : K} {row found : R}
    (stored : (table.insert key row).lookup other = some found) :
    (other = key ∧ found = row) ∨ table.lookup other = some found := by
  by_cases same : other = key
  · subst same
    rw [AList.lookup_insert, Option.some_inj] at stored
    exact Or.inl ⟨rfl, stored.symm⟩
  · rw [AList.lookup_insert_ne same] at stored
    exact Or.inr stored

theorem Table.mem_entries_iff {table : Table K R} {key : K} {row : R} :
    (⟨key, row⟩ : Sigma (fun _ : K => R)) ∈ table.entries ↔ table.lookup key = some row :=
  AList.mem_lookup_iff.symm

end Tables

end Sql
