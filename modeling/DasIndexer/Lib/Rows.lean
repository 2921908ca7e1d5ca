import Mathlib.Algebra.Order.Ring.Nat
import Mathlib.Data.List.Nodup

namespace Sql

/-- A table whose rows are told apart by a surrogate id alone. The ids come
from a counter, so that no id is given out twice. -/
structure Rows (R : Type) where
  entries : List (Nat × R)
  nextId : Nat
  below : ∀ entry ∈ entries, entry.1 < nextId
  distinct : (entries.map Prod.fst).Nodup

namespace Rows
variable {R : Type}

def empty : Rows R where
  entries := []
  nextId := 0
  below := by simp
  distinct := by simp

/-- The rows without their ids. -/
def values (table : Rows R) : List R := table.entries.map Prod.snd

def select (table : Rows R) (condition : R → Bool) : List (Nat × R) :=
  table.entries.filter (fun entry => condition entry.2)

def insert (table : Rows R) (row : R) : Rows R where
  entries := table.entries ++ [(table.nextId, row)]
  nextId := table.nextId + 1
  below := by
    intro entry member
    rcases List.mem_append.mp member with old | new
    · have before := table.below entry old
      omega
    · rw [List.mem_singleton.mp new]
      exact Nat.lt_succ_self _
  distinct := by
    rw [List.map_append, List.nodup_append]
    refine ⟨table.distinct, by simp, fun id inTable other new => ?_⟩
    obtain ⟨entry, member, same⟩ := List.mem_map.mp inTable
    have before := table.below entry member
    have isNext : other = table.nextId := by simpa using new
    omega

def insertAll (table : Rows R) (rows : List R) : Rows R := rows.foldl insert table

/-- The rows that a condition on the entries keeps. -/
def keep (table : Rows R) (condition : Nat × R → Bool) : Rows R where
  entries := table.entries.filter condition
  nextId := table.nextId
  below entry member := table.below entry (List.mem_of_mem_filter member)
  distinct := table.distinct.sublist (List.filter_sublist.map Prod.fst)

def delete (table : Rows R) (condition : R → Bool) : Rows R := table.keep (fun entry => !condition entry.2)

def deleteById (table : Rows R) (id : Nat) : Rows R := table.keep (fun entry => entry.1 != id)

/-- An update that may look at the ids. -/
def modify (table : Rows R) (change : Nat × R → R) : Rows R where
  entries := table.entries.map (fun entry => (entry.1, change entry))
  nextId := table.nextId
  below := by
    intro entry member
    obtain ⟨old, inTable, same⟩ := List.mem_map.mp member
    rw [← same]
    exact table.below old inTable
  distinct := by
    have ids : (table.entries.map (fun entry => (entry.1, change entry))).map Prod.fst =
        table.entries.map Prod.fst := by
      rw [List.map_map]
      rfl
    rw [ids]
    exact table.distinct

def update (table : Rows R) (condition : R → Bool) (change : R → R) : Rows R :=
  table.modify (fun entry => if condition entry.2 then change entry.2 else entry.2)

section Values
variable (table : Rows R)

@[simp] theorem values_insert (row : R) : (table.insert row).values = table.values ++ [row] := by
  simp [values, insert]

@[simp] theorem values_insertAll (rows : List R) : (table.insertAll rows).values = table.values ++ rows := by
  induction rows generalizing table with
  | nil => simp [insertAll]
  | cons row rest ih =>
    have later := ih (table.insert row)
    rw [values_insert, List.append_assoc] at later
    exact later

@[simp] theorem values_delete (condition : R → Bool) :
    (table.delete condition).values = table.values.filter (fun row => !condition row) := by
  simp only [values, delete, keep, List.filter_map]
  rfl

@[simp] theorem values_update (condition : R → Bool) (change : R → R) :
    (table.update condition change).values =
      table.values.map (fun row => if condition row then change row else row) := by
  simp only [values, update, modify, List.map_map]
  rfl

@[simp] theorem mem_deleteById (id : Nat) (entry : Nat × R) :
    entry ∈ (table.deleteById id).entries ↔ entry ∈ table.entries ∧ entry.1 ≠ id := by
  simp [deleteById, keep]

theorem mem_foldl_deleteById (ids : List Nat) (entry : Nat × R) :
    entry ∈ (ids.foldl deleteById table).entries ↔ entry ∈ table.entries ∧ entry.1 ∉ ids := by
  induction ids generalizing table with
  | nil => simp
  | cons id rest ih => rw [List.foldl_cons, ih, mem_deleteById, List.mem_cons, not_or, and_assoc]

theorem values_select (condition : R → Bool) :
    (table.select condition).map Prod.snd = table.values.filter condition := by
  rw [select, values, List.filter_map]
  rfl

/-- Inserted rows come with ids that no row had before. -/
theorem insertAll_entries (rows : List R) :
    ∃ added, (table.insertAll rows).entries = table.entries ++ added ∧ added.map Prod.snd = rows ∧
      (∀ entry ∈ added, table.nextId ≤ entry.1) ∧ table.nextId ≤ (table.insertAll rows).nextId := by
  induction rows generalizing table with
  | nil => exact ⟨[], by simp [insertAll], rfl, by simp, Nat.le_refl _⟩
  | cons row rest ih =>
    obtain ⟨added, entries, values, above, grown⟩ := ih (table.insert row)
    have next : (table.insert row).nextId = table.nextId + 1 := rfl
    refine ⟨(table.nextId, row) :: added, ?_, ?_, ?_, ?_⟩
    · refine entries.trans ?_
      simp [insert]
    · rw [List.map_cons, values]
    · intro entry member
      rcases List.mem_cons.mp member with first | later
      · rw [first]
      · have atLeast := above entry later
        omega
    · exact Nat.le_trans (by omega) grown

/-- Two entries of one id are the same. -/
theorem entry_unique {entry other : Nat × R} (member : entry ∈ table.entries) (otherMember : other ∈ table.entries)
    (same : entry.1 = other.1) : entry = other :=
  List.inj_on_of_nodup_map table.distinct member otherMember same

end Values

end Rows

end Sql
