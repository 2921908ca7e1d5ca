import DasIndexer.Lib.Sql
import DasIndexer.Lib.Latest

namespace Sql
open Latest

section Versioned
variable {W R V : Type} [LinearOrder V] {ver : W → V} {model : W → R} {clause : OnConflict R}
  {c : Option W} {w : W}

/-- A clause that refuses older versions and overwrites otherwise keeps the
newest row. -/
theorem OnConflict.resolve_newer
    (filter : ∀ x, c = some x → (clause.filter (model x) (model w)).holds = decide (ver x ≤ ver w))
    (set : ∀ x, c = some x → clause.set (model x) (model w) = model w) :
    some (clause.resolve (model w) (c.map model)) = (some (newer ver c w)).map model := by
  cases c with
  | none => rfl
  | some x =>
    rw [newer_eq_ite, Option.map_some, OnConflict.resolve, filter x rfl, set x rfl]
    by_cases older : ver x ≤ ver w
    · simp [older]
    · simp [older]

/-- A clause that asks for a newer version keeps the first newest row. -/
theorem OnConflict.resolve_strictlyNewer
    (filter : ∀ x, c = some x → (clause.filter (model x) (model w)).holds = decide (ver x < ver w))
    (set : ∀ x, c = some x → clause.set (model x) (model w) = model w) :
    some (clause.resolve (model w) (c.map model)) = (some (strictlyNewer ver c w)).map model := by
  cases c with
  | none => rfl
  | some x =>
    rw [strictlyNewer_eq_ite, Option.map_some, OnConflict.resolve, filter x rfl, set x rfl]
    by_cases older : ver x < ver w
    · simp [older]
    · simp [older]

/-- When versions name their writes, it does not matter what a clause says to
equal versions. -/
theorem OnConflict.resolve_identified
    (accepts : ∀ x, c = some x → ver x < ver w → (clause.filter (model x) (model w)).holds = true)
    (refuses : ∀ x, c = some x → ver w < ver x → (clause.filter (model x) (model w)).holds = false)
    (identifies : ∀ x, c = some x → ver x = ver w → x = w)
    (set : ∀ x, c = some x → clause.set (model x) (model w) = model w) :
    some (clause.resolve (model w) (c.map model)) = (some (newer ver c w)).map model := by
  cases c with
  | none => rfl
  | some x =>
    rw [Option.map_some, OnConflict.resolve, set x rfl, newer]
    rcases lt_trichotomy (ver x) (ver w) with older | same | later
    · simp [accepts x rfl older, not_lt.mpr older.le]
    · simp [identifies x rfl same]
    · simp [refuses x rfl later, later]

end Versioned

end Sql
