import DasIndexer.Lib.IndexMap
import Mathlib.Data.List.Destutter

namespace Neighbours
variable {α : Type} [DecidableEq α]

/-- Equal elements stand next to each other: none comes again after another one. -/
def Grouped (l : List α) : Prop := ∀ x y, [x, y, x].Sublist l → x = y

theorem grouped_cons_self {a : α} {l : List α} : Grouped (a :: a :: l) ↔ Grouped (a :: l) := by
  constructor
  · intro grouped x y within
    exact grouped x y (within.cons a)
  · intro grouped x y within
    rcases List.sublist_cons_iff.mp within with later | ⟨pair, same, later⟩
    · exact grouped x y later
    · cases same
      by_contra different
      rcases List.sublist_cons_iff.mp later with behind | ⟨last, same, -⟩
      · exact different (grouped a y (behind.cons_cons a))
      · cases same
        exact different rfl

omit [DecidableEq α] in
theorem grouped_cons_of_ne {a b : α} {l : List α} (different : a ≠ b) :
    Grouped (a :: b :: l) ↔ a ∉ b :: l ∧ Grouped (b :: l) := by
  constructor
  · intro grouped
    refine ⟨fun again => ?_, fun x y within => grouped x y (within.cons a)⟩
    rcases List.mem_cons.mp again with same | later
    · exact different same
    · exact different (grouped a b (((List.singleton_sublist.mpr later).cons_cons b).cons_cons a))
  · rintro ⟨once, grouped⟩ x y within
    rcases List.sublist_cons_iff.mp within with later | ⟨pair, same, later⟩
    · exact grouped x y later
    · cases same
      exact absurd (later.subset (List.mem_cons_of_mem _ List.mem_cons_self)) once

section FromFirst
variable {a x : α} {l : List α}

theorem mem_destutter' : x ∈ l.destutter' (· ≠ ·) a ↔ x ∈ a :: l := by
  induction l generalizing a with
  | nil => exact Iff.rfl
  | cons b rest ih =>
    by_cases same : a = b
    · subst same
      rw [List.destutter'_cons_neg _ (by simp), ih]
      simp
    · rw [List.destutter'_cons_pos _ same, List.mem_cons, ih, ← List.mem_cons]

theorem nodup_destutter'_iff : (l.destutter' (· ≠ ·) a).Nodup ↔ Grouped (a :: l) := by
  induction l generalizing a with
  | nil =>
    refine iff_of_true (List.nodup_singleton a) (fun x y within => ?_)
    have short := within.length_le
    simp at short
  | cons b rest ih =>
    by_cases same : a = b
    · subst same
      rw [List.destutter'_cons_neg _ (by simp), ih, grouped_cons_self]
    · rw [List.destutter'_cons_pos _ same, List.nodup_cons, ih, mem_destutter', grouped_cons_of_ne same]

theorem eraseDups_destutter' : (l.destutter' (· ≠ ·) a).eraseDups = (a :: l).eraseDups := by
  induction l generalizing a with
  | nil => rfl
  | cons b rest ih =>
    by_cases same : a = b
    · subst same
      rw [List.destutter'_cons_neg _ (by simp), ih, List.eraseDups_cons,
        @List.eraseDups_cons _ _ a (a :: rest)]
      simp
    · rw [List.destutter'_cons_pos _ same, List.eraseDups_cons, ← IndexMap.filter_eraseDups, ih,
        IndexMap.filter_eraseDups, ← List.eraseDups_cons]

end FromFirst

variable {l : List α}

theorem mem_destutter {x : α} : x ∈ l.destutter (· ≠ ·) ↔ x ∈ l := by
  cases l with
  | nil => exact Iff.rfl
  | cons a rest => exact mem_destutter'

/-- Where only neighbours are compared, no repetition is left exactly when equal
elements stand next to each other. -/
theorem nodup_destutter_iff : (l.destutter (· ≠ ·)).Nodup ↔ Grouped l := by
  cases l with
  | nil =>
    refine iff_of_true List.nodup_nil (fun x y within => ?_)
    have short := within.length_le
    simp at short
  | cons a rest => exact nodup_destutter'_iff

theorem eraseDups_destutter : (l.destutter (· ≠ ·)).eraseDups = l.eraseDups := by
  cases l with
  | nil => rfl
  | cons a rest => exact eraseDups_destutter'

theorem eraseDups_eq_self (distinct : l.Nodup) : l.eraseDups = l := by
  induction l with
  | nil => rfl
  | cons a rest ih =>
    obtain ⟨once, others⟩ := List.nodup_cons.mp distinct
    rw [List.eraseDups_cons, ← IndexMap.filter_eraseDups, ih others, List.filter_eq_self.mpr]
    intro b member
    rw [Bool.not_eq_true', beq_eq_false_iff_ne]
    intro same
    exact once (same ▸ member)

theorem length_eraseDups_le : l.eraseDups.length ≤ (l.destutter (· ≠ ·)).length := by
  rw [← eraseDups_destutter]
  exact (IndexMap.eraseDups_sublist _).length_le

/-- Comparing neighbours only leaves as many elements as there are different ones
just when equal ones stand next to each other. -/
theorem length_destutter_eq_iff : (l.destutter (· ≠ ·)).length = l.eraseDups.length ↔ Grouped l := by
  rw [← nodup_destutter_iff, ← eraseDups_destutter]
  constructor
  · intro same
    rw [← (IndexMap.eraseDups_sublist _).eq_of_length same.symm]
    exact IndexMap.nodup_eraseDups _
  · intro distinct
    rw [eraseDups_eq_self distinct]

theorem destutter_eq_eraseDups (grouped : Grouped l) : l.destutter (· ≠ ·) = l.eraseDups := by
  rw [← eraseDups_destutter, eraseDups_eq_self (nodup_destutter_iff.mpr grouped)]

end Neighbours
