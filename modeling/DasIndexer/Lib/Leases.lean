import Mathlib.Data.List.Nodup
import Mathlib.Logic.Function.Basic

namespace Leases
variable {ι α : Type} {leases : ι → List α}

/-- No holder lists a resource twice, and no two holders list the same one. -/
structure Exclusive (leases : ι → List α) : Prop where
  nodup : ∀ i, (leases i).Nodup
  disjoint : ∀ i j, i ≠ j → (leases i).Disjoint (leases j)

theorem exclusive_nil : Exclusive (fun _ : ι => ([] : List α)) where
  nodup _ := List.nodup_nil
  disjoint _ _ _ := List.disjoint_nil_left _

variable [DecidableEq ι]

/-- One holder may change its list to one without duplicates that shares
nothing with the lists of the others. -/
theorem Exclusive.replace (exclusive : Exclusive leases) (i : ι) {list : List α} (nodup : list.Nodup)
    (apart : ∀ j, j ≠ i → list.Disjoint (leases j)) : Exclusive (Function.update leases i list) := by
  refine ⟨fun j => ?_, fun j k different => ?_⟩
  · by_cases isHolder : j = i
    · subst isHolder
      rw [Function.update_self]
      exact nodup
    · rw [Function.update_of_ne isHolder]
      exact exclusive.nodup j
  · by_cases isHolder : j = i
    · subst isHolder
      rw [Function.update_self, Function.update_of_ne different.symm]
      exact apart k different.symm
    · by_cases isOther : k = i
      · subst isOther
        rw [Function.update_self, Function.update_of_ne isHolder]
        exact List.disjoint_comm.mp (apart j isHolder)
      · rw [Function.update_of_ne isHolder, Function.update_of_ne isOther]
        exact exclusive.disjoint j k different

theorem Exclusive.shrink (exclusive : Exclusive leases) (i : ι) {list : List α} (smaller : list.Sublist (leases i)) :
    Exclusive (Function.update leases i list) := by
  refine exclusive.replace i ((exclusive.nodup i).sublist smaller) (fun j different x inList inOther => ?_)
  exact exclusive.disjoint j i different inOther (smaller.subset inList)

theorem Exclusive.take (exclusive : Exclusive leases) (i : ι) {list : List α} (nodup : list.Nodup)
    (unclaimed : ∀ j, (leases j).Disjoint list) : Exclusive (Function.update leases i (leases i ++ list)) := by
  refine exclusive.replace i ((exclusive.nodup i).append nodup (unclaimed i)) (fun j different x inList inOther => ?_)
  rcases List.mem_append.mp inList with old | new
  · exact exclusive.disjoint j i different inOther old
  · exact unclaimed j inOther new

end Leases
