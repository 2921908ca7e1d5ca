import Mathlib.Algebra.Order.Ring.Nat
import Mathlib.Logic.Function.Basic
import Mathlib.Data.List.Induction

namespace Merkle

section Trees
variable {H : Type} (hash : H → H → H)

/-- The node at a height and position of the perfect tree over a row of leaves:
it stands above the leaves `position * 2 ^ height`, .. of its subtree. -/
def node : Nat → (Nat → H) → Nat → H
  | 0, leaves, position => leaves position
  | height + 1, leaves, position =>
    hash (node height leaves (2 * position)) (node height leaves (2 * position + 1))

def sibling (position : Nat) : Nat := if position % 2 = 0 then position + 1 else position - 1

/-- Hashes a value with siblings on the way up; the parity of the index says on
which side the sibling stands. -/
def climb : H → Nat → List H → H
  | value, _, [] => value
  | value, index, other :: rest =>
    climb (if index % 2 = 0 then hash value other else hash other value) (index / 2) rest

variable {hash} {leaves : Nat → H}

theorem node_parent (height position : Nat) :
    node hash (height + 1) leaves (position / 2) =
      if position % 2 = 0 then hash (node hash height leaves position) (node hash height leaves (sibling position))
      else hash (node hash height leaves (sibling position)) (node hash height leaves position) := by
  rw [node]
  by_cases even : position % 2 = 0
  · have left : 2 * (position / 2) = position := by omega
    rw [if_pos even, sibling, if_pos even, left]
  · have left : 2 * (position / 2) = position - 1 := by omega
    have right : position - 1 + 1 = position := by omega
    rw [if_neg even, sibling, if_neg even, left, right]

variable (hash leaves) in
/-- The siblings of a path carry its value up to the node above. -/
theorem climb_siblings (count height position index : Nat)
    (parity : ∀ i < count, index / 2 ^ i % 2 = position / 2 ^ i % 2) :
    climb hash (node hash height leaves position) index
      ((List.range count).map (fun i => node hash (height + i) leaves (sibling (position / 2 ^ i)))) =
      node hash (height + count) leaves (position / 2 ^ count) := by
  induction count generalizing height position index with
  | zero => simp [climb]
  | succ count ih =>
    have here := parity 0 (Nat.succ_pos count)
    simp only [Nat.pow_zero, Nat.div_one] at here
    have up := ih (height + 1) (position / 2) (index / 2) (fun i small => by
      have next := parity (i + 1) (Nat.succ_lt_succ small)
      rwa [Nat.pow_succ', ← Nat.div_div_eq_div_mul, ← Nat.div_div_eq_div_mul] at next)
    rw [List.range_succ_eq_map, List.map_cons, climb, here, Nat.add_zero, Nat.pow_zero, Nat.div_one, ← node_parent]
    have shifted : ((List.range count).map Nat.succ).map
          (fun i => node hash (height + i) leaves (sibling (position / 2 ^ i))) =
        (List.range count).map (fun i => node hash (height + 1 + i) leaves (sibling (position / 2 / 2 ^ i))) := by
      rw [List.map_map]
      refine List.map_congr_left (fun i _ => ?_)
      have height' : height + (i + 1) = height + 1 + i := by omega
      simp only [Function.comp_apply, Nat.succ_eq_add_one, height', Nat.pow_succ', Nat.div_div_eq_div_mul]
    rw [shifted, up, Nat.pow_succ', ← Nat.div_div_eq_div_mul]
    congr 1
    omega

/-- A leaf outside a subtree does not change its root. -/
theorem node_update {height position leaf : Nat} (outside : leaf / 2 ^ height ≠ position) (value : H) :
    node hash height (Function.update leaves leaf value) position = node hash height leaves position := by
  induction height generalizing position with
  | zero =>
    rw [Nat.pow_zero, Nat.div_one] at outside
    exact Function.update_of_ne outside.symm _ _
  | succ height ih =>
    have halves : leaf / 2 ^ height / 2 ≠ position := by
      rwa [Nat.div_div_eq_div_mul, ← Nat.pow_succ]
    rw [node, node, ih (by omega), ih (by omega)]

/-- The root of a subtree without leaves. -/
theorem node_empty {empty : Nat → H} (doubling : ∀ level, empty (level + 1) = hash (empty level) (empty level))
    (height position : Nat) : node hash height (fun _ => empty 0) position = empty height := by
  induction height generalizing position with
  | zero => rfl
  | succ height ih => rw [node, ih, ih, doubling]

end Trees

section Histories
variable {H : Type} (hash : H → H → H) (blank : H)

/-- The leaves after a history of writes to an empty tree. -/
def leavesAfter (writes : List (Nat × H)) : Nat → H :=
  writes.foldl (fun leaves write => Function.update leaves write.1 write.2) (fun _ => blank)

variable {hash blank}

theorem leavesAfter_concat (writes : List (Nat × H)) (write : Nat × H) :
    leavesAfter blank (writes ++ [write]) = Function.update (leavesAfter blank writes) write.1 write.2 := by
  rw [leavesAfter, List.foldl_append]
  rfl

variable (hash blank) in
/-- Later writes outside a subtree leave its root as it was. -/
theorem node_leavesAfter_append {height position : Nat} (earlier later : List (Nat × H))
    (outside : ∀ write ∈ later, write.1 / 2 ^ height ≠ position) :
    node hash height (leavesAfter blank (earlier ++ later)) position =
      node hash height (leavesAfter blank earlier) position := by
  induction later using List.reverseRecOn with
  | nil => rw [List.append_nil]
  | append_singleton rest write ih =>
    have last := outside write (List.mem_append_right _ List.mem_cons_self)
    rw [← List.append_assoc, leavesAfter_concat, node_update last]
    exact ih (fun other member => outside other (List.mem_append_left _ member))

/-- A subtree that no write touches is empty. -/
theorem node_leavesAfter_untouched {empty : Nat → H}
    (doubling : ∀ level, empty (level + 1) = hash (empty level) (empty level)) {height position : Nat}
    (writes : List (Nat × H)) (outside : ∀ write ∈ writes, write.1 / 2 ^ height ≠ position) :
    node hash height (leavesAfter (empty 0) writes) position = empty height := by
  have untouched := node_leavesAfter_append hash (empty 0) [] writes outside
  rw [List.nil_append] at untouched
  rw [untouched]
  exact node_empty doubling height position

end Histories

end Merkle
