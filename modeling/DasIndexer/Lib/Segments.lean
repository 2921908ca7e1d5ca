import Mathlib.Data.List.Perm.Basic

namespace Segments
variable {α : Type}

/-- The elements of a list, each with what follows it. -/
def suffixes : List α → List (α × List α)
  | [] => []
  | x :: rest => (x, rest) :: suffixes rest

theorem suffixes_heads (xs : List α) : (suffixes xs).map Prod.fst = xs := by
  induction xs with
  | nil => rfl
  | cons x rest ih =>
    have heads : (suffixes (x :: rest)).map Prod.fst = x :: (suffixes rest).map Prod.fst := rfl
    rw [heads, ih]

/-- A scan that counts the elements and drops as many from the list. -/
theorem zipIdx_drop (front xs : List α) :
    (xs.zipIdx front.length).map (fun entry => (entry.1, (front ++ xs).drop (entry.2 + 1))) = suffixes xs := by
  induction xs generalizing front with
  | nil => rfl
  | cons x rest ih =>
    have longer : (front ++ [x]).length = front.length + 1 := List.length_append
    have later := ih (front ++ [x])
    rw [longer, List.append_assoc, List.singleton_append] at later
    have first : (front ++ x :: rest).drop (front.length + 1) = rest := by
      rw [List.drop_append, List.drop_eq_nil_of_le (Nat.le_succ _), List.nil_append]
      have one : front.length + 1 - front.length = 1 := by omega
      rw [one]
      rfl
    rw [List.zipIdx_cons, List.map_cons, later, first]
    rfl

theorem suffixes_eq (xs : List α) :
    suffixes xs = xs.zipIdx.map (fun entry => (entry.1, xs.drop (entry.2 + 1))) :=
  (zipIdx_drop [] xs).symm

variable (p : α → Bool)

/-- The elements that satisfy `p`, each followed by what comes up to the next of
them, are the end of the list from the first of them on. -/
theorem segments_cover (xs : List α) :
    ((suffixes xs).filter (fun s => p s.1)).flatMap (fun s => s.1 :: s.2.takeWhile (fun y => !p y)) =
      xs.dropWhile (fun y => !p y) := by
  induction xs with
  | nil => rfl
  | cons x rest ih =>
    have split : suffixes (x :: rest) = (x, rest) :: suffixes rest := rfl
    rw [split, List.filter_cons, List.dropWhile_cons]
    cases isHead : p x with
    | false =>
      rw [if_neg (by simp), if_pos (by simp)]
      exact ih
    | true =>
      rw [if_pos rfl, if_neg (by simp), List.flatMap_cons, ih, List.cons_append, List.takeWhile_append_dropWhile]

/-- Taken by a number below a bound, one number after the other, a list is
rearranged. -/
theorem grouped_perm (key : α → Nat) (n : Nat) (xs : List α) (below : ∀ x ∈ xs, key x < n) :
    ((List.range n).flatMap (fun i => xs.filter (fun x => key x = i))).Perm xs := by
  have upTo : ∀ m, ((List.range m).flatMap (fun i => xs.filter (fun x => key x = i))).Perm
      (xs.filter (fun x => key x < m)) := by
    intro m
    induction m with
    | zero => simp
    | succ m ih =>
      have lower : (xs.filter (fun x => key x < m + 1)).filter (fun x => key x < m) =
          xs.filter (fun x => key x < m) := by
        rw [List.filter_filter]
        refine List.filter_congr (fun x _ => ?_)
        rw [← Bool.decide_and, decide_eq_decide]
        omega
      have upper : (xs.filter (fun x => key x < m + 1)).filter (fun x => !decide (key x < m)) =
          xs.filter (fun x => key x = m) := by
        rw [List.filter_filter]
        refine List.filter_congr (fun x _ => ?_)
        rw [← decide_not, ← Bool.decide_and, decide_eq_decide]
        omega
      have both := List.filter_append_perm (fun x => decide (key x < m)) (xs.filter (fun x => key x < m + 1))
      rw [lower, upper] at both
      rw [List.range_succ, List.flatMap_append, List.flatMap_singleton]
      exact (ih.append_right _).trans both
  have all : xs.filter (fun x => key x < n) = xs := by
    rw [List.filter_eq_self]
    intro x member
    exact decide_eq_true (below x member)
  exact (upTo n).trans (.of_eq all)

end Segments
