import Mathlib.Data.List.AList
import Mathlib.Data.List.Induction
import Mathlib.Data.List.Nodup

namespace Reorder
variable {α : Type}

/-- An item with the number that gives its place in the order. -/
abbrev Numbered (α : Type) := Sigma (fun _ : Nat => α)

/-- Items that wait for their turn, the number whose turn it is, and the items
that had theirs. -/
structure Buffer (α : Type) where
  next : Nat
  waiting : AList (fun _ : Nat => α)
  out : List (Numbered α)

namespace Buffer

def start : Buffer α where
  next := 0
  waiting := ∅
  out := []

/-- Lets out the item whose turn it is, and no other. -/
def release (buffer : Buffer α) : Buffer α :=
  match buffer.waiting.lookup buffer.next with
  | none => buffer
  | some item =>
    { next := buffer.next + 1
      waiting := buffer.waiting.erase buffer.next
      out := buffer.out ++ [⟨buffer.next, item⟩] }

def receive (buffer : Buffer α) (arrival : Numbered α) : Buffer α :=
  release { buffer with waiting := buffer.waiting.insert arrival.1 arrival.2 }

def sortById (items : List (Numbered α)) : List (Numbered α) := items.mergeSort (fun a b => a.1 ≤ b.1)

/-- What holds of a buffer after some arrivals: they are out or wait, the numbers
that are out are those before the next one, and none of them waits. -/
structure Sound (buffer : Buffer α) (arrived : List (Numbered α)) : Prop where
  kept : (buffer.out ++ buffer.waiting.entries).Perm arrived
  counted : buffer.out.map Sigma.fst = List.range buffer.next
  later : ∀ item ∈ buffer.waiting.entries, buffer.next ≤ item.1

variable {buffer : Buffer α} {arrived : List (Numbered α)} {arrival : Numbered α}

theorem start_sound : (start : Buffer α).Sound [] where
  kept := .nil
  counted := rfl
  later := by
    intro item member
    cases member

/-- A number that did not arrive before is not let out and does not wait. -/
theorem Sound.fresh (sound : buffer.Sound arrived) (new : arrival.1 ∉ arrived.map Sigma.fst) :
    buffer.next ≤ arrival.1 ∧ arrival.1 ∉ buffer.waiting := by
  have numbers := (sound.kept.map Sigma.fst).mem_iff (a := arrival.1)
  rw [List.map_append, List.mem_append, sound.counted, List.mem_range] at numbers
  constructor
  · by_contra early
    exact new (numbers.mp (.inl (by omega)))
  · intro waits
    exact new (numbers.mp (.inr (AList.mem_keys.mpr waits)))

theorem Sound.put (sound : buffer.Sound arrived) (new : arrival.1 ∉ arrived.map Sigma.fst) :
    Sound { buffer with waiting := buffer.waiting.insert arrival.1 arrival.2 } (arrived ++ [arrival]) := by
  obtain ⟨late, absent⟩ := sound.fresh new
  have entries := AList.entries_insert_of_notMem (b := arrival.2) absent
  refine ⟨?_, sound.counted, ?_⟩
  · have joined := sound.kept.append_right [arrival]
    rw [List.append_assoc] at joined
    rw [entries]
    exact ((List.perm_append_singleton arrival _).symm.append_left buffer.out).trans joined
  · intro item member
    rw [entries] at member
    rcases List.mem_cons.mp member with same | waiting
    · rw [same]
      exact late
    · exact sound.later item waiting

theorem Sound.release (sound : buffer.Sound arrived) : buffer.release.Sound arrived := by
  unfold Buffer.release
  cases found : buffer.waiting.lookup buffer.next with
  | none => exact sound
  | some item =>
    have nodup := buffer.waiting.nodupKeys
    have member := AList.mem_lookup_iff.mp found
    obtain ⟨value, front, rest, absent, split, erased⟩ := List.exists_of_kerase (List.mem_keys_of_mem member)
    have same : value = item := by
      refine List.NodupKeys.eq_of_mk_mem nodup ?_ member
      rw [split]
      exact List.mem_append_right _ List.mem_cons_self
    subst same
    have left : (buffer.waiting.erase buffer.next).entries = front ++ rest := erased
    refine ⟨?_, ?_, ?_⟩
    · have moved : (⟨buffer.next, value⟩ :: (front ++ rest)).Perm buffer.waiting.entries := by
        rw [split]
        exact List.perm_middle.symm
      rw [List.append_assoc, left]
      exact (moved.append_left buffer.out).trans sound.kept
    · rw [List.map_append, sound.counted, List.range_succ]
      rfl
    · intro held waits
      have keys : held.1 ∈ (buffer.waiting.erase buffer.next).keys := List.mem_keys_of_mem waits
      have other := (AList.mem_erase.mp (AList.mem_keys.mp keys)).1
      have stayed : held ∈ buffer.waiting.entries := (List.kerase_sublist _ _).subset waits
      have atLeast := sound.later held stayed
      show buffer.next + 1 ≤ held.1
      omega

theorem Sound.receive (sound : buffer.Sound arrived) (new : arrival.1 ∉ arrived.map Sigma.fst) :
    (buffer.receive arrival).Sound (arrived ++ [arrival]) :=
  (sound.put new).release

/-- Every arrival is out or waits, whatever the order of the arrivals. -/
theorem foldl_sound {arrivals : List (Numbered α)} (distinct : (arrivals.map Sigma.fst).Nodup) :
    (arrivals.foldl receive start).Sound arrivals := by
  induction arrivals using List.reverseRecOn with
  | nil => exact start_sound
  | append_singleton before last ih =>
    rw [List.map_append, List.nodup_append] at distinct
    obtain ⟨earlier, -, apart⟩ := distinct
    rw [List.foldl_concat]
    refine (ih earlier).receive (fun repeated => ?_)
    exact apart _ repeated _ List.mem_cons_self rfl

/-- What is out stays out, in its place. -/
theorem out_prefix (arrivals : List (Numbered α)) (buffer : Buffer α) :
    buffer.out <+: (arrivals.foldl receive buffer).out := by
  induction arrivals generalizing buffer with
  | nil => exact List.prefix_rfl
  | cons arrival rest ih =>
    refine List.IsPrefix.trans ?_ (ih (buffer.receive arrival))
    unfold receive Buffer.release
    split
    · exact List.prefix_rfl
    · exact List.prefix_append _ _

theorem sortById_perm (items : List (Numbered α)) : (sortById items).Perm items := List.mergeSort_perm _ _

theorem sortById_ordered {items : List (Numbered α)} (distinct : (items.map Sigma.fst).Nodup) :
    (sortById items).Pairwise (fun a b => a.1 < b.1) := by
  have weakly : (sortById items).Pairwise (fun a b => (decide (a.1 ≤ b.1)) = true) := by
    refine List.pairwise_mergeSort ?_ ?_ items
    · intro a b c below above
      rw [decide_eq_true_eq] at below above ⊢
      omega
    · intro a b
      rw [Bool.or_eq_true, decide_eq_true_eq, decide_eq_true_eq]
      omega
  have differ : (sortById items).Pairwise (fun a b => a.1 ≠ b.1) :=
    List.pairwise_map.mp (((sortById_perm items).map Sigma.fst).nodup_iff.mpr distinct)
  refine (weakly.and differ).imp (fun both => ?_)
  have atMost := of_decide_eq_true both.1
  have unequal := both.2
  omega

/-- Letting out the rest in the order of its numbers completes the arrivals, and
keeps the order. -/
theorem Sound.flush (sound : buffer.Sound arrived) (distinct : (arrived.map Sigma.fst).Nodup)
    {rest : List (Numbered α)} (all : rest.Perm buffer.waiting.entries) :
    (buffer.out ++ sortById rest).Perm arrived ∧
      (buffer.out ++ sortById rest).Pairwise (fun a b => a.1 < b.1) := by
  have sorted := (sortById_perm rest).trans all
  have complete := (sorted.append_left buffer.out).trans sound.kept
  refine ⟨complete, List.pairwise_append.mpr ⟨?_, ?_, ?_⟩⟩
  · have increasing := List.pairwise_lt_range (n := buffer.next)
    rw [← sound.counted] at increasing
    exact List.pairwise_map.mp increasing
  · have parts := (complete.map Sigma.fst).nodup_iff.mpr distinct
    rw [List.map_append] at parts
    exact sortById_ordered (((sortById_perm rest).map Sigma.fst).nodup_iff.mp (List.nodup_append.mp parts).2.1)
  · intro released isOut held waits
    have early : released.1 ∈ List.range buffer.next := by
      rw [← sound.counted]
      exact List.mem_map_of_mem isOut
    have late := sound.later held (sorted.subset waits)
    have below := List.mem_range.mp early
    omega

end Buffer

end Reorder
