import Mathlib.Algebra.Order.Ring.Nat
import Mathlib.Data.List.Basic

namespace Layout

section Numbers

/-- The number that bytes stand for, the lowest byte first. -/
def littleEndian (bytes : List UInt8) : Nat := bytes.foldr (fun b n => b.toNat + 256 * n) 0

def toLittleEndian : Nat → Nat → List UInt8
  | 0, _ => []
  | size + 1, n => UInt8.ofNat n :: toLittleEndian size (n / 256)

@[simp] theorem toLittleEndian_length (size n : Nat) : (toLittleEndian size n).length = size := by
  induction size generalizing n with
  | zero => rfl
  | succ size ih => rw [toLittleEndian, List.length_cons, ih]

theorem littleEndian_lt (bytes : List UInt8) : littleEndian bytes < 256 ^ bytes.length := by
  induction bytes with
  | nil => decide
  | cons b rest ih =>
    have low := b.toNat_lt
    have step : littleEndian (b :: rest) = b.toNat + 256 * littleEndian rest := rfl
    rw [step, List.length_cons, Nat.pow_succ]
    omega

theorem littleEndian_toLittleEndian {size n : Nat} (fits : n < 256 ^ size) :
    littleEndian (toLittleEndian size n) = n := by
  induction size generalizing n with
  | zero =>
    rw [Nat.pow_zero] at fits
    have zero : n = 0 := by omega
    rw [zero]
    rfl
  | succ size ih =>
    have high : n / 256 < 256 ^ size := Nat.div_lt_of_lt_mul (by rwa [Nat.pow_succ'] at fits)
    have step : littleEndian (toLittleEndian (size + 1) n) =
        (UInt8.ofNat n).toNat + 256 * littleEndian (toLittleEndian size (n / 256)) := rfl
    rw [step, ih high, UInt8.toNat_ofNat']
    omega

theorem toLittleEndian_littleEndian (bytes : List UInt8) :
    toLittleEndian bytes.length (littleEndian bytes) = bytes := by
  induction bytes with
  | nil => rfl
  | cons b rest ih =>
    have low := b.toNat_lt
    have step : littleEndian (b :: rest) = b.toNat + 256 * littleEndian rest := rfl
    have first : UInt8.ofNat (b.toNat + 256 * littleEndian rest) = b := by
      rw [← UInt8.toNat_inj, UInt8.toNat_ofNat']
      omega
    have later : (b.toNat + 256 * littleEndian rest) / 256 = littleEndian rest := by omega
    rw [step, List.length_cons, toLittleEndian, first, later, ih]

end Numbers

section Fields
variable {α : Type} {data field rest : List α} {start stop : Nat}

/-- `data[start..stop]`, if it is in bounds. -/
def slice (data : List α) (start stop : Nat) : Option (List α) :=
  if start ≤ stop ∧ stop ≤ data.length then some ((data.drop start).take (stop - start)) else none

/-- The elements of the data from an offset on. -/
def Behind (data : List α) (start : Nat) (rest : List α) : Prop :=
  ∃ front, data = front ++ rest ∧ front.length = start

theorem behind_zero (data : List α) : Behind data 0 data := ⟨[], rfl, rfl⟩

/-- Behind a field stands what follows it. -/
theorem Behind.next (stands : Behind data start (field ++ rest)) (ends : stop = start + field.length) :
    Behind data stop rest := by
  obtain ⟨front, whole, size⟩ := stands
  refine ⟨front ++ field, by rw [whole, List.append_assoc], ?_⟩
  rw [List.length_append]
  omega

theorem Behind.slice_eq (stands : Behind data start (field ++ rest)) (ends : stop = start + field.length) :
    slice data start stop = some field := by
  obtain ⟨front, rfl, rfl⟩ := stands
  subst ends
  simp [slice]

/-- A slice that was taken is a field. -/
theorem Behind.of_slice (stands : Behind data start rest) (taken : slice data start stop = some field) :
    ∃ later, rest = field ++ later ∧ stop = start + field.length := by
  obtain ⟨front, rfl, rfl⟩ := stands
  obtain ⟨inBounds, same⟩ := Option.ite_none_right_eq_some.mp taken
  cases same
  rw [List.length_append] at inBounds
  refine ⟨rest.drop (stop - front.length), ?_, ?_⟩
  · rw [List.drop_left, List.take_append_drop]
  · rw [List.drop_left, List.length_take]
    omega

end Fields

end Layout
