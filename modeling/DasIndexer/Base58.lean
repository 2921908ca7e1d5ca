import DasIndexer.Bytes
import Mathlib.Data.List.Induction
import Mathlib.Data.List.TakeWhile

namespace DasIndexer

/-- The bytes of a number, most significant first and without leading zeros;
`fuel` bounds their count. -/
def bigEndianBytes : Nat → Nat → Bytes
  | 0, _ => []
  | _, 0 => []
  | fuel + 1, n => bigEndianBytes fuel (n / 256) ++ [UInt8.ofNat (n % 256)]

/-- `bs58::decode(..).into_vec()`: a zero byte for every leading `1`, then the
number that the digits stand for. A byte takes more than one digit. -/
def bs58Decode (s : String) : Option Bytes :=
  if s.toList.all (fun c => c ∈ bs58Alphabet) then
    some ((s.toList.takeWhile (· = '1')).map (fun _ => 0) ++ bigEndianBytes s.toList.length (bs58Value s.toList))
  else none

/-- `Pubkey::try_from` of a slice. -/
def Bytes32.ofBytes? (bytes : Bytes) : Option Bytes32 :=
  if size : bytes.length = 32 then some ⟨bytes, size⟩ else none

/-- `Pubkey::from_str`. -/
def Bytes32.ofBase58? (s : String) : Option Bytes32 := (bs58Decode s).bind Bytes32.ofBytes?

/-- `bs58::decode(..).into(&mut output)` for an output of thirty-two zeros. -/
def bs58DecodeInto32 (s : String) : Option Bytes32 :=
  (bs58Decode s).bind (fun bytes => Bytes32.ofBytes? (bytes ++ List.replicate (32 - bytes.length) 0))

section RoundTrip

/-- The number that `bs58Encode` writes out. -/
def bigEndianValue (bytes : Bytes) : Nat := bytes.foldl (fun n b => n * 256 + b.toNat) 0

theorem bigEndianValue_concat (bytes : Bytes) (b : UInt8) :
    bigEndianValue (bytes ++ [b]) = bigEndianValue bytes * 256 + b.toNat := by
  rw [bigEndianValue, List.foldl_append]
  rfl

theorem bigEndianValue_zeros (zeros bytes : Bytes) (allZero : ∀ b ∈ zeros, b = 0) :
    bigEndianValue (zeros ++ bytes) = bigEndianValue bytes := by
  induction zeros with
  | nil => rfl
  | cons b rest ih =>
    have first : b = 0 := allZero b List.mem_cons_self
    subst first
    exact ih (fun b member => allZero b (List.mem_cons_of_mem _ member))

/-- Without a leading zero, the number is as large as its length says. -/
theorem pow_le_bigEndianValue (b : UInt8) (rest : Bytes) (nonzero : b ≠ 0) :
    256 ^ rest.length ≤ bigEndianValue (b :: rest) := by
  induction rest using List.reverseRecOn with
  | nil =>
    have positive : b.toNat ≠ 0 := fun zero => nonzero (UInt8.toNat_inj.mp zero)
    have value : bigEndianValue [b] = b.toNat := by
      rw [bigEndianValue]
      simp
    rw [value, List.length_nil, Nat.pow_zero]
    omega
  | append_singleton before last ih =>
    rw [← List.cons_append, bigEndianValue_concat, List.length_append, List.length_singleton, Nat.pow_succ]
    omega

theorem bigEndianBytes_value (fuel : Nat) (bytes : Bytes) (fits : bytes.length ≤ fuel)
    (noZero : ∀ b ∈ bytes.head?, b ≠ 0) : bigEndianBytes fuel (bigEndianValue bytes) = bytes := by
  induction fuel generalizing bytes with
  | zero =>
    rw [List.length_eq_zero_iff.mp (Nat.le_zero.mp fits)]
    rfl
  | succ fuel ih =>
    cases bytes using List.reverseRecOn with
    | nil => rfl
    | append_singleton before last =>
      have positive : bigEndianValue (before ++ [last]) ≠ 0 := by
        cases before with
        | nil =>
          have large := pow_le_bigEndianValue last [] (noZero last rfl)
          have power := Nat.pow_pos (n := 0) (show 0 < 256 by decide)
          rw [List.nil_append]
          rw [List.length_nil] at large
          omega
        | cons b rest =>
          have large := pow_le_bigEndianValue b (rest ++ [last]) (noZero b rfl)
          have power : 0 < 256 ^ (rest ++ [last]).length := Nat.pow_pos (by decide)
          rw [List.cons_append]
          omega
      have digit := last.toNat_lt
      have earlier := ih before (by simpa using fits) (fun b isHead => noZero b (by
        cases before with
        | nil => cases isHead
        | cons c rest => exact isHead))
      have quotient : bigEndianValue (before ++ [last]) / 256 = bigEndianValue before := by
        rw [bigEndianValue_concat]
        omega
      have remainder : bigEndianValue (before ++ [last]) % 256 = last.toNat := by
        rw [bigEndianValue_concat]
        omega
      rw [bigEndianBytes, quotient, remainder, earlier, UInt8.ofNat_toNat]
      exact positive

theorem bs58Digits_alphabet (fuel n : Nat) : ∀ c ∈ bs58Digits fuel n, c ∈ bs58Alphabet := by
  have digit : ∀ r < 58, bs58Alphabet.getD r '1' ∈ bs58Alphabet := by decide
  induction fuel generalizing n with
  | zero => intro c member; cases member
  | succ fuel ih =>
    cases n with
    | zero => intro c member; cases member
    | succ n =>
      intro c member
      rw [bs58Digits] at member
      · rcases List.mem_append.mp member with high | last
        · exact ih _ c high
        · rw [List.mem_singleton.mp last]
          exact digit _ (Nat.mod_lt _ (by decide))
      · exact Nat.succ_ne_zero n

/-- The first digit of a number is not zero. -/
theorem bs58Digits_head (fuel n : Nat) (fits : n < 58 ^ fuel) : ∀ c ∈ (bs58Digits fuel n).head?, c ≠ '1' := by
  have digit : ∀ r < 58, r ≠ 0 → bs58Alphabet.getD r '1' ≠ '1' := by decide
  induction fuel generalizing n with
  | zero => intro c isHead; cases isHead
  | succ fuel ih =>
    cases n with
    | zero => intro c isHead; cases isHead
    | succ n =>
      intro c isHead
      have quotient : (n + 1) / 58 < 58 ^ fuel := Nat.div_lt_of_lt_mul (by rwa [Nat.pow_succ'] at fits)
      rw [bs58Digits] at isHead
      · cases high : bs58Digits fuel ((n + 1) / 58) with
        | nil =>
          have small : (n + 1) / 58 = 0 := by
            have value := bs58Value_digits fuel _ quotient
            rw [high] at value
            exact value.symm
          rw [high] at isHead
          cases isHead
          exact digit _ (Nat.mod_lt _ (by decide)) (by omega)
        | cons d rest =>
          refine ih _ quotient c ?_
          rw [high] at isHead ⊢
          exact isHead
      · exact Nat.succ_ne_zero n

theorem bs58Value_lt (chars : List Char) (valid : ∀ c ∈ chars, c ∈ bs58Alphabet) :
    bs58Value chars < 58 ^ chars.length := by
  induction chars using List.reverseRecOn with
  | nil => decide
  | append_singleton before last ih =>
    have earlier := ih (fun c member => valid c (List.mem_append_left _ member))
    have digit : bs58Alphabet.idxOf last < 58 :=
      List.idxOf_lt_length_iff.mpr (valid last (List.mem_append_right _ List.mem_cons_self))
    have value : bs58Value (before ++ [last]) = bs58Value before * 58 + bs58Alphabet.idxOf last := by
      rw [bs58Value, List.foldl_append]
      rfl
    rw [value, List.length_append, List.length_singleton, Nat.pow_succ]
    omega

theorem bs58Digits_length (fuel n k : Nat) (fits : n < 58 ^ k) : (bs58Digits fuel n).length ≤ k := by
  induction fuel generalizing n k with
  | zero => exact Nat.zero_le k
  | succ fuel ih =>
    cases n with
    | zero => exact Nat.zero_le k
    | succ n =>
      cases k with
      | zero =>
        rw [Nat.pow_zero] at fits
        omega
      | succ k =>
        have quotient : (n + 1) / 58 < 58 ^ k := Nat.div_lt_of_lt_mul (by rwa [Nat.pow_succ'] at fits)
        have shorter := ih _ k quotient
        rw [bs58Digits]
        · rw [List.length_append, List.length_singleton]
          omega
        · exact Nat.succ_ne_zero n

/-- Every character of the alphabet takes one byte. -/
theorem utf8ByteSize_bs58 (chars : List Char) (valid : ∀ c ∈ chars, c ∈ bs58Alphabet) :
    (String.ofList chars).utf8ByteSize = chars.length := by
  have all : bs58Alphabet.all (fun c => c.utf8Size == 1) = true := by decide
  have single : ∀ c ∈ bs58Alphabet, c.utf8Size = 1 :=
    fun c member => beq_iff_eq.mp (List.all_eq_true.mp all c member)
  induction chars with
  | nil => rfl
  | cons c rest ih =>
    have first := single c (valid c List.mem_cons_self)
    have later := ih (fun d member => valid d (List.mem_cons_of_mem _ member))
    rw [String.ofList_cons, String.utf8ByteSize_append, String.utf8ByteSize_singleton, first, later, List.length_cons]
    omega

theorem takeWhile_ones (zeros : Bytes) (digits : List Char) (noOne : ∀ c ∈ digits.head?, c ≠ '1') :
    (zeros.map (fun _ => '1') ++ digits).takeWhile (· = '1') = zeros.map (fun _ => '1') := by
  induction zeros with
  | nil =>
    cases digits with
    | nil => rfl
    | cons c rest =>
      rw [List.map_nil, List.nil_append, List.takeWhile_cons_of_neg]
      simpa using noOne c rfl
  | cons b rest ih => rw [List.map_cons, List.cons_append, List.takeWhile_cons_of_pos (by simp), ih]

theorem bigEndianValue_fits (bytes : Bytes) : bigEndianValue bytes < 58 ^ (2 * bytes.length) := by
  have below := bigEndian_lt bytes 0
  rw [Nat.zero_add, Nat.one_mul] at below
  refine Nat.lt_of_lt_of_le below ?_
  rw [Nat.pow_mul]
  exact Nat.pow_le_pow_left (by decide) _

/-- Decoding gives back the bytes that were encoded. -/
theorem bs58Decode_encode (bytes : Bytes) : bs58Decode (bs58Encode bytes) = some bytes := by
  have fits := bigEndianValue_fits bytes
  have valid : ∀ c ∈ (bs58Encode bytes).toList, c ∈ bs58Alphabet := by
    rw [bs58Encode, String.toList_ofList]
    intro c member
    rcases List.mem_append.mp member with one | digit
    · obtain ⟨-, -, isOne⟩ := List.mem_map.mp one
      rw [← isOne]
      decide
    · exact bs58Digits_alphabet _ _ c digit
  have value : bs58Value (bs58Encode bytes).toList = bigEndianValue bytes := bs58Value_encode bytes fits
  have ones : (bs58Encode bytes).toList.takeWhile (· = '1') = (bytes.takeWhile (· = 0)).map (fun _ => '1') := by
    rw [bs58Encode, String.toList_ofList]
    exact takeWhile_ones _ _ (bs58Digits_head _ _ fits)
  have zeros : ∀ b ∈ bytes.takeWhile (· = 0), b = 0 := by
    intro b member
    simpa using List.mem_takeWhile_imp member
  have parts := List.takeWhile_append_dropWhile (p := (· = (0 : UInt8))) (l := bytes)
  have tail : bigEndianValue bytes = bigEndianValue (bytes.dropWhile (· = 0)) := by
    conv_lhs => rw [← parts]
    exact bigEndianValue_zeros _ _ zeros
  have noZero : ∀ b ∈ (bytes.dropWhile (· = 0)).head?, b ≠ 0 := by
    intro b isHead zero
    have notZero := List.head?_dropWhile_not (· = (0 : UInt8)) bytes
    rw [Option.mem_def.mp isHead] at notZero
    simp [zero] at notZero
  have short : (bytes.dropWhile (· = 0)).length ≤ (bs58Encode bytes).toList.length := by
    have below := bs58Value_lt _ valid
    rw [value, tail] at below
    cases rest : bytes.dropWhile (· = 0) with
    | nil => exact Nat.zero_le _
    | cons b later =>
      rw [rest] at below noZero
      have above := pow_le_bigEndianValue b later (noZero b rfl)
      have powers : 256 ^ later.length < 256 ^ (bs58Encode bytes).toList.length :=
        Nat.lt_of_lt_of_le (Nat.lt_of_le_of_lt above below) (Nat.pow_le_pow_left (by decide) _)
      exact (Nat.pow_lt_pow_iff_right (by decide)).mp powers
  have allValid : (bs58Encode bytes).toList.all (fun c => c ∈ bs58Alphabet) = true := by
    rw [List.all_eq_true]
    exact fun c member => decide_eq_true (valid c member)
  rw [bs58Decode, if_pos allValid, value, ones, tail, bigEndianBytes_value _ _ short noZero]
  have copies : ((bytes.takeWhile (· = 0)).map (fun _ => '1')).map (fun _ => (0 : UInt8)) =
      bytes.takeWhile (· = 0) := by
    rw [List.map_map]
    conv_rhs => rw [← List.map_id (bytes.takeWhile (· = 0))]
    exact List.map_congr_left (fun b member => (zeros b member).symm)
  rw [copies, parts]

theorem Bytes32.ofBytes?_bytes (key : Bytes32) : Bytes32.ofBytes? key.bytes = some key := by
  rw [Bytes32.ofBytes?, dif_pos key.size]

theorem Bytes32.ofBase58?_toBase58 (key : Bytes32) : Bytes32.ofBase58? key.toBase58 = some key := by
  rw [Bytes32.ofBase58?, Bytes32.toBase58, bs58Decode_encode]
  exact key.ofBytes?_bytes

end RoundTrip

section Canonical

theorem bs58Value_concat (chars : List Char) (c : Char) :
    bs58Value (chars ++ [c]) = bs58Value chars * 58 + bs58Alphabet.idxOf c := by
  rw [bs58Value, List.foldl_append]
  rfl

/-- Without a leading `1`, the number is as large as the count of its digits says. -/
theorem pow_le_bs58Value (c : Char) (rest : List Char) (notOne : bs58Alphabet.idxOf c ≠ 0) :
    58 ^ rest.length ≤ bs58Value (c :: rest) := by
  induction rest using List.reverseRecOn with
  | nil =>
    have value : bs58Value [c] = bs58Alphabet.idxOf c := by
      rw [bs58Value]
      simp
    rw [value, List.length_nil, Nat.pow_zero]
    omega
  | append_singleton before last ih =>
    rw [← List.cons_append, bs58Value_concat, List.length_append, List.length_singleton, Nat.pow_succ]
    omega

theorem idxOf_ne_zero {c : Char} (valid : c ∈ bs58Alphabet) (notOne : c ≠ '1') : bs58Alphabet.idxOf c ≠ 0 := by
  have first : bs58Alphabet.all (fun c => bs58Alphabet.idxOf c ≠ 0 ∨ c = '1') = true := by decide
  have either := of_decide_eq_true (List.all_eq_true.mp first c valid)
  exact either.resolve_right notOne

theorem bs58Digits_value (fuel : Nat) (chars : List Char) (valid : ∀ c ∈ chars, c ∈ bs58Alphabet)
    (fits : chars.length ≤ fuel) (noOne : ∀ c ∈ chars.head?, c ≠ '1') : bs58Digits fuel (bs58Value chars) = chars := by
  induction fuel generalizing chars with
  | zero =>
    rw [List.length_eq_zero_iff.mp (Nat.le_zero.mp fits)]
    rfl
  | succ fuel ih =>
    cases chars using List.reverseRecOn with
    | nil => rfl
    | append_singleton before last =>
      have validBefore : ∀ c ∈ before, c ∈ bs58Alphabet := fun c member => valid c (List.mem_append_left _ member)
      have validLast : last ∈ bs58Alphabet := valid last (List.mem_append_right _ List.mem_cons_self)
      have digit : bs58Alphabet.idxOf last < 58 := List.idxOf_lt_length_iff.mpr validLast
      have positive : bs58Value (before ++ [last]) ≠ 0 := by
        cases before with
        | nil =>
          have large := pow_le_bs58Value last [] (idxOf_ne_zero validLast (noOne last rfl))
          have power := Nat.pow_pos (n := 0) (show 0 < 58 by decide)
          rw [List.nil_append]
          rw [List.length_nil] at large
          omega
        | cons c rest =>
          have large := pow_le_bs58Value c (rest ++ [last])
            (idxOf_ne_zero (validBefore c List.mem_cons_self) (noOne c rfl))
          have power : 0 < 58 ^ (rest ++ [last]).length := Nat.pow_pos (by decide)
          rw [List.cons_append]
          omega
      have earlier := ih before validBefore (by simpa using fits) (fun c isHead => noOne c (by
        cases before with
        | nil => cases isHead
        | cons d rest => exact isHead))
      have quotient : bs58Value (before ++ [last]) / 58 = bs58Value before := by
        rw [bs58Value_concat]
        omega
      have remainder : bs58Value (before ++ [last]) % 58 = bs58Alphabet.idxOf last := by
        rw [bs58Value_concat]
        omega
      have back : bs58Alphabet.getD (bs58Alphabet.idxOf last) '1' = last := by
        rw [List.getD_eq_getElem?_getD, List.getElem?_eq_getElem digit, Option.getD_some]
        exact List.getElem_idxOf digit
      rw [bs58Digits, quotient, remainder, earlier, back]
      exact positive

theorem bigEndianValue_bytes (fuel n : Nat) (fits : n < 256 ^ fuel) : bigEndianValue (bigEndianBytes fuel n) = n := by
  induction fuel generalizing n with
  | zero =>
    rw [Nat.pow_zero, Nat.lt_one_iff] at fits
    rw [fits]
    rfl
  | succ fuel ih =>
    cases n with
    | zero => rfl
    | succ n =>
      have quotient : (n + 1) / 256 < 256 ^ fuel := Nat.div_lt_of_lt_mul (by rwa [Nat.pow_succ'] at fits)
      rw [bigEndianBytes, bigEndianValue_concat, ih _ quotient, UInt8.toNat_ofNat']
      · omega
      · exact Nat.succ_ne_zero n

/-- The first byte of a number is not zero. -/
theorem bigEndianBytes_head (fuel n : Nat) (fits : n < 256 ^ fuel) : ∀ b ∈ (bigEndianBytes fuel n).head?, b ≠ 0 := by
  induction fuel generalizing n with
  | zero => intro b isHead; cases isHead
  | succ fuel ih =>
    cases n with
    | zero => intro b isHead; cases isHead
    | succ n =>
      intro b isHead
      have quotient : (n + 1) / 256 < 256 ^ fuel := Nat.div_lt_of_lt_mul (by rwa [Nat.pow_succ'] at fits)
      rw [bigEndianBytes] at isHead
      · cases high : bigEndianBytes fuel ((n + 1) / 256) with
        | nil =>
          have small : (n + 1) / 256 = 0 := by
            have value := bigEndianValue_bytes fuel _ quotient
            rw [high] at value
            exact value.symm
          rw [high] at isHead
          cases isHead
          intro zero
          have last := congrArg UInt8.toNat zero
          rw [UInt8.toNat_ofNat'] at last
          have none : (0 : UInt8).toNat = 0 := rfl
          omega
        | cons d rest =>
          refine ih _ quotient b ?_
          rw [high] at isHead ⊢
          exact isHead
      · exact Nat.succ_ne_zero n

theorem bs58Value_ones (ones chars : List Char) (allOne : ∀ c ∈ ones, c = '1') :
    bs58Value (ones ++ chars) = bs58Value chars := by
  induction ones with
  | nil => rfl
  | cons c rest ih =>
    have first : c = '1' := allOne c List.mem_cons_self
    subst first
    exact ih (fun c member => allOne c (List.mem_cons_of_mem _ member))

theorem takeWhile_zeros (ones : List Char) (bytes : Bytes) (noZero : ∀ b ∈ bytes.head?, b ≠ 0) :
    (ones.map (fun _ => (0 : UInt8)) ++ bytes).takeWhile (· = 0) = ones.map (fun _ => 0) := by
  induction ones with
  | nil =>
    cases bytes with
    | nil => rfl
    | cons b rest =>
      rw [List.map_nil, List.nil_append, List.takeWhile_cons_of_neg]
      simpa using noZero b rfl
  | cons c rest ih => rw [List.map_cons, List.cons_append, List.takeWhile_cons_of_pos (by simp), ih]

/-- A text that can be decoded is the one that its bytes are encoded to. -/
theorem bs58Encode_decode {s : String} {bytes : Bytes} (decoded : bs58Decode s = some bytes) : bs58Encode bytes = s := by
  rw [bs58Decode] at decoded
  split at decoded
  · rename_i allValid
    have valid : ∀ c ∈ s.toList, c ∈ bs58Alphabet :=
      fun c member => of_decide_eq_true (List.all_eq_true.mp allValid c member)
    have fits : bs58Value s.toList < 256 ^ s.toList.length :=
      (bs58Value_lt _ valid).trans_le (Nat.pow_le_pow_left (by decide) _)
    have split := List.takeWhile_append_dropWhile (p := (· = '1')) (l := s.toList)
    have allOne : ∀ c ∈ s.toList.takeWhile (· = '1'), c = '1' := by
      intro c member
      simpa using List.mem_takeWhile_imp member
    have noOne : ∀ c ∈ (s.toList.dropWhile (· = '1')).head?, c ≠ '1' := by
      intro c isHead one
      have notOne := List.head?_dropWhile_not (· = '1') s.toList
      rw [Option.mem_def.mp isHead] at notOne
      simp [one] at notOne
    have validRest : ∀ c ∈ s.toList.dropWhile (· = '1'), c ∈ bs58Alphabet :=
      fun c member => valid c ((List.dropWhile_sublist _).subset member)
    have tail : bs58Value s.toList = bs58Value (s.toList.dropWhile (· = '1')) := by
      conv_lhs => rw [← split]
      exact bs58Value_ones _ _ allOne
    have value : bigEndianValue bytes = bs58Value s.toList := by
      rw [← Option.some.inj decoded, bigEndianValue_zeros _ _ (by simp), bigEndianValue_bytes _ _ fits]
    have long : (s.toList.dropWhile (· = '1')).length ≤ 2 * bytes.length := by
      cases rest : s.toList.dropWhile (· = '1') with
      | nil => exact Nat.zero_le _
      | cons c later =>
        rw [rest] at noOne validRest tail
        have above := pow_le_bs58Value c later (idxOf_ne_zero (validRest c List.mem_cons_self) (noOne c rfl))
        have below := bigEndianValue_fits bytes
        rw [value, tail] at below
        exact (Nat.pow_lt_pow_iff_right (by decide)).mp (above.trans_lt below)
    have zeros : bytes.takeWhile (· = 0) = (s.toList.takeWhile (· = '1')).map (fun _ => 0) := by
      rw [← Option.some.inj decoded]
      exact takeWhile_zeros _ _ (bigEndianBytes_head _ _ fits)
    have copies : ((s.toList.takeWhile (· = '1')).map (fun _ => (0 : UInt8))).map (fun _ => '1') =
        s.toList.takeWhile (· = '1') := by
      rw [List.map_map]
      conv_rhs => rw [← List.map_id (s.toList.takeWhile (· = '1'))]
      exact List.map_congr_left (fun c member => (allOne c member).symm)
    have digits : bs58Digits (2 * bytes.length) (bigEndianValue bytes) = s.toList.dropWhile (· = '1') := by
      rw [value, tail]
      exact bs58Digits_value _ _ validRest long noOne
    rw [bs58Encode, zeros, copies]
    show String.ofList (_ ++ bs58Digits (2 * bytes.length) (bigEndianValue bytes)) = s
    rw [digits, split, String.ofList_toList]
  · cases decoded

theorem Bytes32.toBase58_of {s : String} {key : Bytes32} (reads : Bytes32.ofBase58? s = some key) : key.toBase58 = s := by
  obtain ⟨bytes, decoded, sized⟩ := Option.bind_eq_some_iff.mp reads
  rw [Bytes32.ofBytes?] at sized
  split at sized
  · cases Option.some.inj sized
    exact bs58Encode_decode decoded
  · cases sized

end Canonical

end DasIndexer
