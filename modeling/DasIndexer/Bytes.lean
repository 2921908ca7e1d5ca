import Mathlib.Algebra.Order.Ring.Nat
import Mathlib.Data.List.Basic

namespace DasIndexer

abbrev Bytes := List UInt8

/-- Thirty-two bytes: an address or a hash. -/
structure Bytes32 where
  bytes : Bytes
  size : bytes.length = 32
  deriving DecidableEq

abbrev Pubkey := Bytes32

abbrev Hash := Bytes32

/-- Thirty-two copies of one byte. -/
def Bytes32.fill (b : UInt8) : Bytes32 := ⟨List.replicate 32 b, List.length_replicate⟩

/-- `Pubkey::default()`, and the leaf of an empty tree slot. -/
def Bytes32.zero : Bytes32 := .fill 0

theorem Bytes32.bytes_ne_nil (key : Bytes32) : key.bytes ≠ [] := by
  intro empty
  have size := key.size
  rw [empty] at size
  simp at size

/-- Wrapped SOL, `So11111111111111111111111111111111111111112`. -/
def wsolPubkey : Pubkey where
  bytes := [6, 155, 136, 87, 254, 171, 129, 132, 251, 104, 127, 99, 70, 24, 192, 53,
    218, 196, 57, 220, 26, 235, 59, 85, 152, 160, 240, 0, 0, 0, 0, 1]
  size := rfl

def bs58Alphabet : List Char :=
  "123456789ABCDEFGHJKLMNPQRSTUVWXYZabcdefghijkmnopqrstuvwxyz".toList

/-- Base-58 digits of a number, most significant first; `fuel` bounds their count. -/
def bs58Digits : Nat → Nat → List Char
  | 0, _ => []
  | _, 0 => []
  | fuel + 1, n => bs58Digits fuel (n / 58) ++ [bs58Alphabet.getD (n % 58) '1']

/-- `bs58::encode(..).into_string()`: one `1` for every leading zero byte, then
the big-endian number in base 58. Two digits per byte are more than enough. -/
def bs58Encode (bytes : Bytes) : String :=
  let value := bytes.foldl (fun n b => n * 256 + b.toNat) 0
  String.ofList ((bytes.takeWhile (· = 0)).map (fun _ => '1') ++
    bs58Digits (2 * bytes.length) value)

def Bytes32.toBase58 (key : Bytes32) : String := bs58Encode key.bytes

section Injectivity

def bs58Value (chars : List Char) : Nat := chars.foldl (fun n c => n * 58 + bs58Alphabet.idxOf c) 0

theorem bs58Value_digits (fuel n : Nat) (fits : n < 58 ^ fuel) : bs58Value (bs58Digits fuel n) = n := by
  have digit : ∀ r < 58, bs58Alphabet.idxOf (bs58Alphabet.getD r '1') = r := by decide
  induction fuel generalizing n with
  | zero =>
    rw [Nat.pow_zero, Nat.lt_one_iff] at fits
    rw [fits]
    rfl
  | succ fuel ih =>
    cases n with
    | zero => rfl
    | succ n =>
      have quotient : (n + 1) / 58 < 58 ^ fuel := Nat.div_lt_of_lt_mul (by rwa [Nat.pow_succ'] at fits)
      have high := ih _ quotient
      unfold bs58Value at high
      rw [bs58Digits, bs58Value, List.foldl_append, high, List.foldl_cons, List.foldl_nil,
        digit _ (Nat.mod_lt _ (by decide))]
      · omega
      · exact Nat.succ_ne_zero n

theorem bs58Value_encode (bytes : Bytes)
    (fits : bytes.foldl (fun n b => n * 256 + b.toNat) 0 < 58 ^ (2 * bytes.length)) :
    bs58Value (bs58Encode bytes).toList = bytes.foldl (fun n b => n * 256 + b.toNat) 0 := by
  have ones : ∀ zeros : Bytes, (zeros.map (fun _ => '1')).foldl (fun n c => n * 58 + bs58Alphabet.idxOf c) 0 = 0 := by
    intro zeros
    induction zeros with
    | nil => rfl
    | cons _ rest ih => exact ih
  rw [bs58Encode, String.toList_ofList, bs58Value, List.foldl_append, ones]
  exact bs58Value_digits _ _ fits

theorem bigEndian_lt (bytes : Bytes) (n : Nat) :
    bytes.foldl (fun n b => n * 256 + b.toNat) n < (n + 1) * 256 ^ bytes.length := by
  induction bytes generalizing n with
  | nil => simp
  | cons b rest ih =>
    have digit := b.toNat_lt
    calc rest.foldl (fun n b => n * 256 + b.toNat) (n * 256 + b.toNat)
        < (n * 256 + b.toNat + 1) * 256 ^ rest.length := ih _
      _ ≤ ((n + 1) * 256) * 256 ^ rest.length := Nat.mul_le_mul_right _ (by omega)
      _ = (n + 1) * 256 ^ (rest.length + 1) := by rw [Nat.pow_succ', Nat.mul_assoc]

theorem bigEndian_injective {a b : Bytes} (size : a.length = b.length) {m n : Nat}
    (same : a.foldl (fun n b => n * 256 + b.toNat) m = b.foldl (fun n b => n * 256 + b.toNat) n) :
    m = n ∧ a = b := by
  induction a generalizing b m n with
  | nil =>
    rw [List.length_nil, eq_comm, List.length_eq_zero_iff] at size
    subst size
    exact ⟨same, rfl⟩
  | cons x rest ih =>
    cases b with
    | nil => simp at size
    | cons y others =>
      obtain ⟨high, tail⟩ := ih (Nat.succ.inj size) same
      simp only at high
      have digitX := x.toNat_lt
      have digitY := y.toNat_lt
      have digits : x.toNat = y.toNat := by omega
      exact ⟨by omega, by rw [UInt8.toNat_inj.mp digits, tail]⟩

theorem Bytes32.toBase58_injective {key other : Bytes32} (same : key.toBase58 = other.toBase58) :
    key = other := by
  have fits : ∀ bytes : Bytes, bytes.length = 32 →
      bytes.foldl (fun n b => n * 256 + b.toNat) 0 < 58 ^ (2 * bytes.length) := by
    intro bytes size
    refine Nat.lt_of_lt_of_le (bigEndian_lt bytes 0) ?_
    rw [size]
    decide
  have values := congrArg (fun s : String => bs58Value s.toList) same
  simp only [Bytes32.toBase58, bs58Value_encode _ (fits _ key.size), bs58Value_encode _ (fits _ other.size)] at values
  have bytes := (bigEndian_injective (key.size.trans other.size.symm) values).2
  cases key
  cases other
  cases bytes
  rfl

end Injectivity

/-- `char::is_whitespace`, the Unicode property `White_Space`. -/
def isWhitespace (c : Char) : Bool :=
  let n := c.toNat
  (9 ≤ n && n ≤ 13) || n = 0x20 || n = 0x85 || n = 0xA0 || n = 0x1680 ||
    (0x2000 ≤ n && n ≤ 0x200A) || n = 0x2028 || n = 0x2029 || n = 0x202F || n = 0x205F || n = 0x3000

/-- `str::trim`. -/
def trim (s : String) : String :=
  String.ofList ((s.toList.dropWhile isWhitespace).reverse.dropWhile isWhitespace).reverse

/-- `str::replace('\0', "")`. -/
def removeNul (s : String) : String := String.ofList (s.toList.filter (fun c => c.toNat != 0))

/-- `String::into_bytes`. -/
def utf8 (s : String) : Bytes := s.toUTF8.data.toList

/-- The cast `as i64` of an unsigned 64-bit value. Token amounts use the whole
range of `u64` and keep it; slots and sequence numbers are counters of the
chain far below `2^63`, and their casts are read as the identity. -/
def asI64 (n : Nat) : Int := (BitVec.ofNat 64 n).toInt

/-- The cast `as i32` of an unsigned 32-bit value. -/
def asI32 (n : Nat) : Int := (BitVec.ofNat 32 n).toInt

end DasIndexer
