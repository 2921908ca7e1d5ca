import DasIndexer.Base58
import DasIndexer.Lib.Backward
import DasIndexer.Ops.TreeGaps
import Mathlib.Tactic.NormNum

namespace DasIndexer
open Ops Backward

inductive ParseSignatureError where
  | wrongSize
  | invalid
  deriving DecidableEq, Repr

namespace Ops.Signature

def toBase58 (signature : Signature) : String := bs58Encode signature.bytes

/-- `Signature::from_str`. -/
def fromStr (s : String) : Except ParseSignatureError Signature :=
  if 88 < s.utf8ByteSize then .error .wrongSize
  else match bs58Decode s with
    | none => .error .invalid
    | some bytes => match ofBytes? bytes with
      | none => .error .wrongSize
      | some signature => .ok signature

/-- Each byte less leaves room for one digit less. -/
theorem pow_fits (m : Nat) (small : m ≤ 64) : 256 ^ m ≤ 58 ^ (m + 24) := by
  have whole : 256 ^ 64 ≤ 58 ^ 88 := by norm_num
  have bytes : 256 ^ m * 256 ^ (64 - m) = 256 ^ 64 := by
    rw [← Nat.pow_add]
    congr 1
    omega
  have digits : 58 ^ (m + 24) * 58 ^ (64 - m) = 58 ^ 88 := by
    rw [← Nat.pow_add]
    congr 1
    omega
  have lower : 58 ^ (64 - m) ≤ 256 ^ (64 - m) := Nat.pow_le_pow_left (by decide) _
  have positive : 0 < 256 ^ (64 - m) := Nat.pow_pos (by decide)
  refine Nat.le_of_mul_le_mul_right ?_ positive
  calc 256 ^ m * 256 ^ (64 - m) = 256 ^ 64 := bytes
    _ ≤ 58 ^ 88 := whole
    _ = 58 ^ (m + 24) * 58 ^ (64 - m) := digits.symm
    _ ≤ 58 ^ (m + 24) * 256 ^ (64 - m) := Nat.mul_le_mul_left _ lower

theorem toBase58_length (signature : Signature) : signature.toBase58.utf8ByteSize ≤ 88 := by
  obtain ⟨bytes, size⟩ := signature
  have valid : ∀ c ∈ (bytes.takeWhile (· = 0)).map (fun _ => '1') ++
      bs58Digits (2 * bytes.length) (bigEndianValue bytes), c ∈ bs58Alphabet := by
    intro c member
    rcases List.mem_append.mp member with one | digit
    · obtain ⟨_, _, isOne⟩ := List.mem_map.mp one
      rw [← isOne]
      decide
    · exact bs58Digits_alphabet _ _ c digit
  have split : bytes = bytes.takeWhile (· = 0) ++ bytes.dropWhile (· = 0) := List.takeWhile_append_dropWhile.symm
  have sizes := congrArg List.length split
  rw [List.length_append, size] at sizes
  have value : bigEndianValue bytes = bigEndianValue (bytes.dropWhile (· = 0)) := by
    conv_lhs => rw [split]
    refine bigEndianValue_zeros _ _ (fun b member => ?_)
    have zero := List.mem_takeWhile_imp member
    exact of_decide_eq_true zero
  have below := bigEndian_lt (bytes.dropWhile (· = 0)) 0
  rw [Nat.zero_add, Nat.one_mul] at below
  have fits : bigEndianValue bytes < 58 ^ ((bytes.dropWhile (· = 0)).length + 24) := by
    rw [value]
    exact Nat.lt_of_lt_of_le below (pow_fits _ (by omega))
  have short := bs58Digits_length (2 * bytes.length) _ _ fits
  have length := utf8ByteSize_bs58 _ valid
  rw [List.length_append, List.length_map] at length
  refine le_of_eq_of_le length ?_
  omega

theorem fromStr_toBase58 (signature : Signature) : fromStr signature.toBase58 = .ok signature := by
  have short := signature.toBase58_length
  have decoded : bs58Decode signature.toBase58 = some signature.bytes := bs58Decode_encode signature.bytes
  have sized : ofBytes? signature.bytes = some signature := dif_pos signature.size
  rw [fromStr, if_neg (by omega), decoded]
  simp only [sized]

end Ops.Signature

inductive TransactionConfirmationStatus where
  | processed
  | confirmed
  | finalized
  deriving DecidableEq, Repr

/-- `RpcConfirmedTransactionStatusWithSignature`, with the text of its error. -/
structure SignatureStatus where
  signature : String
  slot : Nat
  err : Option String
  confirmationStatus : Option TransactionConfirmationStatus
  deriving DecidableEq

/-- The answers of `get_signatures_for_address` for an address, `before` and `until`,
or the text of an error. -/
abbrev SignaturesClient := Pubkey → Option Signature → Option Signature → Except String (List SignatureStatus)

structure AddressTransaction where
  signature : Signature
  slot : Nat
  err : Option String
  confirmationStatus : Option TransactionConfirmationStatus
  deriving DecidableEq

namespace AddressTransaction

def status (tx : AddressTransaction) : SignatureStatus where
  signature := tx.signature.toBase58
  slot := tx.slot
  err := tx.err
  confirmationStatus := tx.confirmationStatus

def succeeded (tx : AddressTransaction) : Bool := tx.err.isNone

end AddressTransaction

def signatures (txs : List AddressTransaction) : List Signature := txs.map AddressTransaction.signature

/-- The transactions of an address, the newest first, and the places of all
signatures in the chain. -/
structure AddressHistory where
  transactions : List AddressTransaction
  place : Signature → Nat
  newestFirst : NewestFirst (fun tx => place tx.signature) transactions

namespace AddressHistory
variable (history : AddressHistory)

def placeOf (tx : AddressTransaction) : Nat := history.place tx.signature

/-- The transactions after the lower bound. -/
def since (until_ : Option Signature) : List AddressTransaction :=
  history.transactions.filter (fun tx => until_.all (fun u => history.place u < history.placeOf tx))

/-- The transactions strictly between the bounds, the newest first. -/
def between (before until_ : Option Signature) : List AddressTransaction :=
  older history.placeOf (before.map history.place) (history.since until_)

/-- The greatest number of signatures in an answer. -/
def pageLimit : Nat := 1000

theorem since_newestFirst (until_ : Option Signature) : NewestFirst history.placeOf (history.since until_) :=
  List.Pairwise.filter _ history.newestFirst

variable {history}

theorem between_split {before until_ : Option Signature} {front rest : List AddressTransaction}
    {tx : AddressTransaction} (split : history.between before until_ = front ++ tx :: rest) :
    history.between (some tx.signature) until_ = rest :=
  older_split (history.since_newestFirst until_) split

/-- With the cursor at the last transaction of a page, the later pages are left. -/
theorem between_page {before until_ : Option Signature} {tx : AddressTransaction} {size : Nat}
    (isLast : ((history.between before until_).take size).getLast? = some tx) :
    history.between (some tx.signature) until_ = (history.between before until_).drop size := by
  obtain ⟨front, page⟩ := List.getLast?_eq_some_iff.mp isLast
  refine @between_split history before until_ front _ tx ?_
  conv_lhs => rw [← List.take_append_drop size (history.between before until_), page]
  rw [List.append_assoc, List.singleton_append]

theorem between_none : history.between none none = history.transactions := by
  simp [between, since, older]

end AddressHistory

/-- A node that never fails and answers with the newest signatures between the
bounds. -/
def answering (histories : Pubkey → AddressHistory) : SignaturesClient := fun address before until_ =>
  .ok ((((histories address).between before until_).take AddressHistory.pageLimit).map AddressTransaction.status)

end DasIndexer
