import DasIndexer.Lib.Loops
import DasIndexer.SolanaRpc

namespace DasIndexer.Ops
open Loops Backward

/-- `GET_SIGNATURES_FOR_ADDRESS_LIMIT`. -/
def getSignaturesForAddressLimit : Nat := 1000

inductive CrawlError where
  | rpc (text : String)
  | parseSignature (error : ParseSignatureError)
  deriving DecidableEq

structure Crawl where
  before : Option Signature
  sent : List Signature

/-- One turn of the loop over the successful transactions. -/
def sendSignature (status : SignatureStatus) (crawl : Crawl) : Crawl × Except CrawlError Unit :=
  match Signature.fromStr status.signature with
  | .error problem => (crawl, .error (.parseSignature problem))
  | .ok signature => ({ before := some signature, sent := crawl.sent ++ [signature] }, .ok ())

namespace TreeGapFill

/-- One turn of `crawl`: a page is requested, and its successful transactions are
sent. -/
def crawlPage (client : SignaturesClient) (fill : TreeGapFill) (crawl : Crawl) :
    Turn Crawl (List Signature × Except CrawlError Unit) :=
  match client fill.tree crawl.before fill.until with
  | .error problem => .stop (crawl.sent, .error (.rpc problem))
  | .ok sigs => match forEach sendSignature (sigs.filter (fun transaction => transaction.err.isNone)) crawl with
    | (crawl, .error problem) => .stop (crawl.sent, .error problem)
    | (crawl, .ok _) =>
      if sigs.length < getSignaturesForAddressLimit then .stop (crawl.sent, .ok ()) else .again crawl

/-- `TreeGapFill::crawl`: the signatures that were sent, and how the call ended. -/
def crawl (client : SignaturesClient) (fill : TreeGapFill) (fuel : Nat) :
    Option (List Signature × Except CrawlError Unit) :=
  loop (crawlPage client fill) fuel { before := fill.before, sent := [] }

end TreeGapFill

section Pages
variable {histories : Pubkey → AddressHistory} {fill : TreeGapFill}

theorem forEach_sendSignature (txs : List AddressTransaction) (crawl : Crawl) :
    forEach sendSignature (txs.map AddressTransaction.status) crawl =
      ({ before := ((signatures txs).getLast?).or crawl.before, sent := crawl.sent ++ signatures txs }, .ok ()) := by
  induction txs generalizing crawl with
  | nil => simp [forEach, signatures]
  | cons tx rest ih =>
    have first : sendSignature tx.status crawl =
        ({ before := some tx.signature, sent := crawl.sent ++ [tx.signature] }, .ok ()) := by
      rw [sendSignature, AddressTransaction.status, Signature.fromStr_toBase58]
    rw [List.map_cons, forEach, first]
    simp only [ih, signatures, List.map_cons, List.append_assoc, List.singleton_append]
    cases rest with
    | nil => rfl
    | cons next later => simp [List.getLast?_cons]

/-- What the crawl still has to send: the transactions before the cursor. -/
def left (histories : Pubkey → AddressHistory) (fill : TreeGapFill) (crawl : Crawl) : List AddressTransaction :=
  (histories fill.tree).between crawl.before fill.until

/-- The crawl after a page with these successful transactions. -/
def advanced (crawl : Crawl) (page : List AddressTransaction) : Crawl where
  before := ((signatures (page.filter AddressTransaction.succeeded)).getLast?).or crawl.before
  sent := crawl.sent ++ signatures (page.filter AddressTransaction.succeeded)

theorem crawlPage_eq (crawl : Crawl) : fill.crawlPage (answering histories) crawl =
    if (left histories fill crawl).length < getSignaturesForAddressLimit then
      .stop (crawl.sent ++ signatures ((left histories fill crawl).filter AddressTransaction.succeeded), .ok ())
    else .again (advanced crawl ((left histories fill crawl).take getSignaturesForAddressLimit)) := by
  have page : answering histories fill.tree crawl.before fill.until =
      .ok (((left histories fill crawl).take getSignaturesForAddressLimit).map AddressTransaction.status) := rfl
  have successful : ∀ txs : List AddressTransaction,
      (txs.map AddressTransaction.status).filter (fun transaction => transaction.err.isNone) =
        (txs.filter AddressTransaction.succeeded).map AddressTransaction.status :=
    fun txs => List.filter_map
  rw [TreeGapFill.crawlPage, page]
  simp only [successful, forEach_sendSignature, List.length_map, List.length_take]
  by_cases short : (left histories fill crawl).length < getSignaturesForAddressLimit
  · rw [if_pos short, if_pos (by omega), List.take_of_length_le short.le]
  · rw [if_neg short, if_neg (by omega)]
    rfl

/-- A full page with a successful transaction moves the cursor to the last one. -/
theorem left_advanced {crawl : Crawl} {tx : AddressTransaction}
    (isLast : (((left histories fill crawl).take getSignaturesForAddressLimit).filter
      AddressTransaction.succeeded).getLast? = some tx) :
    ∃ front, front.length < getSignaturesForAddressLimit ∧ tx.succeeded = true ∧
      left histories fill crawl = front ++ tx :: left histories fill (advanced crawl
        ((left histories fill crawl).take getSignaturesForAddressLimit)) ∧
      (advanced crawl ((left histories fill crawl).take getSignaturesForAddressLimit)).sent =
        crawl.sent ++ signatures ((front ++ [tx]).filter AddressTransaction.succeeded) := by
  obtain ⟨front, dropped, split, succeeded, none⟩ := Paging.split_last_kept isLast
  have whole : left histories fill crawl =
      front ++ tx :: (dropped ++ (left histories fill crawl).drop getSignaturesForAddressLimit) := by
    conv_lhs => rw [← List.take_append_drop getSignaturesForAddressLimit (left histories fill crawl), split]
    simp
  have cursor : (advanced crawl ((left histories fill crawl).take getSignaturesForAddressLimit)).before =
      some tx.signature := by
    rw [advanced, signatures, List.getLast?_map, isLast]
    rfl
  have behind : left histories fill (advanced crawl ((left histories fill crawl).take getSignaturesForAddressLimit)) =
      dropped ++ (left histories fill crawl).drop getSignaturesForAddressLimit := by
    rw [left, cursor]
    exact AddressHistory.between_split whole
  have short : front.length < getSignaturesForAddressLimit := by
    have length := List.length_take_le getSignaturesForAddressLimit (left histories fill crawl)
    rw [split, List.length_append, List.length_cons] at length
    omega
  refine ⟨front, short, succeeded, ?_, ?_⟩
  · rw [behind]
    exact whole
  · have noneDropped : dropped.filter AddressTransaction.succeeded = [] := by
      refine List.filter_eq_nil_iff.mpr (fun x member => ?_)
      rw [none x member]
      exact Bool.false_ne_true
    rw [advanced, split, List.append_cons, List.filter_append, noneDropped, List.append_nil]

/-- No page of failed transactions lies ahead. -/
def Clear (histories : Pubkey → AddressHistory) (fill : TreeGapFill) (crawl : Crawl) : Prop :=
  RunFree AddressTransaction.succeeded getSignaturesForAddressLimit (left histories fill crawl)

/-- What a crawl that ends has sent in all. -/
def outcome (histories : Pubkey → AddressHistory) (fill : TreeGapFill) (crawl : Crawl) :
    List Signature × Except CrawlError Unit :=
  (crawl.sent ++ signatures ((left histories fill crawl).filter AddressTransaction.succeeded), .ok ())

theorem crawl_ends (crawl : Crawl) (clear : Clear histories fill crawl) :
    ∃ fuel, loop (fill.crawlPage (answering histories)) fuel crawl = some (outcome histories fill crawl) := by
  refine loop_ends (fun crawl => (left histories fill crawl).length) (outcome histories fill) ?_ crawl clear
  intro crawl clear
  rw [crawlPage_eq]
  by_cases short : (left histories fill crawl).length < getSignaturesForAddressLimit
  · rw [if_pos short]
    exact .inl rfl
  · rw [if_neg short]
    obtain ⟨tx, isLast⟩ := RunFree.page clear (Nat.le_of_not_lt short)
    obtain ⟨front, within, succeeded, split, sent⟩ := left_advanced isLast
    refine .inr ⟨_, rfl, ?_, ?_, ?_⟩
    · rw [Clear, split] at clear
      exact (runFree_split succeeded within).mp clear
    · conv_rhs => rw [split, List.length_append, List.length_cons]
      omega
    · have parts : (left histories fill crawl).filter AddressTransaction.succeeded =
          (front ++ [tx]).filter AddressTransaction.succeeded ++ (left histories fill (advanced crawl
            ((left histories fill crawl).take getSignaturesForAddressLimit))).filter AddressTransaction.succeeded := by
        rw [← List.filter_append, ← List.append_cons]
        exact congrArg _ split
      rw [outcome, outcome, sent, parts]
      simp only [signatures, List.map_append, List.append_assoc]

/-- Once a page of failed transactions lies ahead, the cursor stays in front of
it. -/
theorem crawl_endless (fuel : Nat) (crawl : Crawl) (blocked : ¬ Clear histories fill crawl) :
    loop (fill.crawlPage (answering histories)) fuel crawl = none := by
  refine @loop_endless _ _ _ (fun crawl => ¬ Clear histories fill crawl) ?_ fuel crawl blocked
  intro crawl blocked
  have long : ¬ (left histories fill crawl).length < getSignaturesForAddressLimit := by
    intro short
    refine blocked (fun window inside length => ?_)
    have bound := inside.length_le
    omega
  refine ⟨_, (crawlPage_eq crawl).trans (if_neg long), ?_⟩
  cases isLast : (((left histories fill crawl).take getSignaturesForAddressLimit).filter
      AddressTransaction.succeeded).getLast? with
  | none =>
    have same : left histories fill (advanced crawl ((left histories fill crawl).take getSignaturesForAddressLimit)) =
        left histories fill crawl := by
      rw [left, advanced, signatures, List.getLast?_map, isLast]
      rfl
    rw [Clear, same]
    exact blocked
  | some tx =>
    obtain ⟨front, within, succeeded, split, _⟩ := left_advanced isLast
    rw [Clear, split, runFree_split succeeded within] at blocked
    exact blocked

end Pages

/-- A crawl ends and sends exactly the successful transactions between its bounds,
the newest first, if and only if no thousand failed ones there follow each
other. -/
theorem crawl_exhaustive_iff (histories : Pubkey → AddressHistory) (fill : TreeGapFill) :
    (∃ fuel, fill.crawl (answering histories) fuel =
      some (signatures (((histories fill.tree).between fill.before fill.until).filter AddressTransaction.succeeded),
        .ok ())) ↔
      RunFree AddressTransaction.succeeded getSignaturesForAddressLimit
        ((histories fill.tree).between fill.before fill.until) := by
  constructor
  · rintro ⟨fuel, ended⟩
    by_contra blocked
    have endless := crawl_endless fuel { before := fill.before, sent := [] } blocked
    rw [TreeGapFill.crawl, endless] at ended
    cases ended
  · intro runFree
    obtain ⟨fuel, ended⟩ := crawl_ends { before := fill.before, sent := [] } runFree
    exact ⟨fuel, ended⟩

namespace Crawl.Example

/-- The signature that starts with a number of two bytes. -/
def nth (i : Nat) : Signature where
  bytes := [UInt8.ofNat (i / 256), UInt8.ofNat (i % 256)] ++ List.replicate 62 0
  size := rfl

def failed (i : Nat) : AddressTransaction where
  signature := nth i
  slot := 1000 - i
  err := some "custom program error: 0x1"
  confirmationStatus := some .finalized

theorem nth_value (i : Nat) (small : i < 1000) : bigEndianValue ((nth i).bytes.take 2) = i := by
  have value : bigEndianValue ((nth i).bytes.take 2) = (i / 256) % 256 * 256 + i % 256 % 256 := by
    simp [nth, bigEndianValue]
  omega

/-- A tree to which a thousand transactions failed. -/
def failedOnly : AddressHistory where
  transactions := (List.range 1000).map failed
  place signature := 65536 - bigEndianValue (signature.bytes.take 2)
  newestFirst := by
    refine List.pairwise_map.mpr (List.pairwise_lt_range.imp_of_mem (fun {i j} inI inJ less => ?_))
    have first := nth_value i (List.mem_range.mp inI)
    have second := nth_value j (List.mem_range.mp inJ)
    simp only [failed, first, second]
    have bound := List.mem_range.mp inJ
    omega

/-- Over a thousand failed transactions the crawl asks for the same page again and
again. -/
theorem crawl_of_failed : ¬ ∃ fuel result,
    TreeGapFill.crawl (answering (fun _ => failedOnly)) { tree := .fill 1, before := none, «until» := none } fuel =
      some result := by
  have blocked : ¬ Clear (fun _ => failedOnly) { tree := .fill 1, before := none, «until» := none }
      { before := none, sent := [] } := by
    intro clear
    have all : left (fun _ => failedOnly) { tree := .fill 1, before := none, «until» := none }
        { before := none, sent := [] } = (List.range 1000).map failed := by
      simp [left, AddressHistory.between, AddressHistory.since, older, failedOnly]
    rw [Clear, all] at clear
    obtain ⟨tx, member, succeeded⟩ := clear _ List.infix_rfl (by rw [List.length_map, List.length_range]; rfl)
    obtain ⟨i, _, isFailed⟩ := List.mem_map.mp member
    rw [← isFailed] at succeeded
    cases succeeded
  rintro ⟨fuel, result, ended⟩
  rw [TreeGapFill.crawl, crawl_endless fuel _ blocked] at ended
  cases ended

end Crawl.Example

end DasIndexer.Ops
