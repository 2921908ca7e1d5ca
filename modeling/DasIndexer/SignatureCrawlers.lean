import DasIndexer.Lib.Loops
import DasIndexer.SolanaRpc

namespace DasIndexer
open Ops Loops

def ParseSignatureError.display : ParseSignatureError → String
  | wrongSize => "string decoded to wrong size for signature"
  | invalid => "failed to decode string to signature"

namespace Backfill

inductive FindSlotsError where
  | rpcGetDataError (message : String)
  | rpcDataUnsupportedFormat (message : String)
  deriving DecidableEq

/-- The set of slots is listed in the order of insertion. -/
structure SlotSearch where
  lastSig : Option Signature
  slots : List Nat

def insertSlot (sig : SignatureStatus) (search : SlotSearch) : SlotSearch × Except FindSlotsError Unit :=
  match Signature.fromStr sig.signature with
  | .error problem =>
    (search, .error (.rpcDataUnsupportedFormat ("Failed to parse signature " ++ problem.display)))
  | .ok signature => ({ lastSig := some signature, slots := search.slots.insert sig.slot }, .ok ())

/-- One turn of `find_slots_via_address`. -/
def findSlotsPage (client : SignaturesClient) (address : Pubkey) (search : SlotSearch) :
    Turn SlotSearch (Except FindSlotsError (List Nat)) :=
  match client address search.lastSig none with
  | .error e => .stop (.error (.rpcGetDataError ("GetSignaturesForAddressWithConfig failed " ++ e)))
  | .ok sigs => match forEach insertSlot sigs search with
    | (_, .error problem) => .stop (.error problem)
    | (search, .ok _) =>
      if sigs.isEmpty || decide (sigs.length < 1000) then .stop (.ok search.slots) else .again search

def findSlotsViaAddress (client : SignaturesClient) (address : Pubkey) (fuel : Nat) :
    Option (Except FindSlotsError (List Nat)) :=
  loop (findSlotsPage client address) fuel { lastSig := none, slots := [] }

end Backfill

namespace Forwarder

inductive FindSignaturesError where
  | fetch (text : String)
  | parse (error : ParseSignatureError)
  deriving DecidableEq

structure SignatureSearch where
  lastSignature : Option Signature
  sent : List (Except FindSignaturesError Signature)

def forward (search : SignatureSearch) (tx : SignatureStatus) : SignatureSearch :=
  match Signature.fromStr tx.signature with
  | .ok signature =>
    { lastSignature := some signature
      sent := if tx.confirmationStatus.isSome && tx.err.isNone then search.sent ++ [.ok signature] else search.sent }
  | .error error => { search with sent := search.sent ++ [.error (.parse error)] }

/-- One turn of `find_signatures`. After an error of the node it asks again. -/
def findSignaturesPage (client : SignaturesClient) (address : Pubkey) (search : SignatureSearch) :
    Turn SignatureSearch (List (Except FindSignaturesError Signature)) :=
  match client address search.lastSignature none with
  | .ok vec =>
    let search := vec.foldl forward search
    if vec.isEmpty then .stop search.sent else .again search
  | .error error => .again { search with sent := search.sent ++ [.error (.fetch error)] }

/-- What `find_signatures` sends to its channel. -/
def findSignatures (client : SignaturesClient) (address : Pubkey) (fuel : Nat) :
    Option (List (Except FindSignaturesError Signature)) :=
  loop (findSignaturesPage client address) fuel { lastSignature := none, sent := [] }

end Forwarder

section Pages
variable {histories : Pubkey → AddressHistory} {address : Pubkey}

/-- The transactions that a crawler with this cursor has still to see. -/
def unseen (histories : Pubkey → AddressHistory) (address : Pubkey) (cursor : Option Signature) :
    List AddressTransaction :=
  (histories address).between cursor none

def page (histories : Pubkey → AddressHistory) (address : Pubkey) (cursor : Option Signature) :
    List AddressTransaction :=
  (unseen histories address cursor).take AddressHistory.pageLimit

/-- A crawler moves its cursor to the end of the page. -/
def nextCursor (cursor : Option Signature) (txs : List AddressTransaction) : Option Signature :=
  ((signatures txs).getLast?).or cursor

theorem nextCursor_cons (cursor : Option Signature) (tx : AddressTransaction) (rest : List AddressTransaction) :
    nextCursor cursor (tx :: rest) = nextCursor (some tx.signature) rest := by
  cases rest with
  | nil => rfl
  | cons next later => simp [nextCursor, signatures, List.getLast?_cons]

/-- Every page leaves what comes behind it. -/
theorem unseen_next (cursor : Option Signature) : unseen histories address cursor =
    page histories address cursor ++ unseen histories address (nextCursor cursor (page histories address cursor)) := by
  cases isLast : (page histories address cursor).getLast? with
  | none =>
    have nothing : page histories address cursor = [] := List.getLast?_eq_none_iff.mp isLast
    rw [nothing]
    rfl
  | some tx =>
    have moved : nextCursor cursor (page histories address cursor) = some tx.signature := by
      rw [nextCursor, signatures, List.getLast?_map, isLast]
      rfl
    have behind : unseen histories address (some tx.signature) =
        (unseen histories address cursor).drop AddressHistory.pageLimit := AddressHistory.between_page isLast
    rw [moved, behind]
    exact (List.take_append_drop _ _).symm

theorem unseen_shorter {cursor : Option Signature} (nonempty : page histories address cursor ≠ []) :
    (unseen histories address (nextCursor cursor (page histories address cursor))).length <
      (unseen histories address cursor).length := by
  have split := congrArg List.length (@unseen_next histories address cursor)
  have positive := List.length_pos_of_ne_nil nonempty
  rw [List.length_append] at split
  omega

/-- Behind a page that is not full nothing is left. -/
theorem page_short {cursor : Option Signature}
    (short : (page histories address cursor).length < AddressHistory.pageLimit) :
    page histories address cursor = unseen histories address cursor := by
  have length := List.length_take (i := AddressHistory.pageLimit) (l := unseen histories address cursor)
  refine List.take_of_length_le ?_
  rw [page, length] at short
  omega

theorem answering_page (cursor : Option Signature) : answering histories address cursor none =
    .ok ((page histories address cursor).map AddressTransaction.status) := rfl

namespace Backfill

def insertSlots (slots : List Nat) (txs : List AddressTransaction) : List Nat :=
  txs.foldl (fun slots tx => slots.insert tx.slot) slots

theorem mem_insertSlots {slots : List Nat} {txs : List AddressTransaction} {slot : Nat} :
    slot ∈ insertSlots slots txs ↔ slot ∈ slots ∨ ∃ tx ∈ txs, tx.slot = slot := by
  induction txs generalizing slots with
  | nil => simp [insertSlots]
  | cons tx rest ih =>
    rw [insertSlots, List.foldl_cons, ← insertSlots, ih, List.mem_insert_iff]
    simp only [List.mem_cons, exists_eq_or_imp]
    rw [or_comm (a := slot = tx.slot), or_assoc, eq_comm]

theorem insertSlots_nodup {slots : List Nat} (distinct : slots.Nodup) (txs : List AddressTransaction) :
    (insertSlots slots txs).Nodup := by
  induction txs generalizing slots with
  | nil => exact distinct
  | cons tx rest ih => exact ih (distinct.insert)

theorem forEach_insertSlot (txs : List AddressTransaction) (search : SlotSearch) :
    forEach insertSlot (txs.map AddressTransaction.status) search =
      ({ lastSig := nextCursor search.lastSig txs, slots := insertSlots search.slots txs }, .ok ()) := by
  induction txs generalizing search with
  | nil => rfl
  | cons tx rest ih =>
    have first : insertSlot tx.status search =
        ({ lastSig := some tx.signature, slots := search.slots.insert tx.slot }, .ok ()) := by
      rw [insertSlot, AddressTransaction.status, Signature.fromStr_toBase58]
    rw [List.map_cons, forEach, first]
    simp only [ih, nextCursor_cons]
    rfl

/-- The slots of a search that ends: those of all transactions left. -/
def found (histories : Pubkey → AddressHistory) (address : Pubkey) (search : SlotSearch) :
    Except FindSlotsError (List Nat) :=
  .ok (insertSlots search.slots (unseen histories address search.lastSig))

theorem findSlots_ends (search : SlotSearch) : ∃ fuel,
    loop (findSlotsPage (answering histories) address) fuel search = some (found histories address search) := by
  refine @loop_ends _ _ _ (fun _ => True) (fun search => (unseen histories address search.lastSig).length)
    (found histories address) ?_ search trivial
  intro search _
  rw [findSlotsPage, answering_page]
  simp only [forEach_insertSlot, List.isEmpty_map, List.length_map]
  by_cases short : (page histories address search.lastSig).length < AddressHistory.pageLimit
  · left
    rw [if_pos (by rw [Bool.or_eq_true, decide_eq_true_eq]; exact .inr short), page_short short]
    rfl
  · right
    have nonempty : page histories address search.lastSig ≠ [] := by
      intro nothing
      rw [nothing] at short
      exact short (by decide)
    have goesOn : ¬ ((page histories address search.lastSig).isEmpty ||
        decide ((page histories address search.lastSig).length < 1000)) = true := by
      rw [Bool.or_eq_true, List.isEmpty_iff, decide_eq_true_eq]
      exact fun stops => stops.elim nonempty short
    refine ⟨_, if_neg goesOn, trivial, unseen_shorter nonempty, ?_⟩
    have whole := @unseen_next histories address search.lastSig
    conv_rhs => rw [found, whole]
    rw [found, insertSlots, insertSlots, insertSlots, List.foldl_append]

end Backfill

namespace Forwarder

/-- Whether the transaction is sent on: it succeeded and has a confirmation status. -/
def emitted (tx : AddressTransaction) : Bool := tx.confirmationStatus.isSome && tx.succeeded

def emissions (txs : List AddressTransaction) : List (Except FindSignaturesError Signature) :=
  (txs.filter emitted).map (fun tx => .ok tx.signature)

theorem foldl_forward (txs : List AddressTransaction) (search : SignatureSearch) :
    (txs.map AddressTransaction.status).foldl forward search =
      { lastSignature := nextCursor search.lastSignature txs, sent := search.sent ++ emissions txs } := by
  induction txs generalizing search with
  | nil => simp [nextCursor, signatures, emissions]
  | cons tx rest ih =>
    have first : forward search tx.status =
        { lastSignature := some tx.signature
          sent := if emitted tx then search.sent ++ [.ok tx.signature] else search.sent } := by
      rw [forward, AddressTransaction.status, Signature.fromStr_toBase58]
      rfl
    rw [List.map_cons, List.foldl_cons, first, ih, nextCursor_cons]
    by_cases isEmitted : emitted tx = true
    · simp [emissions, isEmitted]
    · simp [emissions, isEmitted]

theorem findSignatures_ends (search : SignatureSearch) : ∃ fuel,
    loop (findSignaturesPage (answering histories) address) fuel search =
      some (search.sent ++ emissions (unseen histories address search.lastSignature)) := by
  refine @loop_ends _ _ _ (fun _ => True) (fun search => (unseen histories address search.lastSignature).length)
    (fun search => search.sent ++ emissions (unseen histories address search.lastSignature)) ?_ search trivial
  intro search _
  rw [findSignaturesPage, answering_page]
  simp only [foldl_forward, List.isEmpty_map]
  by_cases nothing : page histories address search.lastSignature = []
  · left
    have short : (page histories address search.lastSignature).length < AddressHistory.pageLimit := by
      rw [nothing]
      decide
    rw [← page_short short, nothing]
    rfl
  · right
    refine ⟨_, if_neg (by rwa [List.isEmpty_iff]), trivial, unseen_shorter nothing, ?_⟩
    have whole := @unseen_next histories address search.lastSignature
    conv_rhs => rw [whole]
    rw [emissions, emissions, emissions, List.filter_append, List.map_append, List.append_assoc]

end Forwarder

end Pages

/-- Both crawlers end. One returns every slot with a transaction of the address,
once; the other sends all successful transactions that have a confirmation
status, the newest first. -/
theorem crawlers_exhaustive (histories : Pubkey → AddressHistory) (address : Pubkey) :
    (∃ fuel slots, Backfill.findSlotsViaAddress (answering histories) address fuel = some (.ok slots) ∧ slots.Nodup ∧
      ∀ slot, slot ∈ slots ↔ ∃ tx ∈ (histories address).transactions, tx.slot = slot) ∧
    ∃ fuel, Forwarder.findSignatures (answering histories) address fuel =
      some (Forwarder.emissions (histories address).transactions) := by
  have all : unseen histories address none = (histories address).transactions := AddressHistory.between_none
  constructor
  · obtain ⟨fuel, ended⟩ := @Backfill.findSlots_ends histories address { lastSig := none, slots := [] }
    refine ⟨fuel, _, ended, Backfill.insertSlots_nodup List.nodup_nil _, fun slot => ?_⟩
    rw [Backfill.mem_insertSlots, all]
    simp
  · obtain ⟨fuel, ended⟩ := @Forwarder.findSignatures_ends histories address { lastSignature := none, sent := [] }
    refine ⟨fuel, ended.trans ?_⟩
    rw [all, List.nil_append]

end DasIndexer
