import DasIndexer.Backfill.Items
import DasIndexer.Base58
import DasIndexer.Lib.Loops
import DasIndexer.Mainnet

namespace DasIndexer.Backfill
open Loops

/-- The errors of `IngesterError` that the filling of a gap can end in, with the
text of the call that failed; for an address that does not decode, the address. -/
inductive IngesterError where
  | storageWriteError (message : String)
  | deserializationError (message : String)
  | rpcGetDataError (message : String)
  | serializatonError (message : String)
  | messengerError (message : String)
  | cacheStorageWriteError (message : String)
  deriving DecidableEq

structure LoadedAddresses where
  writable : List String
  readonly : List String
  deriving DecidableEq

structure TransactionStatusMeta where
  err : Option String
  loadedAddresses : Option LoadedAddresses
  deriving DecidableEq

/-- A decoded message: `address_table_lookups` is absent in the legacy format. -/
inductive VersionedMessage where
  | legacy (staticAccountKeys : List Pubkey)
  | v0 (staticAccountKeys : List Pubkey)
  deriving DecidableEq

structure EncodedTransaction where
  transaction : Bytes
  statusMeta : Option TransactionStatusMeta
  deriving DecidableEq

structure ConfirmedBlock where
  transactions : List EncodedTransaction
  blockTime : Option Int
  deriving DecidableEq

/-- What is serialised and sent to the stream `TRANSACTION_BACKFILL_STREAM`. -/
structure ConfirmedTransaction where
  transaction : EncodedTransaction
  slot : Nat
  blockTime : Option Int
  deriving DecidableEq

structure SlotRange where
  startSlot : Int
  endSlot : Int
  deriving DecidableEq

/-- The outcomes of the calls for one slot: the look-up in the cache, and where
that finds nothing the request and the storing of the block. -/
structure BlockCalls where
  cached : Option ConfirmedBlock
  requested : Except String ConfirmedBlock
  inserted : Except String Bool
  waited : Except String Unit
  stored : Option ConfirmedBlock

/-- The outcomes of all calls of one `plug_gap`. The requests for slots complete
in any order; the later calls are told apart by the turn of the loop. -/
structure Calls where
  getBlocks : SlotRange → Except String (List Nat)
  completion : List SlotRange → List SlotRange
  completes : ∀ ranges, (completion ranges).Perm ranges
  block : Nat → Nat → BlockCalls
  serialize : Nat → Nat → Except String Unit
  send : Nat → Nat → Except String Unit

/-- The slots whose block the loop worked on and what the stream was sent. -/
structure Progress where
  fetched : List Nat := []
  stream : List ConfirmedTransaction := []
  deriving DecidableEq

section PlugGap
variable [Programs] (decode : Bytes → Option VersionedMessage)

def slotRangesFrom (currSlot : Int) : Nat → Int → Int → List SlotRange
  | 0, _, _ => []
  | n + 1, startSlot, endSlot =>
    { startSlot, endSlot } :: slotRangesFrom currSlot n endSlot (min (endSlot + 500000) currSlot)

/-- The ranges for which `get_blocks_with_commitment` is called. -/
def slotRanges (gap : GapInfo) : List SlotRange :=
  let diff : Int := gap.curr.slot - gap.prev.slot
  let rounded := (diff + 250000).tdiv 500000
  let numIter := if rounded = 0 then 1 else rounded
  slotRangesFrom gap.curr.slot numIter.toNat gap.prev.slot (gap.prev.slot + min 500000 diff)

/-- The slots of the requests that succeeded, in the order of completion. -/
def resultSlots (calls : Calls) (gap : GapInfo) : List Nat :=
  ((calls.completion (slotRanges gap)).filterMap (fun range => (calls.getBlocks range).toOption)).flatten

def blockKey (slot : Nat) : String := "block" ++ toString slot

/-- The block of a slot, through the cache. -/
def cachedBlock (slot : Nat) (calls : BlockCalls) : Except IngesterError ConfirmedBlock :=
  match calls.cached with
  | some block => .ok block
  | none => match calls.requested with
    | .error problem => .error (.rpcGetDataError problem)
    | .ok _ => match calls.inserted with
      | .error problem => .error (.cacheStorageWriteError problem)
      | .ok false => .error (.cacheStorageWriteError ("Cache Write Failed on " ++ blockKey slot ++ " is missing."))
      | .ok true => match calls.waited with
        | .error problem => .error (.cacheStorageWriteError problem)
        | .ok _ => match calls.stored with
          | none => .error (.cacheStorageWriteError ("Cache Procedure Failed " ++ blockKey slot ++ " is missing."))
          | some block => .ok block

def loadAddresses : List String → Except IngesterError (List Pubkey)
  | [] => .ok []
  | address :: rest => match bs58DecodeInto32 address with
    | none => .error (.deserializationError address)
    | some key => (loadAddresses rest).map (key :: ·)

def accountKeys (msg : VersionedMessage) (status : TransactionStatusMeta) : Except IngesterError (List Pubkey) :=
  match msg, status.loadedAddresses with
  | .legacy keys, _ => .ok keys
  | .v0 keys, none => .ok keys
  | .v0 keys, some ad => (loadAddresses ad.writable).bind (fun writable =>
      (loadAddresses ad.readonly).map (fun readonly => keys ++ writable ++ readonly))

/-- One turn of the loop over the transactions of a block. -/
def plugTransaction (calls : Calls) (tree : Pubkey) (turn slot : Nat) (block : ConfirmedBlock)
    (tx : EncodedTransaction × Nat) (progress : Progress) : Progress × Except IngesterError Unit :=
  match tx.1.statusMeta with
  | none => (progress, .ok ())
  | some status => match status.err with
    | some _ => (progress, .ok ())
    | none => match decode tx.1.transaction with
      | none => (progress, .ok ())
      | some msg => match accountKeys msg status with
        | .error problem => (progress, .error problem)
        | .ok keys =>
          if keys.all (fun key => key ≠ tree && key ≠ Programs.bubblegumId) then (progress, .ok ())
          else match calls.serialize turn tx.2 with
            | .error problem => (progress, .error (.serializatonError problem))
            | .ok _ => match calls.send turn tx.2 with
              | .error problem => (progress, .error (.messengerError problem))
              | .ok _ =>
                let sent := { transaction := tx.1, slot, blockTime := block.blockTime }
                ({ progress with stream := progress.stream ++ [sent] }, .ok ())

/-- One turn of the loop over the slots. -/
def plugSlot (calls : Calls) (tree : Pubkey) (slot : Nat × Nat) (progress : Progress) :
    Progress × Except IngesterError Unit :=
  match cachedBlock slot.1 (calls.block slot.2 slot.1) with
  | .error problem => (progress, .error problem)
  | .ok block => forEach (plugTransaction decode calls tree slot.2 slot.1 block) block.transactions.zipIdx
      { progress with fetched := progress.fetched ++ [slot.1] }

def plugGap (calls : Calls) (tree : Pubkey) (gap : GapInfo) (progress : Progress) :
    Progress × Except IngesterError Unit :=
  forEach (plugSlot decode calls tree) (resultSlots calls gap).zipIdx progress

/-- The loop of `fetch_and_plug_gaps`, with the calls of each gap. -/
def plugGaps (calls : Nat → Calls) (tree : Pubkey) (gaps : List GapInfo) (progress : Progress) :
    Progress × Except IngesterError Unit :=
  forEach (fun gap => plugGap decode (calls gap.2) tree gap.1) gaps.zipIdx progress

def fetchAndPlugGaps (calls : Nat → Calls) (table : BackfillItems) (tree : Pubkey) (progress : Progress) :
    Progress × Except IngesterError (Option Nat) :=
  match getMissingData table tree with
  | .error problem => (progress, .error (.storageWriteError (dbErrText problem)))
  | .ok (optMaxSeq, gaps) => match plugGaps decode calls tree gaps progress with
    | (reached, .error problem) => (reached, .error problem)
    | (reached, .ok _) => (reached, .ok optMaxSeq)

end PlugGap

section Ranges

theorem mem_slotRangesFrom (currSlot startSlot : Int) (ordered : startSlot ≤ currSlot) (n : Nat) (range : SlotRange) :
    range ∈ slotRangesFrom currSlot n startSlot (min (startSlot + 500000) currSlot) ↔
      ∃ i : Nat, i < n ∧ range.startSlot = min (startSlot + 500000 * i) currSlot ∧
        range.endSlot = min (startSlot + 500000 * (i + 1)) currSlot := by
  induction n generalizing startSlot with
  | zero => simp [slotRangesFrom]
  | succ n ih =>
    rw [slotRangesFrom, List.mem_cons, ih _ (by omega)]
    constructor
    · rintro (first | ⟨i, small, starts, ends⟩)
      · subst first
        exact ⟨0, by omega, by simp; omega, by simp⟩
      · exact ⟨i + 1, by omega, by push_cast; omega, by push_cast; omega⟩
    · rintro ⟨i, small, starts, ends⟩
      cases i with
      | zero =>
        left
        cases range
        simp only [SlotRange.mk.injEq]
        push_cast at starts ends
        omega
      | succ i =>
        right
        push_cast at starts ends
        exact ⟨i, by omega, by omega, by omega⟩

/-- The range of a request that starts `i` times half a million slots into the
gap. -/
def SlotRange.piece (gap : GapInfo) (i : Nat) : SlotRange where
  startSlot := gap.prev.slot + 500000 * i
  endSlot := min (gap.prev.slot + 500000 * (i + 1)) gap.curr.slot

/-- How many requests a gap is cut into, when its slots are in order. -/
def numPieces (gap : GapInfo) : Nat := max 1 ((gap.curr.slot - gap.prev.slot + 250000) / 500000)

theorem mem_slotRanges {gap : GapInfo} (ordered : gap.prev.slot ≤ gap.curr.slot) (range : SlotRange) :
    range ∈ slotRanges gap ↔ ∃ i < numPieces gap, range = .piece gap i := by
  have count : (if ((gap.curr.slot : Int) - gap.prev.slot + 250000).tdiv 500000 = 0 then 1
      else ((gap.curr.slot : Int) - gap.prev.slot + 250000).tdiv 500000).toNat = numPieces gap := by
    rw [Int.tdiv_eq_ediv_of_nonneg (by omega), numPieces]
    split <;> omega
  have stop : (gap.prev.slot : Int) + min (500000 : Int) (gap.curr.slot - gap.prev.slot) =
      min ((gap.prev.slot : Int) + 500000) gap.curr.slot := by omega
  rw [slotRanges, count, stop, mem_slotRangesFrom _ _ (by omega)]
  refine exists_congr (fun i => and_congr_right (fun small => ?_))
  have before : gap.prev.slot + 500000 * i ≤ gap.curr.slot := by
    rw [numPieces] at small
    omega
  have starts : (gap.prev.slot : Int) + 500000 * i ≤ gap.curr.slot := by omega
  rw [min_eq_left starts]
  cases range
  rw [SlotRange.piece, SlotRange.mk.injEq]

/-- Slots out of order give one request that cannot match, or none. -/
theorem mem_slotRanges_reversed {gap : GapInfo} (reversed : gap.curr.slot < gap.prev.slot) {range : SlotRange}
    (member : range ∈ slotRanges gap) : range = { startSlot := gap.prev.slot, endSlot := gap.curr.slot } := by
  have few : (if ((gap.curr.slot : Int) - gap.prev.slot + 250000).tdiv 500000 = 0 then 1
      else ((gap.curr.slot : Int) - gap.prev.slot + 250000).tdiv 500000).toNat ≤ 1 := by
    split
    · decide
    · have small : ((gap.curr.slot : Int) - gap.prev.slot + 250000).tdiv 500000 ≤ (249999 : Int).tdiv 500000 :=
        Int.tdiv_le_tdiv (by decide) (by omega)
      have zero : (249999 : Int).tdiv 500000 = 0 := by decide
      omega
  have stop : (gap.prev.slot : Int) + min (500000 : Int) (gap.curr.slot - gap.prev.slot) = gap.curr.slot := by omega
  rw [slotRanges, stop] at member
  generalize (if ((gap.curr.slot : Int) - gap.prev.slot + 250000).tdiv 500000 = 0 then 1
    else ((gap.curr.slot : Int) - gap.prev.slot + 250000).tdiv 500000).toNat = count at few member
  cases count with
  | zero => cases member
  | succ count =>
    have last : count = 0 := by omega
    subst last
    exact List.mem_singleton.mp member

end Ranges

section Plugged
variable [Programs] (decode : Bytes → Option VersionedMessage) (chain : Nat → Option ConfirmedBlock) (tree : Pubkey)

def EncodedTransaction.Successful (tx : EncodedTransaction) : Prop :=
  ∃ status, tx.statusMeta = some status ∧ status.err = none

def VersionedMessage.staticAccountKeys : VersionedMessage → List Pubkey
  | .legacy keys => keys
  | .v0 keys => keys

/-- The transaction names the account, in its message or through a look-up
table. -/
def Mentions (tx : EncodedTransaction) (key : Pubkey) : Prop :=
  ∃ msg, decode tx.transaction = some msg ∧ (key ∈ msg.staticAccountKeys ∨
    ∃ keys status ad, msg = .v0 keys ∧ tx.statusMeta = some status ∧ status.loadedAddresses = some ad ∧
      ∃ address ∈ ad.writable ++ ad.readonly, bs58DecodeInto32 address = some key)

/-- The block of the slot was worked on, and each of its transactions of
interest was sent. -/
structure Handled (slot : Nat) (progress : Progress) : Prop where
  fetched : slot ∈ progress.fetched
  sent : ∀ block, chain slot = some block → ∀ tx ∈ block.transactions, tx.Successful →
    (Mentions decode tx tree ∨ Mentions decode tx Programs.bubblegumId) →
    { transaction := tx, slot, blockTime := block.blockTime } ∈ progress.stream

/-- The chain has a confirmed block for the slot, and the gap spans it. -/
structure ConfirmedIn (gap : GapInfo) (slot : Nat) : Prop where
  after : gap.prev.slot ≤ slot
  before : slot ≤ gap.curr.slot
  confirmed : (chain slot).isSome

/-- Every confirmed block of the gap was handled. -/
def Plugged (gap : GapInfo) (progress : Progress) : Prop :=
  ∀ slot, ConfirmedIn chain gap slot → Handled decode chain tree slot progress

/-- What the node and the cache promise: a request for slots fails or names the
confirmed slots of its range, and a block under a slot's key is the block of
that slot. -/
structure Calls.Faithful (calls : Calls) : Prop where
  getBlocks : ∀ range slots, calls.getBlocks range = .ok slots → ∀ slot, slot ∈ slots ↔
    range.startSlot ≤ slot ∧ slot ≤ range.endSlot ∧ (chain slot).isSome
  cached : ∀ turn slot block, (calls.block turn slot).cached = some block → chain slot = some block
  stored : ∀ turn slot block, (calls.block turn slot).stored = some block → chain slot = some block

/-- The slot lies in one of the gap's pieces, and the request for it succeeds. -/
def Answered (calls : Calls) (gap : GapInfo) (slot : Nat) : Prop :=
  ∃ i < numPieces gap, gap.prev.slot + 500000 * i ≤ slot ∧ slot ≤ gap.prev.slot + 500000 * (i + 1) ∧
    (calls.getBlocks (.piece gap i)).isOk

variable {decode chain tree}

omit [Programs] in
theorem mem_loadAddresses {addresses : List String} {keys : List Pubkey} (loaded : loadAddresses addresses = .ok keys)
    {address : String} (member : address ∈ addresses) {key : Pubkey} (decodes : bs58DecodeInto32 address = some key) :
    key ∈ keys := by
  induction addresses generalizing keys with
  | nil => cases member
  | cons first rest ih =>
    rw [loadAddresses] at loaded
    cases found : bs58DecodeInto32 first with
    | none =>
      rw [found] at loaded
      cases loaded
    | some firstKey =>
      cases loadedRest : loadAddresses rest with
      | error problem =>
        rw [found, loadedRest] at loaded
        cases loaded
      | ok later =>
      rw [found, loadedRest] at loaded
      cases loaded
      rcases List.mem_cons.mp member with isFirst | inRest
      · rw [isFirst, found] at decodes
        cases decodes
        exact List.mem_cons_self
      · exact List.mem_cons_of_mem _ (ih loadedRest inRest)

omit [Programs] in
/-- The keys that the code compares are those that the transaction mentions. -/
theorem mem_accountKeys {tx : EncodedTransaction} {status : TransactionStatusMeta} {msg : VersionedMessage}
    {keys : List Pubkey} {key : Pubkey} (hasStatus : tx.statusMeta = some status)
    (decodes : decode tx.transaction = some msg) (loaded : accountKeys msg status = .ok keys)
    (mentions : Mentions decode tx key) : key ∈ keys := by
  obtain ⟨other, alsoDecodes, named⟩ := mentions
  rw [decodes] at alsoDecodes
  cases alsoDecodes
  cases msg with
  | legacy statics =>
    cases loaded
    rcases named with inStatic | ⟨others, -, -, isV0, -⟩
    · exact inStatic
    · cases isV0
  | v0 statics =>
    cases hasAddresses : status.loadedAddresses with
    | none =>
      simp only [accountKeys, hasAddresses] at loaded
      cases loaded
      rcases named with inStatic | ⟨others, same, ad, -, sameStatus, addresses, -⟩
      · exact inStatic
      · rw [hasStatus] at sameStatus
        cases sameStatus
        rw [hasAddresses] at addresses
        cases addresses
    | some ad =>
      simp only [accountKeys, hasAddresses] at loaded
      cases writable : loadAddresses ad.writable with
      | error problem =>
        rw [writable] at loaded
        cases loaded
      | ok writableKeys =>
        cases readonly : loadAddresses ad.readonly with
        | error problem =>
          rw [writable, readonly] at loaded
          cases loaded
        | ok readonlyKeys =>
          rw [writable, readonly] at loaded
          cases loaded
          rcases named with inStatic | ⟨others, same, used, -, sameStatus, addresses, address, listed, isKey⟩
          · exact List.mem_append_left _ (List.mem_append_left _ inStatic)
          · rw [hasStatus] at sameStatus
            cases sameStatus
            rw [hasAddresses] at addresses
            cases addresses
            rcases List.mem_append.mp listed with isWritable | isReadonly
            · exact List.mem_append_left _ (List.mem_append_right _ (mem_loadAddresses writable isWritable isKey))
            · exact List.mem_append_right _ (mem_loadAddresses readonly isReadonly isKey)

/-- What a completed turn for a transaction did: nothing, which is right for
some transactions only, or it sent the transaction. -/
theorem plugTransaction_ok {calls : Calls} {turn slot : Nat} {block : ConfirmedBlock}
    {tx : EncodedTransaction × Nat} {before after : Progress}
    (completed : plugTransaction decode calls tree turn slot block tx before = (after, .ok ())) :
    (after = before ∧ ¬ (tx.1.Successful ∧
      (Mentions decode tx.1 tree ∨ Mentions decode tx.1 Programs.bubblegumId))) ∨
    after = { before with stream := before.stream ++
      [{ transaction := tx.1, slot, blockTime := block.blockTime }] } := by
  unfold plugTransaction at completed
  cases hasStatus : tx.1.statusMeta with
  | none =>
    rw [hasStatus] at completed
    cases completed
    refine .inl ⟨rfl, fun wanted => ?_⟩
    obtain ⟨⟨status, has, -⟩, -⟩ := wanted
    rw [hasStatus] at has
    cases has
  | some status =>
  cases failed : status.err with
  | some problem =>
    simp only [hasStatus, failed] at completed
    cases completed
    refine .inl ⟨rfl, fun wanted => ?_⟩
    obtain ⟨⟨other, has, noError⟩, -⟩ := wanted
    rw [hasStatus] at has
    cases has
    rw [failed] at noError
    cases noError
  | none =>
  cases decodes : decode tx.1.transaction with
  | none =>
    simp only [hasStatus, failed, decodes] at completed
    cases completed
    refine .inl ⟨rfl, fun wanted => ?_⟩
    rcases wanted.2 with ⟨msg, isMsg, -⟩ | ⟨msg, isMsg, -⟩ <;>
    · rw [decodes] at isMsg
      cases isMsg
  | some msg =>
  cases loaded : accountKeys msg status with
  | error problem =>
    simp only [hasStatus, failed, decodes, loaded] at completed
    cases completed
  | ok keys =>
  simp only [hasStatus, failed, decodes, loaded] at completed
  split at completed
  · cases completed
    rename_i other
    refine .inl ⟨rfl, fun wanted => ?_⟩
    rw [List.all_eq_true] at other
    rcases wanted.2 with mentions | mentions
    · simpa using other _ (mem_accountKeys hasStatus decodes loaded mentions)
    · simpa using other _ (mem_accountKeys hasStatus decodes loaded mentions)
  · cases serialized : calls.serialize turn tx.2 with
    | error problem =>
      simp only [serialized] at completed
      cases completed
    | ok =>
    cases sent : calls.send turn tx.2 with
    | error problem =>
      simp only [serialized, sent] at completed
      cases completed
    | ok =>
      simp only [serialized, sent] at completed
      cases completed
      exact .inr rfl

/-- Nothing that was fetched or sent is taken back. -/
structure Progress.Extends (before after : Progress) : Prop where
  fetched : ∀ slot ∈ before.fetched, slot ∈ after.fetched
  stream : ∀ sent ∈ before.stream, sent ∈ after.stream

omit [Programs] in
theorem Progress.Extends.refl (progress : Progress) : progress.Extends progress :=
  ⟨fun _ member => member, fun _ member => member⟩

omit [Programs] in
theorem Progress.Extends.trans {first second third : Progress} (early : first.Extends second)
    (late : second.Extends third) : first.Extends third where
  fetched slot member := late.fetched slot (early.fetched slot member)
  stream sent member := late.stream sent (early.stream sent member)

theorem Handled.mono {slot : Nat} {before after : Progress} (handled : Handled decode chain tree slot before)
    (grows : before.Extends after) : Handled decode chain tree slot after where
  fetched := grows.fetched slot handled.fetched
  sent block isBlock tx inBlock successful mentions :=
    grows.stream _ (handled.sent block isBlock tx inBlock successful mentions)

theorem plugTransaction_keeps {calls : Calls} {turn slot : Nat} {block : ConfirmedBlock}
    {tx : EncodedTransaction × Nat} {before after : Progress}
    (completed : plugTransaction decode calls tree turn slot block tx before = (after, .ok ())) :
    after.fetched = before.fetched ∧ before.Extends after := by
  rcases plugTransaction_ok completed with ⟨same, -⟩ | added
  · rw [same]
    exact ⟨rfl, .refl before⟩
  · rw [added]
    exact ⟨rfl, fun _ member => member, fun _ member => List.mem_append_left _ member⟩

omit [Programs] in
theorem cachedBlock_faithful {calls : Calls} (faithful : calls.Faithful chain) {turn slot : Nat}
    {block : ConfirmedBlock} (found : cachedBlock slot (calls.block turn slot) = .ok block) :
    chain slot = some block := by
  unfold cachedBlock at found
  split at found
  · cases found
    exact faithful.cached turn slot block (by assumption)
  · repeat' split at found
    all_goals cases found
    exact faithful.stored turn slot block (by assumption)

/-- What a completed turn for a slot did. -/
theorem plugSlot_ok {calls : Calls} (faithful : calls.Faithful chain) {slot : Nat × Nat} {before after : Progress}
    (completed : plugSlot decode calls tree slot before = (after, .ok ())) :
    Handled decode chain tree slot.1 after ∧ before.Extends after ∧ after.fetched = before.fetched ++ [slot.1] := by
  rw [plugSlot] at completed
  cases found : cachedBlock slot.1 (calls.block slot.2 slot.1) with
  | error problem =>
    rw [found] at completed
    cases completed
  | ok block =>
    rw [found] at completed
    have isBlock := cachedBlock_faithful faithful found
    obtain ⟨fetched, grows⟩ := forEach_invariant
      (fun reached => reached.fetched = before.fetched ++ [slot.1] ∧ before.Extends reached)
      (fun tx _ earlier later turn held =>
        ⟨(plugTransaction_keeps turn).1.trans held.1, held.2.trans (plugTransaction_keeps turn).2⟩)
      completed ⟨rfl, fun _ member => List.mem_append_left _ member, fun _ member => member⟩
    have sent := forEach_established
      (fun tx reached => tx.1.Successful →
        (Mentions decode tx.1 tree ∨ Mentions decode tx.1 Programs.bubblegumId) →
        { transaction := tx.1, slot := slot.1, blockTime := block.blockTime } ∈ reached.stream)
      (fun tx earlier later turn successful mentions => by
        rcases plugTransaction_ok turn with ⟨-, unwanted⟩ | added
        · exact absurd ⟨successful, mentions⟩ unwanted
        · rw [added]
          exact List.mem_append_right _ List.mem_cons_self)
      (fun tx other earlier later turn held successful mentions =>
        (plugTransaction_keeps turn).2.stream _ (by exact held successful mentions))
      completed
    refine ⟨⟨?_, fun other isOther tx inBlock => ?_⟩, grows, fetched⟩
    · rw [fetched]
      exact List.mem_append_right _ List.mem_cons_self
    · rw [isBlock] at isOther
      cases isOther
      obtain ⟨index, indexed⟩ := exists_mem_zipIdx inBlock
      exact sent (tx, index) indexed

/-- What a completed `plug_gap` did: it handled the slots of the requests that
succeeded, and fetched no others. -/
theorem plugGap_ok {calls : Calls} (faithful : calls.Faithful chain) {gap : GapInfo} {before after : Progress}
    (completed : plugGap decode calls tree gap before = (after, .ok ())) :
    (∀ slot ∈ resultSlots calls gap, Handled decode chain tree slot after) ∧ before.Extends after ∧
      ∀ slot ∈ after.fetched, slot ∈ before.fetched ∨ slot ∈ resultSlots calls gap := by
  have kept := forEach_invariant
    (fun reached => before.Extends reached ∧
      ∀ slot ∈ reached.fetched, slot ∈ before.fetched ∨ slot ∈ resultSlots calls gap)
    (fun slot inSlots earlier later turn held => by
      obtain ⟨-, grows, fetched⟩ := plugSlot_ok faithful turn
      refine ⟨held.1.trans grows, fun other member => ?_⟩
      rw [fetched] at member
      rcases List.mem_append.mp member with old | new
      · exact held.2 other old
      · rw [List.mem_singleton.mp new]
        exact .inr (List.fst_mem_of_mem_zipIdx inSlots))
    completed ⟨.refl before, fun _ member => .inl member⟩
  have handled := forEach_established (fun slot => Handled decode chain tree slot.1)
    (fun slot earlier later turn => (plugSlot_ok faithful turn).1)
    (fun slot other earlier later turn done => done.mono (plugSlot_ok faithful turn).2.1)
    completed
  refine ⟨fun slot member => ?_, kept⟩
  obtain ⟨index, indexed⟩ := exists_mem_zipIdx member
  exact handled (slot, index) indexed

/-- What a completed loop over the gaps did. -/
theorem plugGaps_ok {calls : Nat → Calls} (faithful : ∀ i, (calls i).Faithful chain) {gaps : List GapInfo}
    {before after : Progress} (completed : plugGaps decode calls tree gaps before = (after, .ok ())) :
    (∀ gap ∈ gaps.zipIdx, ∀ slot ∈ resultSlots (calls gap.2) gap.1, Handled decode chain tree slot after) ∧
      ∀ slot ∈ after.fetched, slot ∈ before.fetched ∨
        ∃ gap ∈ gaps.zipIdx, slot ∈ resultSlots (calls gap.2) gap.1 := by
  have kept := forEach_invariant
    (fun reached => ∀ slot ∈ reached.fetched, slot ∈ before.fetched ∨
      ∃ gap ∈ gaps.zipIdx, slot ∈ resultSlots (calls gap.2) gap.1)
    (fun gap inGaps earlier later turn held slot member => by
      rcases (plugGap_ok (faithful gap.2) turn).2.2 slot member with old | new
      · exact held slot old
      · exact .inr ⟨gap, inGaps, new⟩)
    completed (fun _ member => .inl member)
  have handled := forEach_established
    (fun gap reached => ∀ slot ∈ resultSlots (calls gap.2) gap.1, Handled decode chain tree slot reached)
    (fun gap earlier later turn => (plugGap_ok (faithful gap.2) turn).1)
    (fun gap other earlier later turn done slot member =>
      Handled.mono (by exact done slot member) (plugGap_ok (faithful other.2) turn).2.1)
    completed
  exact ⟨handled, kept⟩

omit [Programs] in
theorem mem_resultSlots_iff_range {calls : Calls} (faithful : calls.Faithful chain) {gap : GapInfo} {slot : Nat} :
    slot ∈ resultSlots calls gap ↔ ∃ range ∈ slotRanges gap, (calls.getBlocks range).isOk ∧
      range.startSlot ≤ slot ∧ slot ≤ range.endSlot ∧ (chain slot).isSome := by
  simp only [resultSlots, List.mem_flatten, List.mem_filterMap, (calls.completes _).mem_iff]
  constructor
  · rintro ⟨slots, ⟨range, inRanges, answered⟩, member⟩
    cases answer : calls.getBlocks range with
    | error problem =>
      rw [answer] at answered
      cases answered
    | ok others =>
      rw [answer] at answered
      cases answered
      exact ⟨range, inRanges, by rw [answer]; rfl, (faithful.getBlocks range slots answer slot).mp member⟩
  · rintro ⟨range, inRanges, answered, within⟩
    cases answer : calls.getBlocks range with
    | error problem =>
      rw [answer] at answered
      cases answered
    | ok slots =>
      exact ⟨slots, ⟨range, inRanges, by rw [answer]; rfl⟩, (faithful.getBlocks range slots answer slot).mpr within⟩

omit [Programs] in
/-- The slots that the requests bring in. -/
theorem mem_resultSlots {calls : Calls} (faithful : calls.Faithful chain) {gap : GapInfo} {slot : Nat} :
    slot ∈ resultSlots calls gap ↔ ConfirmedIn chain gap slot ∧ Answered calls gap slot := by
  rw [mem_resultSlots_iff_range faithful]
  constructor
  · rintro ⟨range, inRanges, answered, starts, ends, confirmed⟩
    have ordered : gap.prev.slot ≤ gap.curr.slot := by
      by_contra reversed
      have isWhole := mem_slotRanges_reversed (by omega) inRanges
      rw [isWhole] at starts ends
      dsimp only at starts ends
      omega
    obtain ⟨i, small, isPiece⟩ := (mem_slotRanges ordered range).mp inRanges
    subst isPiece
    simp only [SlotRange.piece] at starts ends
    exact ⟨⟨by omega, by omega, confirmed⟩, i, small, by omega, by omega, answered⟩
  · rintro ⟨⟨after, before, confirmed⟩, i, small, starts, ends, answered⟩
    refine ⟨.piece gap i, (mem_slotRanges (after.trans before) _).mpr ⟨i, small, rfl⟩, answered, ?_, ?_, confirmed⟩
    · simp only [SlotRange.piece]
      omega
    · simp only [SlotRange.piece]
      omega

/-- A gap that `plug_gap` reports as filled is filled exactly when each of its
confirmed slots lies in a piece that was asked for successfully; the tail that
the rounding cuts off is in no piece. The same holds of a whole pass, where a
slot may also be in another gap. -/
theorem plugged_iff_answered {calls : Nat → Calls} (faithful : ∀ i, (calls i).Faithful chain) :
    (∀ gap progress, plugGap decode (calls 0) tree gap {} = (progress, .ok ()) →
      (Plugged decode chain tree gap progress ↔ ∀ slot, ConfirmedIn chain gap slot → Answered (calls 0) gap slot)) ∧
    ∀ table maxSeq progress, fetchAndPlugGaps decode calls table tree {} = (progress, .ok maxSeq) →
      ∃ gaps, getMissingData table tree = .ok (maxSeq, gaps) ∧
        ((∀ gap ∈ gaps, Plugged decode chain tree gap progress) ↔
          ∀ gap ∈ gaps, ∀ slot, ConfirmedIn chain gap slot →
            ∃ other ∈ gaps.zipIdx, ConfirmedIn chain other.1 slot ∧ Answered (calls other.2) other.1 slot) := by
  constructor
  · intro gap progress completed
    obtain ⟨handled, -, fetched⟩ := plugGap_ok (faithful 0) completed
    constructor
    · intro plugged slot inGap
      rcases fetched slot (plugged slot inGap).fetched with old | found
      · cases old
      · exact ((mem_resultSlots (faithful 0)).mp found).2
    · intro answered slot inGap
      exact handled slot ((mem_resultSlots (faithful 0)).mpr ⟨inGap, answered slot inGap⟩)
  · intro table maxSeq progress returned
    rw [fetchAndPlugGaps] at returned
    cases missing : getMissingData table tree with
    | error problem =>
      rw [missing] at returned
      cases returned
    | ok data =>
      rcases data with ⟨optMaxSeq, gaps⟩
      rw [missing] at returned
      dsimp only at returned
      rcases ran : plugGaps decode calls tree gaps {} with ⟨reached, outcome⟩
      rw [ran] at returned
      cases outcome with
      | error problem => cases returned
      | ok =>
        cases returned
        obtain ⟨handled, fetched⟩ := plugGaps_ok faithful ran
        refine ⟨gaps, rfl, ?_⟩
        constructor
        · intro plugged gap inGaps slot inGap
          rcases fetched slot (plugged gap inGaps slot inGap).fetched with old | ⟨other, isOther, found⟩
          · cases old
          · exact ⟨other, isOther, (mem_resultSlots (faithful other.2)).mp found⟩
        · intro answered gap inGaps slot inGap
          obtain ⟨other, isOther, found⟩ := answered gap inGaps slot inGap
          exact handled other isOther slot ((mem_resultSlots (faithful other.2)).mpr found)

end Plugged

section Tail

/-- A chain with one block after the slots of the example below. -/
def tailChain (slot : Nat) : Option ConfirmedBlock :=
  if slot = 600000 then some { transactions := [], blockTime := none } else none

/-- Every call succeeds. -/
def tailCalls : Calls where
  getBlocks range := .ok (if range.startSlot ≤ 600000 ∧ 600000 ≤ range.endSlot then [600000] else [])
  completion ranges := ranges
  completes := List.Perm.refl
  block _ slot :=
    { cached := none
      requested := .ok { transactions := [], blockTime := none }
      inserted := .ok true
      waited := .ok ()
      stored := tailChain slot }
  serialize _ _ := .ok ()
  send _ _ := .ok ()

def gapBetween (first last : Nat) : GapInfo where
  prev := { seq := 1, slot := first }
  curr := { seq := 3, slot := last }

theorem tailCalls_faithful : tailCalls.Faithful tailChain where
  getBlocks range slots answer slot := by
    cases answer
    rw [tailChain]
    by_cases isTail : slot = 600000
    · subst isTail
      by_cases within : range.startSlot ≤ 600000 ∧ 600000 ≤ range.endSlot
      · rw [if_pos within]
        exact ⟨fun _ => ⟨within.1, within.2, rfl⟩, fun _ => List.mem_cons_self⟩
      · rw [if_neg within]
        exact ⟨fun member => absurd member List.not_mem_nil, fun inRange => absurd ⟨inRange.1, inRange.2.1⟩ within⟩
    · rw [if_neg isTail]
      split <;> simp [isTail]
  cached _ _ _ found := by cases found
  stored _ _ _ found := found

/-- The requests of a gap of 600000 slots stop after 500000 of them. -/
theorem tail_not_plugged (decode : Bytes → Option VersionedMessage) (tree : Pubkey) :
    plugGap decode tailCalls tree (gapBetween 0 600000) {} = ({}, .ok ()) ∧
      ¬ Plugged decode tailChain tree (gapBetween 0 600000) {} := by
  refine ⟨rfl, fun plugged => ?_⟩
  have handled := plugged 600000 ⟨Nat.zero_le _, Nat.le_refl _, rfl⟩
  exact List.not_mem_nil handled.fetched

theorem plugGap_loses_tail :
    tailCalls.Faithful tailChain ∧ ∀ decode tree,
      plugGap decode tailCalls tree (gapBetween 0 600000) {} = ({}, .ok ()) ∧
        ¬ Plugged decode tailChain tree (gapBetween 0 600000) {} :=
  ⟨tailCalls_faithful, tail_not_plugged⟩

/-- A gap of 300000 slots is one piece. -/
theorem plugged_when_answered :
    tailCalls.Faithful tailChain ∧ ∀ decode tree,
      plugGap decode tailCalls tree (gapBetween 300000 600000) {} = ({ fetched := [600000] }, .ok ()) ∧
        Plugged decode tailChain tree (gapBetween 300000 600000) { fetched := [600000] } := by
  refine ⟨tailCalls_faithful, fun decode tree => ⟨rfl, ?_⟩⟩
  have answered := @plugged_iff_answered _ decode tailChain tree (fun _ => tailCalls) (fun _ => tailCalls_faithful)
  refine (answered.1 _ _ rfl).mpr (fun slot inGap => ⟨0, by decide, inGap.after, ?_, rfl⟩)
  have last := inGap.before
  simp only [gapBetween] at last ⊢
  omega

end Tail
end DasIndexer.Backfill
