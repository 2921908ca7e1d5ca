import DasIndexer.Blockbuster.Bubblegum
import DasIndexer.Blockbuster.Malformed
import DasIndexer.Programs
import DasIndexer.Schema

namespace DasIndexer
open Blockbuster

structure TransactionInfo where
  slot : Nat
  signature : Bytes
  accountKeys : List Pubkey
  messageInstructions : List CompiledInstruction
  metaInnerInstructions : List InnerInstructions

/-- What a parser is given. -/
structure TransactionBundle extends Blockbuster.InstructionBundle where
  txnId : Bytes
  program : Pubkey
  slot : Nat

/-- `iter().max().copied().unwrap_or(0)`. -/
def maxAccount (ix : CompiledInstruction) : Nat := ((ix.accounts.map UInt8.toNat).max?).getD 0

/-- The keys of the accounts of an instruction. An index without a key is passed
over. -/
def instructionKeys (accountKeys : List Pubkey) (ix : CompiledInstruction) : List Pubkey :=
  ix.accounts.foldl (fun acc a => match accountKeys[a.toNat]? with
    | some key => acc ++ [key]
    | none => acc) []

def bundleOf (txInfo : TransactionInfo) (entry : OrderedIx) : Except ProgramTransformerError TransactionBundle :=
  if txInfo.accountKeys.length < maxAccount entry.1.2 then
    .error (.deserializationError "Missing Accounts in Serialized Ixn/Txn")
  else
    .ok
      { txnId := txInfo.signature
        program := entry.1.1
        instruction := some entry.1.2
        innerIx := entry.2
        keys := instructionKeys txInfo.accountKeys entry.1.2
        slot := txInfo.slot }

/-- What a parser and the handler of its result do with a bundle. The result says
whether something is implemented for it. -/
abbrev Handle := TransactionBundle → Db → Db × Except ProgramTransformerError Bool

section Transaction
variable (programs : Finset Pubkey) (handle : Handle) (txInfo : TransactionInfo)

/-- The loop of `handle_transaction`, with the bundles that were passed to a
parser. -/
def handleInstructions :
    List OrderedIx → Nat → Db → List TransactionBundle × Db × Except ProgramTransformerError Nat
  | [], notImpl, db => ([], db, .ok notImpl)
  | entry :: rest, notImpl, db =>
    match bundleOf txInfo entry with
    | .error problem => ([], db, .error problem)
    | .ok bundle =>
      if bundle.program ∈ programs then
        match handle bundle db with
        | (db, .error problem) => ([bundle], db, .error problem)
        | (db, .ok implemented) =>
          let (passed, result) := handleInstructions rest (if implemented then notImpl else notImpl + 1) db
          (bundle :: passed, result)
      else handleInstructions rest notImpl db

def breakTransaction : Option (List OrderedIx) :=
  orderInstructions programs txInfo.accountKeys txInfo.messageInstructions txInfo.metaInnerInstructions

/-- No result: `break_transaction` panics. -/
def handleTransaction (db : Db) : Option (List TransactionBundle × Db × Except ProgramTransformerError Unit) :=
  (breakTransaction programs txInfo).map (fun instructions =>
    let (passed, db, result) := handleInstructions programs handle txInfo instructions 0 db
    (passed, db, result.bind (fun notImpl =>
      if notImpl = instructions.length then .error .notImplemented else .ok ())))

end Transaction

/-- The keys of a bundle stand where its instruction names them. -/
structure TransactionBundle.Aligned (bundle : TransactionBundle) (accountKeys : List Pubkey) : Prop where
  length : ∀ ix, bundle.instruction = some ix → bundle.keys.length = ix.accounts.length
  keys : ∀ ix, bundle.instruction = some ix → ∀ (i : Nat) (a : UInt8), ix.accounts[i]? = some a →
    ∃ key, bundle.keys[i]? = some key ∧ accountKeys[a.toNat]? = some key

section Keys
variable {accountKeys : List Pubkey} {ix : CompiledInstruction}

theorem instructionKeys_eq : instructionKeys accountKeys ix = ix.accounts.filterMap (fun a => accountKeys[a.toNat]?) := by
  have collected : ∀ (accounts : List UInt8) (acc : List Pubkey),
      accounts.foldl (fun acc a => match accountKeys[a.toNat]? with
        | some key => acc ++ [key]
        | none => acc) acc = acc ++ accounts.filterMap (fun a => accountKeys[a.toNat]?) := by
    intro accounts
    induction accounts with
    | nil => exact fun acc => (List.append_nil acc).symm
    | cons a rest ih =>
      intro acc
      rw [List.foldl_cons, ih, List.filterMap_cons]
      cases accountKeys[a.toNat]? with
      | none => rfl
      | some key => simp
  exact collected ix.accounts []

theorem filterMap_named {named : UInt8 → Option Pubkey} {accounts : List UInt8}
    (all : ∀ a ∈ accounts, (named a).isSome) : (accounts.filterMap named).map some = accounts.map named := by
  induction accounts with
  | nil => rfl
  | cons a rest ih =>
    obtain ⟨key, isKey⟩ := Option.isSome_iff_exists.mp (all a List.mem_cons_self)
    rw [List.filterMap_cons_some isKey, List.map_cons, List.map_cons, isKey,
      ih (fun other member => all other (List.mem_cons_of_mem _ member))]

theorem lt_maxAccount_iff : accountKeys.length < maxAccount ix ↔ ∃ a ∈ ix.accounts, accountKeys.length < a.toNat := by
  rw [maxAccount]
  constructor
  · intro large
    cases largest : (ix.accounts.map UInt8.toNat).max? with
    | none =>
      rw [largest] at large
      exact absurd large (Nat.not_lt_zero _)
    | some m =>
      rw [largest] at large
      obtain ⟨a, member, same⟩ := List.mem_map.mp (List.max?_mem largest)
      exact ⟨a, member, by rw [same]; exact large⟩
  · rintro ⟨a, member, large⟩
    exact Nat.lt_of_lt_of_le large (List.le_max?_getD_of_mem (List.mem_map_of_mem member))

end Keys

/-- An account index has no key, by one, and the check on the largest index does not
see it. -/
def Misread (accountKeys : List Pubkey) (ix : CompiledInstruction) : Prop :=
  (∃ a ∈ ix.accounts, a.toNat = accountKeys.length) ∧ ∀ a ∈ ix.accounts, a.toNat ≤ accountKeys.length

def Rejected (accountKeys : List Pubkey) (ix : CompiledInstruction) : Prop :=
  ∃ a ∈ ix.accounts, accountKeys.length < a.toNat

/-- The bundle of an instruction that is not rejected. -/
def bundleFor (txInfo : TransactionInfo) (entry : OrderedIx) : TransactionBundle where
  txnId := txInfo.signature
  program := entry.1.1
  instruction := some entry.1.2
  innerIx := entry.2
  keys := instructionKeys txInfo.accountKeys entry.1.2
  slot := txInfo.slot

def TransactionBundle.entry (bundle : TransactionBundle) : Pubkey × Option CompiledInstruction × Option (List IxPair) :=
  (bundle.program, bundle.instruction, bundle.innerIx)

/-- All bundles that were passed on have their keys in place, and without an error
every instruction was passed on. -/
structure SafelyPassed (txInfo : TransactionInfo) (instructions : List OrderedIx) (passed : List TransactionBundle)
    (result : Except ProgramTransformerError Unit) : Prop where
  aligned : ∀ bundle ∈ passed, bundle.Aligned txInfo.accountKeys
  complete : result = .ok () →
    passed.map TransactionBundle.entry = instructions.map (fun entry => (entry.1.1, some entry.1.2, entry.2))

section Passed
variable {programs : Finset Pubkey} {handle : Handle} {txInfo : TransactionInfo} {entry : OrderedIx}

theorem bundleOf_rejected (rejected : Rejected txInfo.accountKeys entry.1.2) :
    bundleOf txInfo entry = .error (.deserializationError "Missing Accounts in Serialized Ixn/Txn") :=
  if_pos (lt_maxAccount_iff.mpr rejected)

theorem bundleOf_accepted (accepted : ¬ Rejected txInfo.accountKeys entry.1.2) :
    bundleOf txInfo entry = .ok (bundleFor txInfo entry) :=
  if_neg (fun large => accepted (lt_maxAccount_iff.mp large))

theorem bundleFor_aligned_iff (accepted : ¬ Rejected txInfo.accountKeys entry.1.2) :
    (bundleFor txInfo entry).Aligned txInfo.accountKeys ↔ ¬ Misread txInfo.accountKeys entry.1.2 := by
  have bounded : ∀ a ∈ entry.1.2.accounts, a.toNat ≤ txInfo.accountKeys.length :=
    fun a member => not_lt.mp (fun large => accepted ⟨a, member, large⟩)
  constructor
  · rintro aligned ⟨⟨a, member, same⟩, -⟩
    obtain ⟨i, found⟩ := List.getElem?_of_mem member
    obtain ⟨key, -, named⟩ := aligned.keys entry.1.2 rfl i a found
    rw [same, List.getElem?_eq_none le_rfl] at named
    cases named
  · intro inPlace
    have named : ∀ a ∈ entry.1.2.accounts, (txInfo.accountKeys[a.toNat]?).isSome := by
      intro a member
      rw [isSome_getElem?]
      have different : a.toNat ≠ txInfo.accountKeys.length := fun same => inPlace ⟨⟨a, member, same⟩, bounded⟩
      have below := bounded a member
      omega
    have keys : (bundleFor txInfo entry).keys = entry.1.2.accounts.filterMap (fun a => txInfo.accountKeys[a.toNat]?) :=
      instructionKeys_eq
    refine ⟨fun ix same => ?_, fun ix same i a found => ?_⟩
    · cases same
      rw [keys, List.filterMap_length_eq_length]
      exact named
    · cases same
      obtain ⟨key, isKey⟩ := Option.isSome_iff_exists.mp (named a (List.mem_of_getElem? found))
      refine ⟨key, ?_, isKey⟩
      have same := congrArg (fun keys => keys[i]?) (filterMap_named named)
      rw [List.getElem?_map, List.getElem?_map, found, Option.map_some, isKey, Option.map_eq_some_iff] at same
      obtain ⟨other, isOther, sameKey⟩ := same
      rw [keys, isOther, Option.some.inj sameKey]

/-- What a run of the loop passes on is in place if nothing that it reaches is
misread, whatever the parsers do. -/
theorem handleInstructions_passed {entries : List OrderedIx} {notImpl : Nat} {db after : Db}
    {passed : List TransactionBundle} {result : Except ProgramTransformerError Nat}
    (isKnown : ∀ entry ∈ entries, entry.1.1 ∈ programs)
    (inPlace : ∀ front entry rest, entries = front ++ entry :: rest → Misread txInfo.accountKeys entry.1.2 →
      ∃ earlier ∈ front, Rejected txInfo.accountKeys earlier.1.2)
    (ran : handleInstructions programs handle txInfo entries notImpl db = (passed, after, result)) :
    (∀ bundle ∈ passed, bundle.Aligned txInfo.accountKeys) ∧
      (∀ n, result = .ok n →
        passed.map TransactionBundle.entry = entries.map (fun entry => (entry.1.1, some entry.1.2, entry.2))) := by
  induction entries generalizing notImpl db passed with
  | nil =>
    cases ran
    exact ⟨nofun, fun _ _ => rfl⟩
  | cons entry rest ih =>
    by_cases rejected : Rejected txInfo.accountKeys entry.1.2
    · rw [handleInstructions, bundleOf_rejected rejected] at ran
      cases ran
      exact ⟨nofun, nofun⟩
    · have aligned : (bundleFor txInfo entry).Aligned txInfo.accountKeys := by
        refine (bundleFor_aligned_iff rejected).mpr (fun misread => ?_)
        obtain ⟨earlier, member, -⟩ := inPlace [] entry rest rfl misread
        exact absurd member List.not_mem_nil
      have later : ∀ front other others, rest = front ++ other :: others → Misread txInfo.accountKeys other.1.2 →
          ∃ earlier ∈ front, Rejected txInfo.accountKeys earlier.1.2 := by
        intro front other others split misread
        obtain ⟨earlier, member, refused⟩ := inPlace (entry :: front) other others (by rw [split]; rfl) misread
        rcases List.mem_cons.mp member with same | inFront
        · rw [same] at refused
          exact absurd refused rejected
        · exact ⟨earlier, inFront, refused⟩
      have isProgram : (bundleFor txInfo entry).program ∈ programs := isKnown entry List.mem_cons_self
      rw [handleInstructions, bundleOf_accepted rejected] at ran
      simp only [isProgram, if_true] at ran
      rcases handled : handle (bundleFor txInfo entry) db with ⟨next, outcome⟩
      rw [handled] at ran
      cases outcome with
      | error problem =>
        cases ran
        refine ⟨fun bundle member => ?_, nofun⟩
        rw [List.mem_singleton.mp member]
        exact aligned
      | ok implemented =>
        rcases remains : handleInstructions programs handle txInfo rest
          (if implemented then notImpl else notImpl + 1) next with ⟨others, final⟩
        simp only [remains] at ran
        cases ran
        obtain ⟨othersAligned, complete⟩ :=
          ih (fun other member => isKnown other (List.mem_cons_of_mem _ member)) later remains
        refine ⟨fun bundle member => ?_, fun n succeeded => ?_⟩
        · rcases List.mem_cons.mp member with same | inOthers
          · rw [same]
            exact aligned
          · exact othersAligned bundle inOthers
        · rw [List.map_cons, List.map_cons, complete n succeeded]
          rfl

/-- Parsers that accept everything. -/
def accepting : Handle := fun _ db => (db, .ok true)

theorem accepting_passes {front rest : List OrderedIx} {notImpl : Nat} {db : Db}
    (isKnown : ∀ other ∈ front ++ entry :: rest, other.1.1 ∈ programs)
    (accepted : ∀ other ∈ front ++ [entry], ¬ Rejected txInfo.accountKeys other.1.2) :
    bundleFor txInfo entry ∈
      (handleInstructions programs accepting txInfo (front ++ entry :: rest) notImpl db).1 := by
  induction front generalizing notImpl db with
  | nil =>
    have isProgram : (bundleFor txInfo entry).program ∈ programs := isKnown entry List.mem_cons_self
    rw [List.nil_append, handleInstructions, bundleOf_accepted (accepted entry List.mem_cons_self)]
    simp only [isProgram, if_true]
    exact List.mem_cons_self
  | cons first others ih =>
    have isProgram : (bundleFor txInfo first).program ∈ programs := isKnown first List.mem_cons_self
    rw [List.cons_append, handleInstructions, bundleOf_accepted (accepted first List.mem_cons_self)]
    simp only [isProgram, if_true]
    exact List.mem_cons_of_mem _ (ih (fun other member => isKnown other (List.mem_cons_of_mem _ member))
      (fun other member => accepted other (List.mem_cons_of_mem _ member)))

end Passed

section Known
variable {programs : Finset Pubkey} {accountKeys : List Pubkey}

theorem mem_mapM {α β : Type} {f : α → Option β} {items : List α} {results : List β} {y : β}
    (ran : items.mapM f = some results) (member : y ∈ results) : ∃ x ∈ items, f x = some y := by
  induction items generalizing results with
  | nil =>
    cases ran
    cases member
  | cons x rest ih =>
    simp only [List.mapM_cons, Option.bind_eq_bind, Option.bind_eq_some_iff] at ran
    obtain ⟨first, isFirst, others, isOthers, same⟩ := ran
    cases same
    rcases List.mem_cons.mp member with same | later
    · rw [same]
      exact ⟨x, List.mem_cons_self, isFirst⟩
    · obtain ⟨other, inRest, isOther⟩ := ih isOthers later
      exact ⟨other, List.mem_cons_of_mem _ inRest, isOther⟩

/-- Only instructions of known programs are handed out. -/
theorem orderInstructions_known {outers : List CompiledInstruction} {groups : List InnerInstructions}
    {entries : List OrderedIx} (ordered : orderInstructions programs accountKeys outers groups = some entries) :
    ∀ entry ∈ entries, entry.1.1 ∈ programs := by
  intro entry member
  obtain ⟨parts, ran, same⟩ := Option.map_eq_some_iff.mp ordered
  rw [← same] at member
  obtain ⟨part, inParts, inPart⟩ := List.mem_flatten.mp member
  obtain ⟨outer, -, isPart⟩ := mem_mapM ran inParts
  simp only [orderOuter, Option.bind_eq_bind, Option.bind_eq_some_iff] at isPart
  obtain ⟨nonHoisted, -, same⟩ := isPart
  cases same
  rcases List.mem_append.mp inPart with hoisted | own
  · obtain ⟨⟨⟨pid, ci⟩, index⟩, chosen, same⟩ := List.mem_map.mp hoisted
    have isKnown := (List.mem_filter.mp chosen).2
    rw [decide_eq_true_eq] at isKnown
    rw [← same]
    exact isKnown
  · split at own
    · split at own
      · rename_i isKnown
        rw [List.mem_singleton.mp own]
        exact isKnown
      · cases own
    · cases own

end Known

/-- Whatever the parsers do, they see every key in its place, exactly if each
instruction with an account index one past the keys comes behind one with a
larger index. -/
theorem keys_aligned_iff (programs : Finset Pubkey) (txInfo : TransactionInfo) :
    (∀ handle db instructions passed after result, breakTransaction programs txInfo = some instructions →
        handleTransaction programs handle txInfo db = some (passed, after, result) →
        SafelyPassed txInfo instructions passed result) ↔
      ∀ instructions front entry rest, breakTransaction programs txInfo = some instructions →
        instructions = front ++ entry :: rest → Misread txInfo.accountKeys entry.1.2 →
        ∃ earlier ∈ front, Rejected txInfo.accountKeys earlier.1.2 := by
  constructor
  · intro safe instructions front entry rest ordered split misread
    by_contra unrejected
    have isKnown := orderInstructions_known ordered
    have fine : ∀ other ∈ front ++ [entry], ¬ Rejected txInfo.accountKeys other.1.2 := by
      intro other member rejected
      rcases List.mem_append.mp member with inFront | isEntry
      · exact unrejected ⟨other, inFront, rejected⟩
      · rw [List.mem_singleton.mp isEntry] at rejected
        obtain ⟨a, isAccount, large⟩ := rejected
        have small := misread.2 a isAccount
        omega
    rw [split] at isKnown
    have passed := @accepting_passes programs txInfo entry front rest 0 {} isKnown fine
    have ran := safe accepting {} instructions _ _ _ ordered (by rw [handleTransaction, ordered]; rfl)
    rw [← split] at passed
    have aligned := ran.aligned _ passed
    exact (bundleFor_aligned_iff (fine entry (List.mem_append_right _ List.mem_cons_self))).mp aligned misread
  · intro inPlace handle db instructions passed after result ordered ran
    rw [handleTransaction, ordered, Option.map_some, Option.some.injEq] at ran
    rcases looped : handleInstructions programs handle txInfo instructions 0 db with ⟨bundles, final, outcome⟩
    simp only [looped] at ran
    cases ran
    obtain ⟨aligned, complete⟩ := handleInstructions_passed (orderInstructions_known ordered)
      (fun front entry rest split misread => inPlace instructions front entry rest ordered split misread) looped
    refine ⟨aligned, fun succeeded => ?_⟩
    cases outcome with
    | error problem => cases succeeded
    | ok notImpl => exact complete notImpl rfl

namespace Example

/-- The third account of the instruction is one past the account keys. -/
def oneTooFar : TransactionInfo where
  slot := 1
  signature := []
  accountKeys := [.fill 1, .fill 2, .fill 3, .fill 4, .fill 5]
  messageInstructions := [{ programIdIndex := 0, accounts := [1, 2, 5, 3, 4], data := [] }]
  metaInnerInstructions := []

/-- A parser is given four keys for five accounts, and finds the last account at the
position of the fourth. -/
theorem keys_shifted :
    ∃ bundle passed after, handleTransaction {.fill 1} accepting oneTooFar {} = some (bundle :: passed, after, .ok ()) ∧
      ¬ bundle.Aligned oneTooFar.accountKeys ∧ bundle.keys = [.fill 2, .fill 3, .fill 4, .fill 5] ∧
      keyAt bundle.keys 3 = .ok (.fill 5) := by
  refine ⟨_, _, _, rfl, fun aligned => ?_, rfl, rfl⟩
  have length := aligned.length _ rfl
  revert length
  decide

end Example

end DasIndexer
