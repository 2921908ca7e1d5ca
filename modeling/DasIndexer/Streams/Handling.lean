import DasIndexer.Bubblegum.Handlers
import DasIndexer.Mainnet
import DasIndexer.Ops.Purge
import DasIndexer.TransactionBundles

namespace DasIndexer.Streams
open Blockbuster

/-- `CoREENxT6tW1HoK8ypY1SxRMZTcVPm7R94rH4PZNhX7d`. -/
def mplCoreId : Pubkey where
  bytes := [175, 84, 171, 16, 189, 151, 165, 66, 160, 158, 247, 179, 152, 137, 221, 12,
    211, 148, 164, 204, 233, 223, 166, 205, 201, 126, 190, 45, 35, 91, 167, 72]
  size := rfl

/-- `inscokhJarcjaEs59QbQ7hYjrKz25LEPRfCbP8EmdUp`. -/
def inscriptionProgramId : Pubkey where
  bytes := [10, 180, 174, 126, 63, 63, 157, 25, 219, 207, 134, 162, 20, 30, 248, 226,
    156, 36, 200, 252, 225, 223, 15, 172, 144, 187, 222, 57, 38, 185, 20, 237]
  size := rfl

/-- The text of `BlockbusterError`. -/
def blockbusterText : BlockbusterError → String
  | .instructionParsingError => "Instruction Data Parsing Error"
  | .ioError text => "IO Error " ++ text
  | .deserializationError => "Could not deserialize data"
  | .missingBubblegumEventData => "Missing Bubblegum event data"
  | .invalidAccountType => "Account type is not valid"
  | .customDeserializationError text => "Could not deserialize data: " ++ text

/-- `From<BlockbusterError> for ProgramTransformerError`. -/
def ofBlockbuster (problem : BlockbusterError) : ProgramTransformerError := .parsingError (blockbusterText problem)

/-- The results of parsers that `handle_transaction` tells apart. -/
inductive ProgramParseResult where
  | bubblegum (parsingResult : BubblegumInstruction)
  | closeIx (accToClose : Pubkey)
  | other

/-- `handle_instruction` of `TokenProgramParser` and of `Token2022ProgramParser`: the
instruction `CloseAccount`, and nothing else. -/
def handleTokenInstruction (bundle : TransactionBundle) : ProgramParseResult :=
  match bundle.instruction, bundle.keys with
  | some ix, accToClose :: _ => if ix.data.head? = some 9 then .closeIx accToClose else .other
  | _, _ => .other

section Parsers
variable [BubblegumCrates]

/-- `key_set`. -/
def keySet : Finset Pubkey :=
  {BubblegumCrates.bubblegumId, Mainnet.tokenMetadataId, Ops.tokenProgramId, mplCoreId, Ops.token2022ProgramId,
    inscriptionProgramId}

/-- `match_program`, with `handle_instruction` of the parser. The parsers of accounts
keep the method of the trait. -/
def parseInstruction (bundle : TransactionBundle) : Option (Except BlockbusterError ProgramParseResult) :=
  if bundle.program = BubblegumCrates.bubblegumId then
    some ((handleInstruction bundle.toInstructionBundle).map ProgramParseResult.bubblegum)
  else if bundle.program = Ops.tokenProgramId ∨ bundle.program = Ops.token2022ProgramId then
    some (.ok (handleTokenInstruction bundle))
  else if bundle.program ∈ keySet then some (.ok .other)
  else none

/-- The change log with its path, which `insert_change_log` takes to be not empty:
otherwise the depth underflows. -/
def rootedChangeLog (log : ChangeLogEventV1) : Option Bubblegum.ChangeLogEvent :=
  if rooted : log.path ≠ [] then some { id := log.id, path := log.path, seq := log.seq, index := log.index, rooted }
  else none

/-- What the handler of Bubblegum is called with. -/
def eventOf (parsingResult : BubblegumInstruction) (bundle : TransactionBundle) : Option Bubblegum.Event :=
  match parsingResult.treeUpdate.map rootedChangeLog with
  | some none => none
  | some (some log) => some
      { parsingResult :=
          { instruction := parsingResult.instruction, treeUpdate := some log, leafUpdate := parsingResult.leafUpdate
            payload := parsingResult.payload }
        bundle := { txnId := bundle.txnId, slot := bundle.slot } }
  | none => some
      { parsingResult :=
          { instruction := parsingResult.instruction, treeUpdate := none, leafUpdate := parsingResult.leafUpdate
            payload := parsingResult.payload }
        bundle := { txnId := bundle.txnId, slot := bundle.slot } }

/-- An instruction that the database hears of. -/
inductive Item where
  | bubblegum (event : Bubblegum.Event)
  | closeIx (accToClose : Pubkey)

def Item.event : Item → Option Bubblegum.Event
  | .bubblegum event => some event
  | .closeIx _ => none

/-- What a task does at once. A transaction is committed as a whole. -/
inductive Step where
  | statement (s : Bubblegum.Statement)
  | transaction (body : List Bubblegum.Statement)
  | notify (info : DownloadMetadataInfo)
  | closeIx (accToClose : Pubkey)

variable [Programs]

/-- The steps of `handle_bubblegum_instruction`. An instruction that nothing is indexed for
opens no transaction. -/
def eventSteps (event : Bubblegum.Event) : List Step :=
  let connection := event.plan.onConnection.map Step.statement
  match event.plan.inTransaction with
  | .error _ => connection
  | .ok (body, info) =>
    if event.handler = none then connection
    else connection ++ (Step.transaction body :: (info.map Step.notify).toList)

def Item.steps : Item → List Step
  | .bubblegum event => eventSteps event
  | .closeIx accToClose => [.closeIx accToClose]

section Items
variable (txInfo : TransactionInfo)

/-- The loop of `handle_transaction` up to the first instruction that stops it whatever
the database does, with the number of instructions that are not implemented. Without a
result the task panics there. -/
def itemsOf : List OrderedIx → Nat → List Item × Option (Except ProgramTransformerError Nat)
  | [], notImpl => ([], some (.ok notImpl))
  | entry :: rest, notImpl =>
    match bundleOf txInfo entry with
    | .error problem => ([], some (.error problem))
    | .ok bundle =>
      match parseInstruction bundle with
      | none => itemsOf rest notImpl
      | some (.error problem) => ([], some (.error (ofBlockbuster problem)))
      | some (.ok .other) => itemsOf rest (notImpl + 1)
      | some (.ok (.closeIx accToClose)) =>
        let (items, result) := itemsOf rest notImpl
        (.closeIx accToClose :: items, result)
      | some (.ok (.bubblegum parsingResult)) =>
        match eventOf parsingResult bundle with
        | none => ([], none)
        | some event =>
          match event.plan.inTransaction with
          | .error problem => ([.bubblegum event], some (.error problem))
          | .ok _ =>
            let (items, result) := itemsOf rest notImpl
            (.bubblegum event :: items, result)

/-- `handle_transaction` on a database that does not fail: its items and its result. -/
def handling : List Item × Option (Except ProgramTransformerError Unit) :=
  match breakTransaction keySet txInfo with
  | none => ([], none)
  | some instructions =>
    let (items, result) := itemsOf txInfo instructions 0
    (items, result.map (fun result => result.bind (fun notImpl =>
      if notImpl = instructions.length then .error .notImplemented else .ok ())))

end Items

end Parsers

/-- How a step goes on a database that fails at times. A statement that is reported as
failed may have taken effect; an error inside a transaction is one of two kinds. -/
structure Fault where
  reported : Bool := false
  applied : Bool := true
  indexing : Bool := false
  message : String := ""
  /-- The lookup of a mint, and the two writes after it. -/
  lookupFails : Bool := false
  deleteFails : Bool := false
  updateFails : Bool := false

def Fault.none : Fault := {}

/-- Whether the effect of a statement is there afterwards. -/
def Fault.effective (fault : Fault) : Bool := !fault.reported || fault.applied

/-- `handle_token_program_close_ix`, which logs its errors. -/
def closeAccount (db : Db) (accToClose : Pubkey) (fault : Fault) : Db :=
  match if fault.lookupFails then none else db.tokens.lookup accToClose with
  | some _ =>
    let db := if fault.deleteFails then db else { db with tokens := db.tokens.erase accToClose }
    if fault.updateFails then db else db.setBurnt accToClose
  | none => if fault.deleteFails then db else { db with tokenAccounts := db.tokenAccounts.erase accToClose }

def Fault.transactionError (fault : Fault) : ProgramTransformerError :=
  if fault.indexing then .assetIndexError fault.message else .storageWriteError fault.message

section Steps
variable [Programs]

/-- The database after a step, and the error that ends the task. -/
def Step.exec (db : Db) (fault : Fault) : Step → Db × Option ProgramTransformerError
  | .statement s =>
    (if fault.effective then s.exec db else db,
      match s with
      | .clAudit .. => none
      | _ => if fault.reported then some (.storageWriteError fault.message) else none)
  | .transaction body =>
    (if fault.effective then body.foldl Bubblegum.Statement.exec db else db,
      if fault.reported then some fault.transactionError else none)
  | .notify _ => (db, if fault.reported then some .downloadMetadataNotify else none)
  | .closeIx accToClose => (closeAccount db accToClose fault, none)

/-- The steps of a task on a database that does not fail. -/
def runSteps (db : Db) (steps : List Step) : Db := steps.foldl (fun db step => (step.exec db .none).1) db

theorem runSteps_append (db : Db) (steps later : List Step) :
    runSteps db (steps ++ later) = runSteps (runSteps db steps) later := List.foldl_append

theorem runSteps_statements (db : Db) (statements : List Bubblegum.Statement) :
    runSteps db (statements.map Step.statement) = statements.foldl Bubblegum.Statement.exec db := by
  induction statements generalizing db with
  | nil => rfl
  | cons s rest ih => exact ih (s.exec db)

omit [Programs] in
theorem closeAccount_none (db : Db) (accToClose : Pubkey) :
    closeAccount db accToClose .none = handleTokenProgramCloseIx db accToClose := by
  rw [closeAccount, handleTokenProgramCloseIx]
  cases db.tokens.lookup accToClose <;> rfl

/-- The steps of an event are what its handler does. -/
theorem runSteps_event (db : Db) (event : Bubblegum.Event) :
    runSteps db (eventSteps event) = (Bubblegum.handleBubblegumInstruction db event).1 := by
  have split : (Bubblegum.handleBubblegumInstruction db event).1 =
      event.plan.body.foldl Bubblegum.Statement.exec
        (event.plan.onConnection.foldl Bubblegum.Statement.exec db) := List.foldl_append
  rw [split, eventSteps, Bubblegum.Plan.body]
  cases planned : event.plan.inTransaction with
  | error problem => exact runSteps_statements db _
  | ok transaction =>
    obtain ⟨body, info⟩ := transaction
    by_cases idle : event.handler = none
    · have isPlan : event.plan = { onConnection := [], inTransaction := .ok ([], none) } := by
        rw [Bubblegum.Event.plan, idle]
      rw [isPlan] at planned ⊢
      cases planned
      simp [idle, runSteps]
    · simp only [idle, if_false]
      rw [runSteps_append, runSteps_statements]
      cases info with
      | none => rfl
      | some info => rfl

end Steps

section Whole
variable [BubblegumCrates] [Programs] {txInfo : TransactionInfo}

/-- A parser with the handler of its result, on a database that does not fail. -/
def handleBundle : Handle := fun bundle db =>
  match parseInstruction bundle with
  | none | some (.ok .other) => (db, .ok false)
  | some (.error problem) => (db, .error (ofBlockbuster problem))
  | some (.ok (.closeIx accToClose)) => (handleTokenProgramCloseIx db accToClose, .ok true)
  | some (.ok (.bubblegum parsingResult)) =>
    match eventOf parsingResult bundle with
    | none => (db, .error .changeLogEventMalformed)
    | some event =>
      let (db, result) := Bubblegum.handleBubblegumInstruction db event
      (db, result.map (fun _ => true))

omit [Programs] in
theorem parseInstruction_isSome (bundle : TransactionBundle) :
    (parseInstruction bundle).isSome ↔ bundle.program ∈ keySet := by
  unfold parseInstruction
  split
  · rename_i isBubblegum
    simp [keySet, isBubblegum]
  · split
    · rename_i isToken
      rcases isToken with isToken | isToken
      · simp [keySet, isToken]
      · simp [keySet, isToken]
    · split
      · rename_i known
        simp [known]
      · rename_i unknown
        simp [unknown]

/-- A task that does not panic does step by step what the loop does. -/
theorem itemsOf_refines (instructions : List OrderedIx) (notImpl : Nat) (db : Db) {items : List Item}
    {result : Except ProgramTransformerError Nat}
    (handled : itemsOf txInfo instructions notImpl = (items, some result)) :
    (handleInstructions keySet handleBundle txInfo instructions notImpl db).2 =
      (runSteps db (items.flatMap Item.steps), result) := by
  induction instructions generalizing notImpl db items result with
  | nil =>
    cases handled
    rfl
  | cons entry rest ih =>
    rw [itemsOf] at handled
    rw [handleInstructions]
    cases bundled : bundleOf txInfo entry with
    | error problem =>
      simp only [bundled, Prod.mk.injEq, Option.some.injEq] at handled
      obtain ⟨rfl, rfl⟩ := handled
      rfl
    | ok bundle =>
      simp only [bundled] at handled
      have known := parseInstruction_isSome bundle
      cases parsed : parseInstruction bundle with
      | none =>
        have unknown : bundle.program ∉ keySet := by
          rw [← known, parsed]
          simp
        simp only [parsed] at handled
        simp only [unknown, if_false]
        exact ih notImpl db handled
      | some outcome =>
        have isKnown : bundle.program ∈ keySet := by
          rw [← known, parsed]
          rfl
        simp only [parsed] at handled
        simp only [isKnown, if_true, handleBundle, parsed]
        cases outcome with
        | error problem =>
          simp only [Prod.mk.injEq, Option.some.injEq] at handled
          obtain ⟨noItems, isResult⟩ := handled
          subst noItems
          subst isResult
          rfl
        | ok parseResult =>
          cases parseResult with
          | other => exact ih (notImpl + 1) db handled
          | closeIx accToClose =>
            rcases later : itemsOf txInfo rest notImpl with ⟨laterItems, laterResult⟩
            simp only [later, Prod.mk.injEq] at handled
            obtain ⟨isItems, isResult⟩ := handled
            subst isItems
            rw [isResult] at later
            have onward := ih notImpl (handleTokenProgramCloseIx db accToClose) later
            rw [List.flatMap_cons, runSteps_append]
            have closed : runSteps db (Item.closeIx accToClose).steps = handleTokenProgramCloseIx db accToClose :=
              closeAccount_none db accToClose
            rw [closed]
            exact onward
          | bubblegum parsingResult =>
            cases isEvent : eventOf parsingResult bundle with
            | none => simp [isEvent] at handled
            | some event =>
              simp only [isEvent] at handled
              have stepped := runSteps_event db event
              cases planned : event.plan.inTransaction with
              | error problem =>
                simp only [planned, Prod.mk.injEq, Option.some.injEq] at handled
                obtain ⟨isItems, isResult⟩ := handled
                subst isItems
                subst isResult
                rw [List.flatMap_singleton]
                simp only [Item.steps, stepped, isEvent, Bubblegum.handleBubblegumInstruction, planned]
                rfl
              | ok transaction =>
                rcases later : itemsOf txInfo rest notImpl with ⟨laterItems, laterResult⟩
                simp only [planned, later, Prod.mk.injEq] at handled
                obtain ⟨isItems, isResult⟩ := handled
                subst isItems
                rw [isResult] at later
                have onward := ih notImpl (Bubblegum.handleBubblegumInstruction db event).1 later
                rw [List.flatMap_cons, runSteps_append]
                simp only [Item.steps, stepped, isEvent, Bubblegum.handleBubblegumInstruction, planned]
                exact onward

theorem handling_refines (db : Db) {items : List Item} {result : Except ProgramTransformerError Unit}
    (handled : handling txInfo = (items, some result)) :
    ∃ passed, handleTransaction keySet handleBundle txInfo db =
      some (passed, runSteps db (items.flatMap Item.steps), result) := by
  rw [handling] at handled
  rw [handleTransaction]
  cases ordered : breakTransaction keySet txInfo with
  | none =>
    rw [ordered] at handled
    cases handled
  | some instructions =>
    simp only [ordered] at handled
    rcases found : itemsOf txInfo instructions 0 with ⟨foundItems, foundResult⟩
    simp only [found, Prod.mk.injEq, Option.map_eq_some_iff] at handled
    obtain ⟨isItems, outcome, isOutcome, isResult⟩ := handled
    subst isItems
    subst isResult
    rw [isOutcome] at found
    have refines := itemsOf_refines instructions 0 db found
    rcases ran : handleInstructions keySet handleBundle txInfo instructions 0 db with ⟨passed, after, last⟩
    rw [ran] at refines
    obtain ⟨isAfter, isLast⟩ := Prod.mk.inj refines
    refine ⟨passed, ?_⟩
    rw [Option.map_some]
    simp only [ran, isAfter, isLast]

end Whole

/-- Whether a result is acknowledged: the task is done, or would fail again. -/
def captureResult : Except ProgramTransformerError Unit → Bool
  | .ok () => true
  | .error .notImplemented | .error (.deserializationError _) | .error (.parsingError _) => true
  | .error (.databaseError _) | .error (.assetIndexError _) => false
  | .error .changeLogEventMalformed | .error (.storageWriteError _) | .error (.serializatonError _) => false
  | .error .downloadMetadataNotify => false

end DasIndexer.Streams
