import DasIndexer.Blockbuster.Ordering
import DasIndexer.Bubblegum.Instruction
import DasIndexer.Lib.Loops

namespace DasIndexer.Blockbuster
open Bubblegum

/-- `ChangeLogEventV1` as it is read from the data of a noop call, which any
program may write. Those of the two compression crates have the same fields. -/
structure ChangeLogEventV1 where
  id : Pubkey
  path : List PathNode
  seq : Nat
  index : Nat
  deriving DecidableEq

inductive AccountCompressionEvent where
  | changeLog (event : ChangeLogEventV1)
  | applicationData (data : Bytes)
  deriving DecidableEq

inductive BubblegumEventType where
  | uninitialized
  | leafSchemaEvent
  deriving DecidableEq, Repr

inductive BlockbusterError where
  | instructionParsingError
  | ioError (text : String)
  | deserializationError
  | missingBubblegumEventData
  | invalidAccountType
  | customDeserializationError (text : String)
  deriving DecidableEq, Repr

/-- The ids and the readers of the crates of Bubblegum, of the two noop programs
and of the two compression programs. A reader fails with the text of an error. -/
class BubblegumCrates where
  bubblegumId : Pubkey
  splNoopId : Pubkey
  mplNoopId : Pubkey
  splNoop_ne : splNoopId ≠ bubblegumId
  mplNoop_ne : mplNoopId ≠ bubblegumId
  /-- `AccountCompressionEvent::try_from_slice`. -/
  splEvent : Bytes → Except String AccountCompressionEvent
  mplEvent : Bytes → Except String AccountCompressionEvent
  eventType : UInt8 → Except String BubblegumEventType
  leafSchemaEvent : Bytes → Except String LeafSchemaEvent
  getInstructionType : Bytes → InstructionName
  metadataArgs : Bytes → Except String MetadataArgs
  verifyCreatorArgs : Bytes → Except String MetadataArgs
  unverifyCreatorArgs : Bytes → Except String MetadataArgs
  updateMetadataArgs : Bytes → Except String (MetadataArgs × UpdateArgs)
  /-- The metadata of the version 2 arguments, converted to version 1. -/
  mintV2Args : Bytes → Except String MetadataArgs
  verifyCreatorV2Args : Bytes → Except String MetadataArgs
  unverifyCreatorV2Args : Bytes → Except String MetadataArgs
  updateMetadataV2Args : Bytes → Except String (MetadataArgs × UpdateArgs)

/-- The fields of a bundle that the parser of Bubblegum reads. -/
structure InstructionBundle where
  instruction : Option CompiledInstruction
  innerIx : Option (List IxPair)
  keys : List Pubkey

/-- What the loop over the inner instructions fills in. -/
structure Events where
  treeUpdate : Option ChangeLogEventV1 := none
  leafUpdate : Option LeafSchemaEvent := none
  deriving DecidableEq

structure BubblegumInstruction extends Events where
  instruction : InstructionName
  payload : Option Payload := none

section Parser
variable [BubblegumCrates]

/-- The `?` on the result of a reader. -/
def ofReader {α : Type} (result : Except String α) : Except BlockbusterError α :=
  result.mapError BlockbusterError.ioError

def getBubblegumLeafSchemaEvent (appData : Bytes) : Except BlockbusterError LeafSchemaEvent :=
  match appData with
  | [] => .error .deserializationError
  | eventTypeByte :: _ => do
    match ← ofReader (BubblegumCrates.eventType eventTypeByte) with
    | .uninitialized => .error .missingBubblegumEventData
    | .leafSchemaEvent => ofReader (BubblegumCrates.leafSchemaEvent appData)

def convertMplToSplChangeLogEvent (event : ChangeLogEventV1) : ChangeLogEventV1 where
  id := event.id
  path := event.path.map (fun pathNode => { node := pathNode.node, index := pathNode.index })
  seq := event.seq
  index := event.index

/-- The event in the data of a noop call. Data that cannot be read is reported
and passed over. -/
def noopEvent (ix : IxPair) : Option AccountCompressionEvent :=
  if ix.1 = BubblegumCrates.splNoopId ∧ ix.2.data ≠ [] then (BubblegumCrates.splEvent ix.2.data).toOption
  else if ix.1 = BubblegumCrates.mplNoopId ∧ ix.2.data ≠ [] then
    match (BubblegumCrates.mplEvent ix.2.data).toOption with
    | some (.changeLog event) => some (.changeLog (convertMplToSplChangeLogEvent event))
    | other => other
  else none

def readInner (events : Events) (ix : IxPair) : Except BlockbusterError Events :=
  match noopEvent ix with
  | some (.changeLog event) => .ok { events with treeUpdate := some event }
  | some (.applicationData appData) => do
    let leaf ← getBubblegumLeafSchemaEvent appData
    return { events with leafUpdate := some leaf }
  | none => .ok events

def extractEvents (innerIx : Option (List IxPair)) : Except BlockbusterError Events :=
  match innerIx with
  | some ixs => ixs.foldlM readInner {}
  | none => .ok {}

section Payloads
variable (keys : List Pubkey) (ixData : Bytes)

/-- `keys.get(..).ok_or(..)`. -/
def keyAt (index : Nat) : Except BlockbusterError Pubkey :=
  match keys[index]? with
  | some key => .ok key
  | none => .error .instructionParsingError

def buildMintV1Payload (setVerify : Bool) : Except BlockbusterError Payload := do
  let args ← ofReader (BubblegumCrates.metadataArgs ixData)
  let args := if setVerify
    then { args with collection := args.collection.map (fun col => { col with verified := true }) } else args
  let authority ← keyAt keys 0
  let treeId ← keyAt keys 3
  return .mint args authority treeId

def buildCreatorVerificationPayload (verify : Bool) : Except BlockbusterError Payload := do
  let metadata ← ofReader (if verify then BubblegumCrates.verifyCreatorArgs ixData
    else BubblegumCrates.unverifyCreatorArgs ixData)
  let creator ← keyAt keys 5
  return .creatorVerification metadata creator verify

def buildCollectionVerificationPayload (verify : Bool) : Except BlockbusterError Payload := do
  let collection ← keyAt keys 8
  return .collectionVerification collection verify

def buildUpdateMetadataPayload : Except BlockbusterError Payload := do
  let (currentMetadata, updateArgs) ← ofReader (BubblegumCrates.updateMetadataArgs ixData)
  let treeId ← keyAt keys 8
  return .updateMetadata currentMetadata updateArgs treeId

def buildMintV2Payload : Except BlockbusterError Payload := do
  let metadata ← ofReader (BubblegumCrates.mintV2Args ixData)
  let authority ← keyAt keys 0
  let treeId ← keyAt keys 6
  return .mint metadata authority treeId

def buildSetCollectionV2Payload : Except BlockbusterError Payload := do
  let collection ← keyAt keys 8
  return .collectionVerification collection true

/-- The creator is optional, the id of the program standing for none; then it is
the payer. -/
def buildCreatorVerificationV2Payload (verify : Bool) : Except BlockbusterError Payload := do
  let metadata ← ofReader (if verify then BubblegumCrates.verifyCreatorV2Args ixData
    else BubblegumCrates.unverifyCreatorV2Args ixData)
  let payer ← keyAt keys 1
  let creator ← keyAt keys 2
  return .creatorVerification metadata (if creator = BubblegumCrates.bubblegumId then payer else creator) verify

def buildUpdateMetadataV2Payload : Except BlockbusterError Payload := do
  let (currentMetadata, updateArgs) ← ofReader (BubblegumCrates.updateMetadataV2Args ixData)
  let treeId ← keyAt keys 5
  return .updateMetadata currentMetadata updateArgs treeId

def buildPayload : InstructionName → Except BlockbusterError (Option Payload)
  | .mintV1 => (buildMintV1Payload keys ixData false).map some
  | .mintToCollectionV1 => (buildMintV1Payload keys ixData true).map some
  | .decompressV1 => (ofReader (BubblegumCrates.metadataArgs ixData)).map (fun args => some (.decompress args))
  | .cancelRedeem =>
    if fits : ixData.length = 32 then .ok (some (.cancelRedeem ⟨ixData, fits⟩))
    else .error .instructionParsingError
  | .verifyCreator => (buildCreatorVerificationPayload keys ixData true).map some
  | .unverifyCreator => (buildCreatorVerificationPayload keys ixData false).map some
  | .verifyCollection | .setAndVerifyCollection => (buildCollectionVerificationPayload keys true).map some
  | .unverifyCollection => (buildCollectionVerificationPayload keys false).map some
  | .updateMetadata => (buildUpdateMetadataPayload keys ixData).map some
  | .mintV2 => (buildMintV2Payload keys ixData).map some
  | .setCollectionV2 => (buildSetCollectionV2Payload keys).map some
  | .verifyCreatorV2 => (buildCreatorVerificationV2Payload keys ixData true).map some
  | .unverifyCreatorV2 => (buildCreatorVerificationV2Payload keys ixData false).map some
  | .updateMetadataV2 => (buildUpdateMetadataV2Payload keys ixData).map some
  | _ => .ok none

end Payloads

/-- `BubblegumParser::handle_instruction`. -/
def handleInstruction (bundle : InstructionBundle) : Except BlockbusterError BubblegumInstruction := do
  let outerIxData ← match bundle.instruction with
    | some cix => .ok cix.data
    | none => .error .deserializationError
  let ixType := BubblegumCrates.getInstructionType outerIxData
  let events ← extractEvents bundle.innerIx
  let payload ← if 8 < outerIxData.length then buildPayload bundle.keys (outerIxData.drop 8) ixType else .ok none
  return { events with instruction := ixType, payload }

/-- A parsed instruction has the events that were extracted. -/
theorem handleInstruction_events {bundle : InstructionBundle} {parsed : BubblegumInstruction}
    (handled : handleInstruction bundle = .ok parsed) : extractEvents bundle.innerIx = .ok parsed.toEvents := by
  unfold handleInstruction at handled
  cases isInstruction : bundle.instruction with
  | none =>
    rw [isInstruction] at handled
    cases handled
  | some cix =>
    rw [isInstruction] at handled
    obtain ⟨data, -, rest⟩ := Loops.bind_eq_ok.mp handled
    obtain ⟨events, extracted, rest⟩ := Loops.bind_eq_ok.mp rest
    split at rest
    · obtain ⟨payload, -, isParsed⟩ := Loops.bind_eq_ok.mp rest
      cases isParsed
      exact extracted
    · cases rest
      exact extracted

section Extraction

/-- The change logs in the noop calls of a list. -/
def treeEvents (ixs : List IxPair) : List ChangeLogEventV1 :=
  ixs.filterMap (fun ix => match noopEvent ix with
    | some (.changeLog event) => some event
    | _ => none)

/-- The application data in the noop calls of a list. -/
def appData (ixs : List IxPair) : List Bytes :=
  ixs.filterMap (fun ix => match noopEvent ix with
    | some (.applicationData data) => some data
    | _ => none)

/-- The leaf schema events among the application data. -/
def leafEvents (ixs : List IxPair) : List LeafSchemaEvent :=
  (appData ixs).filterMap (fun data => (getBubblegumLeafSchemaEvent data).toOption)

/-- All application data are leaf schema events. -/
def Readable (ixs : List IxPair) : Prop :=
  ∀ data ∈ appData ixs, (getBubblegumLeafSchemaEvent data).toOption.isSome

instance (ixs : List IxPair) : Decidable (Readable ixs) := inferInstanceAs (Decidable (∀ data ∈ appData ixs, _))

def lastEvents (ixs : List IxPair) : Events where
  treeUpdate := (treeEvents ixs).getLast?
  leafUpdate := (leafEvents ixs).getLast?

@[simp] theorem treeEvents_append (xs ys : List IxPair) : treeEvents (xs ++ ys) = treeEvents xs ++ treeEvents ys :=
  List.filterMap_append

@[simp] theorem appData_append (xs ys : List IxPair) : appData (xs ++ ys) = appData xs ++ appData ys :=
  List.filterMap_append

@[simp] theorem leafEvents_append (xs ys : List IxPair) : leafEvents (xs ++ ys) = leafEvents xs ++ leafEvents ys := by
  rw [leafEvents, appData_append, List.filterMap_append]
  rfl

theorem readable_append {xs ys : List IxPair} : Readable (xs ++ ys) ↔ Readable xs ∧ Readable ys := by
  simp only [Readable, appData_append, List.forall_mem_append]

/-- One turn of the loop, after the events of the calls before it. -/
theorem readInner_lastEvents (before : List IxPair) (ix : IxPair) (events : Events) :
    readInner (lastEvents before) ix = .ok events ↔ Readable [ix] ∧ events = lastEvents (before ++ [ix]) := by
  have settle : ∀ next, readInner (lastEvents before) ix = .ok next → Readable [ix] →
      next = lastEvents (before ++ [ix]) →
      (readInner (lastEvents before) ix = .ok events ↔ Readable [ix] ∧ events = lastEvents (before ++ [ix])) := by
    intro next turn readable same
    rw [turn, Except.ok.injEq, same]
    exact ⟨fun equal => ⟨readable, equal.symm⟩, fun both => both.2.symm⟩
  cases found : noopEvent ix with
  | none =>
    have noTree : treeEvents [ix] = [] := by simp [treeEvents, found]
    have noData : appData [ix] = [] := by simp [appData, found]
    have noLeaf : leafEvents [ix] = [] := by rw [leafEvents, noData, List.filterMap_nil]
    refine settle (lastEvents before) (by rw [readInner, found]) (by simp [Readable, noData]) ?_
    simp [lastEvents, noTree, noLeaf]
  | some event =>
    cases event with
    | changeLog log =>
      have tree : treeEvents [ix] = [log] := by simp [treeEvents, found]
      have noData : appData [ix] = [] := by simp [appData, found]
      have noLeaf : leafEvents [ix] = [] := by rw [leafEvents, noData, List.filterMap_nil]
      refine settle { lastEvents before with treeUpdate := some log } (by rw [readInner, found])
        (by simp [Readable, noData]) ?_
      simp [lastEvents, tree, noLeaf]
    | applicationData data =>
      have noTree : treeEvents [ix] = [] := by simp [treeEvents, found]
      have isData : appData [ix] = [data] := by simp [appData, found]
      have turn : readInner (lastEvents before) ix = getBubblegumLeafSchemaEvent data >>= fun leaf =>
          .ok { lastEvents before with leafUpdate := some leaf } := by
        rw [readInner, found]
        rfl
      cases read : getBubblegumLeafSchemaEvent data with
      | error problem =>
        rw [turn, read]
        have unreadable : ¬ Readable [ix] := by
          intro readable
          have isSome := readable data (by rw [isData]; exact List.mem_singleton_self _)
          rw [read] at isSome
          cases isSome
        exact ⟨nofun, fun both => absurd both.1 unreadable⟩
      | ok leaf =>
        have isLeaf : leafEvents [ix] = [leaf] := by simp [leafEvents, isData, read, Except.toOption]
        refine settle { lastEvents before with leafUpdate := some leaf } (by rw [turn, read]; rfl) ?_ ?_
        · intro other member
          rw [isData, List.mem_singleton] at member
          rw [member, read]
          rfl
        · simp [lastEvents, noTree, isLeaf]

/-- The loop keeps the last event of each kind, if it can read all of them. -/
theorem extractEvents_iff (ixs : List IxPair) (events : Events) :
    extractEvents (some ixs) = .ok events ↔ Readable ixs ∧ events = lastEvents ixs := by
  induction ixs using List.reverseRecOn generalizing events with
  | nil =>
    have nothing : extractEvents (some []) = .ok {} := rfl
    rw [nothing, Except.ok.injEq, eq_comm]
    exact ⟨fun same => ⟨by simp [Readable, appData], same⟩, fun both => both.2⟩
  | append_singleton before ix ih =>
    have split : extractEvents (some (before ++ [ix])) =
        extractEvents (some before) >>= fun events => readInner events ix := by
      show List.foldlM readInner {} (before ++ [ix]) = _
      rw [List.foldlM_append]
      refine bind_congr (fun events => ?_)
      exact bind_pure _
    rw [split, Loops.bind_eq_ok, readable_append]
    constructor
    · rintro ⟨earlier, first, last⟩
      obtain ⟨readable, rfl⟩ := (ih earlier).mp first
      obtain ⟨lastReadable, same⟩ := (readInner_lastEvents before ix events).mp last
      exact ⟨⟨readable, lastReadable⟩, same⟩
    · rintro ⟨⟨readable, lastReadable⟩, same⟩
      exact ⟨lastEvents before, (ih _).mpr ⟨readable, rfl⟩,
        (readInner_lastEvents before ix events).mpr ⟨lastReadable, same⟩⟩

end Extraction

end Parser

end DasIndexer.Blockbuster
