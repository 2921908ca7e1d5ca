import DasIndexer.Blockbuster.Bubblegum
import DasIndexer.Mainnet

namespace DasIndexer.Blockbuster
open Bubblegum

/-- A reader of the Borsh format. -/
abbrev Borsh := StateT Bytes (Except String)

namespace Borsh

def byte : Borsh UInt8 := fun
  | b :: rest => .ok (b, rest)
  | [] => .error "Unexpected length of input"

def times {α : Type} (read : Borsh α) : Nat → Borsh (List α)
  | 0 => return []
  | n + 1 => do
    let first ← read
    let later ← times read n
    return first :: later

def bytes32 : Borsh Bytes32 := fun data =>
  if long : 32 ≤ data.length then
    .ok (⟨data.take 32, List.length_take_of_le long⟩, data.drop 32)
  else .error "Unexpected length of input"

/-- An unsigned number of so many bytes, the lowest first. -/
def unsigned (size : Nat) : Borsh Nat := do
  let digits ← times byte size
  return digits.foldr (fun b n => b.toNat + 256 * n) 0

def vec {α : Type} (read : Borsh α) : Borsh (List α) := do
  let length ← unsigned 4
  times read length

def unexpectedTag {α : Type} (tag : UInt8) : Borsh α := fun _ => .error ("Unexpected variant tag: " ++ toString tag.toNat)

/-- `try_from_slice`: all bytes must be read. -/
def tryFromSlice {α : Type} (read : Borsh α) (data : Bytes) : Except String α :=
  match read.run data with
  | .ok (value, []) => .ok value
  | .ok _ => .error "Not all bytes read"
  | .error text => .error text

def pathNode : Borsh PathNode := do
  let node ← bytes32
  let index ← unsigned 4
  return { node, index }

def changeLogEventV1 : Borsh ChangeLogEventV1 := do
  let id ← bytes32
  let path ← vec pathNode
  let seq ← unsigned 8
  let index ← unsigned 4
  return { id, path, seq, index }

/-- Both events have one version so far. -/
def accountCompressionEvent : Borsh AccountCompressionEvent := do
  let tag ← byte
  let version ← byte
  if version ≠ 0 then unexpectedTag version
  else if tag = 0 then return .changeLog (← changeLogEventV1)
  else if tag = 1 then return .applicationData (← vec byte)
  else unexpectedTag tag

def eventType (b : UInt8) : Except String BubblegumEventType :=
  if b = 0 then .ok .uninitialized
  else if b = 1 then .ok .leafSchemaEvent
  else .error ("Unexpected variant tag: " ++ toString b.toNat)

def leafSchema : Borsh LeafSchema := do
  let tag ← byte
  let id ← bytes32
  let owner ← bytes32
  let delegate ← bytes32
  let nonce ← unsigned 8
  let dataHash ← bytes32
  let creatorHash ← bytes32
  if tag = 0 then return .v1 id owner delegate nonce dataHash creatorHash
  else if tag = 1 then
    let collectionHash ← bytes32
    let assetDataHash ← bytes32
    let flags ← byte
    return .v2 id owner delegate nonce dataHash creatorHash collectionHash assetDataHash flags
  else unexpectedTag tag

/-- The event type and the version come before the schema. -/
def leafSchemaEvent : Borsh LeafSchemaEvent := do
  let _ ← byte
  let _ ← byte
  let schema ← leafSchema
  let leafHash ← bytes32
  return { schema, leafHash }

end Borsh

/-- The events of the deployed programs. The arguments of instructions are not
read. -/
@[reducible] def BubblegumCrates.eventsOnly : BubblegumCrates where
  bubblegumId := Mainnet.bubblegumId
  splNoopId :=
    { bytes := [11, 188, 15, 192, 187, 71, 202, 47, 116, 196, 17, 46, 148, 171, 19, 207,
        163, 198, 52, 229, 220, 23, 234, 203, 3, 205, 26, 35, 205, 126, 120, 124]
      size := rfl }
  mplNoopId :=
    { bytes := [11, 121, 89, 138, 15, 175, 40, 176, 251, 210, 37, 99, 35, 51, 65, 75,
        208, 58, 171, 36, 15, 112, 50, 209, 222, 71, 87, 160, 172, 93, 198, 6]
      size := rfl }
  splNoop_ne := by decide
  mplNoop_ne := by decide
  splEvent := Borsh.tryFromSlice Borsh.accountCompressionEvent
  mplEvent := Borsh.tryFromSlice Borsh.accountCompressionEvent
  eventType := Borsh.eventType
  leafSchemaEvent := Borsh.tryFromSlice Borsh.leafSchemaEvent
  getInstructionType _ := .unknown
  metadataArgs _ := .error "not read"
  verifyCreatorArgs _ := .error "not read"
  unverifyCreatorArgs _ := .error "not read"
  updateMetadataArgs _ := .error "not read"
  mintV2Args _ := .error "not read"
  verifyCreatorV2Args _ := .error "not read"
  unverifyCreatorV2Args _ := .error "not read"
  updateMetadataV2Args _ := .error "not read"

end DasIndexer.Blockbuster
