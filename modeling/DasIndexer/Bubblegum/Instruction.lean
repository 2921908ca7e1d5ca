import DasIndexer.Schema

namespace DasIndexer.Bubblegum

inductive InstructionName where
  | unknown
  | mintV1
  | mintToCollectionV1
  | redeem
  | cancelRedeem
  | transfer
  | delegate
  | decompressV1
  | compress
  | burn
  | createTree
  | verifyCreator
  | unverifyCreator
  | verifyCollection
  | unverifyCollection
  | setAndVerifyCollection
  | setDecompressibleState
  | updateMetadata
  | burnV2
  | collectV2
  | createTreeV2
  | delegateAndFreezeV2
  | delegateV2
  | freezeV2
  | mintV2
  | setCollectionV2
  | setNonTransferableV2
  | thawAndRevokeV2
  | thawV2
  | transferV2
  | unverifyCreatorV2
  | updateAssetDataV2
  | updateMetadataV2
  | verifyCreatorV2
  deriving DecidableEq, Repr

/-- The text that `handle_bubblegum_instruction` passes to the handlers. -/
def InstructionName.ixStr : InstructionName → String
  | .unknown => "Unknown"
  | .mintV1 => "MintV1"
  | .mintToCollectionV1 => "MintToCollectionV1"
  | .redeem => "Redeem"
  | .cancelRedeem => "CancelRedeem"
  | .transfer => "Transfer"
  | .delegate => "Delegate"
  | .decompressV1 => "DecompressV1"
  | .compress => "Compress"
  | .burn => "Burn"
  | .createTree => "CreateTree"
  | .verifyCreator => "VerifyCreator"
  | .unverifyCreator => "UnverifyCreator"
  | .verifyCollection => "VerifyCollection"
  | .unverifyCollection => "UnverifyCollection"
  | .setAndVerifyCollection => "SetAndVerifyCollection"
  | .setDecompressibleState => "SetDecompressibleState"
  | .updateMetadata => "UpdateMetadata"
  | .burnV2 => "BurnV2"
  | .collectV2 => "CollectV2"
  | .createTreeV2 => "CreateTreeV2"
  | .delegateAndFreezeV2 => "DelegateAndFreezeV2"
  | .delegateV2 => "DelegateV2"
  | .freezeV2 => "FreezeV2"
  | .mintV2 => "MintV2"
  | .setCollectionV2 => "SetCollectionV2"
  | .setNonTransferableV2 => "SetNonTransferableV2"
  | .thawAndRevokeV2 => "ThawAndRevokeV2"
  | .thawV2 => "ThawV2"
  | .transferV2 => "TransferV2"
  | .unverifyCreatorV2 => "UnverifyCreatorV2"
  | .updateAssetDataV2 => "UpdateAssetDataV2"
  | .updateMetadataV2 => "UpdateMetadataV2"
  | .verifyCreatorV2 => "VerifyCreatorV2"

/-- `Instruction::from(&str)`. -/
def instructionFrom : String → Instruction
  | "Burn" => .burn
  | "CancelRedeem" => .cancelRedeem
  | "Compress" => .compress
  | "DecompressV1" => .decompressV1
  | "Delegate" => .delegate
  | "MintToCollectionV1" => .mintToCollectionV1
  | "MintV1" => .mintV1
  | "Redeem" => .redeem
  | "SetAndVerifyCollection" => .setAndVerifyCollection
  | "Transfer" => .transfer
  | "UnverifyCollection" => .unverifyCollection
  | "UnverifyCreator" => .unverifyCreator
  | "VerifyCollection" => .verifyCollection
  | "VerifyCreator" => .verifyCreator
  | "UpdateMetadata" => .updateMetadata
  | "BurnV2" => .burnV2
  | "DelegateV2" => .delegateV2
  | "DelegateAndFreezeV2" => .delegateAndFreezeV2
  | "FreezeV2" => .freezeV2
  | "MintV2" => .mintV2
  | "SetCollectionV2" => .setCollectionV2
  | "SetNonTransferableV2" => .setNonTransferableV2
  | "ThawV2" => .thawV2
  | "ThawAndRevokeV2" => .thawAndRevokeV2
  | "TransferV2" => .transferV2
  | "UnverifyCreatorV2" => .unverifyCreatorV2
  | "VerifyCreatorV2" => .verifyCreatorV2
  | "UpdateMetadataV2" => .updateMetadataV2
  | "UpdateAssetDataV2" => .updateAssetDataV2
  | _ => .unknown

structure PathNode where
  node : Hash
  index : Nat
  deriving DecidableEq

/-- `ChangeLogEventV1`: the path from the changed leaf up to the root, both
included. -/
structure ChangeLogEvent where
  id : Pubkey
  path : List PathNode
  seq : Nat
  index : Nat
  rooted : path ≠ []
  deriving DecidableEq

inductive LeafSchema where
  | v1 (id owner delegate : Pubkey) (nonce : Nat) (dataHash creatorHash : Hash)
  | v2 (id owner delegate : Pubkey) (nonce : Nat) (dataHash creatorHash : Hash)
      (collectionHash assetDataHash : Hash) (flags : UInt8)
  deriving DecidableEq

structure LeafSchemaEvent where
  schema : LeafSchema
  leafHash : Hash
  deriving DecidableEq

structure MetadataArgs where
  name : String
  symbol : String
  uri : String
  sellerFeeBasisPoints : Nat
  primarySaleHappened : Bool
  isMutable : Bool
  editionNonce : Option Nat
  uses : Option Uses
  collection : Option Collection
  creators : CreatorList
  deriving DecidableEq

structure UpdateArgs where
  name : Option String
  symbol : Option String
  uri : Option String
  creators : Option CreatorList
  sellerFeeBasisPoints : Option Nat
  primarySaleHappened : Option Bool
  isMutable : Option Bool
  deriving DecidableEq

inductive Payload where
  | unknown
  | mint (args : MetadataArgs) (authority treeId : Pubkey)
  | decompress (args : MetadataArgs)
  | cancelRedeem (root : Pubkey)
  | creatorVerification (metadata : MetadataArgs) (creator : Pubkey) (verify : Bool)
  | collectionVerification (collection : Pubkey) (verify : Bool)
  | updateMetadata (currentMetadata : MetadataArgs) (updateArgs : UpdateArgs) (treeId : Pubkey)
  deriving DecidableEq

/-- A parsed instruction. -/
structure BubblegumInstruction where
  instruction : InstructionName
  treeUpdate : Option ChangeLogEvent
  leafUpdate : Option LeafSchemaEvent
  payload : Option Payload
  deriving DecidableEq

/-- The fields of the bundle that the handlers read. `txnId` holds the bytes
of the signature: its text form decodes back to them. -/
structure InstructionBundle where
  txnId : Bytes
  slot : Nat
  deriving DecidableEq

/-- One delivery to `handle_bubblegum_instruction`. -/
structure Event where
  parsingResult : BubblegumInstruction
  bundle : InstructionBundle
  deriving DecidableEq

structure NormalizedLeafFields where
  id : Pubkey
  owner : Pubkey
  delegate : Pubkey
  nonce : Nat
  dataHash : Hash
  creatorHash : Hash
  collectionHash : Option Hash
  assetDataHash : Option Hash
  flags : Option UInt8

def NormalizedLeafFields.from : LeafSchema → NormalizedLeafFields
  | .v1 id owner delegate nonce dataHash creatorHash =>
    { id, owner, delegate, nonce, dataHash, creatorHash
      collectionHash := none, assetDataHash := none, flags := none }
  | .v2 id owner delegate nonce dataHash creatorHash collectionHash assetDataHash flags =>
    { id, owner, delegate, nonce, dataHash, creatorHash
      collectionHash := some collectionHash, assetDataHash := some assetDataHash, flags := some flags }

/-- The delegate column: a leaf delegated to its owner or to nobody has none. -/
def delegateColumn (owner delegate : Pubkey) : Option Bytes :=
  if owner = delegate ∨ delegate.bytes = List.replicate 32 0 then none else some delegate.bytes

end DasIndexer.Bubblegum
