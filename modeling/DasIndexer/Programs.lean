import DasIndexer.Bytes
import DasIndexer.Json

namespace DasIndexer

/-- Functions of the on-chain programs and crates that the indexer calls and
that live outside this repository. -/
class Programs where
  /-- `Pubkey::find_program_address(["asset", tree, u32_to_u8_array(leaf_index)], ..)`. -/
  findAssetAddress : Pubkey → Nat → Pubkey
  /-- `MasterEdition::find_pda`. -/
  findMasterEdition : Pubkey → Pubkey
  /-- `mpl_bubblegum::ID`. -/
  bubblegumId : Pubkey
  /-- Bits of the `mpl_bubblegum::Flags` bit field. -/
  assetLvlFrozen : UInt8 → Bool
  permanentLvlFrozen : UInt8 → Bool
  nonTransferable : UInt8 → Bool
  /-- `heck::ToSnakeCase::to_snake_case`. -/
  toSnakeCase : String → String
  /-- `spl_concurrent_merkle_tree::node::empty_node`. -/
  emptyNode : Nat → Hash

structure Creator where
  address : Pubkey
  verified : Bool
  share : Nat
  deriving DecidableEq

/-- A creator list whose indices fit the `i16` column `position`. The on-chain
programs admit far shorter lists only, so the cast `i as i16` is exact. -/
structure CreatorList where
  entries : List Creator
  short : entries.length < 2 ^ 15
  deriving DecidableEq

namespace CreatorList

def empty : CreatorList := ⟨[], Nat.two_pow_pos 15⟩

def map (f : Creator → Creator) (creators : CreatorList) : CreatorList :=
  ⟨creators.entries.map f, by simpa using creators.short⟩

end CreatorList

structure Collection where
  verified : Bool
  key : Pubkey
  deriving DecidableEq

inductive TokenStandard where
  | nonFungible
  | fungibleAsset
  | fungible
  | nonFungibleEdition
  | programmableNonFungible
  | programmableNonFungibleEdition
  deriving DecidableEq, Repr

/-- The trait `IsNonFungibe` of the token metadata handler. -/
def TokenStandard.isNonFungible : TokenStandard → Bool
  | .nonFungible | .nonFungibleEdition => true
  | .programmableNonFungible | .programmableNonFungibleEdition => true
  | .fungibleAsset | .fungible => false

def TokenStandard.toJson : TokenStandard → Json
  | .nonFungible => .str "NonFungible"
  | .fungibleAsset => .str "FungibleAsset"
  | .fungible => .str "Fungible"
  | .nonFungibleEdition => .str "NonFungibleEdition"
  | .programmableNonFungible => .str "ProgrammableNonFungible"
  | .programmableNonFungibleEdition => .str "ProgrammableNonFungibleEdition"

inductive UseMethod where
  | burn
  | multiple
  | single
  deriving DecidableEq, Repr

structure Uses where
  useMethod : UseMethod
  remaining : Nat
  total : Nat
  deriving DecidableEq

def Uses.toJson (u : Uses) : Json :=
  let method := match u.useMethod with
    | .burn => "Burn"
    | .multiple => "Multiple"
    | .single => "Single"
  .obj [("use_method", .str method), ("remaining", .num u.remaining), ("total", .num u.total)]

structure ChainDataV1 where
  name : String
  symbol : String
  editionNonce : Option Nat
  primarySaleHappened : Bool
  tokenStandard : Option TokenStandard
  uses : Option Uses

def ChainDataV1.sanitize (data : ChainDataV1) : ChainDataV1 :=
  { data with name := removeNul data.name, symbol := removeNul data.symbol }

/-- `serde_json::to_value`; absent options are skipped. -/
def ChainDataV1.toJson (data : ChainDataV1) : Json :=
  .obj ([("name", .str data.name), ("symbol", .str data.symbol)] ++
    (data.editionNonce.map (fun n => ("edition_nonce", Json.num n))).toList ++
    [("primary_sale_happened", .bool data.primarySaleHappened)] ++
    (data.tokenStandard.map (fun s => ("token_standard", s.toJson))).toList ++
    (data.uses.map (fun u => ("uses", u.toJson))).toList)

/-- A URL to fetch off-chain metadata from, as handed to the notifier. -/
structure DownloadMetadataInfo where
  assetDataId : Pubkey
  uri : String
  deriving DecidableEq

def DownloadMetadataInfo.new (assetDataId : Pubkey) (uri : String) : DownloadMetadataInfo :=
  ⟨assetDataId, removeNul (trim uri)⟩

inductive ProgramTransformerError where
  | changeLogEventMalformed
  | storageWriteError (message : String)
  | notImplemented
  | deserializationError (message : String)
  | serializatonError (message : String)
  | parsingError (message : String)
  | databaseError (message : String)
  | assetIndexError (message : String)
  | downloadMetadataNotify
  deriving DecidableEq, Repr

end DasIndexer
