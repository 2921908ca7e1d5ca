import DasIndexer.Accounts.Token
import DasIndexer.Accounts.V1Asset
import Mathlib.Data.List.Sort

namespace DasIndexer.MplCore
open Sql

inductive UpdateAuthority where
  | none
  | address (address : Pubkey)
  | collection (address : Pubkey)
  deriving DecidableEq

inductive PluginAuthority where
  | none
  | owner
  | updateAuthority
  | address (address : Pubkey)

inductive PluginType where
  | royalties
  | freezeDelegate
  | transferDelegate
  | other (name : String)
  deriving DecidableEq

structure RoyaltyCreator where
  address : Pubkey
  percentage : Nat

/-- The data of the `Royalties` plugin; as for `CreatorList`, the positions of
its creators fit their column. -/
structure Royalties where
  basisPoints : Nat
  creators : List RoyaltyCreator
  short : creators.length < 2 ^ 15

inductive Plugin where
  | royalties (r : Royalties)
  | freezeDelegate (frozen : Bool)
  | other

/-- A plugin with its authority, and the value that `serde_json` gives for it. -/
structure PluginSchema where
  authority : PluginAuthority
  data : Plugin
  json : Json

/-- `mpl_core::IndexableAsset`. External and unknown plugins are kept as their
JSON values: nothing else of them is read. -/
structure IndexableAsset where
  owner : Option Pubkey
  updateAuthority : UpdateAuthority
  name : String
  uri : String
  numMinted : Option Nat := none
  currentSize : Option Nat := none
  plugins : List (PluginType × PluginSchema) := []
  unknownPlugins : List Json := []
  externalPlugins : List Json := []
  unknownExternalPlugins : List Json := []

inductive MplCoreAccountData where
  | asset (a : IndexableAsset)
  | collection (a : IndexableAsset)
  | hashedAsset
  | emptyAccount

def PluginType.name : PluginType → String
  | .royalties => "Royalties"
  | .freezeDelegate => "FreezeDelegate"
  | .transferDelegate => "TransferDelegate"
  | .other name => name

namespace IndexableAsset
variable (asset : IndexableAsset)

/-- `asset.plugins.get(..)`. -/
def plugin (type : PluginType) : Option PluginSchema :=
  (asset.plugins.find? (fun entry => entry.1 = type)).map Prod.snd

def royalties : Option Royalties :=
  (asset.plugin .royalties).bind (fun schema => match schema.data with
    | .royalties r => some r
    | _ => none)

def royaltyAmount : Nat := (asset.royalties.map Royalties.basisPoints).getD 0

/-- All creators of a Core asset are verified. -/
def creatorList : CreatorList :=
  match asset.royalties with
  | some r => ⟨r.creators.map (fun c => { address := c.address, verified := true, share := c.percentage }),
      by simpa using r.short⟩
  | none => .empty

/-- All Core assets in a collection are verified. -/
def collection : Option Collection :=
  match asset.updateAuthority with
  | .collection address => some { key := address, verified := true }
  | _ => none

def frozen : Bool :=
  ((asset.plugin .freezeDelegate).bind (fun schema => match schema.data with
    | .freezeDelegate frozen => some frozen
    | _ => none)).getD false

def transferDelegate (owner : Option Bytes) (updateAuthority : Bytes) : Option Bytes :=
  (asset.plugin .transferDelegate).bind (fun schema => match schema.authority with
    | .owner => owner
    | .updateAuthority => some updateAuthority
    | .address address => some address.bytes
    | .none => none)

def cleanUri : String := removeNul (trim asset.uri)

def assetDataRow (slot : Nat) : AssetDataRow :=
  let chainData : ChainDataV1 := ChainDataV1.sanitize
    { name := asset.name
      symbol := ""
      editionNonce := none
      primarySaleHappened := false
      tokenStandard := none
      uses := none }
  { chainDataMutability := if asset.updateAuthority = .none then .immutable else .mutable
    chainData := chainData.toJson
    metadataUrl := asset.cleanUri
    metadata := .str "processing"
    metadataMutability := .mutable
    slotUpdated := slot
    reindex := some true
    rawName := some (utf8 asset.name)
    rawSymbol := none
    baseInfoSeq := some 0 }

end IndexableAsset

def removeNestingFromPlugin (nestedKey : String) : Json → Json
  | .obj plugin => .obj (Json.modifyField nestedKey (fun nested => match nested with
    | .obj ((_, .obj inner) :: _) => .obj inner
    | .obj (_ :: _) => .obj []
    | other => other) plugin)
  | plugin => plugin

/-- Applies a change to every plugin of an object or an array. -/
def mapPlugins (change : Json → Json) : Json → Json
  | .obj plugins => .obj (plugins.map (fun entry => (entry.1, change entry.2)))
  | .arr plugins => .arr (plugins.map change)
  | json => json

def removePluginsNesting (json : Json) (nestedKey : String) : Json :=
  mapPlugins (removeNestingFromPlugin nestedKey) json

def transformAuthority : Json → Json
  | .obj ((authorityType, value) :: rest) =>
    let others := Json.removeField authorityType ((authorityType, value) :: rest)
    match value with
    | .obj pubkey =>
      match Json.field "address" pubkey with
      | some address =>
        .obj (Json.insertField "address" address (Json.insertField "type" (.str authorityType) others))
      | none => .obj others
    | _ => .obj others
  | .str authorityType => .obj [("type", .str authorityType), ("address", .null)]
  | authority => authority

def transformAuthorityInObject (plugin : List (String × Json)) : List (String × Json) :=
  Json.modifyField "authority" transformAuthority plugin

/-- A change of a field of `adapter_config`. -/
def modifyAdapterConfig (key : String) (change : Json → Json) (plugin : List (String × Json)) :
    List (String × Json) :=
  Json.modifyField "adapter_config" (fun config => match config with
    | .obj entries => .obj (Json.modifyField key change entries)
    | other => other) plugin

def transformDataAuthorityInObject (plugin : List (String × Json)) : List (String × Json) :=
  modifyAdapterConfig "data_authority" transformAuthority plugin

def transformLinkedAppDataParentKeyInObject (plugin : List (String × Json)) : List (String × Json) :=
  modifyAdapterConfig "parent_key" (fun parentKey => match parentKey with
    | .obj entries => .obj (Json.modifyField "LinkedAppData" transformAuthority entries)
    | other => other) plugin

def transformPluginsAuthority : Json → Json :=
  mapPlugins (fun plugin => match plugin with
    | .obj entries => .obj (transformLinkedAppDataParentKeyInObject
        (transformDataAuthorityInObject (transformAuthorityInObject entries)))
    | other => other)

section Keys
variable [Programs]

/-- The loop over the keys of one object: each key is taken out and put back
under its new name, on top of what is already there. -/
def renameKeys (entries : List (String × Json)) : List (String × Json) :=
  (entries.map Prod.fst).foldl (fun obj key => match Json.field key obj with
    | some value => Json.insertField (Programs.toSnakeCase key) value (Json.removeField key obj)
    | none => obj) entries

mutual

/-- The values are converted before the keys of their object here, after them
in the source; the two do not interfere. -/
def convertKeysToSnakeCase : Json → Json
  | .obj entries => .obj (renameKeys (convertEntries entries))
  | .arr items => .arr (convertItems items)
  | json => json

def convertEntries : List (String × Json) → List (String × Json)
  | [] => []
  | (key, value) :: rest => (key, convertKeysToSnakeCase value) :: convertEntries rest

def convertItems : List Json → List Json
  | [] => []
  | item :: rest => convertKeysToSnakeCase item :: convertItems rest

end

def pluginsJson (asset : IndexableAsset) : Json :=
  let json := Json.obj (asset.plugins.map (fun entry => (entry.1.name, entry.2.json)))
  convertKeysToSnakeCase (transformPluginsAuthority (removePluginsNesting json "data"))

def unknownJson (plugins : List Json) : Option Json :=
  if plugins.isEmpty then none
  else some (convertKeysToSnakeCase (transformPluginsAuthority (.arr plugins)))

def externalPluginsJson (asset : IndexableAsset) : Json :=
  convertKeysToSnakeCase
    (transformPluginsAuthority (removePluginsNesting (.arr asset.externalPlugins) "adapter_config"))

def IndexableAsset.columns (asset : IndexableAsset) (id : Pubkey) (assetClass : SpecificationAssetClass)
    (slot : Nat) : AssetMetadataAccountColumns :=
  { mint := id
    ownerType := .single
    specificationAssetClass := some assetClass
    royaltyAmount := asset.royaltyAmount
    assetData := some id
    slotUpdatedMetadataAccount := slot
    mplCorePlugins := some (pluginsJson asset)
    mplCoreUnknownPlugins := unknownJson asset.unknownPlugins
    mplCoreCollectionNumMinted := asset.numMinted.map asI32
    mplCoreCollectionCurrentSize := asset.currentSize.map asI32
    mplCorePluginsJsonVersion := some 1
    mplCoreExternalPlugins := some (externalPluginsJson asset)
    mplCoreUnknownExternalPlugins := unknownJson asset.unknownExternalPlugins }

end Keys

/-- A collection is looked up for its own authority, which may not be known. -/
def updateAuthorityOf (db : Db) : UpdateAuthority → Bytes
  | .address address => address.bytes
  | .collection address => ((db.assetAuthority.lookup address).map AssetAuthorityRow.authority).getD []
  | .none => Bytes32.zero.bytes

/-- The assets that are grouped under a collection, in the order of their ids. -/
def groupMembers (db : Db) (groupValue : String) : List Pubkey :=
  ((db.assetGrouping.entries.filter (fun entry =>
    entry.1.2 = "collection" && entry.2.groupValue == some groupValue)).map (fun entry => entry.1.1)).insertionSort
      (fun x y => x.bytes ≤ y.bytes)

/-- The assignment of `update_many` under its filters, on one row. -/
def updateAuthority (authority : Bytes) (slot : Nat) (table : Table Pubkey AssetAuthorityRow) (id : Pubkey) :
    Table Pubkey AssetAuthorityRow :=
  match table.lookup id with
  | some row =>
    if row.authority ≠ authority ∧ row.slotUpdated < slot then
      table.insert id { row with authority, slotUpdated := slot }
    else table
  | none => table

def updateAuthorities (db : Db) (ids : List Pubkey) (authority : Bytes) (slot : Nat) : Db :=
  { db with assetAuthority := ids.foldl (updateAuthority authority slot) db.assetAuthority }

/-- The loop over pages of 1000 members, each starting after the last id of the
one before it; `fuel` bounds the number of pages. -/
def updatePages (groupValue : String) (authority : Bytes) (slot : Nat) :
    Nat → Option Pubkey → Db → Db
  | 0, _, db => db
  | fuel + 1, after, db =>
    let entries := ((groupMembers db groupValue).filter (fun id =>
      after.all (fun last => last.bytes < id.bytes))).take 1000
    match entries.getLast? with
    | none => db
    | some last =>
      let uncompressed := entries.filter (fun id => (db.asset.lookup id).any (fun row => !row.compressed))
      updatePages groupValue authority slot fuel (some last) (updateAuthorities db uncompressed authority slot)

def updateGroupAssetAuthorities (db : Db) (groupValue : Pubkey) (authority : Bytes) (slot : Nat) : Db :=
  updatePages groupValue.toBase58 authority slot ((groupMembers db groupValue.toBase58).length + 1) none db

section Save
variable [Programs]

def MplCoreAccountData.isCollection : MplCoreAccountData → Bool
  | .collection _ => true
  | _ => false

def MplCoreAccountData.indexable : MplCoreAccountData → Option IndexableAsset
  | .asset a | .collection a => some a
  | .hashedAsset | .emptyAccount => none

/-- The members of a collection are updated over the connection, outside the
transaction; they are other assets than the collection itself. -/
def saveV1Asset (db : Db) (id : Pubkey) (accountData : MplCoreAccountData) (slot : Nat) :
    Db × Except ProgramTransformerError (Option DownloadMetadataInfo) :=
  match accountData.indexable with
  | none => (db, .error .notImplemented)
  | some asset =>
    let updateAuthority := updateAuthorityOf db asset.updateAuthority
    let db := V1Asset.saveAuthority db id updateAuthority slot
    let db := if accountData.isCollection then updateGroupAssetAuthorities db id updateAuthority slot else db
    let db := V1Asset.saveAssetData db id (asset.assetDataRow slot)
    let owner := if accountData.isCollection then some updateAuthority else asset.owner.map Bytes32.bytes
    let assetClass := if accountData.isCollection then .mplCoreCollection else .mplCoreAsset
    let db := upsertAssetsMetadataAccountColumns db (asset.columns id assetClass slot)
    let db := upsertAssetsMintAccountColumns db
      { mint := id, supply := 1, slotUpdatedMintAccount := slot, extensions := none }
    let db := upsertAssetsTokenAccountColumns db
      { mint := id
        owner
        frozen := asset.frozen
        delegate := asset.transferDelegate owner updateAuthority
        slotUpdatedTokenAccount := some slot }
    let db := V1Asset.saveGrouping ge db id asset.collection slot
    let db := V1Asset.saveCreators db id asset.creatorList slot
    (db, .ok (if asset.cleanUri = "" then none else some (.new id asset.cleanUri)))

def handleMplCoreAccount (db : Db) (account : AccountInfo) (data : MplCoreAccountData) :
    Db × Except ProgramTransformerError (Option DownloadMetadataInfo) :=
  match data with
  | .emptyAccount => (burnV1Asset db account.pubkey account.slot, .ok none)
  | .asset _ | .collection _ => saveV1Asset db account.pubkey data account.slot
  | .hashedAsset => (db, .error .notImplemented)

end Save

end DasIndexer.MplCore
