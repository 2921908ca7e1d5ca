import DasIndexer.Api.Rpc
import Mathlib

namespace DasIndexer
open Sql

/-- The database as the API reads it, with the column `created_at` of `asset`.
No statement of the indexer sets it: Postgres fills it by its clock. -/
structure ReadDb extends Db where
  createdAt : Pubkey → Option Int := fun _ => none

def Db.assets (db : Db) : List (Pubkey × AssetRow) := db.asset.entries.map (fun entry => (entry.1, entry.2))

/-- A row of `asset` joined with rows of other tables. -/
structure Joined where
  asset : Pubkey × AssetRow
  data : Option AssetDataRow := none
  authority : Option AssetAuthorityRow := none
  creator : Option AssetCreatorRow := none
  grouping : Option (String × AssetGroupingRow) := none
  tokenAccount : Option TokenAccountRow := none

inductive Relation where
  | assetData
  | assetAuthority
  | assetCreators
  | assetGrouping
  | tokenAccounts
  deriving DecidableEq, Repr

/-- `LEFT JOIN` with the table of a relation. -/
def Relation.join (db : Db) (relation : Relation) (rows : List Joined) : List Joined :=
  match relation with
  | .assetData =>
    (leftJoin rows db.assetData.entries (fun row entry => row.asset.2.assetData = some entry.1)).map
      (fun (row, entry) => { row with data := entry.map (fun entry => entry.2) })
  | .assetAuthority =>
    (leftJoin rows db.assetAuthority.entries (fun row entry => row.asset.1 = entry.1)).map
      (fun (row, entry) => { row with authority := entry.map (fun entry => entry.2) })
  | .assetCreators =>
    (leftJoin rows db.assetCreators.entries (fun row entry => row.asset.1 = entry.1.1)).map
      (fun (row, entry) => { row with creator := entry.map (fun entry => entry.2) })
  | .assetGrouping =>
    (leftJoin rows db.assetGrouping.entries (fun row entry => row.asset.1 = entry.1.1)).map
      (fun (row, entry) => { row with grouping := entry.map (fun entry => (entry.1.2, entry.2)) })
  | .tokenAccounts =>
    (leftJoin rows db.tokenAccounts.entries (fun row entry => row.asset.1 = entry.2.mint)).map
      (fun (row, entry) => { row with tokenAccount := entry.map (fun entry => entry.2) })

def joined (db : Db) (joins : List Relation) : List Joined :=
  joins.foldl (fun rows relation => relation.join db rows) (db.assets.map (fun asset => { asset }))

/-- In ascending order, Postgres puts nulls last. -/
def nullsLast : Option Int → WithTop Int
  | some n => n
  | none => ⊤

/-- `ORDER BY column, id`. -/
def sortKey (db : ReadDb) (column : AssetColumn) (asset : Pubkey × AssetRow) : Lex (WithTop Int × List Nat) :=
  let rank := match column with
    | .id => 0
    | .createdAt => nullsLast (db.createdAt asset.1)
    | .slotUpdated => nullsLast (asset.2.slotUpdated.map Int.ofNat)
  toLex (rank, byteaKey asset.1.bytes)

def orderBy (db : ReadDb) (column : AssetColumn) (direction : Order) (row other : Joined) : Bool :=
  match direction with
  | .asc => sortKey db column row.asset ≤ sortKey db column other.asset
  | .desc => sortKey db column other.asset ≤ sortKey db column row.asset

def assetSelect (db : ReadDb) (condition : Joined → Truth) (joins : List Relation) (sortBy : Option AssetColumn)
    (sortDirection : Order) : Select Joined where
  source := joined db.toDb joins
  filters := [condition]
  orderBy := sortBy.map (fun column => orderBy db column sortDirection)

/-- The query for a page of assets. Postgres refuses a statement that joins a
table twice. -/
def findAssets (db : ReadDb) (condition : Joined → Truth) (joins : List Relation) (sortBy : Option AssetColumn)
    (sortDirection : Order) (pagination : Pagination) (limit : Nat) : Except DbErr (List (Pubkey × AssetRow)) :=
  if joins.Nodup then
    (paginate pagination limit (assetSelect db condition joins sortBy sortDirection) sortDirection
      (.bytea (fun row => row.asset.1.bytes))).map (fun stmt => stmt.all.map Joined.asset)
  else .error (.query "table name specified more than once")

section Related

/-- The assets with their rows of `asset_data`. Only rows whose ids are among
those of the assets are fetched. -/
def collectAssets (db : Db) (assets : List (Pubkey × AssetRow)) : List (Pubkey × FullAsset) :=
  let assetIds := assets.map Prod.fst
  let assetDataMap := Table.insertAll (db.assetData.entries.filter (fun entry => entry.1 ∈ assetIds))
    (fun entry => entry.1) (fun entry => entry.2)
  assets.foldl (fun assetsMap (id, asset) =>
    IndexMap.insertSome id ((asset.assetData.bind (fun dataId => assetDataMap.lookup dataId)).map (fun data =>
      { asset, data, tokenInfo := none, authorities := [], creators := [], inscription := none, groups := [] }))
      assetsMap) []

/-- `ORDER BY asset_id, position`. -/
def creatorsOf (db : Db) (ids : List Pubkey) : List ((Pubkey × Nat) × AssetCreatorRow) :=
  ((db.assetCreators.keys.filter (fun key => key.1 ∈ ids)).insertionSort (fun key other =>
    toLex (byteaKey key.1.bytes, key.2) ≤ toLex (byteaKey other.1.bytes, other.2))).filterMap (fun key =>
      (db.assetCreators.lookup key).map (fun row => (key, row)))

/-- Rows of a table that refer to one of the assets, `ORDER BY asset_id`. -/
def rowsOf {R : Type} (assetId : R → Pubkey) (ids : List Pubkey) (rows : List R) : List R :=
  (rows.filter (fun row => assetId row ∈ ids)).insertionSort (fun row other =>
    byteaKey (assetId row).bytes ≤ byteaKey (assetId other).bytes)

def addCreators (db : Db) (assetsMap : List (Pubkey × FullAsset)) : List (Pubkey × FullAsset) :=
  ((creatorsOf db (assetsMap.map Prod.fst)).foldl (fun assetsMap c =>
    IndexMap.modify c.1.1 (fun full => { full with creators := full.creators ++ [c.2] }) assetsMap) assetsMap).map
      (fun (id, full) => (id, { full with creators := filterOutStaleCreators full.creators }))

/-- The required creator must still be among the creators shown. -/
def retainCreator (requiredCreator : Option Bytes) (assetsMap : List (Pubkey × FullAsset)) :
    List (Pubkey × FullAsset) :=
  match requiredCreator with
  | some required => assetsMap.filter (fun (_, full) => full.creators.any (fun c => c.creator = required))
  | none => assetsMap

def addAuthorities (db : Db) (assetsMap : List (Pubkey × FullAsset)) : List (Pubkey × FullAsset) :=
  (rowsOf (fun entry => entry.1) (assetsMap.map Prod.fst) db.assetAuthority.entries).foldl (fun assetsMap a =>
    IndexMap.modify a.1 (fun full => { full with authorities := full.authorities ++ [a.2] }) assetsMap) assetsMap

def findTokens (db : Db) (ids : List Pubkey) : List (Pubkey × TokenRow) :=
  (db.tokens.entries.filter (fun entry => entry.1 ∈ ids)).map (fun entry => (entry.1, entry.2))

def addTokens (db : Db) (options : Options) (assetsMap : List (Pubkey × FullAsset)) : List (Pubkey × FullAsset) :=
  if options.showFungible then
    (findTokens db (assetsMap.map Prod.fst)).foldl (fun assetsMap t =>
      IndexMap.modify t.1 (fun full => { full with tokenInfo := some t.2 }) assetsMap) assetsMap
  else assetsMap

/-- Attachments are fetched by the column `asset_id` and handed out by their own
id. -/
def addInscriptions (db : Db) (options : Options) (assetIds : List Pubkey) (assetsMap : List (Pubkey × FullAsset)) :
    List (Pubkey × FullAsset) :=
  if options.showInscription then
    (db.attachments.entries.filter (fun entry => entry.2.assetId.any (fun id => id ∈ assetIds))).foldl
      (fun assetsMap a =>
        IndexMap.modify a.1 (fun full => { full with inscription := some a.2 }) assetsMap) assetsMap
  else assetsMap

def addGroups (db : Db) (options : Options) (assetsMap : List (Pubkey × FullAsset)) : List (Pubkey × FullAsset) :=
  (rowsOf (fun entry => entry.1.1) (assetsMap.map Prod.fst) (db.assetGrouping.entries.filter (fun entry =>
    entry.2.groupValue.isSome && (options.showUnverifiedCollections || entry.2.verified)))).foldl (fun assetsMap g =>
      IndexMap.modify g.1.1 (fun full => { full with groups := full.groups ++ [(g.1.2, g.2,
        if options.showCollectionMetadata then db.assetData.lookup g.1.1 else none)] }) assetsMap) assetsMap

def getRelatedForAssets (db : Db) (assets : List (Pubkey × AssetRow)) (options : Options)
    (requiredCreator : Option Bytes) : List (Pubkey × FullAsset) :=
  let assetsMap := retainCreator requiredCreator (addCreators db (collectAssets db assets))
  let assetsMap := addTokens db options (addAuthorities db assetsMap)
  addGroups db options (addInscriptions db options (assets.map Prod.fst) assetsMap)

end Related

section Scopes
variable (db : ReadDb) (sortBy : Option AssetColumn) (sortDirection : Order) (pagination : Pagination)
  (limit : Nat) (options : Options)

def getAssetsByCondition (condition : Joined → Truth) (joins : List Relation) :
    Except DbErr (List (Pubkey × FullAsset)) :=
  (findAssets db condition joins sortBy sortDirection pagination limit).map (fun assets =>
    getRelatedForAssets db.toDb assets options none)

def getByRelatedCondition (condition : Joined → Truth) (relation : Relation) (requiredCreator : Option Bytes) :
    Except DbErr (List (Pubkey × FullAsset)) :=
  (findAssets db condition [relation] sortBy sortDirection pagination limit).map (fun assets =>
    getRelatedForAssets db.toDb assets options requiredCreator)

/-- `supply > 0`. -/
def supplied (row : Joined) : Truth := Sql.gt (some row.asset.2.supply) (some 0)

def creatorCondition (creator : Bytes) (onlyVerified : Bool) (row : Joined) : Truth :=
  let condition := Sql.eq (row.creator.map AssetCreatorRow.creator) (some creator) &&& supplied row
  if onlyVerified then condition &&& Sql.eq (row.creator.map AssetCreatorRow.verified) (some true) else condition

def getByCreator (creator : Bytes) (onlyVerified : Bool) : Except DbErr (List (Pubkey × FullAsset)) :=
  getByRelatedCondition db sortBy sortDirection pagination limit options
    (creatorCondition creator onlyVerified) .assetCreators (some creator)

def groupCondition (groupKey groupValue : String) (options : Options) (row : Joined) : Truth :=
  let condition := Sql.eq (row.grouping.map Prod.fst) (some groupKey) &&&
    Sql.eq (row.grouping.bind (fun group => group.2.groupValue)) (some groupValue)
  let verified := row.grouping.map (fun group => group.2.verified)
  (if options.showUnverifiedCollections then condition
    else condition &&& (Sql.eq verified (some true) ||| Sql.isNull verified)) &&& supplied row

def getByGrouping (groupKey groupValue : String) : Except DbErr (List (Pubkey × FullAsset)) :=
  getByRelatedCondition db sortBy sortDirection pagination limit options
    (groupCondition groupKey groupValue options) .assetGrouping none

def ownerCondition (owner : Bytes) (row : Joined) : Truth :=
  Sql.eq row.asset.2.owner (some owner) &&& supplied row

def getAssetsByOwner (owner : Bytes) : Except DbErr (List (Pubkey × FullAsset)) :=
  getAssetsByCondition db sortBy sortDirection pagination limit options (ownerCondition owner) []

def authorityCondition (authority : Bytes) (row : Joined) : Truth :=
  Sql.eq (row.authority.map AssetAuthorityRow.authority) (some authority) &&& supplied row

def getByAuthority (authority : Bytes) : Except DbErr (List (Pubkey × FullAsset)) :=
  getByRelatedCondition db sortBy sortDirection pagination limit options
    (authorityCondition authority) .assetAuthority none

/-- `id IN (..) AND supply > 0`. -/
def idsCondition (assetIds : List Pubkey) (row : Joined) : Truth :=
  .ofBool (row.asset.1 ∈ assetIds) &&& supplied row

end Scopes

/-- The rows are not sorted here. -/
def getAssets (db : ReadDb) (assetIds : List Pubkey) (pagination : Pagination) (limit : Nat) (options : Options) :
    Except DbErr (List (Pubkey × FullAsset)) :=
  getAssetsByCondition db none .asc pagination limit options (idsCondition assetIds) []

end DasIndexer
