import DasIndexer.Accounts.AssetUpserts

namespace DasIndexer.V1Asset
open Sql

/-- The statements of this module are shared by `save_v1_asset` of Token
Metadata and of MPL Core, up to the comparison of the grouping row. Of
`asset_data`, every column but the downloaded `metadata` is updated. -/
def assetDataOnConflict : OnConflict AssetDataRow where
  set stored excluded := { excluded with metadata := stored.metadata }
  filter stored excluded := gt (some excluded.slotUpdated) (some stored.slotUpdated)

def saveAssetData (db : Db) (id : Pubkey) (row : AssetDataRow) : Db :=
  { db with assetData := Table.upsert db.assetData id row assetDataOnConflict }

def authorityRow (authority : Bytes) (slot : Nat) : AssetAuthorityRow :=
  { authority, seq := 0, slotUpdated := slot }

def authorityOnConflict : OnConflict AssetAuthorityRow where
  set _ excluded := excluded
  filter stored excluded := gt (some excluded.slotUpdated) (some stored.slotUpdated)

def saveAuthority (db : Db) (id : Pubkey) (authority : Bytes) (slot : Nat) : Db :=
  { db with
    assetAuthority := Table.upsert db.assetAuthority id (authorityRow authority slot) authorityOnConflict }

def groupingRow (collection : Collection) (slot : Nat) : AssetGroupingRow :=
  { groupValue := some collection.key.toBase58
    verified := collection.verified
    groupInfoSeq := some 0
    slotUpdated := some slot }

/-- A grouping row without a slot is never updated. -/
def groupingOnConflict (newer : Option Nat → Option Nat → Truth) : OnConflict AssetGroupingRow where
  set stored excluded :=
    { stored with
      groupValue := excluded.groupValue
      verified := excluded.verified
      slotUpdated := excluded.slotUpdated
      groupInfoSeq := excluded.groupInfoSeq }
  filter stored excluded := newer excluded.slotUpdated stored.slotUpdated

/-- An asset without a collection writes nothing. -/
def saveGrouping (newer : Option Nat → Option Nat → Truth) (db : Db) (id : Pubkey)
    (collection : Option Collection) (slot : Nat) : Db :=
  { db with
    assetGrouping := match collection with
      | some c =>
        Table.upsert db.assetGrouping (id, "collection") (groupingRow c slot) (groupingOnConflict newer)
      | none => db.assetGrouping }

def creatorRow (slot : Nat) (c : Creator) : AssetCreatorRow :=
  { creator := c.address.bytes
    share := c.share
    verified := c.verified
    slotUpdated := some slot
    seq := some 0 }

def creatorsOnConflict : OnConflict AssetCreatorRow where
  set _ excluded := excluded
  filter stored excluded :=
    ge excluded.slotUpdated stored.slotUpdated ||| isNull stored.slotUpdated

/-- An empty list writes nothing. -/
def saveCreators (db : Db) (id : Pubkey) (creators : CreatorList) (slot : Nat) : Db :=
  { db with
    assetCreators :=
      if creators.entries.isEmpty then db.assetCreators
      else Table.upsertMany db.assetCreators
        (creators.entries.zipIdx.map (fun (c, i) => ((id, i), creatorRow slot c))) creatorsOnConflict }

end DasIndexer.V1Asset
