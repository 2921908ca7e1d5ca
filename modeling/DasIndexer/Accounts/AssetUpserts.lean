import DasIndexer.Schema

namespace DasIndexer
open Sql Latest

structure AssetTokenAccountColumns where
  mint : Pubkey
  owner : Option Bytes
  frozen : Bool
  delegate : Option Bytes
  slotUpdatedTokenAccount : Option Nat

def AssetTokenAccountColumns.model (columns : AssetTokenAccountColumns) : AssetRow :=
  { owner := columns.owner
    frozen := columns.frozen
    delegate := columns.delegate
    slotUpdatedTokenAccount := columns.slotUpdatedTokenAccount }

def AssetTokenAccountColumns.onConflict : OnConflict AssetRow where
  set asset excluded :=
    { asset with
      owner := excluded.owner
      frozen := excluded.frozen
      delegate := excluded.delegate
      slotUpdatedTokenAccount := excluded.slotUpdatedTokenAccount }
  filter asset excluded :=
    ge excluded.slotUpdatedTokenAccount asset.slotUpdatedTokenAccount ||| isNull asset.slotUpdatedTokenAccount

def upsertAssetsTokenAccountColumns (db : Db) (columns : AssetTokenAccountColumns) : Db :=
  db.upsertAsset columns.mint columns.model AssetTokenAccountColumns.onConflict

structure AssetMintAccountColumns where
  mint : Pubkey
  supply : Nat
  slotUpdatedMintAccount : Nat
  extensions : Option Json

/-- A new mint is taken for a fungible token until its metadata is known. -/
def AssetMintAccountColumns.model (columns : AssetMintAccountColumns) : AssetRow :=
  { supply := columns.supply
    supplyMint := some columns.mint
    slotUpdatedMintAccount := some columns.slotUpdatedMintAccount
    slotUpdated := some columns.slotUpdatedMintAccount
    mintExtensions := columns.extensions
    assetData := some columns.mint
    specificationAssetClass := some .fungibleToken
    ownerType := .token }

/-- The update leaves `supply_mint`, the class and the owner type alone. -/
def AssetMintAccountColumns.onConflict : OnConflict AssetRow where
  set asset excluded :=
    { asset with
      supply := excluded.supply
      slotUpdatedMintAccount := excluded.slotUpdatedMintAccount
      mintExtensions := excluded.mintExtensions
      slotUpdated := excluded.slotUpdated
      assetData := excluded.assetData }
  filter asset excluded :=
    ge excluded.slotUpdatedMintAccount asset.slotUpdatedMintAccount ||| isNull asset.slotUpdatedMintAccount

def upsertAssetsMintAccountColumns (db : Db) (columns : AssetMintAccountColumns) : Db :=
  db.upsertAsset columns.mint columns.model AssetMintAccountColumns.onConflict

structure AssetMetadataAccountColumns where
  mint : Pubkey
  ownerType : OwnerType
  specificationAssetClass : Option SpecificationAssetClass
  royaltyAmount : Nat
  assetData : Option Pubkey
  slotUpdatedMetadataAccount : Nat
  mplCorePlugins : Option Json
  mplCoreUnknownPlugins : Option Json
  mplCoreCollectionNumMinted : Option Int
  mplCoreCollectionCurrentSize : Option Int
  mplCorePluginsJsonVersion : Option Int
  mplCoreExternalPlugins : Option Json
  mplCoreUnknownExternalPlugins : Option Json

/-- A metadata account makes the asset an uncompressed one: the sequence
number 0 marks it as decompressed. -/
def AssetMetadataAccountColumns.model (columns : AssetMetadataAccountColumns) : AssetRow :=
  { ownerType := columns.ownerType
    specificationVersion := some .v1
    specificationAssetClass := columns.specificationAssetClass
    treeId := none
    nonce := some 0
    seq := some 0
    leaf := none
    dataHash := none
    creatorHash := none
    compressed := false
    compressible := false
    royaltyTargetType := .creators
    royaltyTarget := none
    royaltyAmount := columns.royaltyAmount
    assetData := columns.assetData
    slotUpdatedMetadataAccount := some columns.slotUpdatedMetadataAccount
    burnt := false
    mplCorePlugins := columns.mplCorePlugins
    mplCoreUnknownPlugins := columns.mplCoreUnknownPlugins
    mplCoreCollectionNumMinted := columns.mplCoreCollectionNumMinted
    mplCoreCollectionCurrentSize := columns.mplCoreCollectionCurrentSize
    mplCorePluginsJsonVersion := columns.mplCorePluginsJsonVersion
    mplCoreExternalPlugins := columns.mplCoreExternalPlugins
    mplCoreUnknownExternalPlugins := columns.mplCoreUnknownExternalPlugins }

def AssetMetadataAccountColumns.onConflict : OnConflict AssetRow where
  set asset excluded :=
    { asset with
      ownerType := excluded.ownerType
      specificationVersion := excluded.specificationVersion
      specificationAssetClass := excluded.specificationAssetClass
      treeId := excluded.treeId
      nonce := excluded.nonce
      seq := excluded.seq
      leaf := excluded.leaf
      dataHash := excluded.dataHash
      creatorHash := excluded.creatorHash
      compressed := excluded.compressed
      compressible := excluded.compressible
      royaltyTargetType := excluded.royaltyTargetType
      royaltyTarget := excluded.royaltyTarget
      royaltyAmount := excluded.royaltyAmount
      assetData := excluded.assetData
      slotUpdatedMetadataAccount := excluded.slotUpdatedMetadataAccount
      burnt := excluded.burnt
      mplCorePlugins := excluded.mplCorePlugins
      mplCoreUnknownPlugins := excluded.mplCoreUnknownPlugins
      mplCoreCollectionNumMinted := excluded.mplCoreCollectionNumMinted
      mplCoreCollectionCurrentSize := excluded.mplCoreCollectionCurrentSize
      mplCorePluginsJsonVersion := excluded.mplCorePluginsJsonVersion
      mplCoreExternalPlugins := excluded.mplCoreExternalPlugins
      mplCoreUnknownExternalPlugins := excluded.mplCoreUnknownExternalPlugins }
  filter asset excluded :=
    ge excluded.slotUpdatedMetadataAccount asset.slotUpdatedMetadataAccount |||
      isNull asset.slotUpdatedMetadataAccount

def upsertAssetsMetadataAccountColumns (db : Db) (columns : AssetMetadataAccountColumns) : Db :=
  db.upsertAsset columns.mint columns.model AssetMetadataAccountColumns.onConflict

/-- `burn_v1_asset`, the same for Token Metadata and MPL Core. The stored
`slot_updated` is read as the trigger left it. -/
def burnV1AssetOnConflict : OnConflict AssetRow where
  set asset excluded := { asset with slotUpdated := excluded.slotUpdated, burnt := excluded.burnt }
  filter asset excluded := gt excluded.slotUpdated asset.slotUpdated

def burnV1Asset (db : Db) (id : Pubkey) (slot : Nat) : Db :=
  db.upsertAsset id { slotUpdated := some slot, burnt := true } burnV1AssetOnConflict

/-- The columns that follow the token account. -/
def tokenAccountColumns (row : AssetRow) :=
  (row.slotUpdatedTokenAccount, row.owner, row.frozen, row.delegate)

/-- The columns that follow the mint account. -/
def mintAccountColumns (row : AssetRow) := (row.slotUpdatedMintAccount, row.supply, row.mintExtensions)

/-- The columns that follow the metadata account and that no insertion for
another account sets. -/
def metadataAccountColumns (row : AssetRow) :=
  (row.slotUpdatedMetadataAccount, row.royaltyAmount, row.seq, row.burnt, row.specificationVersion,
    row.treeId, row.nonce, row.leaf, row.dataHash, row.creatorHash, row.compressed, row.compressible,
    row.royaltyTargetType, row.royaltyTarget, row.mplCorePlugins, row.mplCoreUnknownPlugins,
    row.mplCoreCollectionNumMinted, row.mplCoreCollectionCurrentSize, row.mplCorePluginsJsonVersion,
    row.mplCoreExternalPlugins, row.mplCoreUnknownExternalPlugins)

/-- The columns of the metadata account that an insertion for the mint account
sets as well. -/
def classColumns (row : AssetRow) := (row.ownerType, row.specificationAssetClass, row.assetData)

end DasIndexer
