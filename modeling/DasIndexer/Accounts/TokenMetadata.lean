import DasIndexer.Accounts.Token
import DasIndexer.Accounts.V1Asset

namespace DasIndexer.TokenMetadata
open Sql

structure Metadata where
  updateAuthority : Pubkey
  mint : Pubkey
  name : String
  symbol : String
  uri : String
  sellerFeeBasisPoints : Nat
  creators : Option CreatorList
  primarySaleHappened : Bool
  isMutable : Bool
  editionNonce : Option Nat
  tokenStandard : Option TokenStandard
  collection : Option Collection
  uses : Option Uses

structure MasterEdition where
  supply : Nat
  maxSupply : Option Nat

structure Edition where
  parent : Pubkey
  edition : Nat

inductive TokenMetadataAccountData where
  | editionV1 (e : Edition)
  | masterEditionV1 (m : MasterEdition)
  | metadataV1 (m : Metadata)
  | masterEditionV2 (m : MasterEdition)
  | editionMarker
  | useAuthorityRecord
  | collectionAuthorityRecord
  | emptyAccount

/-- `index_and_fetch_mint_data`: the mint columns of the asset are written from
the row of `tokens`, and the row is returned. -/
def indexAndFetchMintData (db : Db) (mint : Pubkey) : Db × Option TokenRow :=
  match db.tokens.lookup mint with
  | some token =>
    (upsertAssetsMintAccountColumns db
      { mint
        supply := token.supply
        slotUpdatedMintAccount := token.slotUpdated
        extensions := token.extensions }, some token)
  | none => (db, none)

/-- The newest token account of the mint with a positive amount. Between equal
slots the database is free to choose. -/
def findTokenAccount (db : Db) (mint : Pubkey) : Option TokenAccountRow :=
  ((db.tokenAccounts.entries.map (fun entry => entry.2)).filter (fun ta => ta.mint = mint && 0 < ta.amount)).argmax
    TokenAccountRow.slotUpdated

def indexTokenAccountData (db : Db) (mint : Pubkey) : Db :=
  match findTokenAccount db mint with
  | some ta =>
    upsertAssetsTokenAccountColumns db
      { mint
        owner := some ta.owner.bytes
        delegate := ta.delegate.map Bytes32.bytes
        frozen := ta.frozen
        slotUpdatedTokenAccount := some ta.slotUpdated }
  | none => db

def classOfStandard : Option TokenStandard → SpecificationAssetClass
  | some .nonFungible => .nft
  | some .fungibleAsset => .fungibleAsset
  | some .fungible => .fungibleToken
  | some .nonFungibleEdition => .nft
  | some .programmableNonFungible => .programmableNft
  | some .programmableNonFungibleEdition => .programmableNft
  | none => .unknown

def ownerTypeOfClass : SpecificationAssetClass → OwnerType
  | .fungibleAsset => .token
  | .fungibleToken => .token
  | .unknown => .unknown
  | _ => .single

/-- The class, guessed from the supply when the standard is not known; wrapped
SOL is a fungible token without a standard. -/
def Metadata.assetClass (metadata : Metadata) (supply : Nat) : SpecificationAssetClass :=
  let known := if metadata.mint = wsolPubkey then .fungibleToken else classOfStandard metadata.tokenStandard
  if known = .unknown then if 1 < supply then .fungibleToken else .unknown else known

def Metadata.ownershipType (metadata : Metadata) (supply : Nat) : OwnerType :=
  let known :=
    if metadata.mint = wsolPubkey then .token else ownerTypeOfClass (classOfStandard metadata.tokenStandard)
  if known = .unknown then
    if supply = 1 then .single else if 1 < supply then .token else .unknown
  else known

def Metadata.cleanUri (metadata : Metadata) : String := removeNul (trim metadata.uri)

def Metadata.assetDataRow (metadata : Metadata) (slot : Nat) : AssetDataRow :=
  let chainData : ChainDataV1 := ChainDataV1.sanitize
    { name := metadata.name
      symbol := metadata.symbol
      editionNonce := metadata.editionNonce
      primarySaleHappened := metadata.primarySaleHappened
      tokenStandard := metadata.tokenStandard
      uses := metadata.uses }
  { chainDataMutability := if metadata.isMutable then .mutable else .immutable
    chainData := chainData.toJson
    metadataUrl := metadata.cleanUri
    metadata := .str "processing"
    metadataMutability := .mutable
    slotUpdated := slot
    reindex := some true
    rawName := some (utf8 metadata.name)
    rawSymbol := some (utf8 metadata.symbol)
    baseInfoSeq := some 0 }

def Metadata.columns (metadata : Metadata) (supply slot : Nat) : AssetMetadataAccountColumns :=
  { mint := metadata.mint
    ownerType := metadata.ownershipType supply
    specificationAssetClass := some (metadata.assetClass supply)
    royaltyAmount := metadata.sellerFeeBasisPoints
    assetData := some metadata.mint
    slotUpdatedMetadataAccount := slot
    mplCorePlugins := none
    mplCoreUnknownPlugins := none
    mplCoreCollectionNumMinted := none
    mplCoreCollectionCurrentSize := none
    mplCorePluginsJsonVersion := none
    mplCoreExternalPlugins := none
    mplCoreUnknownExternalPlugins := none }

def Metadata.creatorList (metadata : Metadata) : CreatorList := metadata.creators.getD .empty

section Save
variable [Programs]

def insertMasterEdition (db : Db) (mint : Pubkey) (slot : Nat) : Db :=
  let row : AttachmentRow := { slotUpdated := slot, attachmentType := .masterEditionV2 }
  { db with attachments := Table.upsert db.attachments (Programs.findMasterEdition mint) row .doNothing }

def attachmentAssetOnConflict : OnConflict AttachmentRow where
  set stored excluded := { stored with assetId := excluded.assetId }
  filter _ _ := .yes

def upsertAssetV1AccountAttachments (db : Db) (mint : Pubkey) (slot : Nat) : Db :=
  let row : AttachmentRow := { assetId := some mint, slotUpdated := slot, attachmentType := .masterEditionV2 }
  { db with
    attachments := Table.upsert db.attachments (Programs.findMasterEdition mint) row attachmentAssetOnConflict }

/-- The transaction of `save_v1_asset`. -/
def writeV1Asset (db : Db) (metadata : Metadata) (supply slot : Nat) : Db :=
  let mint := metadata.mint
  let db := V1Asset.saveAssetData db mint (metadata.assetDataRow slot)
  let db := upsertAssetsMetadataAccountColumns db (metadata.columns supply slot)
  let db := insertMasterEdition db mint slot
  let db := V1Asset.saveAuthority db mint metadata.updateAuthority.bytes slot
  let db := V1Asset.saveGrouping gt db mint metadata.collection slot
  V1Asset.saveCreators db mint metadata.creatorList slot

/-- The supply is taken to be 1 as long as the mint is not indexed. The last
attachment is written after the transaction has been committed. -/
def saveV1Asset (db : Db) (metadata : Metadata) (slot : Nat) : Db × Option DownloadMetadataInfo :=
  let mint := metadata.mint
  let indexed := indexAndFetchMintData db mint
  let supply := (indexed.2.map TokenRow.supply).getD 1
  let ownershipType := metadata.ownershipType supply
  let db := if ownershipType = .single ∨ ownershipType = .unknown then indexTokenAccountData indexed.1 mint
    else indexed.1
  let db := writeV1Asset db metadata supply slot
  let db := if metadata.tokenStandard.map TokenStandard.isNonFungible = some true
    then upsertAssetV1AccountAttachments db mint slot else db
  (db, if metadata.cleanUri = "" then none else some (.new mint metadata.cleanUri))

end Save

/-- The JSON value of a master edition of either version. -/
def MasterEdition.toJson (m : MasterEdition) (key : String) : Json :=
  .obj [("key", .str key), ("supply", .num m.supply),
    ("max_supply", (m.maxSupply.map (fun n => Json.num n)).getD .null)]

def Edition.toJson (e : Edition) : Json :=
  .obj [("key", .str "EditionV1"), ("parent", .str e.parent.toBase58), ("edition", .num e.edition)]

def attachmentDataOnConflict : OnConflict AttachmentRow where
  set stored excluded :=
    { stored with
      attachmentType := excluded.attachmentType
      data := excluded.data
      slotUpdated := excluded.slotUpdated }
  filter stored excluded := ge (some excluded.slotUpdated) (some stored.slotUpdated)

/-- The statement that `save_master_edition` and `save_edition` share. -/
def saveAttachment (db : Db) (version : V1AccountAttachments) (id : Pubkey) (slot : Nat) (data : Json) : Db :=
  let row : AttachmentRow := { attachmentType := version, data := some data, slotUpdated := slot }
  { db with attachments := Table.upsert db.attachments id row attachmentDataOnConflict }

def saveV1MasterEdition (db : Db) (id : Pubkey) (slot : Nat) (m : MasterEdition) : Db :=
  saveAttachment db .masterEditionV1 id slot (m.toJson "MasterEditionV1")

def saveV2MasterEdition (db : Db) (id : Pubkey) (slot : Nat) (m : MasterEdition) : Db :=
  saveAttachment db .masterEditionV2 id slot (m.toJson "MasterEditionV2")

def saveEdition (db : Db) (id : Pubkey) (slot : Nat) (e : Edition) : Db :=
  saveAttachment db .edition id slot e.toJson

/-- A closed account names no mint: the asset that is burnt has the address of
the closed account as its id. -/
def handleTokenMetadataAccount [Programs] (db : Db) (account : AccountInfo)
    (data : TokenMetadataAccountData) : Db × Except ProgramTransformerError (Option DownloadMetadataInfo) :=
  match data with
  | .emptyAccount => (burnV1Asset db account.pubkey account.slot, .ok none)
  | .masterEditionV1 m => (saveV1MasterEdition db account.pubkey account.slot m, .ok none)
  | .metadataV1 m =>
    let (db, task) := saveV1Asset db m account.slot
    (db, .ok task)
  | .masterEditionV2 m => (saveV2MasterEdition db account.pubkey account.slot m, .ok none)
  | .editionV1 e => (saveEdition db account.pubkey account.slot e, .ok none)
  | .editionMarker | .useAuthorityRecord | .collectionAuthorityRecord => (db, .error .notImplemented)

end DasIndexer.TokenMetadata
