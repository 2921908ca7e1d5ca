import DasIndexer.Bubblegum.Instruction

namespace DasIndexer.Bubblegum
open Sql

/-- `bs58::encode(..).into_string().trim().to_string()`. -/
def hashText (hash : Hash) : String := trim hash.toBase58

structure LeafInfo where
  nonce : Nat
  treeId : Pubkey
  leaf : Hash
  dataHash : Hash
  creatorHash : Hash
  collectionHash : Option Hash
  assetDataHash : Option Hash
  flags : Option UInt8
  seq : Nat

structure OwnerInfo where
  owner : Pubkey
  delegate : Option Bytes
  seq : Nat

structure CompressionInfo where
  compressed : Bool
  compressible : Bool
  supply : Nat
  supplyMint : Option Pubkey

structure CollectionInfo where
  collection : Option Collection
  slotUpdated : Nat
  seq : Nat

structure AssetDataInfo where
  chainDataMutability : ChainMutability
  chainData : Json
  metadataUrl : String
  metadataMutability : Mutability
  metadata : Json
  slotUpdated : Nat
  reindex : Option Bool
  rawName : Bytes
  rawSymbol : Bytes
  seq : Nat

structure BaseInfo where
  ownerType : OwnerType
  specificationVersion : SpecificationVersions
  specificationAssetClass : SpecificationAssetClass
  royaltyTargetType : RoyaltyTargetType
  royaltyTarget : Option Bytes
  royaltyAmount : Nat
  slotUpdated : Nat
  seq : Nat

structure CreatorsInfo where
  creators : CreatorList
  slotUpdated : Nat
  seq : Nat

structure AuthorityInfo where
  authority : Pubkey
  slotUpdated : Nat
  seq : Nat

section Upserts
variable [Programs] (db : Db) (id : Pubkey)

/-- The inserted row; the columns of the second leaf schema are set only for
a leaf that carries flags, and `frozen` defaults to false. -/
def LeafInfo.model (info : LeafInfo) : AssetRow :=
  { nonce := some info.nonce
    treeId := some info.treeId
    leaf := some info.leaf
    dataHash := some (hashText info.dataHash)
    creatorHash := some (hashText info.creatorHash)
    leafSeq := some info.seq
    collectionHash := info.flags.bind (fun _ => info.collectionHash.map hashText)
    assetDataHash := info.flags.bind (fun _ => info.assetDataHash.map hashText)
    bubblegumFlags := info.flags
    nonTransferable := info.flags.map Programs.nonTransferable
    frozen := info.flags.any (fun flags =>
      Programs.assetLvlFrozen flags || Programs.permanentLvlFrozen flags) }

/-- A leaf without flags does not update the columns of the second schema. -/
def LeafInfo.updateColumns (info : LeafInfo) (asset excluded : AssetRow) : AssetRow :=
  { asset with
    nonce := excluded.nonce
    treeId := excluded.treeId
    leaf := excluded.leaf
    dataHash := excluded.dataHash
    creatorHash := excluded.creatorHash
    leafSeq := excluded.leafSeq
    frozen := excluded.frozen
    collectionHash := if info.flags.isSome then excluded.collectionHash else asset.collectionHash
    assetDataHash := if info.flags.isSome then excluded.assetDataHash else asset.assetDataHash
    bubblegumFlags := if info.flags.isSome then excluded.bubblegumFlags else asset.bubblegumFlags
    nonTransferable := if info.flags.isSome then excluded.nonTransferable else asset.nonTransferable }

def LeafInfo.onConflict (info : LeafInfo) : OnConflict AssetRow where
  set := info.updateColumns
  filter asset excluded :=
    (ne asset.seq (some 0) ||| isNull asset.seq) &&&
      (ge excluded.leafSeq asset.leafSeq ||| isNull asset.leafSeq)

def upsertAssetWithLeafInfo (info : LeafInfo) : Db := db.upsertAsset id info.model info.onConflict

def OwnerInfo.model (info : OwnerInfo) : AssetRow :=
  { owner := some info.owner.bytes
    delegate := info.delegate
    ownerDelegateSeq := some info.seq }

def OwnerInfo.onConflict : OnConflict AssetRow where
  set asset excluded :=
    { asset with
      owner := excluded.owner
      delegate := excluded.delegate
      ownerDelegateSeq := excluded.ownerDelegateSeq }
  filter asset excluded :=
    (ne asset.seq (some 0) ||| isNull asset.seq) &&&
      (ge excluded.ownerDelegateSeq asset.ownerDelegateSeq ||| isNull asset.ownerDelegateSeq)

def upsertAssetWithOwnerAndDelegateInfo (info : OwnerInfo) : Db :=
  db.upsertAsset id info.model OwnerInfo.onConflict

def CompressionInfo.model (info : CompressionInfo) : AssetRow :=
  { compressed := info.compressed
    compressible := info.compressible
    supply := info.supply
    supplyMint := info.supplyMint }

def CompressionInfo.onConflict : OnConflict AssetRow where
  set asset excluded :=
    { asset with
      compressed := excluded.compressed
      compressible := excluded.compressible
      supply := excluded.supply
      supplyMint := excluded.supplyMint }
  filter asset _ := ne asset.seq (some 0) ||| isNull asset.seq

def upsertAssetWithCompressionInfo (info : CompressionInfo) : Db :=
  db.upsertAsset id info.model CompressionInfo.onConflict

def seqModel (seq : Nat) : AssetRow := { seq := some seq }

def seqOnConflict : OnConflict AssetRow where
  set asset excluded := { asset with seq := excluded.seq }
  filter asset excluded := (ne asset.seq (some 0) &&& ge excluded.seq asset.seq) ||| isNull asset.seq

def upsertAssetWithSeq (seq : Nat) : Db := db.upsertAsset id (seqModel seq) seqOnConflict

def CollectionInfo.model (info : CollectionInfo) : AssetGroupingRow :=
  { groupValue := info.collection.map (fun c => c.key.toBase58)
    verified := (info.collection.map Collection.verified).getD false
    slotUpdated := some info.slotUpdated
    groupInfoSeq := some info.seq }

def CollectionInfo.onConflict : OnConflict AssetGroupingRow where
  set grouping excluded :=
    { grouping with
      groupValue := excluded.groupValue
      verified := excluded.verified
      slotUpdated := excluded.slotUpdated
      groupInfoSeq := excluded.groupInfoSeq }
  filter grouping excluded :=
    (ne grouping.groupInfoSeq (some 0) &&& ge excluded.groupInfoSeq grouping.groupInfoSeq) |||
      isNull grouping.groupInfoSeq

def upsertCollectionInfo (info : CollectionInfo) : Db :=
  { db with
    assetGrouping :=
      Table.upsert db.assetGrouping (id, "collection") info.model CollectionInfo.onConflict }

def AssetDataInfo.model (info : AssetDataInfo) : AssetDataRow :=
  { chainDataMutability := info.chainDataMutability
    chainData := info.chainData
    metadataUrl := info.metadataUrl
    metadataMutability := info.metadataMutability
    metadata := info.metadata
    slotUpdated := info.slotUpdated
    reindex := info.reindex
    rawName := some info.rawName
    rawSymbol := some info.rawSymbol
    baseInfoSeq := some info.seq }

/-- Every column but the downloaded `metadata` is updated. -/
def AssetDataInfo.onConflict : OnConflict AssetDataRow where
  set data excluded := { excluded with metadata := data.metadata }
  filter data excluded :=
    (ne data.baseInfoSeq (some 0) &&& ge excluded.baseInfoSeq data.baseInfoSeq) |||
      isNull data.baseInfoSeq

def upsertAssetData (info : AssetDataInfo) : Db :=
  { db with assetData := Table.upsert db.assetData id info.model AssetDataInfo.onConflict }

def BaseInfo.model (info : BaseInfo) (id : Pubkey) : AssetRow :=
  { ownerType := info.ownerType
    specificationVersion := some info.specificationVersion
    specificationAssetClass := some info.specificationAssetClass
    royaltyTargetType := info.royaltyTargetType
    royaltyTarget := info.royaltyTarget
    royaltyAmount := info.royaltyAmount
    assetData := some id
    slotUpdatedCnftTransaction := some info.slotUpdated
    baseInfoSeq := some info.seq }

def BaseInfo.onConflict : OnConflict AssetRow where
  set asset excluded :=
    { asset with
      ownerType := excluded.ownerType
      specificationVersion := excluded.specificationVersion
      specificationAssetClass := excluded.specificationAssetClass
      royaltyTargetType := excluded.royaltyTargetType
      royaltyTarget := excluded.royaltyTarget
      royaltyAmount := excluded.royaltyAmount
      assetData := excluded.assetData
      slotUpdatedCnftTransaction := excluded.slotUpdatedCnftTransaction
      baseInfoSeq := excluded.baseInfoSeq }
  filter asset excluded :=
    (ne asset.seq (some 0) ||| isNull asset.seq) &&&
      (ge excluded.baseInfoSeq asset.baseInfoSeq ||| isNull asset.baseInfoSeq)

def upsertAssetBaseInfo (info : BaseInfo) : Db := db.upsertAsset id (info.model id) BaseInfo.onConflict

def CreatorsInfo.creatorRow (info : CreatorsInfo) (c : Creator) : AssetCreatorRow :=
  { creator := c.address.bytes, share := c.share, verified := c.verified
    slotUpdated := some info.slotUpdated, seq := some info.seq }

/-- An empty list leaves a row without a creator, so that older lists stay
recognisable. -/
def CreatorsInfo.emptyRow (info : CreatorsInfo) : AssetCreatorRow :=
  { creator := [], share := 100, verified := false
    slotUpdated := some info.slotUpdated, seq := some info.seq }

/-- The proposed rows under their positions. -/
def CreatorsInfo.rows (info : CreatorsInfo) : List (Nat × AssetCreatorRow) :=
  if info.creators.entries.isEmpty then [(0, info.emptyRow)]
  else info.creators.entries.zipIdx.map (fun (c, i) => (i, info.creatorRow c))

def CreatorsInfo.onConflict : OnConflict AssetCreatorRow where
  set _ excluded := excluded
  filter stored excluded := (ne stored.seq (some 0) &&& ge excluded.seq stored.seq) ||| isNull stored.seq

def upsertAssetCreators (info : CreatorsInfo) : Db :=
  { db with
    assetCreators := Table.upsertMany db.assetCreators
      (info.rows.map (fun (position, row) => ((id, position), row))) CreatorsInfo.onConflict }

def AuthorityInfo.model (info : AuthorityInfo) : AssetAuthorityRow :=
  { authority := info.authority.bytes, slotUpdated := info.slotUpdated, seq := info.seq }

def upsertAssetAuthority (info : AuthorityInfo) : Db :=
  { db with assetAuthority := Table.upsert db.assetAuthority id info.model .doNothing }

/-- The clause of the burn handler; decompression is not checked here. -/
def burntOnConflict : OnConflict AssetRow where
  set asset excluded := { asset with burnt := excluded.burnt }
  filter _ _ := .yes

def upsertBurnt : Db := db.upsertAsset id { burnt := true } burntOnConflict

end Upserts

def clItemOnConflict : OnConflict ClItemRow where
  set _ excluded := excluded
  filter stored excluded := gt (some excluded.seq) (some stored.seq)

def upsertClItem (db : Db) (tree : Pubkey) (nodeIdx : Nat) (item : ClItemRow) : Db :=
  { db with clItems := Table.upsert db.clItems (tree, nodeIdx) item clItemOnConflict }

def insertClAudit (db : Db) (tree : Pubkey) (leafIdx seq : Nat) (audit : ClAuditRow) : Db :=
  { db with clAuditsV2 := Table.upsert db.clAuditsV2 (tree, leafIdx, seq) audit .doNothing }

/-- A tree that was never seen before and does not start at its first sequence
number has to be checked for gaps. -/
def insertBackfillItem (db : Db) (tree : Pubkey) (seq slot : Nat) : Db :=
  let unseen := db.backfillItems.all (fun item => item.tree ≠ tree)
  { db with
    backfillItems := db.backfillItems ++
      [{ tree, seq, slot, forceChk := unseen && decide (1 < seq), backfilled := false, failed := false }] }

/-- One SQL statement of a Bubblegum handler. -/
inductive Statement where
  | clItem (tree : Pubkey) (nodeIdx : Nat) (item : ClItemRow)
  | clAudit (tree : Pubkey) (leafIdx seq : Nat) (audit : ClAuditRow)
  | backfillItem (tree : Pubkey) (seq slot : Nat)
  | leafInfo (id : Pubkey) (info : LeafInfo)
  | ownerInfo (id : Pubkey) (info : OwnerInfo)
  | compressionInfo (id : Pubkey) (info : CompressionInfo)
  | assetSeq (id : Pubkey) (seq : Nat)
  | collectionInfo (id : Pubkey) (info : CollectionInfo)
  | assetData (id : Pubkey) (info : AssetDataInfo)
  | baseInfo (id : Pubkey) (info : BaseInfo)
  | creators (id : Pubkey) (info : CreatorsInfo)
  | authority (id : Pubkey) (info : AuthorityInfo)
  | burnt (id : Pubkey)

def Statement.exec [Programs] (db : Db) : Statement → Db
  | .clItem tree nodeIdx item => upsertClItem db tree nodeIdx item
  | .clAudit tree leafIdx seq audit => insertClAudit db tree leafIdx seq audit
  | .backfillItem tree seq slot => insertBackfillItem db tree seq slot
  | .leafInfo id info => upsertAssetWithLeafInfo db id info
  | .ownerInfo id info => upsertAssetWithOwnerAndDelegateInfo db id info
  | .compressionInfo id info => upsertAssetWithCompressionInfo db id info
  | .assetSeq id seq => upsertAssetWithSeq db id seq
  | .collectionInfo id info => upsertCollectionInfo db id info
  | .assetData id info => upsertAssetData db id info
  | .baseInfo id info => upsertAssetBaseInfo db id info
  | .creators id info => upsertAssetCreators db id info
  | .authority id info => upsertAssetAuthority db id info
  | .burnt id => upsertBurnt db id

def nodeIdxToLeafIdx (index : Int) (treeHeight : Nat) : Int := index - 2 ^ treeHeight

/-- The row of one node of the path; the leaf is at level 0. -/
def clItemRow (event : ChangeLogEvent) (p : PathNode) (i : Nat) : ClItemRow :=
  { leafIdx := if i = 0 then some (nodeIdxToLeafIdx p.index (event.path.length - 1)) else none
    seq := event.seq
    level := i
    hash := p.node }

def pathItems (event : ChangeLogEvent) : List (Nat × ClItemRow) :=
  event.path.zipIdx.map (fun (p, i) => (p.index, clItemRow event p i))

/-- The statements of `insert_change_log`. The whole path has been written when
the loop ends, so the guard on `backfill_items` always lets the row in. -/
def insertChangeLog (event : ChangeLogEvent) (slot : Nat) (txnId : Bytes) (instruction : String) :
    List Statement :=
  (pathItems event).map (fun (nodeIdx, item) => .clItem event.id nodeIdx item) ++
    [.clAudit event.id event.index event.seq { tx := txnId, instruction := instructionFrom instruction },
      .backfillItem event.id event.seq slot]

end DasIndexer.Bubblegum
