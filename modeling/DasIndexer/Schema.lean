import DasIndexer.Lib.VersionedTable
import DasIndexer.Programs

namespace DasIndexer
open Sql Latest

inductive OwnerType where
  | single
  | token
  | unknown
  deriving DecidableEq, Repr

inductive RoyaltyTargetType where
  | creators
  | fanout
  | single
  | unknown
  deriving DecidableEq, Repr

inductive SpecificationVersions where
  | unknown
  | v0
  | v1
  | v2
  deriving DecidableEq, Repr

inductive SpecificationAssetClass where
  | fungibleAsset
  | fungibleToken
  | identityNft
  | mplCoreAsset
  | mplCoreCollection
  | nft
  | nonTransferableNft
  | print
  | printableNft
  | programmableNft
  | transferRestrictedNft
  | unknown
  deriving DecidableEq, Repr

inductive ChainMutability where
  | immutable
  | mutable
  | unknown
  deriving DecidableEq, Repr

inductive Mutability where
  | immutable
  | mutable
  | unknown
  deriving DecidableEq, Repr

inductive V1AccountAttachments where
  | edition
  | editionMarker
  | masterEditionV1
  | masterEditionV2
  | tokenInscription
  | unknown
  deriving DecidableEq, Repr

inductive Instruction where
  | burn
  | burnV2
  | cancelRedeem
  | compress
  | decompressV1
  | delegate
  | delegateAndFreezeV2
  | delegateV2
  | freezeV2
  | mintToCollectionV1
  | mintV1
  | mintV2
  | redeem
  | setAndVerifyCollection
  | setCollectionV2
  | setNonTransferableV2
  | thawAndRevokeV2
  | thawV2
  | transfer
  | transferV2
  | unknown
  | unverifyCollection
  | unverifyCreator
  | unverifyCreatorV2
  | updateAssetDataV2
  | updateMetadata
  | updateMetadataV2
  | verifyCollection
  | verifyCreator
  | verifyCreatorV2
  deriving DecidableEq, Repr

/-- A row of `asset`. The initial values are the column defaults an `INSERT`
leaves behind for the columns it does not set. -/
@[ext] structure AssetRow where
  specificationVersion : Option SpecificationVersions := none
  specificationAssetClass : Option SpecificationAssetClass := none
  owner : Option Bytes := none
  ownerType : OwnerType := .single
  delegate : Option Bytes := none
  frozen : Bool := false
  supply : Nat := 1
  supplyMint : Option Pubkey := none
  compressed : Bool := false
  compressible : Bool := false
  seq : Option Nat := none
  treeId : Option Pubkey := none
  leaf : Option Hash := none
  nonce : Option Nat := none
  royaltyTargetType : RoyaltyTargetType := .creators
  royaltyTarget : Option Bytes := none
  royaltyAmount : Nat := 0
  assetData : Option Pubkey := none
  burnt : Bool := false
  slotUpdated : Option Nat := none
  slotUpdatedMetadataAccount : Option Nat := none
  slotUpdatedMintAccount : Option Nat := none
  slotUpdatedTokenAccount : Option Nat := none
  slotUpdatedCnftTransaction : Option Nat := none
  dataHash : Option String := none
  creatorHash : Option String := none
  ownerDelegateSeq : Option Nat := none
  leafSeq : Option Nat := none
  baseInfoSeq : Option Nat := none
  mintExtensions : Option Json := none
  mplCorePlugins : Option Json := none
  mplCoreUnknownPlugins : Option Json := none
  mplCoreCollectionNumMinted : Option Int := none
  mplCoreCollectionCurrentSize : Option Int := none
  mplCorePluginsJsonVersion : Option Int := none
  mplCoreExternalPlugins : Option Json := none
  mplCoreUnknownExternalPlugins : Option Json := none
  collectionHash : Option String := none
  assetDataHash : Option String := none
  bubblegumFlags : Option UInt8 := none
  nonTransferable : Option Bool := none

/-- The trigger `update_slot_updated`, run before every `UPDATE` of `asset`
but not before an `INSERT`. -/
def AssetRow.updateSlotUpdated (row : AssetRow) : AssetRow :=
  { row with slotUpdated := greatest [row.slotUpdatedTokenAccount, row.slotUpdatedMintAccount,
      row.slotUpdatedMetadataAccount, row.slotUpdatedCnftTransaction] }

structure AssetDataRow where
  chainDataMutability : ChainMutability := .mutable
  chainData : Json
  metadataUrl : String
  metadataMutability : Mutability := .mutable
  metadata : Json
  slotUpdated : Nat
  reindex : Option Bool := some false
  rawName : Option Bytes := none
  rawSymbol : Option Bytes := none
  baseInfoSeq : Option Nat := none

structure AssetCreatorRow where
  creator : Bytes
  share : Nat := 0
  verified : Bool := false
  seq : Option Nat := none
  slotUpdated : Option Nat := none
  deriving DecidableEq

structure AssetGroupingRow where
  groupValue : Option String := none
  seq : Option Nat := none
  slotUpdated : Option Nat := none
  verified : Bool := false
  groupInfoSeq : Option Nat := none
  deriving DecidableEq

structure AssetAuthorityRow where
  authority : Bytes
  seq : Nat
  slotUpdated : Nat
  deriving DecidableEq

structure ClItemRow where
  leafIdx : Option Int
  seq : Nat
  level : Nat
  hash : Hash
  deriving DecidableEq

structure ClAuditRow where
  tx : Bytes
  instruction : Instruction
  deriving DecidableEq

structure BackfillItemRow where
  tree : Pubkey
  seq : Nat
  slot : Nat
  forceChk : Bool
  backfilled : Bool
  failed : Bool
  locked : Bool := false
  deriving DecidableEq

structure TokenRow where
  supply : Nat
  decimals : Nat
  tokenProgram : Pubkey
  mintAuthority : Option Pubkey
  freezeAuthority : Option Pubkey
  closeAuthority : Option Pubkey
  extensionData : Option Bytes
  slotUpdated : Nat
  extensions : Option Json

/-- The trait `IsNonFungible` of the model of `tokens`. -/
def TokenRow.isNonFungible (token : TokenRow) : Bool := token.decimals = 0 && token.supply = 1

structure TokenAccountRow where
  mint : Pubkey
  amount : Int
  owner : Pubkey
  frozen : Bool
  closeAuthority : Option Pubkey
  delegate : Option Pubkey
  delegatedAmount : Int
  slotUpdated : Nat
  tokenProgram : Pubkey
  extensions : Option Json

structure AttachmentRow where
  assetId : Option Pubkey := none
  attachmentType : V1AccountAttachments
  initialized : Bool := false
  data : Option Json := none
  slotUpdated : Nat

/-- The database. Key columns are the keys of the tables and not repeated in
their rows; `assetCreators` is keyed by asset and position, `assetGrouping` by
asset and group key, `clItems` by tree and node, `clAuditsV2` by tree, leaf
and sequence number. -/
structure Db where
  asset : Table Pubkey AssetRow := ∅
  assetData : Table Pubkey AssetDataRow := ∅
  assetCreators : Table (Pubkey × Nat) AssetCreatorRow := ∅
  assetGrouping : Table (Pubkey × String) AssetGroupingRow := ∅
  assetAuthority : Table Pubkey AssetAuthorityRow := ∅
  clItems : Table (Pubkey × Nat) ClItemRow := ∅
  clAuditsV2 : Table (Pubkey × Nat × Nat) ClAuditRow := ∅
  backfillItems : List BackfillItemRow := []
  tokens : Table Pubkey TokenRow := ∅
  tokenAccounts : Table Pubkey TokenAccountRow := ∅
  attachments : Table Pubkey AttachmentRow := ∅

/-- A conflicting row of `asset` is updated through the trigger. -/
def throughTrigger (clause : OnConflict AssetRow) : OnConflict AssetRow where
  set asset excluded := (clause.set asset excluded).updateSlotUpdated
  filter := clause.filter

@[simp] theorem throughTrigger_resolve_none (clause : OnConflict AssetRow) (excluded : AssetRow) :
    (throughTrigger clause).resolve excluded none = excluded := rfl

@[simp] theorem throughTrigger_resolve_some (clause : OnConflict AssetRow) (excluded row : AssetRow) :
    (throughTrigger clause).resolve excluded (some row) =
      if (clause.filter row excluded).holds then (clause.set row excluded).updateSlotUpdated
      else row := rfl

def Db.upsertAsset (db : Db) (id : Pubkey) (excluded : AssetRow) (clause : OnConflict AssetRow) : Db :=
  { db with asset := Table.upsert db.asset id excluded (throughTrigger clause) }

/-- The row under which columns of `asset` are read: the stored one, or the
column defaults when there is none. -/
def Db.assetOrDefault (db : Db) (id : Pubkey) : AssetRow := (db.asset.lookup id).getD {}

theorem Db.assetOrDefault_congr {db other : Db} (same : db.asset = other.asset) (id : Pubkey) :
    db.assetOrDefault id = other.assetOrDefault id := by
  rw [Db.assetOrDefault, Db.assetOrDefault, same]

section Columns
variable {β : Type} (columns : AssetRow → β) (db : Db) (id other : Pubkey) (excluded : AssetRow)
  (clause : OnConflict AssetRow)

theorem Db.upsertAsset_lookup :
    (db.upsertAsset id excluded clause).asset.lookup other =
      if other = id then some ((throughTrigger clause).resolve excluded (db.asset.lookup other))
      else db.asset.lookup other :=
  Table.lookup_upsert db.asset id other _ _

theorem Db.upsertAsset_other (different : other ≠ id) :
    (db.upsertAsset id excluded clause).asset.lookup other = db.asset.lookup other := by
  rw [Db.upsertAsset_lookup, if_neg different]

/-- Columns that a statement neither sets nor lets the trigger touch stay. -/
theorem Db.upsertAsset_frame
    (insert : columns excluded = columns {})
    (update : ∀ asset, columns (clause.set asset excluded).updateSlotUpdated = columns asset) :
    columns ((db.upsertAsset id excluded clause).assetOrDefault other) =
      columns (db.assetOrDefault other) := by
  unfold Db.assetOrDefault
  rw [Db.upsertAsset_lookup]
  by_cases same : other = id
  · subst same
    cases stored : db.asset.lookup other with
    | none => simpa using insert
    | some row =>
      rw [if_pos rfl, throughTrigger_resolve_some, Option.getD_some, Option.getD_some, apply_ite columns,
        update row, ite_self]
  · rw [if_neg same]

/-- Columns that a statement sets, read back on the row it wrote: a stored row
keeps its own when the `WHERE` clause refuses it. -/
theorem Db.upsertAsset_write
    (update : ∀ row, db.asset.lookup id = some row →
      columns (clause.set row excluded).updateSlotUpdated = columns excluded) :
    columns ((db.upsertAsset id excluded clause).assetOrDefault id) =
      if (db.asset.lookup id).all (fun row => (clause.filter row excluded).holds)
      then columns excluded else columns (db.assetOrDefault id) := by
  unfold Db.assetOrDefault
  rw [Db.upsertAsset_lookup, if_pos rfl]
  cases stored : db.asset.lookup id with
  | none => simp
  | some row =>
    rw [throughTrigger_resolve_some, Option.getD_some, Option.getD_some, Option.all_some,
      apply_ite columns, update row stored]

/-- A property of the columns of one row that insertion establishes and every
update keeps. -/
theorem Db.upsertAsset_invariant (P : AssetRow → Prop) (insert : other = id → P excluded)
    (update : ∀ row, P row → P (clause.set row excluded).updateSlotUpdated)
    (before : P (db.assetOrDefault other)) : P ((db.upsertAsset id excluded clause).assetOrDefault other) := by
  unfold Db.assetOrDefault at before ⊢
  rw [Db.upsertAsset_lookup]
  by_cases same : other = id
  · rw [if_pos same]
    cases stored : db.asset.lookup other with
    | none => exact insert same
    | some row =>
      rw [stored, Option.getD_some] at before
      rw [throughTrigger_resolve_some, Option.getD_some]
      split
      · exact update row before
      · exact before
  · rwa [if_neg same]

/-- A row that is already there keeps the columns that the update leaves alone,
whatever an insertion would set. -/
theorem Db.upsertAsset_frame_stored {row : AssetRow} (stored : db.asset.lookup id = some row)
    (update : columns (clause.set row excluded).updateSlotUpdated = columns row) :
    columns ((db.upsertAsset id excluded clause).assetOrDefault id) = columns (db.assetOrDefault id) := by
  unfold Db.assetOrDefault
  rw [Db.upsertAsset_lookup, if_pos rfl, stored, throughTrigger_resolve_some, Option.getD_some,
    Option.getD_some, apply_ite columns, update, ite_self]

end Columns

/-- Columns under a `WHERE` clause that refuses exactly the older versions hold
the newest write afterwards. Before the first write they may hold anything that
is not newer. -/
theorem Db.upsertAsset_newer {W β : Type} {columns : AssetRow → β} {clause : OnConflict AssetRow}
    (db : Db) (key : Pubkey) (model : W → AssetRow) (ver : W → Nat) (version : β → Option Nat)
    (start : β) {c : Option W} (w : W) (fresh : version (columns {}) = none)
    (versioned : ∀ x, version (columns (model x)) = some (ver x))
    (older : c = none → ∀ v, version start = some v → v ≤ ver w)
    (filter : ∀ row, db.asset.lookup key = some row →
      (clause.filter row (model w)).holds = (version (columns row)).all (fun v => v ≤ ver w))
    (update : ∀ row, db.asset.lookup key = some row →
      columns (clause.set row (model w)).updateSlotUpdated = columns (model w))
    (held : columns (db.assetOrDefault key) = (c.map (fun x => columns (model x))).getD start) :
    columns ((db.upsertAsset key (model w) clause).assetOrDefault key) = columns (model (newer ver c w)) := by
  have known : (version (columns (db.assetOrDefault key))).all (fun v => v ≤ ver w) =
      (c.map ver).all (fun v => v ≤ ver w) := by
    rw [held]
    cases c with
    | none =>
      rw [Option.map_none, Option.getD_none]
      cases first : version start with
      | none => rfl
      | some v => simpa using older rfl v first
    | some x => rw [Option.map_some, Option.getD_some, versioned, Option.map_some]
  have accepts : (db.asset.lookup key).all (fun row => (clause.filter row (model w)).holds) =
      (c.map ver).all (fun v => v ≤ ver w) := by
    rw [← known]
    unfold Db.assetOrDefault
    cases stored : db.asset.lookup key with
    | none => rw [Option.getD_none, fresh]; rfl
    | some row => exact filter row stored
  rw [Db.upsertAsset_write columns db key _ _ update, accepts, held]
  cases c with
  | none => rfl
  | some x =>
    by_cases newest : ver x ≤ ver w
    · simp [newer, newest, not_lt.mpr newest]
    · simp [newer, newest, not_le.mp newest]

end DasIndexer
