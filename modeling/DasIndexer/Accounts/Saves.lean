import DasIndexer.Accounts.Columns
import DasIndexer.Accounts.GroupAuthorities

namespace DasIndexer
open Sql Latest

/-- What an account says about its asset, apart from the row of `asset` and the
authority. The row of `asset_data` is built for the slot of the update, and the
off-chain metadata is not downloaded yet. -/
structure V1Asset.Content where
  data : Nat → AssetDataRow
  slotted : ∀ slot, (data slot).slotUpdated = slot
  processing : ∀ slot, (data slot).metadata = .str "processing"
  collection : Option Collection
  creators : CreatorList

/-- What `save_v1_asset` does to the other rows of its asset. -/
structure V1Asset.Saves (newer : Option Nat → Option Nat → Truth) (id : Pubkey) (content : V1Asset.Content)
    (authority : Bytes) (slot : Nat) (db after : Db) : Prop where
  assetData : after.assetData = (saveAssetData db id (content.data slot)).assetData
  assetAuthority : after.assetAuthority.lookup id =
    (saveAuthority db id authority slot).assetAuthority.lookup id
  assetGrouping : after.assetGrouping = (saveGrouping newer db id content.collection slot).assetGrouping
  assetCreators : after.assetCreators = (saveCreators db id content.creators slot).assetCreators

namespace TokenMetadata

theorem indexAndFetchMintData_eq (db : Db) (mint : Pubkey) :
    indexAndFetchMintData db mint =
      ({ db with asset := (indexAndFetchMintData db mint).1.asset }, db.tokens.lookup mint) := by
  unfold indexAndFetchMintData
  cases db.tokens.lookup mint with
  | none => rfl
  | some token => rfl

theorem indexTokenAccountData_eq (db : Db) (mint : Pubkey) :
    indexTokenAccountData db mint = { db with asset := (indexTokenAccountData db mint).asset } := by
  unfold indexTokenAccountData
  cases findTokenAccount db mint with
  | none => rfl
  | some ta => rfl

/-- The supply that the class is guessed from. -/
def supplyOf (db : Db) (mint : Pubkey) : Nat := ((db.tokens.lookup mint).map TokenRow.supply).getD 1

/-- The database after the mint and the token account were applied again. -/
def readBack (db : Db) (metadata : Metadata) : Db :=
  let ownershipType := metadata.ownershipType (supplyOf db metadata.mint)
  let indexed := (indexAndFetchMintData db metadata.mint).1
  if ownershipType = .single ∨ ownershipType = .unknown then indexTokenAccountData indexed metadata.mint
  else indexed

theorem readBack_eq (db : Db) (metadata : Metadata) :
    readBack db metadata = { db with asset := (readBack db metadata).asset } := by
  dsimp only [readBack]
  split
  · rw [indexTokenAccountData_eq, indexAndFetchMintData_eq]
  · rw [indexAndFetchMintData_eq]

/-- Reading back keeps what the statements for the rows read both keep. -/
theorem readBack_invariant (P : AssetRow → Prop) {db : Db} {metadata : Metadata} (key : Pubkey)
    (mintUpsert : ∀ token, db.tokens.lookup metadata.mint = some token →
      P ((upsertAssetsMintAccountColumns db (token.columns metadata.mint)).assetOrDefault key))
    (tokenUpsert : ∀ (db' : Db) ta, db'.tokenAccounts = db.tokenAccounts →
      findTokenAccount db' metadata.mint = some ta → P (db'.assetOrDefault key) →
      P ((upsertAssetsTokenAccountColumns db' (ta.columns metadata.mint)).assetOrDefault key))
    (before : P (db.assetOrDefault key)) : P ((readBack db metadata).assetOrDefault key) := by
  have mintBack : P ((indexAndFetchMintData db metadata.mint).1.assetOrDefault key) := by
    unfold indexAndFetchMintData
    cases stored : db.tokens.lookup metadata.mint with
    | none => exact before
    | some token => exact mintUpsert token stored
  have accounts : (indexAndFetchMintData db metadata.mint).1.tokenAccounts = db.tokenAccounts := by
    rw [indexAndFetchMintData_eq]
  dsimp only [readBack]
  split
  · unfold indexTokenAccountData
    split
    · rename_i ta found
      exact tokenUpsert _ ta accounts found mintBack
    · exact mintBack
  · exact mintBack

/-- Columns that the statements for the mint and for the token account both
leave alone are not changed by reading these back. -/
theorem readBack_frame {β : Type} (columns : AssetRow → β) {db : Db} {metadata : Metadata} (key : Pubkey)
    (mintUpsert : ∀ mint, mint.mint = metadata.mint →
      columns ((upsertAssetsMintAccountColumns db mint).assetOrDefault key) = columns (db.assetOrDefault key))
    (tokenUpsert : ∀ db' account, columns ((upsertAssetsTokenAccountColumns db' account).assetOrDefault key) =
      columns (db'.assetOrDefault key)) :
    columns ((readBack db metadata).assetOrDefault key) = columns (db.assetOrDefault key) :=
  readBack_invariant (fun row => columns row = columns (db.assetOrDefault key)) key
    (fun _ _ => mintUpsert _ rfl) (fun db' _ _ _ before => (tokenUpsert db' _).trans before) rfl

theorem readBack_metadataAccountColumns (db : Db) (metadata : Metadata) (key : Pubkey) :
    metadataAccountColumns ((readBack db metadata).assetOrDefault key) =
      metadataAccountColumns (db.assetOrDefault key) :=
  readBack_frame metadataAccountColumns key
    (fun columns _ => mintAccountUpsert_metadataAccountColumns db key columns)
    (fun db' columns => tokenAccountUpsert_metadataAccountColumns db' key columns)

theorem readBack_metadataColumns {db : Db} {metadata : Metadata} {slot : Nat}
    (indexed : (db.assetOrDefault metadata.mint).slotUpdatedMetadataAccount = some slot)
    (linked : (db.assetOrDefault metadata.mint).assetData = some metadata.mint) :
    metadataColumns ((readBack db metadata).assetOrDefault metadata.mint) =
      metadataColumns (db.assetOrDefault metadata.mint) :=
  readBack_frame metadataColumns metadata.mint
    (fun _ ofMint => mintAccountUpsert_metadataColumns db metadata.mint ofMint indexed linked)
    (fun db' _ => tokenAccountUpsert_metadataColumns db' metadata.mint _)

def Metadata.content (metadata : Metadata) : V1Asset.Content where
  data := metadata.assetDataRow
  slotted _ := rfl
  processing _ := rfl
  collection := metadata.collection
  creators := metadata.creatorList

section
variable [Programs] (db : Db) (metadata : Metadata) (slot : Nat)

theorem saveV1Asset_eq : ∃ attachments, (saveV1Asset db metadata slot).1 =
    { writeV1Asset (readBack db metadata) metadata (supplyOf db metadata.mint) slot with attachments } := by
  have token : (indexAndFetchMintData db metadata.mint).2 = db.tokens.lookup metadata.mint := by
    rw [indexAndFetchMintData_eq]
  dsimp only [saveV1Asset]
  rw [token]
  split
  · exact ⟨_, rfl⟩
  · exact ⟨_, rfl⟩

theorem saveV1Asset_saves :
    V1Asset.Saves gt metadata.mint metadata.content metadata.updateAuthority.bytes slot db
      (saveV1Asset db metadata slot).1 := by
  obtain ⟨attachments, same⟩ := saveV1Asset_eq db metadata slot
  rw [same, readBack_eq]
  exact ⟨rfl, rfl, rfl, rfl⟩

theorem saveV1Asset_tokens :
    (saveV1Asset db metadata slot).1.tokens = db.tokens ∧
      (saveV1Asset db metadata slot).1.tokenAccounts = db.tokenAccounts := by
  obtain ⟨attachments, same⟩ := saveV1Asset_eq db metadata slot
  rw [same, readBack_eq]
  exact ⟨rfl, rfl⟩

theorem saveV1Asset_asset :
    (saveV1Asset db metadata slot).1.asset =
      (upsertAssetsMetadataAccountColumns (readBack db metadata)
        (metadata.columns (supplyOf db metadata.mint) slot)).asset := by
  obtain ⟨attachments, same⟩ := saveV1Asset_eq db metadata slot
  rw [same]
  rfl

end

/-- An update of the metadata account of a mint. -/
structure Update (mint : Pubkey) where
  metadata : Metadata
  ofMint : metadata.mint = mint
  slot : Nat

def Update.columns {mint : Pubkey} (u : Update mint) (supply : Nat) : AssetMetadataAccountColumns :=
  u.metadata.columns supply u.slot

section
variable [Programs] {mint : Pubkey}

theorem Update.saves (u : Update mint) (db : Db) :
    V1Asset.Saves gt mint u.metadata.content u.metadata.updateAuthority.bytes u.slot db
      (saveV1Asset db u.metadata u.slot).1 := by
  have saves := saveV1Asset_saves db u.metadata u.slot
  rwa [u.ofMint] at saves

/-- A save moves all columns of the metadata account to the newest account state
at once, with the class guessed from the supply that is indexed. -/
theorem saveV1Asset_metadataColumns {db : Db} {u : Update mint} {c : Option (Update mint)} {supply : Nat}
    (known : supplyOf db mint = supply)
    (unsaved : c = none → (db.assetOrDefault mint).slotUpdatedMetadataAccount = none)
    (held : ∀ x, c = some x → metadataColumns (db.assetOrDefault mint) = metadataColumns (x.columns supply).model) :
    metadataColumns ((saveV1Asset db u.metadata u.slot).1.assetOrDefault mint) =
      metadataColumns ((newer Update.slot c u).columns supply).model := by
  obtain ⟨metadata, rfl, slot⟩ := u
  rw [Db.assetOrDefault_congr (saveV1Asset_asset db metadata slot), known]
  refine @metadataAccountUpsert_newer (readBack db metadata) metadata.mint _ Update.slot c ⟨metadata, rfl, slot⟩ _
    metadataColumns (fun columns => columns.2.1) (fun x => x.columns supply) (fun _ => rfl) (fun _ _ => rfl)
    (fun _ => rfl) rfl (metadataColumns ((readBack db metadata).assetOrDefault metadata.mint)) ?_ ?_
  · intro none v stored
    have slots : some v = (db.assetOrDefault metadata.mint).slotUpdatedMetadataAccount :=
      stored.symm.trans (congrArg Prod.fst (readBack_metadataAccountColumns db metadata metadata.mint))
    rw [unsaved none] at slots
    cases slots
  · cases c with
    | none => rfl
    | some x =>
      have columns := held x rfl
      have linked : (db.assetOrDefault metadata.mint).assetData = some metadata.mint :=
        (congrArg (fun columns => columns.1.2.2) columns).trans (congrArg some x.ofMint)
      have indexed : (db.assetOrDefault metadata.mint).slotUpdatedMetadataAccount = some x.slot :=
        congrArg (fun columns => columns.2.1) columns
      exact (readBack_metadataColumns indexed linked).trans columns

end

namespace Example

/-- A metadata account for concrete histories. -/
def metadata (sellerFeeBasisPoints : Nat) (isMutable : Bool) (standard : Option TokenStandard)
    (creators : Option CreatorList) (collection : Option Collection) : Metadata where
  updateAuthority := .fill 1
  mint := .fill 7
  name := "example"
  symbol := "EX"
  uri := "https://example.com"
  sellerFeeBasisPoints := sellerFeeBasisPoints
  creators := creators
  primarySaleHappened := false
  isMutable := isMutable
  editionNonce := none
  tokenStandard := standard
  collection := collection
  uses := none

def oneCreator : CreatorList := ⟨[{ address := .fill 3, verified := true, share := 100 }], by simp⟩

def collection : Collection := { verified := true, key := .fill 5 }

end Example

end TokenMetadata

namespace MplCore

theorem updateGroupAssetAuthorities_eq (db : Db) (group : Pubkey) (authority : Bytes) (slot : Nat) :
    updateGroupAssetAuthorities db group authority slot =
      { db with assetAuthority := (updateGroupAssetAuthorities db group authority slot).assetAuthority } := by
  rw [updateGroupAssetAuthorities_bulk]
  rfl

/-- A row that has the authority already or is not older is left alone. -/
theorem updateGroupAssetAuthorities_own {db : Db} {id : Pubkey} {row : AssetAuthorityRow} {authority : Bytes}
    {slot : Nat} (group : Pubkey) (settled : row.authority = authority ∨ slot ≤ row.slotUpdated)
    (stored : db.assetAuthority.lookup id = some row) :
    (updateGroupAssetAuthorities db group authority slot).assetAuthority.lookup id = some row := by
  have unchanged : followed authority slot row = row := by
    rw [followed, if_neg]
    rintro ⟨different, older⟩
    rcases settled with equal | late
    · exact different equal
    · omega
  rw [updateGroupAssetAuthorities_lookup, stored, Option.map_some, unchanged, ite_self]

def IndexableAsset.content (asset : IndexableAsset) : V1Asset.Content where
  data := asset.assetDataRow
  slotted _ := rfl
  processing _ := rfl
  collection := asset.collection
  creators := asset.creatorList

section
variable [Programs] (db : Db) (id : Pubkey) {data : MplCoreAccountData} {asset : IndexableAsset} (slot : Nat)

theorem saveV1Asset_saves (indexable : data.indexable = some asset) :
    V1Asset.Saves ge id asset.content (updateAuthorityOf db asset.updateAuthority) slot db
      (saveV1Asset db id data slot).1 := by
  unfold saveV1Asset
  rw [indexable]
  dsimp only
  split
  · rw [updateGroupAssetAuthorities_eq]
    refine ⟨rfl, ?_, rfl, rfl⟩
    have resolved := Table.lookup_upsert_self db.assetAuthority id
      (V1Asset.authorityRow (updateAuthorityOf db asset.updateAuthority) slot) V1Asset.authorityOnConflict
    refine (updateGroupAssetAuthorities_own id ?_ resolved).trans resolved.symm
    cases db.assetAuthority.lookup id with
    | none => exact Or.inl rfl
    | some stored =>
      rw [OnConflict.resolve]
      split
      · exact Or.inl rfl
      · rename_i refused
        simp only [V1Asset.authorityOnConflict, V1Asset.authorityRow, holds_gt, Option.any_some,
          decide_eq_true_eq, not_lt] at refused
        exact Or.inr refused
  · exact ⟨rfl, rfl, rfl, rfl⟩

theorem saveV1Asset_asset (indexable : data.indexable = some asset) :
    ∃ owner delegate, (saveV1Asset db id data slot).1.asset =
      (upsertAssetsTokenAccountColumns
        (upsertAssetsMintAccountColumns
          (upsertAssetsMetadataAccountColumns db
            (asset.columns id (if data.isCollection then .mplCoreCollection else .mplCoreAsset) slot))
          { mint := id, supply := 1, slotUpdatedMintAccount := slot, extensions := none })
        { mint := id, owner, frozen := asset.frozen, delegate, slotUpdatedTokenAccount := some slot }).asset := by
  unfold saveV1Asset
  rw [indexable]
  dsimp only
  split
  · rw [updateGroupAssetAuthorities_eq]
    exact ⟨_, _, rfl⟩
  · exact ⟨_, _, rfl⟩

end

/-- An update of a Core account that is indexed: an asset or a collection. -/
structure Update where
  data : MplCoreAccountData
  asset : IndexableAsset
  indexable : data.indexable = some asset
  slot : Nat

section
variable [Programs]

def Update.columns (u : Update) (id : Pubkey) : AssetMetadataAccountColumns :=
  u.asset.columns id (if u.data.isCollection then .mplCoreCollection else .mplCoreAsset) u.slot

/-- A save moves all columns of the account to its newest state at once. -/
theorem saveV1Asset_metadataColumns {db : Db} {id : Pubkey} {u : Update} {c : Option Update}
    (held : metadataColumns (db.assetOrDefault id) =
      (c.map (fun x => metadataColumns (x.columns id).model)).getD (metadataColumns {})) :
    metadataColumns ((saveV1Asset db id u.data u.slot).1.assetOrDefault id) =
      metadataColumns ((newer Update.slot c u).columns id).model := by
  have saved : metadataColumns ((upsertAssetsMetadataAccountColumns db (u.columns id)).assetOrDefault id) =
      metadataColumns ((newer Update.slot c u).columns id).model :=
    @metadataAccountUpsert_newer db id _ Update.slot c u _ metadataColumns (fun columns => columns.2.1)
      (fun x => x.columns id) (fun _ => rfl) (fun _ _ => rfl) (fun _ => rfl) rfl (metadataColumns {})
      (fun _ => nofun) held
  obtain ⟨owner, delegate, same⟩ := saveV1Asset_asset db id u.slot u.indexable
  rw [Db.assetOrDefault_congr same]
  have indexed := congrArg (fun columns => columns.2.1) saved
  have linked := congrArg (fun columns => columns.1.2.2) saved
  exact (tokenAccountUpsert_metadataColumns _ id _).trans
    ((mintAccountUpsert_metadataColumns _ id rfl indexed linked).trans saved)

end

namespace Example

def royalties (basisPoints : Nat) : PluginType × PluginSchema :=
  (.royalties,
    { authority := .updateAuthority
      data := .royalties { basisPoints, creators := [{ address := .fill 3, percentage := 100 }], short := by simp }
      json := .null })

/-- An update of a Core asset for concrete histories. -/
def update (name : String) (updateAuthority : UpdateAuthority) (plugins : List (PluginType × PluginSchema))
    (slot : Nat) : Update where
  data := .asset { owner := some (.fill 2), updateAuthority, name, uri := "", plugins }
  asset := { owner := some (.fill 2), updateAuthority, name, uri := "", plugins }
  indexable := rfl
  slot := slot

end Example

end MplCore

end DasIndexer
