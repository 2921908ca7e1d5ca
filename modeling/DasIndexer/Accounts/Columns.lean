import DasIndexer.Accounts.Updates

namespace DasIndexer
open Sql Latest

/-- All columns that follow the metadata account. -/
def metadataColumns (row : AssetRow) := (classColumns row, metadataAccountColumns row)

/-- The columns that a row of `tokens` gives its asset. -/
def TokenRow.columns (token : TokenRow) (mint : Pubkey) : AssetMintAccountColumns :=
  { mint
    supply := token.supply
    slotUpdatedMintAccount := token.slotUpdated
    extensions := token.extensions }

/-- The columns that a row of `token_accounts` gives its asset. -/
def TokenAccountRow.columns (ta : TokenAccountRow) (mint : Pubkey) : AssetTokenAccountColumns :=
  { mint
    owner := some ta.owner.bytes
    delegate := ta.delegate.map Bytes32.bytes
    frozen := ta.frozen
    slotUpdatedTokenAccount := some ta.slotUpdated }

section Upserts
variable (db : Db) (key : Pubkey) {W : Type} {ver : W → Nat} {c : Option W} {w : W}

theorem tokenAccountUpsert_newer {model : W → AssetTokenAccountColumns}
    (slotted : ∀ x, (model x).slotUpdatedTokenAccount = some (ver x)) (ofKey : (model w).mint = key)
    (start : Option Nat × Option Bytes × Bool × Option Bytes)
    (older : c = none → ∀ v, start.1 = some v → v ≤ ver w)
    (held : tokenAccountColumns (db.assetOrDefault key) =
      (c.map (fun x => tokenAccountColumns (model x).model)).getD start) :
    tokenAccountColumns ((upsertAssetsTokenAccountColumns db (model w)).assetOrDefault key) =
      tokenAccountColumns (model (newer ver c w)).model := by
  rw [upsertAssetsTokenAccountColumns, ofKey]
  refine Db.upsertAsset_newer db key (fun x => (model x).model) ver (fun columns => columns.1)
    start w rfl slotted older ?_ (fun _ _ => rfl) held
  intro row _
  have slot : (model w).model.slotUpdatedTokenAccount = some (ver w) := slotted w
  exact holds_ge_or_isNull_of slot row.slotUpdatedTokenAccount

theorem mintAccountUpsert_newer {model : W → AssetMintAccountColumns}
    (slotted : ∀ x, (model x).slotUpdatedMintAccount = ver x) (ofKey : (model w).mint = key)
    (held : mintAccountColumns (db.assetOrDefault key) =
      (c.map (fun x => mintAccountColumns (model x).model)).getD (mintAccountColumns {})) :
    mintAccountColumns ((upsertAssetsMintAccountColumns db (model w)).assetOrDefault key) =
      mintAccountColumns (model (newer ver c w)).model := by
  rw [upsertAssetsMintAccountColumns, ofKey]
  refine Db.upsertAsset_newer db key (fun x => (model x).model) ver (fun columns => columns.1)
    (mintAccountColumns {}) w rfl (fun x => congrArg some (slotted x)) (fun _ => nofun) ?_ (fun _ _ => rfl) held
  intro row _
  have slot : (model w).model.slotUpdatedMintAccount = some (ver w) := congrArg some (slotted w)
  exact holds_ge_or_isNull_of slot row.slotUpdatedMintAccount

/-- The columns may be any selection of those that follow the metadata account. -/
theorem metadataAccountUpsert_newer {β : Type} (columns : AssetRow → β) (version : β → Option Nat)
    {model : W → AssetMetadataAccountColumns}
    (versioned : ∀ row, version (columns row) = row.slotUpdatedMetadataAccount)
    (update : ∀ row excluded,
      columns (AssetMetadataAccountColumns.onConflict.set row excluded).updateSlotUpdated = columns excluded)
    (slotted : ∀ x, (model x).slotUpdatedMetadataAccount = ver x) (ofKey : (model w).mint = key)
    (start : β) (older : c = none → ∀ v, version start = some v → v ≤ ver w)
    (held : columns (db.assetOrDefault key) = (c.map (fun x => columns (model x).model)).getD start) :
    columns ((upsertAssetsMetadataAccountColumns db (model w)).assetOrDefault key) =
      columns (model (newer ver c w)).model := by
  rw [upsertAssetsMetadataAccountColumns, ofKey]
  refine Db.upsertAsset_newer db key (fun x => (model x).model) ver version start w (versioned _)
    (fun x => (versioned _).trans (congrArg some (slotted x))) older ?_ (fun row _ => update row _) held
  intro row _
  have slot : (model w).model.slotUpdatedMetadataAccount = some (ver w) := congrArg some (slotted w)
  rw [versioned]
  exact holds_ge_or_isNull_of slot row.slotUpdatedMetadataAccount

theorem tokenAccountUpsert_metadataColumns (columns : AssetTokenAccountColumns) :
    metadataColumns ((upsertAssetsTokenAccountColumns db columns).assetOrDefault key) =
      metadataColumns (db.assetOrDefault key) :=
  Db.upsertAsset_frame metadataColumns db _ key _ _ rfl (fun _ => rfl)

theorem tokenAccountUpsert_mintAccountColumns (columns : AssetTokenAccountColumns) :
    mintAccountColumns ((upsertAssetsTokenAccountColumns db columns).assetOrDefault key) =
      mintAccountColumns (db.assetOrDefault key) :=
  Db.upsertAsset_frame mintAccountColumns db _ key _ _ rfl (fun _ => rfl)

theorem metadataAccountUpsert_mintAccountColumns (columns : AssetMetadataAccountColumns) :
    mintAccountColumns ((upsertAssetsMetadataAccountColumns db columns).assetOrDefault key) =
      mintAccountColumns (db.assetOrDefault key) :=
  Db.upsertAsset_frame mintAccountColumns db _ key _ _ rfl (fun _ => rfl)

theorem mintAccountUpsert_metadataAccountColumns (columns : AssetMintAccountColumns) :
    metadataAccountColumns ((upsertAssetsMintAccountColumns db columns).assetOrDefault key) =
      metadataAccountColumns (db.assetOrDefault key) :=
  Db.upsertAsset_frame metadataAccountColumns db _ key _ _ rfl (fun _ => rfl)

theorem tokenAccountUpsert_metadataAccountColumns (columns : AssetTokenAccountColumns) :
    metadataAccountColumns ((upsertAssetsTokenAccountColumns db columns).assetOrDefault key) =
      metadataAccountColumns (db.assetOrDefault key) :=
  congrArg Prod.snd (tokenAccountUpsert_metadataColumns db key columns)

/-- Once the metadata account was indexed, the mint account does not touch the
columns that follow the former. -/
theorem mintAccountUpsert_metadataColumns {columns : AssetMintAccountColumns} (ofKey : columns.mint = key)
    {slot : Nat} (indexed : (db.assetOrDefault key).slotUpdatedMetadataAccount = some slot)
    (linked : (db.assetOrDefault key).assetData = some key) :
    metadataColumns ((upsertAssetsMintAccountColumns db columns).assetOrDefault key) =
      metadataColumns (db.assetOrDefault key) := by
  cases stored : db.asset.lookup key with
  | none =>
    rw [Db.assetOrDefault, stored] at indexed
    cases indexed
  | some row =>
    rw [Db.assetOrDefault, stored, Option.getD_some] at linked
    rw [upsertAssetsMintAccountColumns, ofKey]
    refine Db.upsertAsset_frame_stored metadataColumns db key _ _ stored ?_
    simp only [AssetMintAccountColumns.onConflict, AssetMintAccountColumns.model, ofKey, ← linked]
    rfl

end Upserts

end DasIndexer
