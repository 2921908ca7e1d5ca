import DasIndexer.Accounts.Saves
import DasIndexer.Bubblegum.Cells
import DasIndexer.Mainnet

namespace DasIndexer
open Sql Latest Bubblegum

/-- The columns of `asset` that decompression takes over. -/
def decompressedColumns (row : AssetRow) :=
  (row.treeId, row.nonce, row.seq, row.leaf, row.dataHash, row.creatorHash, row.compressed, row.compressible,
    row.royaltyTargetType, row.royaltyTarget, row.royaltyAmount, row.ownerType, row.specificationVersion,
    row.specificationAssetClass, row.assetData)

/-- A row of `asset_data` apart from the downloaded metadata. -/
def AssetDataRow.onChain (row : AssetDataRow) : AssetDataRow := { row with metadata := .null }

/-- What a burn makes of a row. -/
def AssetRow.burn (row : AssetRow) : AssetRow := { row with burnt := true }.updateSlotUpdated

namespace Bubblegum
variable [Programs] {id : Pubkey}

section Frozen
variable {db : Db}

/-- No statement but that of a burn updates a row with the sequence number 0. -/
theorem Statement.filter_frozen {s : Statement} {excluded row : AssetRow} {clause : OnConflict AssetRow}
    (upserted : s.assetUpsert = some (id, excluded, clause)) (frozen : row.seq = some 0) :
    s = .burnt id ∨ (clause.filter row excluded).holds = false := by
  cases s with
  | burnt id' =>
    cases upserted
    exact Or.inl rfl
  | leafInfo => cases upserted; right; simp [LeafInfo.onConflict, frozen]
  | ownerInfo => cases upserted; right; simp [OwnerInfo.onConflict, frozen]
  | compressionInfo => cases upserted; right; simp [CompressionInfo.onConflict, frozen]
  | assetSeq => cases upserted; right; simp [seqOnConflict, frozen]
  | baseInfo => cases upserted; right; simp [BaseInfo.onConflict, frozen]
  | _ => cases upserted

theorem Statement.exec_asset_frozen {row : AssetRow} (stored : db.asset.lookup id = some row)
    (frozen : row.seq = some 0) (s : Statement) :
    (s.exec db).asset.lookup id = some row ∨ s = .burnt id ∧ (s.exec db).asset.lookup id = some row.burn := by
  rw [exec_asset]
  cases upserted : s.assetUpsert with
  | none => exact Or.inl stored
  | some upsert =>
    obtain ⟨id', excluded, clause⟩ := upsert
    dsimp only
    rw [Db.upsertAsset_lookup]
    by_cases same : id = id'
    · subst same
      rw [if_pos rfl, stored, throughTrigger_resolve_some]
      rcases Statement.filter_frozen upserted frozen with rfl | refused
      · cases upserted
        exact Or.inr ⟨rfl, rfl⟩
      · rw [refused]
        exact Or.inl rfl
    · rw [if_neg same]
      exact Or.inl stored

theorem Statement.exec_assetData_frozen {data : AssetDataRow} (stored : db.assetData.lookup id = some data)
    (frozen : data.baseInfoSeq = some 0) (s : Statement) : (s.exec db).assetData.lookup id = some data := by
  cases written : s.dataWrite id with
  | none => exact (Statement.exec_assetData_skip db written).trans stored
  | some info =>
    rw [Statement.dataWrite_eq written]
    refine (Table.lookup_upsert_self _ _ _ _).trans ?_
    rw [stored, OnConflict.resolve, if_neg]
    simp [AssetDataInfo.onConflict, frozen]

/-- A decompressed asset is never touched again, except by a burn. -/
theorem ingest_asset_frozen {row : AssetRow} (stored : db.asset.lookup id = some row) (frozen : row.seq = some 0)
    (deliveries : List Event) :
    (ingest db deliveries).asset.lookup id = some row ∨
      (∃ event ∈ deliveries, Statement.burnt id ∈ event.statements) ∧
        (ingest db deliveries).asset.lookup id = some row.burn := by
  have keep : ∀ (db : Db) (s : Statement), s ∈ deliveries.flatMap Event.statements →
      (db.asset.lookup id = some row ∨
        Statement.burnt id ∈ deliveries.flatMap Event.statements ∧ db.asset.lookup id = some row.burn) →
      ((s.exec db).asset.lookup id = some row ∨
        Statement.burnt id ∈ deliveries.flatMap Event.statements ∧ (s.exec db).asset.lookup id = some row.burn) := by
    rintro db s member (untouched | ⟨burns, burnt⟩)
    · rcases Statement.exec_asset_frozen untouched frozen s with same | ⟨rfl, burnt⟩
      · exact Or.inl same
      · exact Or.inr ⟨member, burnt⟩
    · rcases Statement.exec_asset_frozen burnt frozen s with same | ⟨-, again⟩
      · exact Or.inr ⟨burns, same⟩
      · exact Or.inr ⟨burns, again⟩
  rw [ingest_eq_statements, ← List.mem_flatMap]
  exact foldl_invariant _ keep (deliveries.flatMap Event.statements) (fun _ member => member) (Or.inl stored)

theorem ingest_assetData_frozen {data : AssetDataRow} (stored : db.assetData.lookup id = some data)
    (frozen : data.baseInfoSeq = some 0) (deliveries : List Event) :
    (ingest db deliveries).assetData.lookup id = some data := by
  have keep : ∀ (db : Db) (s : Statement), True → db.assetData.lookup id = some data →
      (s.exec db).assetData.lookup id = some data :=
    fun _ s _ held => Statement.exec_assetData_frozen held frozen s
  rw [ingest_eq_statements]
  exact foldl_invariant (fun db : Db => db.assetData.lookup id = some data) keep _ (fun _ _ => trivial) stored

end Frozen

/-- Data from Bubblegum is dated by the slot of its event. -/
theorem ingest_assetData_older {db : Db} {slot : Nat}
    (start : ∀ data, db.assetData.lookup id = some data → data.slotUpdated < slot) {deliveries : List Event}
    (older : ∀ event ∈ deliveries, event.bundle.slot < slot) :
    ∀ data, (ingest db deliveries).assetData.lookup id = some data → data.slotUpdated < slot := by
  have keep : ∀ (db : Db) (s : Statement), s ∈ deliveries.flatMap Event.statements →
      (∀ data, db.assetData.lookup id = some data → data.slotUpdated < slot) →
      ∀ data, (s.exec db).assetData.lookup id = some data → data.slotUpdated < slot := by
    intro db s member held data stored
    obtain ⟨event, inDeliveries, inEvent⟩ := List.mem_flatMap.mp member
    cases written : s.dataWrite id with
    | none =>
      rw [Statement.exec_assetData_skip db written] at stored
      exact held data stored
    | some info =>
      have same := Statement.dataWrite_eq written
      subst same
      have dated : info.slotUpdated < slot := by
        have ofEvent : Statement.OfEvent event (.assetData id info) :=
          Event.ofEvent_of_mem inEvent nofun nofun nofun
        rw [ofEvent.2.1]
        exact older event inDeliveries
      rw [show (Statement.assetData id info).exec db = upsertAssetData db id info from rfl, upsertAssetData,
        Table.lookup_upsert_self] at stored
      cases Option.some.inj stored
      cases previous : db.assetData.lookup id with
      | none => exact dated
      | some row =>
        rw [OnConflict.resolve]
        split
        · exact dated
        · exact held row previous
  rw [ingest_eq_statements]
  exact foldl_invariant (fun db : Db => ∀ data, db.assetData.lookup id = some data → data.slotUpdated < slot) keep
    (deliveries.flatMap Event.statements) (fun _ member => member) start

theorem ingest_slotUpdatedMetadataAccount (db : Db) (deliveries : List Event) :
    ((ingest db deliveries).assetOrDefault id).slotUpdatedMetadataAccount =
      (db.assetOrDefault id).slotUpdatedMetadataAccount := by
  rw [ingest_eq_statements]
  exact congrArg Prod.fst (run_otherColumns id (deliveries.flatMap Event.statements) db)

theorem ingest_tokens (db : Db) (deliveries : List Event) : (ingest db deliveries).tokens = db.tokens := by
  have keep : ∀ (db' : Db) (s : Statement), True → db'.tokens = db.tokens → (s.exec db').tokens = db.tokens := by
    intro db' s _ same
    cases s <;> exact same
  rw [ingest_eq_statements]
  exact foldl_invariant (fun db' : Db => db'.tokens = db.tokens) keep _ (fun _ _ => trivial) rfl

end Bubblegum

namespace TokenMetadata
variable [Programs] {db : Db} {metadata : Metadata} {slot : Nat}

/-- The first save of a metadata account decompresses its asset. -/
theorem saveV1Asset_decompresses
    (unsaved : (db.assetOrDefault metadata.mint).slotUpdatedMetadataAccount = none) :
    ∃ row, (saveV1Asset db metadata slot).1.asset.lookup metadata.mint = some row ∧
      metadataColumns row = metadataColumns (metadata.columns (supplyOf db metadata.mint) slot).model := by
  have columns := @saveV1Asset_metadataColumns _ metadata.mint db ⟨metadata, rfl, slot⟩ none _ rfl (fun _ => unsaved)
    (fun x impossible => absurd impossible (Option.some_ne_none x).symm)
  rw [newer, Db.assetOrDefault] at columns
  cases stored : (saveV1Asset db metadata slot).1.asset.lookup metadata.mint with
  | none =>
    rw [stored] at columns
    cases congrArg (fun columns => columns.2.1) columns
  | some row =>
    rw [stored, Option.getD_some] at columns
    exact ⟨row, rfl, columns⟩

theorem saveV1Asset_newData
    (older : ∀ data, db.assetData.lookup metadata.mint = some data → data.slotUpdated < slot) :
    ∃ data, (saveV1Asset db metadata slot).1.assetData.lookup metadata.mint = some data ∧
      data.onChain = (metadata.assetDataRow slot).onChain := by
  rw [(saveV1Asset_saves db metadata slot).assetData, V1Asset.saveAssetData, Table.lookup_upsert_self]
  refine ⟨_, rfl, ?_⟩
  cases stored : db.assetData.lookup metadata.mint with
  | none => rfl
  | some data =>
    have newer : (V1Asset.assetDataOnConflict.filter data (metadata.assetDataRow slot)).holds = true := by
      simpa [V1Asset.assetDataOnConflict, Metadata.assetDataRow] using older data stored
    rw [OnConflict.resolve, Metadata.content, if_pos newer]
    rfl

end TokenMetadata

/-- Wherever the save of the metadata account falls among the Bubblegum events
of an asset, its columns and its data win, and a decompressed asset is only ever
changed by a burn. -/
theorem decompression_wins [Programs] :
    (∀ (db : Db) (metadata : TokenMetadata.Metadata) (slot : Nat) (before after : List Event),
      (db.assetOrDefault metadata.mint).slotUpdatedMetadataAccount = none →
      (∀ data, db.assetData.lookup metadata.mint = some data → data.slotUpdated < slot) →
      (∀ event ∈ before ++ after, event.bundle.slot < slot) →
      let final := ingest (TokenMetadata.saveV1Asset (ingest db before) metadata slot).1 after
      (final.assetData.lookup metadata.mint).map AssetDataRow.onChain =
          some (metadata.assetDataRow slot).onChain ∧
        decompressedColumns (final.assetOrDefault metadata.mint) =
          decompressedColumns (metadata.columns (TokenMetadata.supplyOf db metadata.mint) slot).model) ∧
    (∀ (db : Db) (id : Pubkey) (row : AssetRow) (data : AssetDataRow) (deliveries : List Event),
      db.asset.lookup id = some row → row.seq = some 0 →
      db.assetData.lookup id = some data → data.baseInfoSeq = some 0 →
      ((ingest db deliveries).asset.lookup id = some row ∨
        (∃ event ∈ deliveries, event.handler = some .burn ∧ Statement.burnt id ∈ event.statements) ∧
          (ingest db deliveries).asset.lookup id = some row.burn) ∧
      (ingest db deliveries).assetData.lookup id = some data) := by
  constructor
  · intro db metadata slot before after unsaved older slots
    have saved : ((ingest db before).assetOrDefault metadata.mint).slotUpdatedMetadataAccount = none :=
      (ingest_slotUpdatedMetadataAccount db before).trans unsaved
    obtain ⟨row, storedRow, columns⟩ := @TokenMetadata.saveV1Asset_decompresses _ _ _ slot saved
    obtain ⟨data, storedData, onChain⟩ := TokenMetadata.saveV1Asset_newData (ingest_assetData_older older
      (fun event member => slots event (List.mem_append_left after member)))
    rw [TokenMetadata.supplyOf, ingest_tokens] at columns
    have frozenRow : row.seq = some 0 := congrArg (fun columns => columns.2.2.2.1) columns
    have frozenData : data.baseInfoSeq = some 0 := congrArg AssetDataRow.baseInfoSeq onChain
    constructor
    · rw [ingest_assetData_frozen storedData frozenData after, Option.map_some, onChain]
    · have taken : decompressedColumns row =
          decompressedColumns (metadata.columns (TokenMetadata.supplyOf db metadata.mint) slot).model := by
        simp only [metadataColumns, classColumns, metadataAccountColumns, Prod.mk.injEq] at columns
        simp only [decompressedColumns, columns, TokenMetadata.supplyOf]
      rw [Db.assetOrDefault]
      rcases ingest_asset_frozen storedRow frozenRow after with same | ⟨-, burnt⟩
      · rw [same]
        exact taken
      · rw [burnt]
        exact taken
  · intro db id row data deliveries storedRow frozenRow storedData frozenData
    refine ⟨?_, ingest_assetData_frozen storedData frozenData deliveries⟩
    rcases ingest_asset_frozen storedRow frozenRow deliveries with same | ⟨⟨event, member, burns⟩, burnt⟩
    · exact Or.inl same
    · have handler : event.handler = some .burn :=
        (Event.ofEvent_of_mem burns (fun other => by cases other) (fun other => by cases other)
            (fun other => by cases other) :
          Statement.OfEvent event (.burnt id))
      exact Or.inr ⟨⟨event, member, handler, burns⟩, burnt⟩

/-- The metadata account of an asset that was decompressed. -/
def TokenMetadata.Example.nft : Metadata := metadata 600 true (some .nonFungible) none none

theorem decompression_between_mint_and_transfer :
    decompressedColumns ((ingest (TokenMetadata.saveV1Asset
        (ingest {} [Bubblegum.Example.mint 1 5 (.fill 2) Bubblegum.Example.oneCreator none])
        TokenMetadata.Example.nft 10).1 [Bubblegum.Example.transfer 2 6 (.fill 4)]).assetOrDefault
          TokenMetadata.Example.nft.mint) =
      decompressedColumns (TokenMetadata.Example.nft.columns (TokenMetadata.supplyOf {} TokenMetadata.Example.nft.mint)
        10).model ∧
    (ingest
        { asset := AList.insert Bubblegum.Example.asset { seq := some 0, royaltyAmount := 600 } ∅
          assetData := AList.insert Bubblegum.Example.asset (TokenMetadata.Example.nft.assetDataRow 10) ∅ }
        [Bubblegum.Example.transfer 2 6 (.fill 4)]).assetData.lookup Bubblegum.Example.asset =
      some (TokenMetadata.Example.nft.assetDataRow 10) := by
  constructor
  · refine (decompression_wins.1 {} TokenMetadata.Example.nft 10
      [Bubblegum.Example.mint 1 5 (.fill 2) Bubblegum.Example.oneCreator none]
      [Bubblegum.Example.transfer 2 6 (.fill 4)] rfl nofun ?_).2
    simp [Bubblegum.Example.mint, Bubblegum.Example.transfer]
  · exact (decompression_wins.2 _ Bubblegum.Example.asset _ _ _ (AList.lookup_insert _) rfl
      (AList.lookup_insert _) rfl).2

end DasIndexer
