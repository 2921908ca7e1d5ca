import DasIndexer.Bubblegum.Handlers
import DasIndexer.Lib.VersionedTable

namespace DasIndexer.Bubblegum
open Sql Latest

/-- The columns written by `upsert_asset_with_leaf_info`. -/
def leafColumns (row : AssetRow) :=
  (row.nonce, row.treeId, row.leaf, row.dataHash, row.creatorHash, row.leafSeq, row.frozen,
    row.collectionHash, row.assetDataHash, row.bubblegumFlags, row.nonTransferable)

def ownerColumns (row : AssetRow) := (row.owner, row.delegate, row.ownerDelegateSeq)

def compressionColumns (row : AssetRow) := (row.compressed, row.compressible, row.supply, row.supplyMint)

def baseColumns (row : AssetRow) :=
  (row.ownerType, row.specificationVersion, row.specificationAssetClass, row.royaltyTargetType,
    row.royaltyTarget, row.royaltyAmount, row.assetData, row.slotUpdatedCnftTransaction, row.baseInfoSeq)

/-- The columns that no Bubblegum statement sets. -/
def otherColumns (row : AssetRow) :=
  (row.slotUpdatedMetadataAccount, row.slotUpdatedMintAccount, row.slotUpdatedTokenAccount,
    row.mintExtensions, row.mplCorePlugins, row.mplCoreUnknownPlugins, row.mplCoreCollectionNumMinted,
    row.mplCoreCollectionCurrentSize, row.mplCorePluginsJsonVersion, row.mplCoreExternalPlugins,
    row.mplCoreUnknownExternalPlugins)

/-- The columns together make up the row, up to the trigger's `slot_updated`. -/
theorem asset_ext {row other : AssetRow} (leaf : leafColumns row = leafColumns other)
    (owner : ownerColumns row = ownerColumns other)
    (compression : compressionColumns row = compressionColumns other)
    (base : baseColumns row = baseColumns other) (rest : otherColumns row = otherColumns other)
    (seq : row.seq = other.seq) (burnt : row.burnt = other.burnt) :
    { row with slotUpdated := none } = { other with slotUpdated := none } := by
  simp only [leafColumns, ownerColumns, compressionColumns, baseColumns, otherColumns,
    Prod.mk.injEq] at leaf owner compression base rest
  ext1 <;> simp only [leaf, owner, compression, base, rest, seq, burnt]

namespace Statement

def leafWrite (key : Pubkey) : Statement → Option LeafInfo
  | .leafInfo id info => if key = id then some info else none
  | _ => none

def ownerWrite (key : Pubkey) : Statement → Option OwnerInfo
  | .ownerInfo id info => if key = id then some info else none
  | _ => none

def compressionWrite (key : Pubkey) : Statement → Option CompressionInfo
  | .compressionInfo id info => if key = id then some info else none
  | _ => none

def baseWrite (key : Pubkey) : Statement → Option BaseInfo
  | .baseInfo id info => if key = id then some info else none
  | _ => none

def seqWrite (key : Pubkey) : Statement → Option Nat
  | .assetSeq id seq => if key = id then some seq else none
  | _ => none

def burntWrite (key : Pubkey) : Statement → Option Unit
  | .burnt id => if key = id then some () else none
  | _ => none

section Inversion
variable {key : Pubkey} {s : Statement}

theorem leafWrite_eq {info : LeafInfo} (written : s.leafWrite key = some info) : s = .leafInfo key info := by
  cases s <;> simp_all [leafWrite]

theorem ownerWrite_eq {info : OwnerInfo} (written : s.ownerWrite key = some info) :
    s = .ownerInfo key info := by
  cases s <;> simp_all [ownerWrite]

theorem compressionWrite_eq {info : CompressionInfo} (written : s.compressionWrite key = some info) :
    s = .compressionInfo key info := by
  cases s <;> simp_all [compressionWrite]

theorem baseWrite_eq {info : BaseInfo} (written : s.baseWrite key = some info) : s = .baseInfo key info := by
  cases s <;> simp_all [baseWrite]

theorem seqWrite_eq {seq : Nat} (written : s.seqWrite key = some seq) : s = .assetSeq key seq := by
  cases s <;> simp_all [seqWrite]

theorem burntWrite_eq {u : Unit} (written : s.burntWrite key = some u) : s = .burnt key := by
  cases s <;> simp_all [burntWrite]

end Inversion

section Effects
variable [Programs]

/-- The asset whose row a statement of the table `asset` writes, the row it
proposes and its conflict clause. -/
def assetUpsert : Statement → Option (Pubkey × AssetRow × OnConflict AssetRow)
  | .leafInfo id info => some (id, info.model, info.onConflict)
  | .ownerInfo id info => some (id, info.model, OwnerInfo.onConflict)
  | .compressionInfo id info => some (id, info.model, CompressionInfo.onConflict)
  | .assetSeq id seq => some (id, seqModel seq, seqOnConflict)
  | .baseInfo id info => some (id, info.model id, BaseInfo.onConflict)
  | .burnt id => some (id, { burnt := true }, burntOnConflict)
  | _ => none

theorem exec_asset (db : Db) (s : Statement) :
    (s.exec db).asset = match s.assetUpsert with
      | some (id, row, clause) => (db.upsertAsset id row clause).asset
      | none => db.asset := by
  cases s <;> rfl

variable (db : Db) (key : Pubkey)

/-- The row of an asset exists once a statement was run on it. -/
theorem exec_asset_isSome (s : Statement) :
    ((s.exec db).asset.lookup key).isSome =
      ((db.asset.lookup key).isSome || s.assetUpsert.any (fun upsert => key = upsert.1)) := by
  rw [exec_asset]
  cases s.assetUpsert with
  | none => simp
  | some upsert =>
    rw [Db.upsertAsset_lookup]
    by_cases same : key = upsert.1
    · simp [same]
    · simp [same]

/-- A statement that does not set some columns leaves them alone. -/
theorem exec_frame {β : Type} (columns : AssetRow → β) (s : Statement)
    (frame : ∀ id row clause, s.assetUpsert = some (id, row, clause) → key = id →
      columns row = columns {} ∧ ∀ stored, columns (clause.set stored row).updateSlotUpdated = columns stored) :
    columns ((s.exec db).assetOrDefault key) = columns (db.assetOrDefault key) := by
  rw [Db.assetOrDefault, exec_asset]
  cases upserted : s.assetUpsert with
  | none => rfl
  | some upsert =>
    obtain ⟨id, row, clause⟩ := upsert
    by_cases same : key = id
    · obtain ⟨insert, update⟩ := frame id row clause upserted same
      exact Db.upsertAsset_frame columns db id key row clause insert update
    · have other := Db.upsertAsset_other db id key row clause same
      simp only [other]
      rfl

theorem exec_leafColumns_skip {s : Statement} (skip : s.leafWrite key = none) :
    leafColumns ((s.exec db).assetOrDefault key) = leafColumns (db.assetOrDefault key) := by
  refine exec_frame db key leafColumns s (fun id row clause upserted same => ?_)
  cases s with
  | leafInfo id' info =>
    cases upserted
    simp [leafWrite, same] at skip
  | _ => cases upserted <;> exact ⟨rfl, fun _ => rfl⟩

theorem exec_ownerColumns_skip {s : Statement} (skip : s.ownerWrite key = none) :
    ownerColumns ((s.exec db).assetOrDefault key) = ownerColumns (db.assetOrDefault key) := by
  refine exec_frame db key ownerColumns s (fun id row clause upserted same => ?_)
  cases s with
  | ownerInfo id' info =>
    cases upserted
    simp [ownerWrite, same] at skip
  | _ => cases upserted <;> exact ⟨rfl, fun _ => rfl⟩

theorem exec_compressionColumns_skip {s : Statement} (skip : s.compressionWrite key = none) :
    compressionColumns ((s.exec db).assetOrDefault key) = compressionColumns (db.assetOrDefault key) := by
  refine exec_frame db key compressionColumns s (fun id row clause upserted same => ?_)
  cases s with
  | compressionInfo id' info =>
    cases upserted
    simp [compressionWrite, same] at skip
  | _ => cases upserted <;> exact ⟨rfl, fun _ => rfl⟩

theorem exec_baseColumns_skip {s : Statement} (skip : s.baseWrite key = none) :
    baseColumns ((s.exec db).assetOrDefault key) = baseColumns (db.assetOrDefault key) := by
  refine exec_frame db key baseColumns s (fun id row clause upserted same => ?_)
  cases s with
  | baseInfo id' info =>
    cases upserted
    simp [baseWrite, same] at skip
  | _ => cases upserted <;> exact ⟨rfl, fun _ => rfl⟩

theorem exec_seq_skip {s : Statement} (skip : s.seqWrite key = none) :
    ((s.exec db).assetOrDefault key).seq = (db.assetOrDefault key).seq := by
  refine exec_frame db key AssetRow.seq s (fun id row clause upserted same => ?_)
  cases s with
  | assetSeq id' seq =>
    cases upserted
    simp [seqWrite, same] at skip
  | _ => cases upserted <;> exact ⟨rfl, fun _ => rfl⟩

theorem exec_burnt_skip {s : Statement} (skip : s.burntWrite key = none) :
    ((s.exec db).assetOrDefault key).burnt = (db.assetOrDefault key).burnt := by
  refine exec_frame db key AssetRow.burnt s (fun id row clause upserted same => ?_)
  cases s with
  | burnt id' =>
    cases upserted
    simp [burntWrite, same] at skip
  | _ => cases upserted <;> exact ⟨rfl, fun _ => rfl⟩

theorem exec_otherColumns (s : Statement) :
    otherColumns ((s.exec db).assetOrDefault key) = otherColumns (db.assetOrDefault key) := by
  refine exec_frame db key otherColumns s (fun id row clause upserted same => ?_)
  cases s <;> cases upserted <;> exact ⟨rfl, fun _ => rfl⟩

omit [Programs] in
/-- The same on an asset that was not decompressed, from the column defaults. -/
theorem upsertAsset_newer {W β : Type} {columns : AssetRow → β} {model : W → AssetRow}
    {clause : OnConflict AssetRow} (ver : W → Nat) (version : β → Option Nat) {c : Option W} (w : W)
    (fresh : version (columns {}) = none) (versioned : ∀ x, version (columns (model x)) = some (ver x))
    (filter : ∀ row, row.seq ≠ some 0 →
      (clause.filter row (model w)).holds = (version (columns row)).all (fun v => v ≤ ver w))
    (update : ∀ row, db.asset.lookup key = some row →
      columns (clause.set row (model w)).updateSlotUpdated = columns (model w))
    (alive : (db.assetOrDefault key).seq ≠ some 0)
    (held : columns (db.assetOrDefault key) = columns ((c.map model).getD {})) :
    columns ((db.upsertAsset key (model w) clause).assetOrDefault key) =
      columns (((some (newer ver c w)).map model).getD {}) := by
  refine Db.upsertAsset_newer db key model ver version (columns {}) w fresh versioned ?_ ?_ update ?_
  · intro _ v impossible
    rw [fresh] at impossible
    cases impossible
  · intro row stored
    rw [Db.assetOrDefault, stored, Option.getD_some] at alive
    exact filter row alive
  · rw [held]
    cases c with
    | none => rfl
    | some x => rfl

theorem exec_leafColumns_put {c : Option LeafInfo} {info : LeafInfo}
    (alive : (db.assetOrDefault key).seq ≠ some 0)
    (sameSchema : ∀ x, c = some x → x.flags.isSome = info.flags.isSome)
    (held : leafColumns (db.assetOrDefault key) = leafColumns ((c.map LeafInfo.model).getD {})) :
    leafColumns (((Statement.leafInfo key info).exec db).assetOrDefault key) =
      leafColumns (((some (newer LeafInfo.seq c info)).map LeafInfo.model).getD {}) := by
  refine upsertAsset_newer db key LeafInfo.seq (fun columns => columns.2.2.2.2.2.1) info rfl (fun _ => rfl)
    ?_ ?_ alive held
  · intro row rowAlive
    rw [LeafInfo.onConflict, Truth.holds_and, holds_ne_or_isNull rowAlive, Bool.true_and]
    exact holds_ge_or_isNull info.seq row.leafSeq
  · intro row stored
    cases flags : info.flags with
    | some bits => simp [LeafInfo.onConflict, LeafInfo.updateColumns, leafColumns, flags, AssetRow.updateSlotUpdated]
    | none =>
      have plain : ∀ x, c = some x → x.flags = none := fun x stored => by
        simpa [flags] using sameSchema x stored
      rw [Db.assetOrDefault, stored, Option.getD_some] at held
      simp only [leafColumns, Prod.mk.injEq] at held
      cases c with
      | none => simp [LeafInfo.onConflict, LeafInfo.updateColumns, leafColumns, flags,
        AssetRow.updateSlotUpdated, held, LeafInfo.model]
      | some x => simp [LeafInfo.onConflict, LeafInfo.updateColumns, leafColumns, flags,
        AssetRow.updateSlotUpdated, held, LeafInfo.model, plain x rfl]

theorem exec_ownerColumns_put {c : Option OwnerInfo} {info : OwnerInfo}
    (alive : (db.assetOrDefault key).seq ≠ some 0)
    (held : ownerColumns (db.assetOrDefault key) = ownerColumns ((c.map OwnerInfo.model).getD {})) :
    ownerColumns (((Statement.ownerInfo key info).exec db).assetOrDefault key) =
      ownerColumns (((some (newer OwnerInfo.seq c info)).map OwnerInfo.model).getD {}) := by
  refine upsertAsset_newer db key OwnerInfo.seq (fun columns => columns.2.2) info rfl (fun _ => rfl) ?_
    (fun _ _ => rfl) alive held
  intro row rowAlive
  rw [OwnerInfo.onConflict, Truth.holds_and, holds_ne_or_isNull rowAlive, Bool.true_and]
  exact holds_ge_or_isNull info.seq row.ownerDelegateSeq

theorem exec_baseColumns_put {c : Option BaseInfo} {info : BaseInfo}
    (alive : (db.assetOrDefault key).seq ≠ some 0)
    (held : baseColumns (db.assetOrDefault key) =
      baseColumns ((c.map (fun info => info.model key)).getD {})) :
    baseColumns (((Statement.baseInfo key info).exec db).assetOrDefault key) =
      baseColumns (((some (newer BaseInfo.seq c info)).map (fun info => info.model key)).getD {}) := by
  refine upsertAsset_newer db key BaseInfo.seq (fun columns => columns.2.2.2.2.2.2.2.2) info rfl (fun _ => rfl) ?_
    (fun _ _ => rfl) alive held
  intro row rowAlive
  rw [BaseInfo.onConflict, Truth.holds_and, holds_ne_or_isNull rowAlive, Bool.true_and]
  exact holds_ge_or_isNull info.seq row.baseInfoSeq

theorem exec_seq_put {seq : Nat} (alive : (db.assetOrDefault key).seq ≠ some 0) :
    (((Statement.assetSeq key seq).exec db).assetOrDefault key).seq =
      some (newer id (db.assetOrDefault key).seq seq) := by
  have column : ∀ c : Option Nat, c = ((c.map seqModel).getD {}).seq := fun c => by cases c <;> rfl
  refine upsertAsset_newer db key id (fun column => column) seq rfl (fun _ => rfl) ?_ (fun _ _ => rfl)
    alive (column _)
  intro row rowAlive
  rw [seqOnConflict, seqModel, holds_ne_and_ge_or_isNull]
  cases stored : row.seq with
  | none => rfl
  | some n =>
    have positive : n ≠ 0 := fun zero => rowAlive (by rw [stored, zero])
    simp [positive]

theorem exec_compressionColumns_put (info : CompressionInfo) (alive : (db.assetOrDefault key).seq ≠ some 0) :
    compressionColumns (((Statement.compressionInfo key info).exec db).assetOrDefault key) =
      compressionColumns info.model := by
  refine (Db.upsertAsset_write compressionColumns db key _ _ (fun _ _ => rfl)).trans (if_pos ?_)
  unfold Db.assetOrDefault at alive
  cases stored : db.asset.lookup key with
  | none => rfl
  | some row =>
    rw [stored, Option.getD_some] at alive
    exact holds_ne_or_isNull alive

theorem exec_burnt_put : (((Statement.burnt key).exec db).assetOrDefault key).burnt = true := by
  refine (Db.upsertAsset_write AssetRow.burnt db key _ _ (fun _ _ => rfl)).trans (if_pos ?_)
  cases db.asset.lookup key with
  | none => rfl
  | some row => rfl

end Effects

end Statement

end DasIndexer.Bubblegum
