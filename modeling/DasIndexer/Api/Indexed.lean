import DasIndexer.Api.Related
import DasIndexer.Versions

namespace DasIndexer
open Sql

/-- The asset refers to no row of `asset_data` but its own. -/
def Db.LinkedAt (db : Db) (id : Pubkey) : Prop :=
  ∀ dataId, (db.assetOrDefault id).assetData = some dataId → dataId = id

section Statements
variable {db : Db} {id : Pubkey}

theorem Db.LinkedAt.of_asset {later : Db} (same : later.asset = db.asset) (linked : db.LinkedAt id) :
    later.LinkedAt id := by
  rw [Db.LinkedAt, Db.assetOrDefault_congr same]
  exact linked

/-- Every statement either leaves the link alone or sets it to the asset. -/
theorem Db.LinkedAt.upsert (key : Pubkey) {excluded : AssetRow} {clause : OnConflict AssetRow}
    (insert : ∀ dataId, excluded.assetData = some dataId → dataId = key)
    (update : ∀ row, (clause.set row excluded).assetData = row.assetData ∨
      (clause.set row excluded).assetData = excluded.assetData) (linked : db.LinkedAt id) :
    (db.upsertAsset key excluded clause).LinkedAt id := by
  by_cases same : id = key
  · subst same
    refine db.upsertAsset_invariant id id excluded clause
      (fun row => ∀ dataId, row.assetData = some dataId → dataId = id) (fun _ => insert) ?_ linked
    intro row held dataId link
    rcases update row with kept | set
    · exact held dataId (kept.symm.trans link)
    · exact insert dataId (set.symm.trans link)
  · have other : (db.upsertAsset key excluded clause).assetOrDefault id = db.assetOrDefault id := by
      rw [Db.assetOrDefault, Db.upsertAsset_other db key id excluded clause same, Db.assetOrDefault]
    rw [Db.LinkedAt, other]
    exact linked

theorem Db.LinkedAt.setBurnt (key : Pubkey) (linked : db.LinkedAt id) : (db.setBurnt key).LinkedAt id := by
  have same : ((db.setBurnt key).assetOrDefault id).assetData = (db.assetOrDefault id).assetData := by
    rw [Db.assetOrDefault, Db.assetOrDefault, Db.setBurnt_lookup]
    split
    · cases db.asset.lookup id with
      | none => rfl
      | some row => rfl
    · rfl
  rw [Db.LinkedAt, same]
  exact linked

theorem Db.LinkedAt.statement [Programs] (s : Bubblegum.Statement) (linked : db.LinkedAt id) :
    (s.exec db).LinkedAt id := by
  cases s with
  | clItem | clAudit | backfillItem | collectionInfo | assetData | creators | authority => exact linked.of_asset rfl
  | leafInfo key | ownerInfo key | compressionInfo key | assetSeq key | burnt key =>
    exact linked.upsert key nofun (fun _ => Or.inl rfl)
  | baseInfo key info => exact linked.upsert key (fun _ link => (Option.some.inj link).symm) (fun _ => Or.inr rfl)

theorem Db.LinkedAt.write [Programs] (w : AssetWrite) (linked : db.LinkedAt id) : (w.exec db).LinkedAt id := by
  cases w with
  | tokenAccount columns => exact linked.upsert columns.mint nofun (fun _ => Or.inl rfl)
  | mintAccount columns =>
    exact linked.upsert columns.mint (fun _ link => (Option.some.inj link).symm) (fun _ => Or.inr rfl)
  | metadataAccount columns own =>
    exact linked.upsert columns.mint (fun _ link => (Option.some.inj (own.symm.trans link)).symm) (fun _ => Or.inr rfl)
  | metadataCols key | burnV1Asset key => exact linked.upsert key nofun (fun _ => Or.inl rfl)
  | setBurnt key => exact linked.setBurnt key
  | bubblegum s => exact linked.statement s

theorem Db.LinkedAt.operation [Programs] (operation : Operation) (linked : db.LinkedAt id) :
    (operation.run db).LinkedAt id :=
  (operation.run_written db).invariant (fun db => Db.LinkedAt db id) (fun _ _ same held => held.of_asset same)
    (fun _ w _ held => held.write w) linked

end Statements

/-- In every state that indexing reaches, assets refer to their own data. -/
theorem indexed_linkedToOwn [Programs] (operations : List Operation) :
    LinkedToOwn (operations.foldl Operation.run {}) := by
  intro id row dataId stored link
  have start : Db.LinkedAt {} id := nofun
  have linked := Latest.foldl_invariant (fun db => Db.LinkedAt db id) (fun _ operation _ held => held.operation operation)
    operations (fun _ _ => trivial) start
  refine linked dataId ?_
  rwa [Db.assetOrDefault, stored, Option.getD_some]

end DasIndexer
