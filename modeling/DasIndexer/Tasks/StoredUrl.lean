import DasIndexer.Accounts.Saves
import DasIndexer.Bubblegum.Handlers
import DasIndexer.Mainnet
import Mathlib.Data.List.TakeWhile

namespace DasIndexer
open Sql

/-- The call upserts a row with this address into `asset_data`, and updates the
address of a row that is already there. -/
def WritesUrl (db after : Db) (id : Pubkey) (url : String) : Prop :=
  ∃ (row : AssetDataRow) (clause : OnConflict AssetDataRow),
    after.assetData = Table.upsert db.assetData id row clause ∧ row.metadataUrl = url ∧
      ∀ stored, (clause.set stored row).metadataUrl = url

/-- Apart from its NULs, the string neither starts nor ends with whitespace. -/
def Bare (uri : String) : Prop :=
  (∀ c ∈ (removeNul uri).toList.head?, isWhitespace c = false) ∧
    ∀ c ∈ (removeNul uri).toList.getLast?, isWhitespace c = false

instance (uri : String) : Decidable (Bare uri) := inferInstanceAs (Decidable (_ ∧ _))

section Strings

theorem dropWhile_eq_self_iff_head {p : Char → Bool} (chars : List Char) :
    chars.dropWhile p = chars ↔ ∀ c ∈ chars.head?, p c = false := by
  rw [List.dropWhile_eq_self_iff]
  cases chars with
  | nil => simp
  | cons c rest => simp

/-- Nothing is trimmed exactly when there is no whitespace at either end. -/
theorem trim_eq_self_iff (s : String) :
    trim s = s ↔ (∀ c ∈ s.toList.head?, isWhitespace c = false) ∧ ∀ c ∈ s.toList.getLast?, isWhitespace c = false := by
  have chars : trim s = s ↔
      ((s.toList.dropWhile isWhitespace).reverse.dropWhile isWhitespace).reverse = s.toList := by
    rw [trim, ← String.toList_inj, String.toList_ofList]
  have ends : s.toList.reverse.head? = s.toList.getLast? := List.head?_reverse
  rw [chars, ← dropWhile_eq_self_iff_head, ← ends, ← dropWhile_eq_self_iff_head]
  constructor
  · intro same
    have long : s.toList.length ≤ (s.toList.dropWhile isWhitespace).length := by
      have shorter := List.Sublist.length_le (List.dropWhile_sublist isWhitespace
        (l := (s.toList.dropWhile isWhitespace).reverse))
      have total := congrArg List.length same
      rw [List.length_reverse] at shorter total
      omega
    have front : s.toList.dropWhile isWhitespace = s.toList :=
      (List.dropWhile_sublist isWhitespace).eq_of_length_le long
    rw [front] at same
    exact ⟨front, List.reverse_injective (same.trans (List.reverse_reverse _).symm)⟩
  · intro both
    rw [both.1, both.2, List.reverse_reverse]

theorem removeNul_of_sublist {s other : String} (sub : other.toList.Sublist (removeNul s).toList) :
    removeNul other = other := by
  rw [removeNul, ← String.toList_inj, String.toList_ofList, List.filter_eq_self]
  intro c member
  have kept := sub.subset member
  rw [removeNul, String.toList_ofList] at kept
  exact (List.mem_filter.mp kept).2

theorem trim_sublist (s : String) : (trim s).toList.Sublist s.toList := by
  rw [trim, String.toList_ofList]
  have back := List.reverse_sublist.mpr
    (List.dropWhile_sublist isWhitespace (l := (s.toList.dropWhile isWhitespace).reverse))
  rw [List.reverse_reverse] at back
  exact back.trans (List.dropWhile_sublist isWhitespace)

/-- A task built from a string without NULs is for that string exactly when it
is bare. -/
theorem new_uri_eq_iff (id : Pubkey) (uri : String) :
    (DownloadMetadataInfo.new id (removeNul uri)).uri = removeNul uri ↔ Bare uri := by
  show removeNul (trim (removeNul uri)) = removeNul uri ↔ Bare uri
  rw [removeNul_of_sublist (trim_sublist _), trim_eq_self_iff]
  rfl

end Strings

section Paths
variable [Programs] {db : Db}

/-- All statements but one leave `asset_data` alone. -/
theorem exec_assetData (s : Bubblegum.Statement) (other : ∀ id info, s ≠ .assetData id info) :
    (s.exec db).assetData = db.assetData := by
  cases s with
  | assetData id info => exact absurd rfl (other id info)
  | _ => rfl

theorem foldl_exec_assetData (statements : List Bubblegum.Statement)
    (others : ∀ s ∈ statements, ∀ id info, s ≠ .assetData id info) :
    (statements.foldl Bubblegum.Statement.exec db).assetData = db.assetData := by
  induction statements generalizing db with
  | nil => rfl
  | cons s rest ih =>
    rw [List.foldl_cons, ih (fun later member => others later (List.mem_cons_of_mem _ member))]
    exact exec_assetData s (others s List.mem_cons_self)

omit [Programs] in
theorem saveChangelogEvent_other (cl : Bubblegum.ChangeLogEvent) (bundle : Bubblegum.InstructionBundle)
    (instruction : String) :
    ∀ s ∈ Bubblegum.saveChangelogEvent cl bundle instruction, ∀ id info, s ≠ .assetData id info := by
  intro s member id info same
  rw [Bubblegum.saveChangelogEvent, Bubblegum.insertChangeLog] at member
  simp [same] at member

/-- A plan whose transaction starts with the row of `asset_data` and has no other
such statement. -/
theorem plan_writesUrl {cl : Bubblegum.ChangeLogEvent} {bundle : Bubblegum.InstructionBundle} {instruction : String}
    {id : Pubkey} {info : Bubblegum.AssetDataInfo} {rest : List Bubblegum.Statement}
    (others : ∀ s ∈ rest, ∀ id info, s ≠ .assetData id info) :
    WritesUrl db ((Bubblegum.saveChangelogEvent cl bundle instruction ++ (.assetData id info :: rest)).foldl
      Bubblegum.Statement.exec db) id info.metadataUrl := by
  refine ⟨info.model, Bubblegum.AssetDataInfo.onConflict, ?_, rfl, fun _ => rfl⟩
  rw [List.foldl_append, List.foldl_cons, foldl_exec_assetData rest others]
  show Table.upsert _ id info.model Bubblegum.AssetDataInfo.onConflict = _
  rw [foldl_exec_assetData _ (saveChangelogEvent_other cl bundle instruction)]

omit [Programs] in
theorem uriResult_some {id : Pubkey} {uri : String} {task : DownloadMetadataInfo}
    (returned : Bubblegum.uriResult id uri = some task) : task = .new id uri := by
  unfold Bubblegum.uriResult at returned
  split at returned
  · cases returned
  · exact (Option.some.inj returned).symm

theorem mint_url {parsed : Bubblegum.BubblegumInstruction} {bundle : Bubblegum.InstructionBundle} {instruction : String}
    {metadata : Bubblegum.MetadataArgs} {authority treeId : Pubkey} {body : List Bubblegum.Statement}
    {task : DownloadMetadataInfo} (payload : parsed.payload = some (.mint metadata authority treeId))
    (returned : (Bubblegum.mint parsed bundle instruction).inTransaction = .ok (body, some task)) :
    ∃ url, WritesUrl db ((Bubblegum.mint parsed bundle instruction).statements.foldl Bubblegum.Statement.exec db)
      task.assetDataId url ∧ (task.uri = url ↔ Bare metadata.uri) := by
  unfold Bubblegum.mint at returned ⊢
  cases leaf : parsed.leafUpdate with
  | none =>
    simp only [leaf] at returned
    cases returned
  | some le =>
    cases tree : parsed.treeUpdate with
    | none =>
      simp only [leaf, tree] at returned
      cases returned
    | some cl =>
      simp only [leaf, tree, payload, Except.ok.injEq, Prod.mk.injEq] at returned ⊢
      have isTask := uriResult_some returned.2
      subst isTask
      refine ⟨removeNul metadata.uri, ?_, new_uri_eq_iff _ _⟩
      refine plan_writesUrl (fun s member id info same => ?_)
      rw [same] at member
      simp at member

theorem updateMetadata_url {parsed : Bubblegum.BubblegumInstruction} {bundle : Bubblegum.InstructionBundle}
    {instruction : String} {current : Bubblegum.MetadataArgs} {update : Bubblegum.UpdateArgs} {treeId : Pubkey}
    {body : List Bubblegum.Statement} {task : DownloadMetadataInfo}
    (payload : parsed.payload = some (.updateMetadata current update treeId))
    (returned : (Bubblegum.updateMetadata parsed bundle instruction).inTransaction = .ok (body, some task)) :
    ∃ url, WritesUrl db
      ((Bubblegum.updateMetadata parsed bundle instruction).statements.foldl Bubblegum.Statement.exec db)
      task.assetDataId url ∧ (task.uri = url ↔ Bare (update.uri.getD current.uri)) := by
  unfold Bubblegum.updateMetadata at returned ⊢
  cases leaf : parsed.leafUpdate with
  | none =>
    simp only [leaf] at returned
    cases returned
  | some le =>
    cases tree : parsed.treeUpdate with
    | none =>
      simp only [leaf, tree] at returned
      cases returned
    | some cl =>
      simp only [leaf, tree, payload, Except.ok.injEq, Prod.mk.injEq] at returned ⊢
      have isTask := uriResult_some returned.2
      subst isTask
      refine ⟨removeNul (update.uri.getD current.uri), ?_, new_uri_eq_iff _ _⟩
      refine plan_writesUrl (fun s member id info same => ?_)
      rw [same] at member
      simp at member

theorem tokenMetadata_url {metadata : TokenMetadata.Metadata} {slot : Nat} {task : DownloadMetadataInfo}
    (returned : (TokenMetadata.saveV1Asset db metadata slot).2 = some task) :
    ∃ url, WritesUrl db (TokenMetadata.saveV1Asset db metadata slot).1 task.assetDataId url ∧
      (task.uri = url ↔ Bare (trim metadata.uri)) := by
  have isTask : task = .new metadata.mint metadata.cleanUri := by
    simp only [TokenMetadata.saveV1Asset] at returned
    split at returned
    · cases returned
    · exact (Option.some.inj returned).symm
  subst isTask
  refine ⟨metadata.cleanUri, ⟨metadata.assetDataRow slot, V1Asset.assetDataOnConflict, ?_, rfl, fun _ => rfl⟩,
    new_uri_eq_iff _ _⟩
  exact (TokenMetadata.saveV1Asset_saves db metadata slot).assetData

theorem mplCore_url {id : Pubkey} {data : MplCore.MplCoreAccountData} {asset : MplCore.IndexableAsset} {slot : Nat}
    {task : DownloadMetadataInfo} (indexable : data.indexable = some asset)
    (returned : (MplCore.saveV1Asset db id data slot).2 = .ok (some task)) :
    ∃ url, WritesUrl db (MplCore.saveV1Asset db id data slot).1 task.assetDataId url ∧
      (task.uri = url ↔ Bare (trim asset.uri)) := by
  have isTask : task = .new id asset.cleanUri := by
    simp only [MplCore.saveV1Asset, indexable, Except.ok.injEq] at returned
    split at returned
    · cases returned
    · exact (Option.some.inj returned).symm
  subst isTask
  refine ⟨asset.cleanUri, ⟨asset.assetDataRow slot, V1Asset.assetDataOnConflict, ?_, rfl, fun _ => rfl⟩,
    new_uri_eq_iff _ _⟩
  exact (MplCore.saveV1Asset_saves db id slot indexable).assetData

omit [Programs] in
theorem tokenExtensions_url {metadata : ShadowMetadata} {key : Pubkey} {slot : Nat} {task : DownloadMetadataInfo}
    (returned : (TokenExtensions.upsertAssetData db metadata key slot).2 = some task) :
    WritesUrl db (TokenExtensions.upsertAssetData db metadata key slot).1 task.assetDataId task.uri := by
  simp only [TokenExtensions.upsertAssetData] at returned
  split at returned
  · cases returned
  · cases returned
    exact ⟨_, TokenExtensions.assetDataOnConflict, rfl, rfl, fun _ => rfl⟩

/-- A download task is for the address that its path writes exactly when, apart
from NULs, the on-chain address (for the Metaplex accounts: what is left of it
after trimming) has no whitespace at its ends. The metadata extension of the
Token-2022 program stores the string as it is. -/
theorem task_uri_written_iff (db : Db) :
    (∀ parsed bundle instruction metadata authority treeId body task,
      parsed.payload = some (.mint metadata authority treeId) →
      (Bubblegum.mint parsed bundle instruction).inTransaction = .ok (body, some task) →
      ∃ url, WritesUrl db ((Bubblegum.mint parsed bundle instruction).statements.foldl Bubblegum.Statement.exec db)
        task.assetDataId url ∧ (task.uri = url ↔ Bare metadata.uri)) ∧
    (∀ parsed bundle instruction current update treeId body task,
      parsed.payload = some (.updateMetadata current update treeId) →
      (Bubblegum.updateMetadata parsed bundle instruction).inTransaction = .ok (body, some task) →
      ∃ url, WritesUrl db
        ((Bubblegum.updateMetadata parsed bundle instruction).statements.foldl Bubblegum.Statement.exec db)
        task.assetDataId url ∧ (task.uri = url ↔ Bare (update.uri.getD current.uri))) ∧
    (∀ metadata slot task, (TokenMetadata.saveV1Asset db metadata slot).2 = some task →
      ∃ url, WritesUrl db (TokenMetadata.saveV1Asset db metadata slot).1 task.assetDataId url ∧
        (task.uri = url ↔ Bare (trim metadata.uri))) ∧
    (∀ id data asset slot task, MplCore.MplCoreAccountData.indexable data = some asset →
      (MplCore.saveV1Asset db id data slot).2 = .ok (some task) →
      ∃ url, WritesUrl db (MplCore.saveV1Asset db id data slot).1 task.assetDataId url ∧
        (task.uri = url ↔ Bare (trim asset.uri))) ∧
    ∀ metadata key slot task, (TokenExtensions.upsertAssetData db metadata key slot).2 = some task →
      WritesUrl db (TokenExtensions.upsertAssetData db metadata key slot).1 task.assetDataId task.uri :=
  ⟨fun _ _ _ _ _ _ _ _ payload returned => mint_url payload returned,
    fun _ _ _ _ _ _ _ _ payload returned => updateMetadata_url payload returned,
    fun _ _ _ returned => tokenMetadata_url returned,
    fun _ _ _ _ _ indexable returned => mplCore_url indexable returned,
    fun _ _ _ _ returned => tokenExtensions_url returned⟩

end Paths

/-- A metadata account whose address is padded with a space and a NUL. -/
def paddedMetadata : TokenMetadata.Metadata :=
  { TokenMetadata.Example.metadata 0 true none none none with uri := "a \x00" }

/-- The stored address keeps the space that the task has lost. -/
theorem padded_uri_differs :
    (TokenMetadata.saveV1Asset {} paddedMetadata 0).2 = some ⟨.fill 7, "a"⟩ ∧
      ((TokenMetadata.saveV1Asset {} paddedMetadata 0).1.assetData.lookup (.fill 7)).map AssetDataRow.metadataUrl =
        some "a " := by
  refine ⟨by decide, by decide⟩

end DasIndexer
