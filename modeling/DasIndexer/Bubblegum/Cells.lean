import DasIndexer.Bubblegum.Events

namespace DasIndexer.Bubblegum
open Sql Latest

def Statement.Positive (s : Statement) : Prop := ∀ n, s.version = some n → 0 < n

theorem Event.statements_positive [Programs] {event : Event} (positive : 0 < event.seq) {s : Statement}
    (member : s ∈ event.statements) : s.Positive := by
  intro n versioned
  rw [Event.version_eq member versioned]
  exact positive

/-- A statement that events of one leaf schema with positive sequence numbers
run. -/
structure Statement.Admissible (schema : SchemaVersion) (s : Statement) : Prop where
  positive : s.Positive
  flags : ∀ id info, s = .leafInfo id info → info.flags.isSome = decide (schema = .v2)
  compression : ∀ id info, s = .compressionInfo id info →
    info = { compressed := true, compressible := false, supply := 1, supplyMint := none }
  metadata : ∀ id info, s = .assetData id info → info.metadata = .str "processing"

/-- Apart from the change log, a statement belongs to the transaction. -/
theorem Event.ofEvent_of_mem [Programs] {event : Event} {s : Statement} (member : s ∈ event.statements)
    (noItem : s.kind ≠ .clItem) (noAudit : s.kind ≠ .clAudit) (noBackfill : s.kind ≠ .backfillItem) :
    s.OfEvent event := by
  obtain ⟨cl, indexes, inLog | inBody⟩ := Event.mem_statements member
  · rcases mem_saveChangelogEvent inLog with ⟨entry, -, rfl⟩ | rfl | rfl
    · exact absurd rfl noItem
    · exact absurd rfl noAudit
    · exact absurd rfl noBackfill
  · exact indexes.ofEvent s inBody

theorem Event.admissible [Programs] {schema : SchemaVersion} {event : Event} (positive : 0 < event.seq)
    (ofVersion : event.OfVersion schema) {s : Statement} (member : s ∈ event.statements) :
    s.Admissible schema := by
  refine ⟨Event.statements_positive positive member, fun id info same => ?_, fun id info same => ?_,
    fun id info same => ?_⟩
  · subst same
    exact (Event.ofEvent_of_mem member nofun nofun nofun).2 schema ofVersion
  · subst same
    exact Event.ofEvent_of_mem member nofun nofun nofun
  · subst same
    exact (Event.ofEvent_of_mem member nofun nofun nofun).2.2

section Runs
variable [Programs] {schema : SchemaVersion} (key : Pubkey)

/-- The asset was not decompressed. -/
def Alive (db : Db) : Prop := (db.assetOrDefault key).seq ≠ some 0

omit [Programs] in
theorem Alive.empty : Alive key {} := by
  simp [Alive, Db.assetOrDefault]

theorem Alive.exec {db : Db} {s : Statement} (good : s.Positive) (alive : Alive key db) :
    Alive key (s.exec db) := by
  unfold Alive at *
  cases written : s.seqWrite key with
  | none => rwa [Statement.exec_seq_skip db key written]
  | some n =>
    have same := Statement.seqWrite_eq written
    subst same
    rw [Statement.exec_seq_put db key alive]
    rcases newer_origin id (db.assetOrDefault key).seq n with new | old
    · have positive := good n rfl
      rw [new]
      simpa using positive.ne'
    · rwa [← old]

/-- Columns guarded by `>=` hold the newest write of a run. -/
theorem run_latest {W C : Type} (cell : Db → C) (render : Option W → C) {write : Statement → Option W}
    {ver : W → Nat} {Good : Statement → Prop} (positive : ∀ s, Good s → s.Positive)
    (skip : ∀ db s, write s = none → cell (s.exec db) = cell db)
    (put : ∀ db s c w, Good s → Alive key db → write s = some w →
      (∀ x, c = some x → ∃ t, Good t ∧ write t = some x) →
      cell db = render c → cell (s.exec db) = render (some (newer ver c w)))
    (fresh : cell {} = render none) {statements : List Statement} (good : ∀ s ∈ statements, Good s) :
    cell (statements.foldl Statement.exec {}) = render (latest ver (statements.filterMap write)) := by
  exact foldl_latest ver cell render (fun db s good => Alive.exec key (positive s good))
    (fun db s c _ _ none held => (skip db s none).trans held) good (Alive.empty key) fresh put

/-- Rows under `DO NOTHING` or `>` hold the first newest write of a run. -/
theorem run_argmax {W C : Type} (cell : Db → C) (render : Option W → C) {write : Statement → Option W}
    {ver : W → Nat}
    (skip : ∀ db s, write s = none → cell (s.exec db) = cell db)
    (put : ∀ db s c w, write s = some w → cell db = render c →
      cell (s.exec db) = render (some (strictlyNewer ver c w)))
    {db : Db} (fresh : cell db = render none) (statements : List Statement) :
    cell (statements.foldl Statement.exec db) = render ((statements.filterMap write).argmax ver) := by
  have keep : ∀ (db : Db) (s : Statement), True → True → True := fun _ _ _ _ => True.intro
  exact foldl_argmax ver cell render keep (fun db s c _ _ none held => (skip db s none).trans held)
    (fun _ _ => True.intro) True.intro fresh (fun db s c w _ _ written _ => put db s c w written)

section Positive
variable {statements : List Statement} (good : ∀ s ∈ statements, s.Positive)
include good

theorem run_ownerColumns :
    ownerColumns ((statements.foldl Statement.exec {}).assetOrDefault key) =
      ownerColumns (((latest OwnerInfo.seq (statements.filterMap (Statement.ownerWrite key))).map
        OwnerInfo.model).getD {}) := by
  refine run_latest key (fun db => ownerColumns (db.assetOrDefault key))
    (fun c => ownerColumns ((c.map OwnerInfo.model).getD {}))
    (fun _ positive => positive) (fun db s => Statement.exec_ownerColumns_skip db key) ?_
    rfl good
  intro db s c info admissible alive written known held
  have same := Statement.ownerWrite_eq written
  subst same
  exact Statement.exec_ownerColumns_put db key alive held

theorem run_baseColumns :
    baseColumns ((statements.foldl Statement.exec {}).assetOrDefault key) =
      baseColumns (((latest BaseInfo.seq (statements.filterMap (Statement.baseWrite key))).map
        (fun info => info.model key)).getD {}) := by
  refine run_latest key (fun db => baseColumns (db.assetOrDefault key))
    (fun c => baseColumns ((c.map (fun info => info.model key)).getD {}))
    (fun _ positive => positive) (fun db s => Statement.exec_baseColumns_skip db key) ?_
    rfl good
  intro db s c info admissible alive written known held
  have same := Statement.baseWrite_eq written
  subst same
  exact Statement.exec_baseColumns_put db key alive held

theorem run_seq :
    ((statements.foldl Statement.exec {}).assetOrDefault key).seq =
      latest id (statements.filterMap (Statement.seqWrite key)) := by
  refine run_latest key (fun db => (db.assetOrDefault key).seq) id
    (fun _ positive => positive) (fun db s => Statement.exec_seq_skip db key) ?_ rfl good
  intro db s c seq admissible alive written known held
  have same := Statement.seqWrite_eq written
  subst same
  rw [Statement.exec_seq_put db key alive, held]
  rfl

theorem run_compressionColumns :
    compressionColumns ((statements.foldl Statement.exec {}).assetOrDefault key) =
      compressionColumns (((latest (fun _ => 0) (statements.filterMap (Statement.compressionWrite key))).map
        CompressionInfo.model).getD {}) := by
  refine run_latest key (fun db => compressionColumns (db.assetOrDefault key))
    (fun c => compressionColumns ((c.map CompressionInfo.model).getD {}))
    (fun _ positive => positive) (fun db s => Statement.exec_compressionColumns_skip db key) ?_
    rfl good
  intro db s c info admissible alive written known held
  have same := Statement.compressionWrite_eq written
  subst same
  rw [Statement.exec_compressionColumns_put db key info alive]
  cases c with
  | none => rfl
  | some x => rfl

theorem run_assetGrouping (group : String) :
    (statements.foldl Statement.exec {}).assetGrouping.lookup (key, group) =
      (latest CollectionInfo.seq (statements.filterMap (Statement.groupWrite (key, group)))).map
        CollectionInfo.model := by
  refine run_latest key (fun db => db.assetGrouping.lookup (key, group)) (Option.map CollectionInfo.model)
    (fun _ positive => positive) (fun db s => Statement.exec_assetGrouping_skip db) ?_ rfl good
  intro db s c info admissible alive written known held
  obtain ⟨collection, same⟩ := Statement.groupWrite_eq written
  subst same
  cases collection
  refine Statement.exec_assetGrouping_put db (fun x stored => ?_) held
  obtain ⟨t, goodT, writtenT⟩ := known x stored
  exact goodT x.seq (by rw [(Statement.groupWrite_eq writtenT).2]; rfl)

theorem run_assetCreators (position : Nat) :
    (statements.foldl Statement.exec {}).assetCreators.lookup (key, position) =
      latest AssetCreatorRow.version
        (statements.filterMap (Statement.creatorWrite (key, position))) := by
  refine run_latest key (fun db => db.assetCreators.lookup (key, position)) id
    (fun _ positive => positive) (fun db s => Statement.exec_assetCreators_skip db) ?_ rfl good
  intro db s c row admissible alive written known held
  obtain ⟨info, same, found⟩ := Statement.creatorWrite_eq written
  subst same
  refine Statement.exec_assetCreators_put db found (fun x stored => ?_) held
  obtain ⟨t, goodT, writtenT⟩ := known x stored
  obtain ⟨infoT, sameT, foundT⟩ := Statement.creatorWrite_eq writtenT
  exact ⟨infoT.seq, goodT infoT.seq (by rw [sameT]; rfl), (CreatorsInfo.rowAt_seq foundT).1⟩

end Positive

section Admissible
variable {statements : List Statement} (good : ∀ s ∈ statements, s.Admissible schema)
include good

theorem run_leafColumns :
    leafColumns ((statements.foldl Statement.exec {}).assetOrDefault key) =
      leafColumns (((latest LeafInfo.seq (statements.filterMap (Statement.leafWrite key))).map
        LeafInfo.model).getD {}) := by
  refine run_latest key (fun db => leafColumns (db.assetOrDefault key))
    (fun c => leafColumns ((c.map LeafInfo.model).getD {}))
    (fun _ admissible => admissible.positive) (fun db s => Statement.exec_leafColumns_skip db key) ?_
    rfl good
  intro db s c info admissible alive written known held
  have same := Statement.leafWrite_eq written
  subst same
  refine Statement.exec_leafColumns_put db key alive (fun x stored => ?_) held
  obtain ⟨t, goodT, writtenT⟩ := known x stored
  rw [goodT.flags key x (Statement.leafWrite_eq writtenT), admissible.flags key info rfl]

theorem run_assetData :
    (statements.foldl Statement.exec {}).assetData.lookup key =
      (latest AssetDataInfo.seq (statements.filterMap (Statement.dataWrite key))).map AssetDataInfo.model := by
  refine run_latest key (fun db => db.assetData.lookup key) (Option.map AssetDataInfo.model)
    (fun _ admissible => admissible.positive) (fun db s => Statement.exec_assetData_skip db) ?_ rfl good
  intro db s c info admissible alive written known held
  have same := Statement.dataWrite_eq written
  subst same
  refine Statement.exec_assetData_put db (fun x stored => ?_) (fun x stored => ?_) held
  · obtain ⟨t, goodT, writtenT⟩ := known x stored
    exact goodT.positive x.seq (by rw [Statement.dataWrite_eq writtenT]; rfl)
  · obtain ⟨t, goodT, writtenT⟩ := known x stored
    rw [goodT.metadata key x (Statement.dataWrite_eq writtenT), admissible.metadata key info rfl]

end Admissible

section Unconditional
variable (statements : List Statement)

theorem run_burnt :
    ((statements.foldl Statement.exec {}).assetOrDefault key).burnt =
      ((statements.filterMap (Statement.burntWrite key)).argmax (fun _ => 0)).isSome := by
  refine run_argmax (fun db => (db.assetOrDefault key).burnt) Option.isSome
    (fun db s => Statement.exec_burnt_skip db key) ?_ rfl statements
  intro db s c u written held
  have same := Statement.burntWrite_eq written
  subst same
  exact Statement.exec_burnt_put db key

theorem run_otherColumns (db : Db) :
    otherColumns ((statements.foldl Statement.exec db).assetOrDefault key) =
      otherColumns (db.assetOrDefault key) := by
  induction statements generalizing db with
  | nil => rfl
  | cons s rest ih => exact (ih (s.exec db)).trans (Statement.exec_otherColumns db key s)

theorem run_isSome (db : Db) :
    ((statements.foldl Statement.exec db).asset.lookup key).isSome =
      ((db.asset.lookup key).isSome ||
        statements.any (fun s => s.assetUpsert.any (fun upsert => key = upsert.1))) := by
  induction statements generalizing db with
  | nil => simp
  | cons s rest ih => rw [List.foldl_cons, ih, Statement.exec_asset_isSome, List.any_cons, Bool.or_assoc]

theorem run_assetAuthority :
    (statements.foldl Statement.exec {}).assetAuthority.lookup key =
      ((statements.filterMap (Statement.authorityWrite key)).argmax (fun _ => 0)).map AuthorityInfo.model := by
  refine run_argmax (fun db => db.assetAuthority.lookup key) (Option.map AuthorityInfo.model)
    (fun db s => Statement.exec_assetAuthority_skip db) ?_ rfl statements
  intro db s c info written held
  have same := Statement.authorityWrite_eq written
  subst same
  rw [Statement.exec_assetAuthority_put, held]
  cases c with
  | none => rfl
  | some x => rfl

theorem run_clItems {db : Db} {item : Pubkey × Nat} (fresh : db.clItems.lookup item = none) :
    (statements.foldl Statement.exec db).clItems.lookup item =
      (statements.filterMap (Statement.itemWrite item)).argmax ClItemRow.seq := by
  refine run_argmax (fun db => db.clItems.lookup item) id
    (fun db s => Statement.exec_clItems_skip db) ?_ fresh statements
  intro db s c row written held
  have same := Statement.itemWrite_eq written
  subst same
  rw [Statement.exec_clItems_put, held]
  rfl

theorem run_clAuditsV2 (audit : Pubkey × Nat × Nat) :
    (statements.foldl Statement.exec {}).clAuditsV2.lookup audit =
      (statements.filterMap (Statement.auditWrite audit)).argmax (fun _ => 0) := by
  refine run_argmax (fun db => db.clAuditsV2.lookup audit) id
    (fun db s => Statement.exec_clAuditsV2_skip db) ?_ rfl statements
  intro db s c row written held
  have same := Statement.auditWrite_eq written
  subst same
  rw [Statement.exec_clAuditsV2_put, held]
  cases c with
  | none => rfl
  | some x => rfl

end Unconditional

end Runs

end DasIndexer.Bubblegum
