import DasIndexer.Bubblegum.Convergence
import DasIndexer.Bubblegum.Failures
import DasIndexer.Lib.Interleaved

namespace DasIndexer.Bubblegum
open Sql Latest Interleaved

/-- Both databases have the same rows, up to the column `slot_updated` and the queue
`backfill_items`, except that rows of `cl_audits_v2` may be missing from the first one. -/
structure SameButAudits (db other : Db) : Prop where
  asset : ∀ id, (db.asset.lookup id).map (fun row => { row with slotUpdated := none }) =
    (other.asset.lookup id).map (fun row => { row with slotUpdated := none })
  assetData : ∀ id, db.assetData.lookup id = other.assetData.lookup id
  assetCreators : ∀ key, db.assetCreators.lookup key = other.assetCreators.lookup key
  assetGrouping : ∀ key, db.assetGrouping.lookup key = other.assetGrouping.lookup key
  assetAuthority : ∀ id, db.assetAuthority.lookup id = other.assetAuthority.lookup id
  clItems : ∀ key, db.clItems.lookup key = other.clItems.lookup key
  audits : ∀ key row, db.clAuditsV2.lookup key = some row → other.clAuditsV2.lookup key = some row

/-- The events of all trees: a sequence number names one event of its tree and is not 0,
an asset stands in one tree and under one leaf schema, and it is minted once. -/
structure Histories [Programs] (schema : Pubkey → SchemaVersion) (events : List Event) : Prop where
  positive : ∀ e ∈ events, ∀ cl, e.parsingResult.treeUpdate = some cl → 0 < cl.seq
  distinct : ∀ e ∈ events, ∀ e' ∈ events, ∀ cl cl', e.parsingResult.treeUpdate = some cl →
    e'.parsingResult.treeUpdate = some cl' → cl.id = cl'.id → cl.seq = cl'.seq → e = e'
  oneTree : ∀ e ∈ events, ∀ e' ∈ events, ∀ cl cl' id, e.parsingResult.treeUpdate = some cl →
    e'.parsingResult.treeUpdate = some cl' → e.assetId = some id → e'.assetId = some id → cl.id = cl'.id
  ofVersion : ∀ e ∈ events, ∀ id, e.assetId = some id → e.OfVersion (schema id)
  oneMint : ∀ e ∈ events, ∀ e' ∈ events, e.handler = some .mint → e'.handler = some .mint →
    e.assetId = e'.assetId → e = e'

/-- The statement that a handler goes on without when it fails. -/
def Statement.Optional (s : Statement) : Prop := s.kind = .clAudit

/-- The asset that a statement of a transaction is about. -/
def Statement.subject : Statement → Option Pubkey
  | .clItem .. | .clAudit .. | .backfillItem .. => none
  | .leafInfo id _ | .ownerInfo id _ | .compressionInfo id _ | .assetSeq id _ | .collectionInfo id _ => some id
  | .assetData id _ | .baseInfo id _ | .creators id _ | .authority id _ | .burnt id => some id

section Subjects
variable [Programs] {event : Event}

/-- All statements of a transaction are about the asset of the event. -/
theorem Event.body_subject (event : Event) : ∀ s ∈ event.plan.body, s.subject = event.assetId := by
  unfold Event.plan Event.assetId
  cases handler : event.handler with
  | none => simp [Plan.body]
  | some h =>
    cases h with
    | transfer | delegate =>
      simp only [transfer, delegationFreezingNontransferability, leafAndOwner]
      split
      · rename_i le cl leafUpdate treeUpdate
        simp [Plan.body, Statement.subject, leafUpdate]
      · simp [Plan.body, Plan.fail]
    | mint =>
      simp only [mint]
      split
      · rename_i le cl metadata authority treeId leafUpdate treeUpdate payload
        simp [Plan.body, Statement.subject, leafUpdate]
      · simp [Plan.body, Plan.fail]
    | updateMetadata =>
      simp only [updateMetadata]
      split
      · rename_i le cl currentMetadata updateArgs treeId leafUpdate treeUpdate payload
        simp [Plan.body, Statement.subject, leafUpdate]
      · simp [Plan.body, Plan.fail]
    | redeem =>
      simp only [redeem]
      split
      · rename_i cl treeUpdate
        simp [Plan.body, Statement.subject, treeUpdate]
      · simp [Plan.body, Plan.fail]
    | cancelRedeem =>
      simp only [cancelRedeem]
      split
      · rename_i le cl leafUpdate treeUpdate
        cases schema : le.schema with
        | v1 => simp [Plan.body, Statement.subject, leafUpdate, NormalizedLeafFields.from, schema]
        | v2 => simp [Plan.body]
      · simp [Plan.body, Plan.fail]
    | creatorVerification =>
      simp only [creatorVerification]
      split
      · rename_i le cl metadata creator verify leafUpdate treeUpdate payload
        simp [Plan.body, Statement.subject, leafUpdate]
      · simp [Plan.body, Plan.fail]
    | collectionVerification =>
      simp only [collectionVerification]
      split
      · rename_i le cl collection verify leafUpdate treeUpdate payload
        simp [Plan.body, Statement.subject, leafUpdate]
      · simp [Plan.body, Plan.fail]
    | burn =>
      simp only [burn]
      split
      · rename_i cl treeUpdate
        simp [Plan.body, Statement.subject, treeUpdate]
      · simp [Plan.body, Plan.fail]

theorem Event.assetId_of_subject {s : Statement} {id : Pubkey} (member : s ∈ event.statements)
    (subject : s.subject = some id) : event.assetId = some id := by
  obtain ⟨cl, indexes, inLog | inBody⟩ := Event.mem_statements member
  · rcases mem_saveChangelogEvent inLog with ⟨entry, -, rfl⟩ | rfl | rfl
    · cases subject
    · cases subject
    · cases subject
  · rw [← event.body_subject s inBody, subject]

theorem Event.tree_of_item {key : Pubkey × Nat} {item : ClItemRow}
    (member : item ∈ event.statements.filterMap (Statement.itemWrite key)) :
    ∃ cl, event.parsingResult.treeUpdate = some cl ∧ cl.id = key.1 := by
  obtain ⟨s, inStatements, written⟩ := List.mem_filterMap.mp member
  rw [Statement.itemWrite_eq written] at inStatements
  obtain ⟨cl, indexes, inLog | inBody⟩ := Event.mem_statements inStatements
  · rcases mem_saveChangelogEvent inLog with ⟨entry, -, same⟩ | same | same
    · exact ⟨cl, indexes.update, (Statement.clItem.inj same).1.symm⟩
    · cases same
    · cases same
  · exact (indexes.ofEvent _ inBody).elim

theorem Event.tree_of_audit {tree : Pubkey} {leafIdx seq : Nat} {audit : ClAuditRow}
    (member : .clAudit tree leafIdx seq audit ∈ event.statements) :
    ∃ cl, event.parsingResult.treeUpdate = some cl ∧ (cl.id, cl.index, cl.seq) = (tree, leafIdx, seq) ∧
      audit = { tx := event.bundle.txnId, instruction := instructionFrom event.parsingResult.instruction.ixStr } := by
  obtain ⟨cl, indexes, inLog | inBody⟩ := Event.mem_statements member
  · rcases mem_saveChangelogEvent inLog with ⟨entry, -, same⟩ | same | same
    · cases same
    · cases same
      exact ⟨cl, indexes.update, rfl, rfl⟩
    · cases same
  · exact (indexes.ofEvent _ inBody).elim

end Subjects

section Histories
variable [Programs] {schema : Pubkey → SchemaVersion} {events : List Event}

/-- The newest write of a cell does not see events of another tree or asset. -/
theorem Histories.identifies (histories : Histories schema events) {W : Type} {write : Statement → Option W}
    {ver : W → Nat} (key : Pubkey) (kind : Kind) (noItem : kind ≠ .clItem)
    (kinded : ∀ s w, write s = some w → s.kind = kind ∧ s.version = some (ver w) ∧ s.subject = some key) :
    Identifies ver ((events.flatMap Event.statements).filterMap write) := by
  intro w memberW x memberX same
  obtain ⟨s, inS, writtenW⟩ := List.mem_filterMap.mp memberW
  obtain ⟨t, inT, writtenX⟩ := List.mem_filterMap.mp memberX
  obtain ⟨e, inEvents, inE⟩ := List.mem_flatMap.mp inS
  obtain ⟨e', inEvents', inE'⟩ := List.mem_flatMap.mp inT
  obtain ⟨kindS, versionS, subjectS⟩ := kinded s w writtenW
  obtain ⟨kindT, versionT, subjectT⟩ := kinded t x writtenX
  obtain ⟨cl, indexes, -⟩ := Event.mem_statements inE
  obtain ⟨cl', indexes', -⟩ := Event.mem_statements inE'
  have sameTree := histories.oneTree e inEvents e' inEvents' cl cl' key indexes.update indexes'.update
    (Event.assetId_of_subject inE subjectS) (Event.assetId_of_subject inE' subjectT)
  have sameSeq : cl.seq = cl'.seq := by
    rw [← Event.seq_of_treeUpdate indexes.update, ← Event.seq_of_treeUpdate indexes'.update,
      ← Event.version_eq inE versionS, ← Event.version_eq inE' versionT, same]
  have sameEvent := histories.distinct e inEvents e' inEvents' cl cl' indexes.update indexes'.update sameTree sameSeq
  subst sameEvent
  have sameStatement := Event.statement_unique inE inE' (kindS.trans kindT.symm) (by rwa [kindS])
  subst sameStatement
  exact Option.some.inj (writtenW.symm.trans writtenX)

theorem Histories.statements_positive (histories : Histories schema events) :
    ∀ s ∈ events.flatMap Event.statements, s.Positive := by
  intro s member n versioned
  obtain ⟨e, inEvents, inE⟩ := List.mem_flatMap.mp member
  obtain ⟨cl, indexes, -⟩ := Event.mem_statements inE
  rw [Event.version_eq inE versioned, Event.seq_of_treeUpdate indexes.update]
  exact histories.positive e inEvents cl indexes.update

/-- The events of one asset are such a history when they come from one tree. -/
theorem Consistent.histories {version : SchemaVersion} (consistent : Consistent version events) (tree : Pubkey)
    (oneTree : ∀ e ∈ events, ∀ cl, e.parsingResult.treeUpdate = some cl → cl.id = tree) :
    Histories (fun _ => version) events where
  positive e member cl update := by
    rw [← Event.seq_of_treeUpdate update]
    exact consistent.positive e member
  distinct e member e' member' cl cl' update update' _ sameSeq := by
    refine consistent.distinct e member e' member' ?_
    rw [Event.seq_of_treeUpdate update, Event.seq_of_treeUpdate update', sameSeq]
  oneTree e member e' member' cl cl' id update update' _ _ :=
    (oneTree e member cl update).trans (oneTree e' member' cl' update').symm
  ofVersion e member _ _ := consistent.ofVersion e member
  oneMint e member e' member' isMint isMint' _ := consistent.oneMint e member e' member' isMint isMint'

/-- The statements about an asset agree with its leaf schema. -/
structure Statement.Suits (key : Pubkey) (version : SchemaVersion) (s : Statement) : Prop where
  positive : s.Positive
  flags : ∀ info, s = .leafInfo key info → info.flags.isSome = decide (version = .v2)
  compression : ∀ id info, s = .compressionInfo id info →
    info = { compressed := true, compressible := false, supply := 1, supplyMint := none }
  metadata : ∀ id info, s = .assetData id info → info.metadata = .str "processing"

theorem Histories.suits (histories : Histories schema events) (key : Pubkey) :
    ∀ s ∈ events.flatMap Event.statements, s.Suits key (schema key) := by
  intro s member
  obtain ⟨e, inEvents, inE⟩ := List.mem_flatMap.mp member
  refine ⟨histories.statements_positive s member, fun info same => ?_, fun id info same => ?_, fun id info same => ?_⟩
  · subst same
    have ofVersion := histories.ofVersion e inEvents key (Event.assetId_of_subject inE rfl)
    exact (Event.ofEvent_of_mem inE nofun nofun nofun).2 (schema key) ofVersion
  · subst same
    exact Event.ofEvent_of_mem inE nofun nofun nofun
  · subst same
    exact (Event.ofEvent_of_mem inE nofun nofun nofun).2.2

end Histories

section Cells
variable [Programs] {key : Pubkey} {version : SchemaVersion} {statements : List Statement}

theorem run_leafColumns_of_suits (good : ∀ s ∈ statements, s.Suits key version) :
    leafColumns ((statements.foldl Statement.exec {}).assetOrDefault key) =
      leafColumns (((latest LeafInfo.seq (statements.filterMap (Statement.leafWrite key))).map
        LeafInfo.model).getD {}) := by
  refine run_latest key (fun db => leafColumns (db.assetOrDefault key))
    (fun c => leafColumns ((c.map LeafInfo.model).getD {}))
    (fun _ suits => suits.positive) (fun db s => Statement.exec_leafColumns_skip db key) ?_ rfl good
  intro db s c info suits alive written known held
  have same := Statement.leafWrite_eq written
  subst same
  refine Statement.exec_leafColumns_put db key alive (fun x stored => ?_) held
  obtain ⟨t, goodT, writtenT⟩ := known x stored
  rw [goodT.flags x (Statement.leafWrite_eq writtenT), suits.flags info rfl]

theorem run_assetData_of_suits (good : ∀ s ∈ statements, s.Suits key version) :
    (statements.foldl Statement.exec {}).assetData.lookup key =
      (latest AssetDataInfo.seq (statements.filterMap (Statement.dataWrite key))).map AssetDataInfo.model := by
  refine run_latest key (fun db => db.assetData.lookup key) (Option.map AssetDataInfo.model)
    (fun _ suits => suits.positive) (fun db s => Statement.exec_assetData_skip db) ?_ rfl good
  intro db s c info suits alive written known held
  have same := Statement.dataWrite_eq written
  subst same
  refine Statement.exec_assetData_put db (fun x stored => ?_) (fun x stored => ?_) held
  · obtain ⟨t, goodT, writtenT⟩ := known x stored
    exact goodT.positive x.seq (by rw [Statement.dataWrite_eq writtenT]; rfl)
  · obtain ⟨t, goodT, writtenT⟩ := known x stored
    rw [goodT.metadata key x (Statement.dataWrite_eq writtenT), suits.metadata key info rfl]

end Cells

section Executed
variable [Programs] {schema : Pubkey → SchemaVersion} {events : List Event} {executed : List Statement}

/-- The statements were run by handlers of the events, each in its order, beside each
other and cut off anywhere, and every event was handled to its end. -/
structure Executes (events : List Event) (executed : List Statement) : Prop where
  causal : Causal Statement.Optional (events.map Event.statements) executed
  complete : Complete Statement.Optional (events.map Event.statements) executed

theorem Executes.refl (events : List Event) : Executes events (events.flatMap Event.statements) where
  causal := by
    have run : ∀ earlier later : List Event, earlier ++ later = events →
        Causal Statement.Optional (events.map Event.statements) (earlier.flatMap Event.statements) := by
      intro earlier
      induction earlier using List.reverseRecOn with
      | nil => exact fun _ _ => Causal.nil
      | append_singleton earlier e ih =>
        intro later split
        have before := ih (e :: later) (by simpa using split)
        have inEvents : e ∈ events := by simp [← split]
        rw [List.flatMap_append, List.flatMap_singleton]
        refine @Causal.steps _ _ _ _ before [] e.statements [] ?_ (List.forall_mem_nil _)
        simpa using List.mem_map_of_mem inEvents
    exact run events [] (List.append_nil events)
  complete := by
    intro program inPrograms s member
    obtain ⟨e, inEvents, rfl⟩ := List.mem_map.mp inPrograms
    exact Or.inr (List.mem_flatMap.mpr ⟨e, inEvents, member⟩)

theorem Executes.mem_writes (executes : Executes events executed) {W : Type} {write : Statement → Option W}
    (needed : ∀ s, s.Optional → write s = none) (w : W) :
    w ∈ executed.filterMap write ↔ w ∈ (events.flatMap Event.statements).filterMap write := by
  rw [List.flatMap_def]
  exact mem_writes_iff executes.causal executes.complete needed w

theorem Executes.included (executes : Executes events executed) :
    ∀ s ∈ executed, s ∈ events.flatMap Event.statements := by
  intro s member
  obtain ⟨program, inPrograms, inProgram⟩ := executes.causal.mem member
  obtain ⟨e, inEvents, rfl⟩ := List.mem_map.mp inPrograms
  exact List.mem_flatMap.mpr ⟨e, inEvents, inProgram⟩

theorem Executes.latest_eq (executes : Executes events executed) (histories : Histories schema events) {W : Type}
    {write : Statement → Option W} {ver : W → Nat} (key : Pubkey) (kind : Kind) (noItem : kind ≠ .clItem)
    (noAudit : kind ≠ .clAudit)
    (kinded : ∀ s w, write s = some w → s.kind = kind ∧ s.version = some (ver w) ∧ s.subject = some key) :
    latest ver (executed.filterMap write) = latest ver ((events.flatMap Event.statements).filterMap write) := by
  refine (Latest.latest_congr (histories.identifies key kind noItem kinded)
    (fun w => (executes.mem_writes (fun s optional => ?_) w).symm)).symm
  cases written : write s with
  | none => rfl
  | some w => exact absurd ((kinded s w written).1.symm.trans optional) noAudit

theorem Executes.mem_iff (executes : Executes events executed) {s : Statement} (noAudit : s.kind ≠ .clAudit) :
    s ∈ executed ↔ s ∈ events.flatMap Event.statements := by
  refine ⟨executes.included s, fun member => ?_⟩
  obtain ⟨e, inEvents, inE⟩ := List.mem_flatMap.mp member
  exact (executes.complete e.statements (List.mem_map_of_mem inEvents) s inE).resolve_left noAudit

/-- A cell that is written once, or with one value. -/
theorem Executes.argmax_eq (executes : Executes events executed) {W : Type} {write : Statement → Option W}
    (needed : ∀ s, s.Optional → write s = none)
    (unique : ∀ w ∈ (events.flatMap Event.statements).filterMap write,
      ∀ x ∈ (events.flatMap Event.statements).filterMap write, w = x) :
    (executed.filterMap write).argmax (fun _ => 0) =
      ((events.flatMap Event.statements).filterMap write).argmax (fun _ => 0) := by
  have members := executes.mem_writes needed
  have identifies : Identifies (fun _ => 0) ((events.flatMap Event.statements).filterMap write) :=
    fun w memberW x memberX _ => unique w memberW x memberX
  have identifies' : Identifies (fun _ => 0) (executed.filterMap write) :=
    fun w memberW x memberX _ => unique w ((members w).mp memberW) x ((members x).mp memberX)
  rw [argmax_eq_latest identifies, argmax_eq_latest identifies', Latest.latest_congr identifies' members]

theorem Executes.asset_eq (executes : Executes events executed) (histories : Histories schema events) (id : Pubkey) :
    ((executed.foldl Statement.exec {}).asset.lookup id).map (fun row => { row with slotUpdated := none }) =
      ((ingest {} events).asset.lookup id).map (fun row => { row with slotUpdated := none }) := by
  rw [ingest_eq_statements]
  have suits := histories.suits id
  have suits' : ∀ s ∈ executed, s.Suits id (schema id) := fun s member => suits s (executes.included s member)
  have positive := histories.statements_positive
  have positive' : ∀ s ∈ executed, s.Positive := fun s member => positive s (executes.included s member)
  refine lookup_ext ?presence (asset_ext ?leaf ?owner ?compression ?base ?rest ?seq ?burnt)
  case presence =>
    rw [run_isSome, run_isSome, Bool.eq_iff_iff]
    have members : ∀ s : Statement, (s.assetUpsert.any (fun upsert => id = upsert.1)) = true →
        (s ∈ executed ↔ s ∈ events.flatMap Event.statements) := by
      intro s upserts
      refine executes.mem_iff (fun audit => ?_)
      cases s with
      | clAudit => cases upserts
      | _ => cases audit
    simp only [Bool.or_eq_true, List.any_eq_true]
    refine or_congr Iff.rfl (exists_congr (fun s => ?_))
    constructor
    · rintro ⟨member, upserts⟩
      exact ⟨(members s upserts).mp member, upserts⟩
    · rintro ⟨member, upserts⟩
      exact ⟨(members s upserts).mpr member, upserts⟩
  case leaf =>
    rw [run_leafColumns_of_suits suits', run_leafColumns_of_suits suits,
      executes.latest_eq histories id .leafInfo nofun nofun (fun s w written => by
        rw [Statement.leafWrite_eq written]; exact ⟨rfl, rfl, rfl⟩)]
  case owner =>
    rw [run_ownerColumns id positive', run_ownerColumns id positive,
      executes.latest_eq histories id .ownerInfo nofun nofun (fun s w written => by
        rw [Statement.ownerWrite_eq written]; exact ⟨rfl, rfl, rfl⟩)]
  case base =>
    rw [run_baseColumns id positive', run_baseColumns id positive,
      executes.latest_eq histories id .baseInfo nofun nofun (fun s w written => by
        rw [Statement.baseWrite_eq written]; exact ⟨rfl, rfl, rfl⟩)]
  case seq =>
    rw [run_seq id positive', run_seq id positive,
      executes.latest_eq histories id .assetSeq nofun nofun (fun s w written => by
        rw [Statement.seqWrite_eq written]; exact ⟨rfl, rfl, rfl⟩)]
  case compression =>
    rw [run_compressionColumns id positive', run_compressionColumns id positive,
      Latest.latest_congr ?_ (executes.mem_writes ?_)]
    · intro w memberW x memberX _
      obtain ⟨s, inS, writtenW⟩ := List.mem_filterMap.mp memberW
      obtain ⟨t, inT, writtenX⟩ := List.mem_filterMap.mp memberX
      rw [(suits' s inS).compression id w (Statement.compressionWrite_eq writtenW),
        (suits' t inT).compression id x (Statement.compressionWrite_eq writtenX)]
    · intro s optional
      cases s with
      | clAudit => rfl
      | _ => cases optional
  case rest => rw [run_otherColumns, run_otherColumns]
  case burnt =>
    rw [run_burnt, run_burnt, executes.argmax_eq ?_ (fun _ _ _ _ => rfl)]
    intro s optional
    cases s with
    | clAudit => rfl
    | _ => cases optional

theorem Executes.clItems_eq (executes : Executes events executed) (histories : Histories schema events)
    (key : Pubkey × Nat) :
    (executed.foldl Statement.exec {}).clItems.lookup key = (ingest {} events).clItems.lookup key := by
  have needed : ∀ s : Statement, s.Optional → s.itemWrite key = none := by
    intro s optional
    cases s with
    | clAudit => rfl
    | _ => cases optional
  have leveled : ∀ program ∈ events.map Event.statements, ∀ s ∈ program, ∀ t ∈ program, ∀ w x,
      s.itemWrite key = some w → t.itemWrite key = some x → w.seq = x.seq := by
    intro program inPrograms s inS t inT w x writtenW writtenX
    obtain ⟨e, -, rfl⟩ := List.mem_map.mp inPrograms
    rw [Event.firstItem_seq (List.mem_filterMap.mpr ⟨s, inS, writtenW⟩),
      Event.firstItem_seq (List.mem_filterMap.mpr ⟨t, inT, writtenX⟩)]
  have identifies : Identifies ClItemRow.seq ((events.map Event.statements).filterMap
      (fun program => (program.filterMap (Statement.itemWrite key)).head?)) := by
    intro w memberW x memberX sameSeq
    obtain ⟨program, inPrograms, firstW⟩ := List.mem_filterMap.mp memberW
    obtain ⟨program', inPrograms', firstX⟩ := List.mem_filterMap.mp memberX
    obtain ⟨e, inEvents, rfl⟩ := List.mem_map.mp inPrograms
    obtain ⟨e', inEvents', rfl⟩ := List.mem_map.mp inPrograms'
    have inW := List.mem_of_mem_head? firstW
    have inX := List.mem_of_mem_head? firstX
    obtain ⟨cl, update, sameTree⟩ := Event.tree_of_item inW
    obtain ⟨cl', update', sameTree'⟩ := Event.tree_of_item inX
    rw [Event.firstItem_seq inW, Event.firstItem_seq inX, Event.seq_of_treeUpdate update,
      Event.seq_of_treeUpdate update'] at sameSeq
    have sameEvent := histories.distinct e inEvents e' inEvents' cl cl' update update'
      (sameTree.trans sameTree'.symm) sameSeq
    subst sameEvent
    exact Option.some.inj (firstW.symm.trans firstX)
  have inOrder := Executes.refl events
  rw [ingest_eq_statements, run_clItems _ rfl, run_clItems _ rfl,
    argmax_first executes.causal executes.complete needed leveled identifies,
    argmax_first inOrder.causal inOrder.complete needed leveled identifies]

/-- The authority of an asset comes from its one mint. -/
theorem Histories.authority_unique (histories : Histories schema events) (id : Pubkey) :
    ∀ w ∈ (events.flatMap Event.statements).filterMap (Statement.authorityWrite id),
      ∀ x ∈ (events.flatMap Event.statements).filterMap (Statement.authorityWrite id), w = x := by
  intro w memberW x memberX
  obtain ⟨s, inS, writtenW⟩ := List.mem_filterMap.mp memberW
  obtain ⟨t, inT, writtenX⟩ := List.mem_filterMap.mp memberX
  obtain ⟨e, inEvents, inE⟩ := List.mem_flatMap.mp inS
  obtain ⟨e', inEvents', inE'⟩ := List.mem_flatMap.mp inT
  rw [Statement.authorityWrite_eq writtenW] at inE
  rw [Statement.authorityWrite_eq writtenX] at inE'
  have minted : e.handler = some .mint := Event.ofEvent_of_mem inE nofun nofun nofun
  have minted' : e'.handler = some .mint := Event.ofEvent_of_mem inE' nofun nofun nofun
  have sameEvent := histories.oneMint e inEvents e' inEvents' minted minted'
    ((Event.assetId_of_subject inE rfl).trans (Event.assetId_of_subject inE' rfl).symm)
  subst sameEvent
  cases Event.statement_unique inE inE' rfl nofun
  rfl

theorem Executes.assetAuthority_eq (executes : Executes events executed) (histories : Histories schema events)
    (id : Pubkey) :
    (executed.foldl Statement.exec {}).assetAuthority.lookup id = (ingest {} events).assetAuthority.lookup id := by
  rw [ingest_eq_statements, run_assetAuthority, run_assetAuthority,
    executes.argmax_eq ?_ (histories.authority_unique id)]
  intro s optional
  cases s with
  | clAudit => rfl
  | _ => cases optional

/-- The row of `cl_audits_v2` under a key comes from one event. -/
theorem Histories.audit_unique (histories : Histories schema events) (key : Pubkey × Nat × Nat) :
    ∀ w ∈ (events.flatMap Event.statements).filterMap (Statement.auditWrite key),
      ∀ x ∈ (events.flatMap Event.statements).filterMap (Statement.auditWrite key), w = x := by
  intro w memberW x memberX
  obtain ⟨s, inS, writtenW⟩ := List.mem_filterMap.mp memberW
  obtain ⟨t, inT, writtenX⟩ := List.mem_filterMap.mp memberX
  obtain ⟨e, inEvents, inE⟩ := List.mem_flatMap.mp inS
  obtain ⟨e', inEvents', inE'⟩ := List.mem_flatMap.mp inT
  rw [Statement.auditWrite_eq writtenW] at inE
  rw [Statement.auditWrite_eq writtenX] at inE'
  obtain ⟨cl, update, isKey, isAudit⟩ := Event.tree_of_audit inE
  obtain ⟨cl', update', isKey', isAudit'⟩ := Event.tree_of_audit inE'
  have sameKey := isKey.trans isKey'.symm
  simp only [Prod.mk.injEq] at sameKey
  obtain ⟨sameTree, -, sameSeq⟩ := sameKey
  have sameEvent := histories.distinct e inEvents e' inEvents' cl cl' update update' sameTree sameSeq
  rw [isAudit, isAudit', sameEvent]

theorem Executes.audits (executes : Executes events executed) (histories : Histories schema events)
    (key : Pubkey × Nat × Nat) (row : ClAuditRow)
    (stored : (executed.foldl Statement.exec {}).clAuditsV2.lookup key = some row) :
    (ingest {} events).clAuditsV2.lookup key = some row := by
  rw [run_clAuditsV2] at stored
  obtain ⟨s, inExecuted, written⟩ := List.mem_filterMap.mp (List.argmax_mem stored)
  have member : row ∈ (events.flatMap Event.statements).filterMap (Statement.auditWrite key) :=
    List.mem_filterMap.mpr ⟨s, executes.included s inExecuted, written⟩
  rw [ingest_eq_statements, run_clAuditsV2]
  cases newest : ((events.flatMap Event.statements).filterMap (Statement.auditWrite key)).argmax (fun _ => 0) with
  | none =>
    rw [List.argmax_eq_none.mp newest] at member
    cases member
  | some first => rw [histories.audit_unique key first (List.argmax_mem newest) row member]

/-- Whatever the order and the failures, the rows are those of handling the events one
after the other. -/
theorem Executes.sameButAudits (executes : Executes events executed) (histories : Histories schema events) :
    SameButAudits (executed.foldl Statement.exec {}) (ingest {} events) where
  asset := executes.asset_eq histories
  assetData id := by
    have suits := histories.suits id
    rw [ingest_eq_statements, run_assetData_of_suits suits,
      run_assetData_of_suits (fun s member => suits s (executes.included s member)),
      executes.latest_eq histories id .assetData nofun nofun (fun s w written => by
        rw [Statement.dataWrite_eq written]; exact ⟨rfl, rfl, rfl⟩)]
  assetCreators := fun (id, position) => by
    have positive := histories.statements_positive
    rw [ingest_eq_statements, run_assetCreators id positive,
      run_assetCreators id (fun s member => positive s (executes.included s member))]
    refine executes.latest_eq histories id .creators nofun nofun (fun s row written => ?_)
    obtain ⟨info, rfl, found⟩ := Statement.creatorWrite_eq written
    rw [CreatorsInfo.rowAt_version found]
    exact ⟨rfl, rfl, rfl⟩
  assetGrouping := fun (id, group) => by
    have positive := histories.statements_positive
    rw [ingest_eq_statements, run_assetGrouping id positive,
      run_assetGrouping id (fun s member => positive s (executes.included s member)),
      executes.latest_eq histories id .collectionInfo nofun nofun (fun s w written => by
        rw [(Statement.groupWrite_eq written).2]; exact ⟨rfl, rfl, rfl⟩)]
  assetAuthority := executes.assetAuthority_eq histories
  clItems := executes.clItems_eq histories
  audits := executes.audits histories

end Executed

/-- Nothing but the insertion into `cl_audits_v2` failed. -/
def HandlerRun.Finishes [Programs] (run : HandlerRun) : Prop :=
  run.aborts = false ∧ ∀ i s, run.event.plan.onConnection[i]? = some s → run.fails i = true → s.Optional

section Runs
variable [Programs] {programs : List (List Statement)} {trace : List Statement}

section Step
variable {fails : Nat → Bool} {i : Nat} {db : Db} {s : Statement} {later : List Statement}

theorem execOnConnection_succeed (succeeds : fails i = false) :
    execOnConnection fails i db (s :: later) = execOnConnection fails (i + 1) (s.exec db) later := by
  cases s <;> simp [execOnConnection, succeeds]

theorem execOnConnection_skip (failed : fails i = true) (optional : s.Optional) :
    execOnConnection fails i db (s :: later) = execOnConnection fails (i + 1) db later := by
  cases s with
  | clAudit => simp [execOnConnection, failed]
  | _ => cases optional

theorem execOnConnection_stop (failed : fails i = true) (needed : ¬ s.Optional) :
    execOnConnection fails i db (s :: later) = (db, false) := by
  cases s with
  | clAudit => exact absurd rfl needed
  | _ => simp [execOnConnection, failed]

end Step

/-- The statements on the connection that took effect. -/
theorem execOnConnection_causal (causal : Causal Statement.Optional programs trace) (fails : Nat → Bool)
    (statements : List Statement) (i : Nat) {done rest : List Statement}
    (member : done ++ (statements ++ rest) ∈ programs) (taken : ∀ t ∈ done, t.Optional ∨ t ∈ trace) :
    ∃ part, (execOnConnection fails i (trace.foldl Statement.exec {}) statements).1 =
        (trace ++ part).foldl Statement.exec {} ∧
      Causal Statement.Optional programs (trace ++ part) ∧
      ((execOnConnection fails i (trace.foldl Statement.exec {}) statements).2 = true →
        ∀ s ∈ statements, s.Optional ∨ s ∈ trace ++ part) ∧
      ((∀ j s, statements[j]? = some s → fails (i + j) = true → s.Optional) →
        (execOnConnection fails i (trace.foldl Statement.exec {}) statements).2 = true) := by
  induction statements generalizing i trace done with
  | nil =>
    refine ⟨[], by simp [execOnConnection], by simpa using causal, fun _ => List.forall_mem_nil _, fun _ => rfl⟩
  | cons s later ih =>
    have shifted : done ++ [s] ++ (later ++ rest) ∈ programs := by simpa using member
    cases failed : fails i with
    | false =>
      have next := causal.step (by simpa using member) taken
      have ran : execOnConnection fails i (trace.foldl Statement.exec {}) (s :: later) =
          execOnConnection fails (i + 1) ((trace ++ [s]).foldl Statement.exec {}) later := by
        rw [execOnConnection_succeed failed, List.foldl_concat]
      obtain ⟨part, state, causalAfter, finished, finishes⟩ := ih next (i + 1) shifted (fun t inDone => by
        rcases List.mem_append.mp inDone with old | new
        · exact (taken t old).imp id (fun inTrace => List.mem_append_left [s] inTrace)
        · exact Or.inr (List.mem_append_right trace new))
      rw [ran]
      refine ⟨s :: part, by simpa using state, by simpa using causalAfter, fun through => ?_, fun allowed => ?_⟩
      · intro t inStatements
        rcases List.mem_cons.mp inStatements with same | inLater
        · exact Or.inr (by simp [same])
        · simpa using finished through t inLater
      · refine finishes (fun j t found => ?_)
        have onward := allowed (j + 1) t (by simpa using found)
        rwa [Nat.add_assoc, Nat.add_comm 1 j]
    | true =>
      by_cases optional : s.Optional
      · obtain ⟨part, state, causalAfter, finished, finishes⟩ := ih causal (i + 1) shifted (fun t inDone => by
          rcases List.mem_append.mp inDone with old | new
          · exact taken t old
          · exact Or.inl (by rwa [List.mem_singleton.mp new]))
        rw [execOnConnection_skip failed optional]
        refine ⟨part, state, causalAfter, fun through => ?_, fun allowed => ?_⟩
        · intro t inStatements
          rcases List.mem_cons.mp inStatements with same | inLater
          · exact Or.inl (by rwa [same])
          · exact finished through t inLater
        · refine finishes (fun j t found => ?_)
          have onward := allowed (j + 1) t (by simpa using found)
          rwa [Nat.add_assoc, Nat.add_comm 1 j]
      · rw [execOnConnection_stop failed optional]
        refine ⟨[], by simp, by simpa using causal, fun through => ?_, fun allowed => ?_⟩
        · cases through
        · exact absurd (allowed 0 s rfl failed) optional

/-- What a call of a handler adds to the statements that took effect. -/
theorem HandlerRun.exec_causal (causal : Causal Statement.Optional programs trace) (run : HandlerRun)
    (member : run.event.statements ∈ programs) :
    ∃ part, run.exec (trace.foldl Statement.exec {}) = (trace ++ part).foldl Statement.exec {} ∧
      Causal Statement.Optional programs (trace ++ part) ∧
      (run.Finishes → ∀ s ∈ run.event.statements, s.Optional ∨ s ∈ trace ++ part) := by
  obtain ⟨part, state, causalAfter, finished, finishes⟩ := @execOnConnection_causal _ programs trace causal run.fails
    run.event.plan.onConnection 0 [] run.event.plan.body member (List.forall_mem_nil _)
  have ran : run.exec (trace.foldl Statement.exec {}) =
      if (execOnConnection run.fails 0 (trace.foldl Statement.exec {}) run.event.plan.onConnection).2 && !run.aborts
      then run.event.plan.body.foldl Statement.exec ((trace ++ part).foldl Statement.exec {})
      else (trace ++ part).foldl Statement.exec {} := by
    rw [HandlerRun.exec, ← state]
  have isProgram : run.event.plan.onConnection ++ (run.event.plan.body ++ []) ∈ programs := by
    rw [List.append_nil]
    exact member
  rw [ran]
  by_cases through : (execOnConnection run.fails 0 (trace.foldl Statement.exec {})
      run.event.plan.onConnection).2 = true ∧ run.aborts = false
  · refine ⟨part ++ run.event.plan.body, ?_, ?_, fun _ => ?_⟩
    · rw [through.1, through.2, ← List.append_assoc]
      exact List.foldl_append.symm
    · rw [← List.append_assoc]
      exact causalAfter.steps isProgram (finished through.1)
    · intro s inStatements
      rcases List.mem_append.mp inStatements with onConnection | inBody
      · refine (finished through.1 s onConnection).imp id (fun inPart => ?_)
        rw [← List.append_assoc]
        exact List.mem_append_left _ inPart
      · exact Or.inr (by simp [inBody])
  · refine ⟨part, ?_, causalAfter, fun finishes' => absurd ⟨finishes (fun j s found failed => ?_), finishes'.1⟩ through⟩
    · refine if_neg (fun both => through ?_)
      simpa using both
    · exact finishes'.2 j s found (by simpa using failed)

/-- The statements that took effect over a sequence of calls. -/
theorem ingestRuns_executes (events : List Event) (runs : List HandlerRun)
    (happened : ∀ run ∈ runs, run.event ∈ events) :
    ∃ executed, ingestRuns {} runs = executed.foldl Statement.exec {} ∧
      Causal Statement.Optional (events.map Event.statements) executed ∧
      ∀ run ∈ runs, run.Finishes → ∀ s ∈ run.event.statements, s.Optional ∨ s ∈ executed := by
  induction runs using List.reverseRecOn with
  | nil => exact ⟨[], rfl, Causal.nil, List.forall_mem_nil _⟩
  | append_singleton earlier run ih =>
    obtain ⟨executed, state, causal, finished⟩ :=
      ih (fun other member => happened other (List.mem_append_left _ member))
    have inEvents := happened run (List.mem_append_right _ List.mem_cons_self)
    obtain ⟨part, stateAfter, causalAfter, finishedRun⟩ := run.exec_causal causal (List.mem_map_of_mem inEvents)
    refine ⟨executed ++ part, ?_, causalAfter, fun other member finishes s inStatements => ?_⟩
    · rw [ingestRuns, List.foldl_concat, ← stateAfter, ← state]
      rfl
    · rcases List.mem_append.mp member with old | new
      · have before := finished other old finishes s inStatements
        exact before.imp id (fun inTrace => List.mem_append_left part inTrace)
      · rw [List.mem_singleton.mp new] at finishes inStatements
        exact finishedRun finishes s inStatements

end Runs

/-- The events of all trees may be handled in any order and again and again, with handlers
that fail at any statement and transactions that are rolled back: once every event was
handled without a failure that counts, the rows are those of handling each event once. -/
theorem ingestRuns_converges [Programs] (schema : Pubkey → SchemaVersion) (events : List Event)
    (histories : Histories schema events) (runs : List HandlerRun) (happened : ∀ run ∈ runs, run.event ∈ events)
    (finished : ∀ e ∈ events, ∃ run ∈ runs, run.event = e ∧ run.Finishes) :
    SameButAudits (ingestRuns {} runs) (ingest {} events) := by
  obtain ⟨executed, state, causal, through⟩ := ingestRuns_executes events runs happened
  have executes : Executes events executed := by
    refine ⟨causal, fun program inPrograms s member => ?_⟩
    obtain ⟨e, inEvents, rfl⟩ := List.mem_map.mp inPrograms
    obtain ⟨run, inRuns, rfl, finishes⟩ := finished e inEvents
    exact through run inRuns finishes s member
  rw [state]
  exact executes.sameButAudits histories

namespace Example

def moved : Event := transfer 2 20 (.fill 1)

/-- The transfer is rolled back before the mint comes, whose audit row is lost. -/
def disturbed : List HandlerRun :=
  [{ event := moved, fails := fun _ => false, aborts := true },
    { event := minted, fails := fun i => i == 1, aborts := false },
    { event := moved, fails := fun _ => false, aborts := false }]

theorem consistent_moved : Consistent .v1 [minted, moved] := by
  refine ⟨?_, ?_, ?_, ?_⟩
  · simp [Event.seq, minted, moved, mint, transfer, changeLog]
  · have seqs : ([minted, moved].map Event.seq).Nodup := by
      simp [Event.seq, minted, moved, mint, transfer, changeLog]
    exact fun e member e' member' => List.inj_on_of_nodup_map seqs member member'
  · simp only [List.forall_mem_cons]
    exact ⟨⟨fun le same => by cases same; rfl, fun _ => rfl⟩, ⟨fun le same => by cases same; rfl, fun _ => rfl⟩,
      List.forall_mem_nil _⟩
  · have transferred : moved.handler ≠ some .mint := fun other => by cases other
    simp only [List.forall_mem_cons]
    exact ⟨⟨fun _ _ => trivial, fun _ other => absurd other transferred, List.forall_mem_nil _⟩,
      ⟨fun other => absurd other transferred, fun other => absurd other transferred, List.forall_mem_nil _⟩,
      List.forall_mem_nil _⟩

theorem histories_moved : Histories (fun _ => .v1) [minted, moved] := by
  refine consistent_moved.histories (.fill 8) (fun e member cl update => ?_)
  simp only [List.mem_cons, List.not_mem_nil, or_false] at member
  rcases member with first | second
  · subst first
    cases update
    rfl
  · subst second
    cases update
    rfl

end Example

theorem ingestRuns_disturbed :
    SameButAudits (ingestRuns {} Example.disturbed) (ingest {} [Example.minted, Example.moved]) := by
  refine ingestRuns_converges (fun _ => .v1) _ Example.histories_moved _ (fun run member => ?_) (fun e member => ?_)
  · simp only [Example.disturbed, List.mem_cons, List.not_mem_nil, or_false] at member
    rcases member with first | second | third
    · simp [first]
    · simp [second]
    · simp [third]
  · simp only [List.mem_cons, List.not_mem_nil, or_false] at member
    rcases member with first | second
    · refine ⟨{ event := Example.minted, fails := fun i => i == 1, aborts := false }, by simp [Example.disturbed],
        first.symm, rfl, fun i s found failed => ?_⟩
      have second : i = 1 := by simpa using failed
      subst second
      cases found
      rfl
    · refine ⟨{ event := Example.moved, fails := fun _ => false, aborts := false }, by simp [Example.disturbed],
        second.symm, rfl, fun i s found failed => ?_⟩
      cases failed

end DasIndexer.Bubblegum
