import DasIndexer.Bubblegum.Cells
import DasIndexer.Mainnet

namespace DasIndexer.Bubblegum
open Sql Latest

/-- Both databases have the same rows, up to the column `slot_updated` that
the trigger maintains; `backfill_items` is a work queue and not compared. -/
structure SameRows (db other : Db) : Prop where
  asset : ∀ id, (db.asset.lookup id).map (fun row => { row with slotUpdated := none }) =
    (other.asset.lookup id).map (fun row => { row with slotUpdated := none })
  assetData : ∀ id, db.assetData.lookup id = other.assetData.lookup id
  assetCreators : ∀ key, db.assetCreators.lookup key = other.assetCreators.lookup key
  assetGrouping : ∀ key, db.assetGrouping.lookup key = other.assetGrouping.lookup key
  assetAuthority : ∀ id, db.assetAuthority.lookup id = other.assetAuthority.lookup id
  clItems : ∀ key, db.clItems.lookup key = other.clItems.lookup key
  clAuditsV2 : ∀ key, db.clAuditsV2.lookup key = other.clAuditsV2.lookup key

/-- The assumptions on a set of events: sequence numbers start at 1 and name
their event, the leaves follow one schema and the asset is minted once. -/
structure Consistent (schema : SchemaVersion) (events : List Event) : Prop where
  positive : ∀ e ∈ events, 0 < e.seq
  distinct : Identifies Event.seq events
  ofVersion : ∀ e ∈ events, e.OfVersion schema
  oneMint : ∀ e ∈ events, ∀ e' ∈ events, e.handler = some .mint → e'.handler = some .mint → e = e'

section
variable [Programs] {schema : SchemaVersion} {events deliveries : List Event}

omit [Programs] in
theorem Consistent.mono (consistent : Consistent schema events)
    (included : ∀ e ∈ deliveries, e ∈ events) : Consistent schema deliveries where
  positive e member := consistent.positive e (included e member)
  distinct e member e' member' := consistent.distinct e (included e member) e' (included e' member')
  ofVersion e member := consistent.ofVersion e (included e member)
  oneMint e member e' member' := consistent.oneMint e (included e member) e' (included e' member')

theorem Consistent.admissible (consistent : Consistent schema events) :
    ∀ s ∈ events.flatMap Event.statements, s.Admissible schema := by
  intro s member
  obtain ⟨e, inEvents, inStatements⟩ := List.mem_flatMap.mp member
  exact Event.admissible (consistent.positive e inEvents) (consistent.ofVersion e inEvents) inStatements

theorem Consistent.positive_statements (consistent : Consistent schema events) :
    ∀ s ∈ events.flatMap Event.statements, s.Positive :=
  fun s member => (consistent.admissible s member).positive

/-- Writes of one kind are identified by their version. -/
theorem Consistent.identifies (consistent : Consistent schema events) {W : Type}
    {write : Statement → Option W} {ver : W → Nat} (kind : Kind) (noItem : kind ≠ .clItem)
    (kinded : ∀ s w, write s = some w → s.kind = kind ∧ s.version = some (ver w)) :
    Identifies ver ((events.flatMap Event.statements).filterMap write) := by
  intro w memberW x memberX same
  obtain ⟨s, inS, writtenW⟩ := List.mem_filterMap.mp memberW
  obtain ⟨t, inT, writtenX⟩ := List.mem_filterMap.mp memberX
  obtain ⟨e, inEvents, inE⟩ := List.mem_flatMap.mp inS
  obtain ⟨e', inEvents', inE'⟩ := List.mem_flatMap.mp inT
  obtain ⟨kindS, versionS⟩ := kinded s w writtenW
  obtain ⟨kindT, versionT⟩ := kinded t x writtenX
  have sameSeq : e.seq = e'.seq := by
    rw [← Event.version_eq inE versionS, ← Event.version_eq inE' versionT, same]
  have sameEvent := consistent.distinct e inEvents e' inEvents' sameSeq
  subst sameEvent
  have sameStatement := Event.statement_unique inE inE' (kindS.trans kindT.symm) (by rwa [kindS])
  subst sameStatement
  exact Option.some.inj (writtenW.symm.trans writtenX)

theorem mem_writes_congr (same : ∀ e, e ∈ deliveries ↔ e ∈ events) {W : Type}
    (write : Statement → Option W) (w : W) :
    w ∈ (deliveries.flatMap Event.statements).filterMap write ↔
      w ∈ (events.flatMap Event.statements).filterMap write := by
  simp only [List.mem_filterMap, List.mem_flatMap, same]

/-- The newest write of a kind does not depend on the order of delivery. -/
theorem Consistent.latest_congr (consistent : Consistent schema deliveries)
    (same : ∀ e, e ∈ deliveries ↔ e ∈ events) {W : Type} {write : Statement → Option W} {ver : W → Nat}
    (kind : Kind) (noItem : kind ≠ .clItem)
    (kinded : ∀ s w, write s = some w → s.kind = kind ∧ s.version = some (ver w)) :
    latest ver ((deliveries.flatMap Event.statements).filterMap write) =
      latest ver ((events.flatMap Event.statements).filterMap write) :=
  Latest.latest_congr (consistent.identifies kind noItem kinded) (mem_writes_congr same write)

/-- Neither does the only write of a cell that is never overwritten. -/
theorem argmax_congr (same : ∀ e, e ∈ deliveries ↔ e ∈ events) {W : Type} {write : Statement → Option W}
    (unique : ∀ w ∈ (deliveries.flatMap Event.statements).filterMap write,
      ∀ x ∈ (deliveries.flatMap Event.statements).filterMap write, w = x) :
    ((deliveries.flatMap Event.statements).filterMap write).argmax (fun _ => 0) =
      ((events.flatMap Event.statements).filterMap write).argmax (fun _ => 0) := by
  have members := mem_writes_congr same write
  have identifies : Identifies (fun _ => 0) ((deliveries.flatMap Event.statements).filterMap write) :=
    fun w memberW x memberX _ => unique w memberW x memberX
  have identifies' : Identifies (fun _ => 0) ((events.flatMap Event.statements).filterMap write) :=
    fun w memberW x memberX _ => unique w ((members w).mpr memberW) x ((members x).mpr memberX)
  rw [argmax_eq_latest identifies, argmax_eq_latest identifies', Latest.latest_congr identifies members]

omit [Programs] in
theorem lookup_ext {β : Type} {columns : AssetRow → β} {db other : Db} {id : Pubkey}
    (presence : (db.asset.lookup id).isSome = (other.asset.lookup id).isSome)
    (same : columns (db.assetOrDefault id) = columns (other.assetOrDefault id)) :
    (db.asset.lookup id).map columns = (other.asset.lookup id).map columns := by
  unfold Db.assetOrDefault at same
  cases stored : db.asset.lookup id with
  | none =>
    rw [stored, Option.isSome_none, eq_comm, Option.isSome_eq_false_iff, Option.isNone_iff_eq_none] at presence
    rw [presence]
  | some row =>
    rw [stored, Option.isSome_some, eq_comm, Option.isSome_iff_exists] at presence
    obtain ⟨otherRow, storedOther⟩ := presence
    rw [stored, storedOther, Option.getD_some, Option.getD_some] at same
    rw [storedOther, Option.map_some, Option.map_some, same]

theorem Consistent.asset_congr (consistent : Consistent schema deliveries)
    (consistent' : Consistent schema events) (same : ∀ e, e ∈ deliveries ↔ e ∈ events) (id : Pubkey) :
    ((ingest {} deliveries).asset.lookup id).map (fun row => { row with slotUpdated := none }) =
      ((ingest {} events).asset.lookup id).map (fun row => { row with slotUpdated := none }) := by
  rw [ingest_eq_statements, ingest_eq_statements]
  have good := consistent.admissible
  have good' := consistent'.admissible
  have positive := consistent.positive_statements
  have positive' := consistent'.positive_statements
  refine lookup_ext ?presence (asset_ext ?leaf ?owner ?compression ?base ?rest ?seq ?burnt)
  case presence =>
    rw [run_isSome, run_isSome, Bool.eq_iff_iff]
    simp only [Bool.or_eq_true, List.any_eq_true, List.mem_flatMap, same]
  case leaf =>
    rw [run_leafColumns id good, run_leafColumns id good',
      consistent.latest_congr same .leafInfo nofun (fun s w written => by
        rw [Statement.leafWrite_eq written]; exact ⟨rfl, rfl⟩)]
  case owner =>
    rw [run_ownerColumns id positive, run_ownerColumns id positive',
      consistent.latest_congr same .ownerInfo nofun (fun s w written => by
        rw [Statement.ownerWrite_eq written]; exact ⟨rfl, rfl⟩)]
  case base =>
    rw [run_baseColumns id positive, run_baseColumns id positive',
      consistent.latest_congr same .baseInfo nofun (fun s w written => by
        rw [Statement.baseWrite_eq written]; exact ⟨rfl, rfl⟩)]
  case seq =>
    rw [run_seq id positive, run_seq id positive',
      consistent.latest_congr same .assetSeq nofun (fun s w written => by
        rw [Statement.seqWrite_eq written]; exact ⟨rfl, rfl⟩)]
  case compression =>
    rw [run_compressionColumns id positive, run_compressionColumns id positive',
      Latest.latest_congr ?_ (mem_writes_congr same (Statement.compressionWrite id))]
    intro w memberW x memberX _
    obtain ⟨s, inS, writtenW⟩ := List.mem_filterMap.mp memberW
    obtain ⟨t, inT, writtenX⟩ := List.mem_filterMap.mp memberX
    rw [(good s inS).compression id w (Statement.compressionWrite_eq writtenW),
      (good t inT).compression id x (Statement.compressionWrite_eq writtenX)]
  case rest => rw [run_otherColumns, run_otherColumns]
  case burnt =>
    rw [run_burnt, run_burnt, argmax_congr same (fun _ _ _ _ => rfl)]

/-- The first node of an event's path at an index. -/
def Event.firstItem (key : Pubkey × Nat) (event : Event) : Option ClItemRow :=
  (event.statements.filterMap (Statement.itemWrite key)).head?

theorem Event.firstItem_seq {key : Pubkey × Nat} {event : Event} {item : ClItemRow}
    (member : item ∈ event.statements.filterMap (Statement.itemWrite key)) : item.seq = event.seq := by
  obtain ⟨s, inStatements, written⟩ := List.mem_filterMap.mp member
  exact Event.version_eq inStatements (by rw [Statement.itemWrite_eq written]; rfl)

/-- The row of a node is the one of the newest event whose path goes through it. -/
theorem ingest_clItems (deliveries : List Event) (key : Pubkey × Nat) :
    (ingest {} deliveries).clItems.lookup key =
      (deliveries.filterMap (Event.firstItem key)).argmax ClItemRow.seq := by
  rw [ingest_eq_statements, run_clItems _ rfl, List.filterMap_flatMap]
  exact argmax_flatMap ClItemRow.seq deliveries (fun e _ item member => Event.firstItem_seq member)

theorem identifies_firstItem (distinct : Identifies Event.seq events) (key : Pubkey × Nat) :
    Identifies ClItemRow.seq (events.filterMap (Event.firstItem key)) := by
  intro w memberW x memberX sameSeq
  obtain ⟨e, inEvents, firstW⟩ := List.mem_filterMap.mp memberW
  obtain ⟨e', inEvents', firstX⟩ := List.mem_filterMap.mp memberX
  rw [Event.firstItem_seq (List.mem_of_mem_head? firstW),
    Event.firstItem_seq (List.mem_of_mem_head? firstX)] at sameSeq
  have sameEvent := distinct e inEvents e' inEvents' sameSeq
  subst sameEvent
  exact Option.some.inj (firstW.symm.trans firstX)

theorem clItems_congr (distinct : Identifies Event.seq deliveries) (distinct' : Identifies Event.seq events)
    (same : ∀ e, e ∈ deliveries ↔ e ∈ events) (key : Pubkey × Nat) :
    (ingest {} deliveries).clItems.lookup key = (ingest {} events).clItems.lookup key := by
  rw [ingest_clItems, ingest_clItems, argmax_eq_latest (identifies_firstItem distinct key),
    argmax_eq_latest (identifies_firstItem distinct' key)]
  refine Latest.latest_congr (identifies_firstItem distinct key) (fun item => ?_)
  simp only [List.mem_filterMap, same]

theorem Consistent.assetAuthority_congr (consistent : Consistent schema deliveries)
    (same : ∀ e, e ∈ deliveries ↔ e ∈ events) (id : Pubkey) :
    (ingest {} deliveries).assetAuthority.lookup id = (ingest {} events).assetAuthority.lookup id := by
  rw [ingest_eq_statements, ingest_eq_statements, run_assetAuthority, run_assetAuthority, argmax_congr same]
  have minted : ∀ e ∈ deliveries, ∀ info, Statement.authority id info ∈ e.statements →
      e.handler = some .mint := by
    intro e inEvents info member
    obtain ⟨cl, indexes, inLog | inBody⟩ := Event.mem_statements member
    · rcases mem_saveChangelogEvent inLog with ⟨entry, -, item⟩ | audit | backfill
      · cases item
      · cases audit
      · cases backfill
    · exact indexes.ofEvent _ inBody
  intro w memberW x memberX
  obtain ⟨s, inS, writtenW⟩ := List.mem_filterMap.mp memberW
  obtain ⟨t, inT, writtenX⟩ := List.mem_filterMap.mp memberX
  obtain ⟨e, inEvents, inE⟩ := List.mem_flatMap.mp inS
  obtain ⟨e', inEvents', inE'⟩ := List.mem_flatMap.mp inT
  rw [Statement.authorityWrite_eq writtenW] at inE
  rw [Statement.authorityWrite_eq writtenX] at inE'
  have sameEvent := consistent.oneMint e inEvents e' inEvents' (minted e inEvents w inE)
    (minted e' inEvents' x inE')
  subst sameEvent
  cases Event.statement_unique inE inE' rfl nofun
  rfl

theorem Consistent.clAuditsV2_congr (consistent : Consistent schema deliveries)
    (same : ∀ e, e ∈ deliveries ↔ e ∈ events) (key : Pubkey × Nat × Nat) :
    (ingest {} deliveries).clAuditsV2.lookup key = (ingest {} events).clAuditsV2.lookup key := by
  rw [ingest_eq_statements, ingest_eq_statements, run_clAuditsV2, run_clAuditsV2, argmax_congr same]
  intro w memberW x memberX
  obtain ⟨s, inS, writtenW⟩ := List.mem_filterMap.mp memberW
  obtain ⟨t, inT, writtenX⟩ := List.mem_filterMap.mp memberX
  obtain ⟨e, inEvents, inE⟩ := List.mem_flatMap.mp inS
  obtain ⟨e', inEvents', inE'⟩ := List.mem_flatMap.mp inT
  rw [Statement.auditWrite_eq writtenW] at inE
  rw [Statement.auditWrite_eq writtenX] at inE'
  have sameEvent := consistent.distinct e inEvents e' inEvents'
    ((Event.version_eq inE rfl).symm.trans (Event.version_eq inE' rfl))
  subst sameEvent
  cases Event.statement_unique inE inE' rfl nofun
  rfl

theorem Consistent.sameRows (consistent : Consistent schema deliveries)
    (consistent' : Consistent schema events) (same : ∀ e, e ∈ deliveries ↔ e ∈ events) :
    SameRows (ingest {} deliveries) (ingest {} events) where
  asset := consistent.asset_congr consistent' same
  assetData id := by
    rw [ingest_eq_statements, ingest_eq_statements, run_assetData id consistent.admissible,
      run_assetData id consistent'.admissible, consistent.latest_congr same .assetData nofun
        (fun s w written => by rw [Statement.dataWrite_eq written]; exact ⟨rfl, rfl⟩)]
  assetCreators := fun (id, position) => by
    rw [ingest_eq_statements, ingest_eq_statements, run_assetCreators id consistent.positive_statements,
      run_assetCreators id consistent'.positive_statements]
    refine consistent.latest_congr same .creators nofun (fun s row written => ?_)
    obtain ⟨info, rfl, found⟩ := Statement.creatorWrite_eq written
    rw [CreatorsInfo.rowAt_version found]
    exact ⟨rfl, rfl⟩
  assetGrouping := fun (id, group) => by
    rw [ingest_eq_statements, ingest_eq_statements, run_assetGrouping id consistent.positive_statements,
      run_assetGrouping id consistent'.positive_statements, consistent.latest_congr same .collectionInfo nofun
        (fun s w written => by rw [(Statement.groupWrite_eq written).2]; exact ⟨rfl, rfl⟩)]
  assetAuthority := consistent.assetAuthority_congr same
  clItems := clItems_congr consistent.distinct consistent'.distinct same
  clAuditsV2 := consistent.clAuditsV2_congr same

/-- Bubblegum events may be delivered in any order and repeatedly: the rows
are those of delivering each event once in the order of the tree. -/
theorem ingest_delivery_order (schema : SchemaVersion) (events deliveries : List Event)
    (ascending : events.Pairwise (fun e e' => e.seq < e'.seq)) (positive : ∀ e ∈ events, 0 < e.seq)
    (oneVersion : ∀ e ∈ events, e.OfVersion schema)
    (oneMint : ∀ e ∈ events, ∀ e' ∈ events, e.handler = some .mint → e'.handler = some .mint → e = e')
    (same : ∀ e, e ∈ deliveries ↔ e ∈ events) :
    SameRows (ingest {} deliveries) (ingest {} events) := by
  have distinct : Identifies Event.seq events := by
    have seqs : (events.map Event.seq).Nodup :=
      List.pairwise_map.mpr (ascending.imp (fun less => less.ne))
    exact fun e member e' member' => List.inj_on_of_nodup_map seqs member member'
  have consistent : Consistent schema events := ⟨positive, distinct, oneVersion, oneMint⟩
  exact (consistent.mono (fun e member => (same e).mp member)).sameRows consistent same

end

theorem ingest_transfer_before_mint :
    SameRows
      (ingest {} [Example.transfer 2 20 (.fill 1), Example.mint 1 10 (.fill 2) .empty none,
        Example.transfer 2 20 (.fill 1)])
      (ingest {} [Example.mint 1 10 (.fill 2) .empty none, Example.transfer 2 20 (.fill 1)]) := by
  refine ingest_delivery_order .v1 _ _ ?_ ?_ ?_ ?_ ?_
  · simp [Event.seq, Example.mint, Example.transfer, Example.changeLog]
  · simp [Event.seq, Example.mint, Example.transfer, Example.changeLog]
  · simp only [List.forall_mem_cons]
    exact ⟨⟨fun le same => by cases same; rfl, fun _ => rfl⟩, ⟨fun le same => by cases same; rfl, fun _ => rfl⟩,
      by simp⟩
  · simp only [List.forall_mem_cons]
    have transferred : (Example.transfer 2 20 (.fill 1)).handler ≠ some .mint := fun other => by cases other
    exact ⟨⟨fun _ _ => trivial, fun _ other => absurd other transferred, by simp⟩,
      ⟨fun other => absurd other transferred, fun other => absurd other transferred, by simp⟩, by simp⟩
  · intro e
    simp only [List.mem_cons, List.not_mem_nil, or_false]
    tauto

end DasIndexer.Bubblegum
