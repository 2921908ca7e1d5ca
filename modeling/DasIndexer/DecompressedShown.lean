import DasIndexer.Accounts.Runs
import DasIndexer.Bubblegum.CreatorsShown
import DasIndexer.Decompression

namespace DasIndexer
open Sql Latest Bubblegum

/-- The collection of an asset that the API shows, with its verification, once
rows without a value are filtered out. -/
def shownCollection (db : Db) (id : Pubkey) : Option (String × Bool) :=
  (db.assetGrouping.lookup (id, "collection")).bind (fun row => row.groupValue.map (fun value => (value, row.verified)))

def Collection.shown (c : Collection) : String × Bool := (c.key.toBase58, c.verified)

namespace Bubblegum

/-- The asset whose collection an event writes, with the slot and the sequence
number of the event. -/
def Event.collectionUpdate [Programs] (event : Event) : Option (Pubkey × CollectionInfo) :=
  match event.handler, event.parsingResult.leafUpdate, event.parsingResult.treeUpdate,
    event.parsingResult.payload with
  | some .mint, some le, some cl, some (.mint metadata _ _) =>
    some (le.schema.id, { collection := metadata.collection, slotUpdated := event.bundle.slot, seq := cl.seq })
  | some .collectionVerification, some le, some cl, some (.collectionVerification collection verify) =>
    some (le.schema.id,
      { collection := verifiedCollection collection verify
        slotUpdated := event.bundle.slot
        seq := cl.seq })
  | _, _, _, _ => none

def Statement.collectionUpdate : Statement → Option (Pubkey × CollectionInfo)
  | .collectionInfo id info => some (id, info)
  | _ => none

/-- The row that a creator list proposes for position 0. -/
def CreatorsInfo.firstRow (info : CreatorsInfo) : AssetCreatorRow :=
  (info.creators.entries.head?.map info.creatorRow).getD info.emptyRow

theorem CreatorsInfo.rowAt_zero (info : CreatorsInfo) : info.rowAt 0 = some info.firstRow := by
  cases entries : info.creators.entries with
  | nil => simp [CreatorsInfo.rowAt, CreatorsInfo.firstRow, entries]
  | cons c rest => simp [CreatorsInfo.rowAt, CreatorsInfo.firstRow, entries]

section Events
variable [Programs]

theorem Event.filterMap_collectionUpdate (event : Event) :
    event.statements.filterMap Statement.collectionUpdate = event.collectionUpdate.toList := by
  have changeLog : ∀ cl bundle instruction,
      (saveChangelogEvent cl bundle instruction).filterMap Statement.collectionUpdate = [] := by
    intro cl bundle instruction
    refine List.filterMap_eq_nil_iff.mpr (fun s member => ?_)
    rcases mem_saveChangelogEvent member with ⟨entry, -, rfl⟩ | rfl | rfl <;> rfl
  unfold Event.statements Event.plan Event.collectionUpdate
  cases handler : event.handler with
  | none => simp [Plan.statements, Plan.body]
  | some h =>
    cases h with
    | transfer | delegate | redeem | burn | creatorVerification | updateMetadata =>
      simp only [transfer, delegationFreezingNontransferability, leafAndOwner, redeem, burn,
        creatorVerification, updateMetadata]
      split
      · simp [Plan.statements, Plan.body, changeLog, Statement.collectionUpdate]
      · simp [Plan.statements, Plan.body, Plan.fail]
    | cancelRedeem =>
      simp only [cancelRedeem]
      split
      · rename_i le cl leafUpdate treeUpdate
        cases le.schema <;> simp [Plan.statements, Plan.body, changeLog, Statement.collectionUpdate]
      · simp [Plan.statements, Plan.body, Plan.fail]
    | mint =>
      simp only [mint]
      split
      · rename_i leafUpdate treeUpdate payload
        simp [Plan.statements, Plan.body, changeLog, leafUpdate, treeUpdate, payload, NormalizedLeafFields.from_id]
        rfl
      · rename_i unparsed
        split
        · rename_i leafUpdate treeUpdate payload
          exact (unparsed _ _ _ _ _ leafUpdate treeUpdate payload).elim
        · contradiction
        · rfl
    | collectionVerification =>
      simp only [collectionVerification]
      split
      · rename_i leafUpdate treeUpdate payload
        simp [Plan.statements, Plan.body, changeLog, leafUpdate, treeUpdate, payload, NormalizedLeafFields.from_id]
        rfl
      · rename_i unparsed
        split
        · contradiction
        · rename_i leafUpdate treeUpdate payload
          exact (unparsed _ _ _ _ leafUpdate treeUpdate payload).elim
        · rfl

/-- The collections that a run writes for an asset. -/
def collectionUpdates (id : Pubkey) (deliveries : List Event) : List CollectionInfo :=
  deliveries.filterMap (fun event => event.collectionUpdate.bind (fun write =>
    if id = write.1 then some write.2 else none))

theorem groupWrites_eq (id : Pubkey) (deliveries : List Event) :
    (deliveries.flatMap Event.statements).filterMap (Statement.groupWrite (id, "collection")) =
      collectionUpdates id deliveries := by
  rw [List.filterMap_flatMap, collectionUpdates]
  induction deliveries with
  | nil => rfl
  | cons event rest ih =>
    have writes : event.statements.filterMap (Statement.groupWrite (id, "collection")) =
        (event.statements.filterMap Statement.collectionUpdate).filterMap (fun write =>
          if id = write.1 then some write.2 else none) := by
      rw [List.filterMap_filterMap]
      refine List.filterMap_congr (fun s _ => ?_)
      cases s with
      | collectionInfo key info => simp [Statement.groupWrite, Statement.collectionUpdate]
      | _ => rfl
    rw [List.flatMap_cons, ih, writes, event.filterMap_collectionUpdate]
    cases written : event.collectionUpdate with
    | none => simp [written]
    | some write =>
      by_cases same : id = write.1
      · simp [written, same]
      · simp [written, same]

end Events

end Bubblegum

section Interleaved
variable [Programs] (metadata : TokenMetadata.Metadata) (slot : Nat)

/-- The saves of a metadata account among Bubblegum statements. -/
def execOrSave (db : Db) : Option Statement → Db
  | some s => s.exec db
  | none => (TokenMetadata.saveV1Asset db metadata slot).1

/-- The database after the save came between two runs of Bubblegum events. -/
def ingestAround (db : Db) (before after : List Event) : Db :=
  ingest (TokenMetadata.saveV1Asset (ingest db before) metadata slot).1 after

/-- The statements of a run with a save in it. -/
def around (before after : List Event) : List (Option Statement) :=
  (before.flatMap Event.statements).map some ++ none :: (after.flatMap Event.statements).map some

theorem ingestAround_eq (db : Db) (before after : List Event) :
    ingestAround metadata slot db before after = (around before after).foldl (execOrSave metadata slot) db := by
  have statements : ∀ (db : Db) (deliveries : List Event), ingest db deliveries =
      ((deliveries.flatMap Event.statements).map some).foldl (execOrSave metadata slot) db := by
    intro db deliveries
    rw [ingest_eq_statements, List.foldl_map]
    rfl
  rw [ingestAround, around, List.foldl_append, List.foldl_cons, ← statements, ← statements]
  rfl

theorem around_filterMap {W : Type} (write : Statement → Option W) (before after : List Event) :
    (around before after).filterMap (fun e => e.bind write) =
      ((before ++ after).flatMap Event.statements).filterMap write := by
  have somes : ∀ statements : List Statement, (statements.map some).filterMap (fun e => e.bind write) =
      statements.filterMap write := by
    intro statements
    rw [List.filterMap_map]
    rfl
  rw [around, List.filterMap_append, List.filterMap_cons_none rfl, somes, somes, List.flatMap_append,
    List.filterMap_append]

variable {metadata slot} {db : Db} {before after : List Event}

theorem around_positive (positive : ∀ event ∈ before ++ after, 0 < event.seq) :
    ∀ e ∈ around before after, ∀ s, e = some s → s.Positive := by
  intro e member s same
  subst same
  have inStatements : s ∈ (before ++ after).flatMap Event.statements := by
    rw [List.flatMap_append, List.mem_append]
    simpa [around] using member
  obtain ⟨event, inEvents, inEvent⟩ := List.mem_flatMap.mp inStatements
  exact Event.statements_positive (positive event inEvents) inEvent

/-- Without a collection in the metadata account, the collection is left to the
Bubblegum events. -/
theorem ingestAround_uncollected (absent : metadata.collection = none)
    (fresh : db.assetGrouping.lookup (metadata.mint, "collection") = none)
    (positive : ∀ event ∈ before ++ after, 0 < event.seq) :
    (ingestAround metadata slot db before after).assetGrouping.lookup (metadata.mint, "collection") =
      (latest CollectionInfo.seq (collectionUpdates metadata.mint (before ++ after))).map CollectionInfo.model := by
  have keep : ∀ (db : Db) (e : Option Statement), (∀ s, e = some s → s.Positive) → True → True :=
    fun _ _ _ _ => trivial
  rw [ingestAround_eq, ← groupWrites_eq, ← around_filterMap]
  refine foldl_latest CollectionInfo.seq (fun db : Db => db.assetGrouping.lookup (metadata.mint, "collection"))
    (Option.map CollectionInfo.model) keep ?skip (around_positive positive) trivial fresh ?put
  case skip =>
    intro db e c _ _ nothing held
    cases e with
    | none =>
      rw [execOrSave, (TokenMetadata.saveV1Asset_saves db metadata slot).assetGrouping]
      simpa only [V1Asset.saveGrouping, TokenMetadata.Metadata.content, absent] using held
    | some s => exact (Statement.exec_assetGrouping_skip db nothing).trans held
  case put =>
    intro db e c info good _ written known held
    obtain ⟨s, rfl, writtenS⟩ := Option.bind_eq_some_iff.mp written
    obtain ⟨-, same⟩ := Statement.groupWrite_eq writtenS
    subst same
    refine Statement.exec_assetGrouping_put db (fun x stored => ?_) held
    obtain ⟨e', goodE, writtenE⟩ := known x stored
    obtain ⟨t, rfl, writtenT⟩ := Option.bind_eq_some_iff.mp writtenE
    exact goodE t rfl x.seq (by rw [(Statement.groupWrite_eq writtenT).2]; rfl)

/-- Without creators in the metadata account, the creators are left to the
Bubblegum events. -/
theorem ingestAround_uncreated (absent : metadata.creatorList.entries = []) (position : Nat)
    (fresh : db.assetCreators.lookup (metadata.mint, position) = none)
    (positive : ∀ event ∈ before ++ after, 0 < event.seq) :
    (ingestAround metadata slot db before after).assetCreators.lookup (metadata.mint, position) =
      latest AssetCreatorRow.version
        ((creatorsUpdates metadata.mint (before ++ after)).filterMap (fun info => info.rowAt position)) := by
  have keep : ∀ (db : Db) (e : Option Statement), (∀ s, e = some s → s.Positive) → True → True :=
    fun _ _ _ _ => trivial
  rw [ingestAround_eq, ← creatorWrites_eq, ← around_filterMap]
  refine foldl_latest AssetCreatorRow.version (fun db : Db => db.assetCreators.lookup (metadata.mint, position))
    (fun c => c) keep ?skip (around_positive positive) trivial fresh ?put
  case skip =>
    intro db e c _ _ nothing held
    cases e with
    | none =>
      rw [execOrSave, (TokenMetadata.saveV1Asset_saves db metadata slot).assetCreators]
      simpa only [V1Asset.saveCreators, TokenMetadata.Metadata.content, absent, List.isEmpty_nil, if_true] using held
    | some s => exact (Statement.exec_assetCreators_skip db nothing).trans held
  case put =>
    intro db e c row good _ written known held
    obtain ⟨s, rfl, writtenS⟩ := Option.bind_eq_some_iff.mp written
    obtain ⟨info, same, found⟩ := Statement.creatorWrite_eq writtenS
    subst same
    refine Statement.exec_assetCreators_put db found (fun x stored => ?_) held
    obtain ⟨e', goodE, writtenE⟩ := known x stored
    obtain ⟨t, rfl, writtenT⟩ := Option.bind_eq_some_iff.mp writtenE
    obtain ⟨infoT, sameT, foundT⟩ := Statement.creatorWrite_eq writtenT
    exact ⟨infoT.seq, goodE t rfl infoT.seq (by rw [sameT]; rfl), (CreatorsInfo.rowAt_seq foundT).1⟩

theorem ingest_assetGrouping_older {id : Pubkey} {deliveries : List Event}
    (older : ∀ event ∈ deliveries, event.bundle.slot < slot)
    (start : db.assetGrouping.lookup (id, "collection") = none) {row : AssetGroupingRow}
    (stored : (ingest db deliveries).assetGrouping.lookup (id, "collection") = some row) :
    ∃ t, row.slotUpdated = some t ∧ t < slot := by
  have keep : ∀ (db : Db) (s : Statement), s ∈ deliveries.flatMap Event.statements →
      (∀ row, db.assetGrouping.lookup (id, "collection") = some row → ∃ t, row.slotUpdated = some t ∧ t < slot) →
      ∀ row, (s.exec db).assetGrouping.lookup (id, "collection") = some row →
        ∃ t, row.slotUpdated = some t ∧ t < slot := by
    intro db s member held row stored
    rcases Statement.exec_assetGrouping_slot db stored with before | ⟨info, written, dated⟩
    · exact held row before
    · obtain ⟨event, inDeliveries, inEvent⟩ := List.mem_flatMap.mp member
      rw [(Statement.groupWrite_eq written).2] at inEvent
      have ofEvent : Statement.OfEvent event (.collectionInfo id info) :=
        Event.ofEvent_of_mem inEvent nofun nofun nofun
      rw [dated, ofEvent.2]
      exact ⟨_, rfl, older event inDeliveries⟩
  rw [ingest_eq_statements] at stored
  refine foldl_invariant (fun db : Db => ∀ row, db.assetGrouping.lookup (id, "collection") = some row →
    ∃ t, row.slotUpdated = some t ∧ t < slot) keep (deliveries.flatMap Event.statements) (fun _ member => member)
    ?_ row stored
  intro row impossible
  rw [start] at impossible
  cases impossible

/-- A collection in the metadata account is final. -/
theorem ingestAround_collected {c : Collection} (present : metadata.collection = some c)
    (fresh : db.assetGrouping.lookup (metadata.mint, "collection") = none)
    (older : ∀ event ∈ before ++ after, event.bundle.slot < slot) :
    shownCollection (ingestAround metadata slot db before after) metadata.mint = some c.shown := by
  have saved : ∃ row, (TokenMetadata.saveV1Asset (ingest db before) metadata slot).1.assetGrouping.lookup
      (metadata.mint, "collection") = some row ∧ row.groupInfoSeq = some 0 ∧
        row.groupValue = some c.key.toBase58 ∧ row.verified = c.verified := by
    rw [(TokenMetadata.saveV1Asset_saves _ metadata slot).assetGrouping]
    simp only [V1Asset.saveGrouping, TokenMetadata.Metadata.content, present, Table.lookup_upsert_self]
    refine ⟨_, rfl, ?_⟩
    cases stored : (ingest db before).assetGrouping.lookup (metadata.mint, "collection") with
    | none => exact ⟨rfl, rfl, rfl⟩
    | some row =>
      obtain ⟨t, dated, less⟩ := ingest_assetGrouping_older
        (fun event member => older event (List.mem_append_left after member)) fresh stored
      have accepted : ((V1Asset.groupingOnConflict gt).filter row (V1Asset.groupingRow c slot)).holds = true := by
        simpa [V1Asset.groupingOnConflict, V1Asset.groupingRow, dated] using less
      rw [OnConflict.resolve, if_pos accepted]
      exact ⟨rfl, rfl, rfl⟩
  obtain ⟨row, stored, frozen, value, verified⟩ := saved
  have keep : ∀ (db : Db) (s : Statement), True → db.assetGrouping.lookup (metadata.mint, "collection") = some row →
      (s.exec db).assetGrouping.lookup (metadata.mint, "collection") = some row :=
    fun db s _ held => Statement.exec_assetGrouping_frozen db held frozen s
  have final := foldl_invariant (fun db : Db => db.assetGrouping.lookup (metadata.mint, "collection") = some row) keep
    (after.flatMap Event.statements) (fun _ _ => trivial) stored
  rw [← ingest_eq_statements] at final
  rw [shownCollection, ingestAround, final, Option.bind_some, value, Option.map_some, verified, Collection.shown]

theorem ingest_assetCreators_older {id : Pubkey} {position : Nat} {deliveries : List Event}
    (older : ∀ event ∈ deliveries, event.bundle.slot < slot)
    (start : ∀ row, db.assetCreators.lookup (id, position) = some row → ∃ t, row.slotUpdated = some t ∧ t < slot)
    {row : AssetCreatorRow} (stored : (ingest db deliveries).assetCreators.lookup (id, position) = some row) :
    ∃ t, row.slotUpdated = some t ∧ t < slot := by
  have keep : ∀ (db : Db) (s : Statement), s ∈ deliveries.flatMap Event.statements →
      (∀ row, db.assetCreators.lookup (id, position) = some row → ∃ t, row.slotUpdated = some t ∧ t < slot) →
      ∀ row, (s.exec db).assetCreators.lookup (id, position) = some row →
        ∃ t, row.slotUpdated = some t ∧ t < slot := by
    intro db s member held row stored
    rcases Statement.exec_assetCreators_origin db stored with before | written
    · exact held row before
    · obtain ⟨event, inDeliveries, inEvent⟩ := List.mem_flatMap.mp member
      obtain ⟨info, same, found⟩ := Statement.creatorWrite_eq written
      rw [same] at inEvent
      have ofEvent : Statement.OfEvent event (.creators id info) := Event.ofEvent_of_mem inEvent nofun nofun nofun
      rw [(CreatorsInfo.rowAt_seq found).2, ofEvent.2]
      exact ⟨_, rfl, older event inDeliveries⟩
  rw [ingest_eq_statements] at stored
  exact foldl_invariant (fun db : Db => ∀ row, db.assetCreators.lookup (id, position) = some row →
    ∃ t, row.slotUpdated = some t ∧ t < slot) keep (deliveries.flatMap Event.statements) (fun _ member => member)
    start row stored

section Creators
variable (fresh : ∀ position, db.assetCreators.lookup (metadata.mint, position) = none)
  (older : ∀ event ∈ before ++ after, event.bundle.slot < slot)
include fresh older

theorem ingest_before_older {position : Nat} {row : AssetCreatorRow}
    (stored : (ingest db before).assetCreators.lookup (metadata.mint, position) = some row) :
    ∃ t, row.slotUpdated = some t ∧ t < slot := by
  refine ingest_assetCreators_older (fun event member => older event (List.mem_append_left after member)) ?_ stored
  intro row impossible
  rw [fresh position] at impossible
  cases impossible

/-- The positions behind the creators of the metadata account hold older rows. -/
theorem ingestAround_behind {position : Nat} (late : metadata.creatorList.entries.length ≤ position)
    {row : AssetCreatorRow}
    (stored : (ingestAround metadata slot db before after).assetCreators.lookup (metadata.mint, position) = some row) :
    ∃ t, row.slotUpdated = some t ∧ t < slot := by
  refine ingest_assetCreators_older (fun event member => older event (List.mem_append_right before member)) ?_ stored
  intro row saved
  have table : (TokenMetadata.saveV1Asset (ingest db before) metadata slot).1.assetCreators =
      (V1Asset.saveCreators (ingest db before) metadata.mint metadata.creatorList slot).assetCreators :=
    (TokenMetadata.saveV1Asset_saves (ingest db before) metadata slot).assetCreators
  rw [table, V1Asset.saveCreators_skip] at saved
  · exact ingest_before_older fresh older saved
  · intro _
    rw [V1Asset.creatorAt, List.getElem?_eq_none late]
    rfl

/-- The creators of the metadata account are written and stay. -/
theorem ingestAround_creatorAt {position : Nat} {row : AssetCreatorRow}
    (found : V1Asset.creatorAt metadata.creatorList slot position = some row) :
    (ingestAround metadata slot db before after).assetCreators.lookup (metadata.mint, position) = some row := by
  have table : (TokenMetadata.saveV1Asset (ingest db before) metadata slot).1.assetCreators =
      (V1Asset.saveCreators (ingest db before) metadata.mint metadata.creatorList slot).assetCreators :=
    (TokenMetadata.saveV1Asset_saves (ingest db before) metadata slot).assetCreators
  have saved : (TokenMetadata.saveV1Asset (ingest db before) metadata slot).1.assetCreators.lookup
      (metadata.mint, position) = some row := by
    rw [table, V1Asset.saveCreators_put _ _ _ found]
    cases stored : (ingest db before).assetCreators.lookup (metadata.mint, position) with
    | none => rfl
    | some old =>
      obtain ⟨t, dated, less⟩ := ingest_before_older fresh older stored
      have accepted : (V1Asset.creatorsOnConflict.filter old row).holds = true := by
        refine (holds_ge_or_isNull_of (V1Asset.creatorAt_slot found).1 old.slotUpdated).trans ?_
        simpa [dated] using less.le
      rw [OnConflict.resolve, if_pos accepted]
      rfl
  have keep : ∀ (db : Db) (s : Statement), True → db.assetCreators.lookup (metadata.mint, position) = some row →
      (s.exec db).assetCreators.lookup (metadata.mint, position) = some row :=
    fun db s _ held => Statement.exec_assetCreators_frozen db held (V1Asset.creatorAt_slot found).2 s
  rw [ingestAround, ingest_eq_statements]
  exact foldl_invariant (fun db : Db => db.assetCreators.lookup (metadata.mint, position) = some row) keep
    (after.flatMap Event.statements) (fun _ _ => trivial) saved

/-- Creators in the metadata account are final. -/
theorem ingestAround_created (present : metadata.creatorList.entries ≠ []) :
    shownCreators (ingestAround metadata slot db before after) metadata.mint =
      metadata.creatorList.entries.map (V1Asset.creatorRow slot) := by
  refine shownCreators_eq slot 0 (by simpa using present) ?_ ?_ ?_ ?_
  · intro position within
    rw [List.length_map] at within
    rw [List.getElem?_map, List.getElem?_eq_getElem within, Option.map_some]
    refine ingestAround_creatorAt fresh older ?_
    rw [V1Asset.creatorAt, List.getElem?_eq_getElem within, Option.map_some]
  · intro row inRows
    obtain ⟨c, -, rfl⟩ := List.mem_map.mp inRows
    exact ⟨rfl, rfl⟩
  · intro row inRows
    obtain ⟨c, -, rfl⟩ := List.mem_map.mp inRows
    exact c.address.bytes_ne_nil
  · intro position row late stored
    rw [List.length_map] at late
    obtain ⟨t, dated, less⟩ := ingestAround_behind fresh older late stored
    rw [NotNewer, dated]
    refine ⟨⟨Nat.succ_le_succ less.le, fun positive => absurd rfl positive⟩, fun same => ?_⟩
    exact absurd (Option.some.inj same.1) less.ne

end Creators

/-- Without creators in the metadata account, none are shown exactly when the
newest list of the Bubblegum events is empty. -/
theorem ingestAround_uncreated_iff (absent : metadata.creatorList.entries = [])
    (fresh : ∀ position, db.assetCreators.lookup (metadata.mint, position) = none)
    (positive : ∀ event ∈ before ++ after, 0 < event.seq) :
    shownCreators (ingestAround metadata slot db before after) metadata.mint = [] ↔
      ∀ info, latest CreatorsInfo.seq (creatorsUpdates metadata.mint (before ++ after)) = some info →
        info.creators.entries = [] := by
  have cells := fun position => @ingestAround_uncreated _ metadata slot db before after absent position
    (fresh position) positive
  have first : (ingestAround metadata slot db before after).assetCreators.lookup (metadata.mint, 0) =
      (latest CreatorsInfo.seq (creatorsUpdates metadata.mint (before ++ after))).map CreatorsInfo.firstRow := by
    rw [cells 0, List.filterMap_congr (fun info _ => info.rowAt_zero), List.filterMap_eq_map', latest_map]
    congr 2
    funext info
    exact CreatorsInfo.rowAt_version info.rowAt_zero
  rw [shownCreators_eq_nil_iff, first]
  · constructor
    · intro unnamed info newest
      have empty := unnamed _ (by rw [newest]; rfl)
      cases entries : info.creators.entries with
      | nil => rfl
      | cons c rest =>
        rw [CreatorsInfo.firstRow, entries] at empty
        exact absurd empty c.address.bytes_ne_nil
    · intro emptied row stored
      obtain ⟨info, newest, rfl⟩ := Option.map_eq_some_iff.mp stored
      rw [CreatorsInfo.firstRow, emptied info newest]
      rfl
  · rw [first, Option.map_eq_none_iff, latest_eq_none]
    intro never position
    rw [cells position, never]
    rfl

end Interleaved

/-- The collection and the creators shown for an asset are those of its metadata
account exactly when the account has them, or the newest Bubblegum event that
speaks of them says there are none. -/
theorem decompressed_shown_iff [Programs] (db : Db) (metadata : TokenMetadata.Metadata) (slot : Nat)
    (before after : List Event) (ungrouped : db.assetGrouping.lookup (metadata.mint, "collection") = none)
    (uncreated : ∀ position, db.assetCreators.lookup (metadata.mint, position) = none)
    (positive : ∀ event ∈ before ++ after, 0 < event.seq)
    (older : ∀ event ∈ before ++ after, event.bundle.slot < slot) :
    shownCollection (ingestAround metadata slot db before after) metadata.mint =
          metadata.collection.map Collection.shown ∧
        (shownCreators (ingestAround metadata slot db before after) metadata.mint).map AssetCreatorRow.shown =
          metadata.creatorList.entries.map Creator.shown ↔
      (metadata.collection.isSome ∨
        ∀ info, latest CollectionInfo.seq (collectionUpdates metadata.mint (before ++ after)) = some info →
          info.collection = none) ∧
        (metadata.creatorList.entries ≠ [] ∨
          ∀ info, latest CreatorsInfo.seq (creatorsUpdates metadata.mint (before ++ after)) = some info →
            info.creators.entries = []) := by
  refine and_congr ?collection ?creators
  case collection =>
    cases present : metadata.collection with
    | some c =>
      rw [ingestAround_collected present ungrouped older]
      exact ⟨fun _ => Or.inl rfl, fun _ => rfl⟩
    | none =>
      rw [shownCollection, ingestAround_uncollected present ungrouped positive]
      cases latest CollectionInfo.seq (collectionUpdates metadata.mint (before ++ after)) with
      | none => exact ⟨fun _ => Or.inr nofun, fun _ => rfl⟩
      | some info =>
        cases collection : info.collection with
        | none => simp [CollectionInfo.model, collection]
        | some c => simp [CollectionInfo.model, collection]
  case creators =>
    by_cases present : metadata.creatorList.entries = []
    · rw [present, List.map_nil, List.map_eq_nil_iff, ingestAround_uncreated_iff present uncreated positive]
      simp
    · rw [ingestAround_created uncreated older present, List.map_map]
      exact ⟨fun _ => Or.inl present, fun _ => rfl⟩

/-- A metadata account with a verified collection and a creator. -/
def TokenMetadata.Example.complete : Metadata :=
  metadata 600 true (some .nonFungible) (some oneCreator) (some collection)

theorem decompressed_shown_complete :
    shownCollection (ingestAround TokenMetadata.Example.complete 10 {}
        [Bubblegum.Example.mint 1 5 (.fill 2) Bubblegum.Example.twoCreators none]
        [Bubblegum.Example.verifyCreator 2 6 Bubblegum.Example.twoCreators (.fill 3)]) (.fill 7) =
      some TokenMetadata.Example.collection.shown ∧
    (shownCreators (ingestAround TokenMetadata.Example.complete 10 {}
        [Bubblegum.Example.mint 1 5 (.fill 2) Bubblegum.Example.twoCreators none]
        [Bubblegum.Example.verifyCreator 2 6 Bubblegum.Example.twoCreators (.fill 3)]) (.fill 7)).map
          AssetCreatorRow.shown = TokenMetadata.Example.oneCreator.entries.map Creator.shown := by
  refine (decompressed_shown_iff {} TokenMetadata.Example.complete 10 _ _ rfl (fun _ => rfl) ?_ ?_).mpr
    ⟨Or.inl rfl, Or.inl nofun⟩
  · simp [Event.seq, Bubblegum.Example.verifyCreator, Bubblegum.Example.mint, Bubblegum.Example.changeLog]
  · simp [Bubblegum.Example.verifyCreator, Bubblegum.Example.mint]

/-- A mint with a creator and a collection. -/
def Bubblegum.Example.collected : Event := mint 1 5 (.fill 2) oneCreator (some TokenMetadata.Example.collection)

theorem Bubblegum.Example.collected_shown {before after : List Event} (minted : before ++ after = [collected]) :
    shownCollection (ingestAround TokenMetadata.Example.nft 10 {} before after) TokenMetadata.Example.nft.mint ≠
        TokenMetadata.Example.nft.collection.map Collection.shown ∧
      (shownCreators (ingestAround TokenMetadata.Example.nft 10 {} before after) TokenMetadata.Example.nft.mint).map
          AssetCreatorRow.shown ≠ TokenMetadata.Example.nft.creatorList.entries.map Creator.shown := by
  have positive : ∀ event ∈ before ++ after, 0 < event.seq := by
    simp [minted, Event.seq, collected, mint, changeLog]
  constructor
  · rw [shownCollection, ingestAround_uncollected rfl rfl positive, minted]
    decide
  · intro empty
    have none := (ingestAround_uncreated_iff rfl (fun _ => rfl) positive).mp (List.map_eq_nil_iff.mp empty)
    rw [minted] at none
    exact absurd (none _ rfl) (List.cons_ne_nil _ _)

/-- The collection and the creators of the mint survive a decompression without
either, whether the mint comes before or after it. -/
theorem decompressed_shown_stale :
    (shownCollection (ingestAround TokenMetadata.Example.nft 10 {} [Bubblegum.Example.collected] [])
          TokenMetadata.Example.nft.mint ≠ TokenMetadata.Example.nft.collection.map Collection.shown ∧
        (shownCreators (ingestAround TokenMetadata.Example.nft 10 {} [Bubblegum.Example.collected] [])
          TokenMetadata.Example.nft.mint).map AssetCreatorRow.shown ≠
            TokenMetadata.Example.nft.creatorList.entries.map Creator.shown) ∧
      shownCollection (ingestAround TokenMetadata.Example.nft 10 {} [] [Bubblegum.Example.collected])
          TokenMetadata.Example.nft.mint ≠ TokenMetadata.Example.nft.collection.map Collection.shown ∧
        (shownCreators (ingestAround TokenMetadata.Example.nft 10 {} [] [Bubblegum.Example.collected])
          TokenMetadata.Example.nft.mint).map AssetCreatorRow.shown ≠
            TokenMetadata.Example.nft.creatorList.entries.map Creator.shown :=
  ⟨Bubblegum.Example.collected_shown rfl, Bubblegum.Example.collected_shown rfl⟩

end DasIndexer
