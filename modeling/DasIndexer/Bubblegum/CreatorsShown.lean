import DasIndexer.Bubblegum.Convergence
import DasIndexer.Dao

namespace DasIndexer.Bubblegum
open Sql Latest

def LeafSchema.id : LeafSchema → Pubkey
  | .v1 id .. => id
  | .v2 id .. => id

/-- The asset whose creators an event writes and the list it carries, with the
slot and the sequence number of the event. -/
def Event.creatorsUpdate (event : Event) : Option (Pubkey × CreatorsInfo) :=
  match event.handler, event.parsingResult.leafUpdate, event.parsingResult.treeUpdate,
    event.parsingResult.payload with
  | some .mint, some le, some cl, some (.mint metadata _ _) =>
    some (le.schema.id, { creators := metadata.creators, slotUpdated := event.bundle.slot, seq := cl.seq })
  | some .updateMetadata, some le, some cl, some (.updateMetadata currentMetadata updateArgs _) =>
    some (le.schema.id,
      { creators := updateArgs.creators.getD currentMetadata.creators
        slotUpdated := event.bundle.slot
        seq := cl.seq })
  | some .creatorVerification, some le, some cl, some (.creatorVerification metadata creator verify) =>
    some (le.schema.id,
      { creators := updatedCreators metadata.creators creator verify
        slotUpdated := event.bundle.slot
        seq := cl.seq })
  | _, _, _, _ => none

def Statement.creatorsInfo : Statement → Option (Pubkey × CreatorsInfo)
  | .creators id info => some (id, info)
  | _ => none

theorem Statement.creatorWrite_eq_bind (key : Pubkey × Nat) (s : Statement) :
    s.creatorWrite key = s.creatorsInfo.bind (fun write => if key.1 = write.1 then write.2.rowAt key.2 else none) := by
  cases s <;> rfl

theorem CreatorsInfo.rowAt_of_lt {info : CreatorsInfo} {position : Nat}
    (within : position < info.creators.entries.length) :
    info.rowAt position = (info.creators.entries.map info.creatorRow)[position]? := by
  have nonempty : ¬ info.creators.entries.isEmpty := by
    intro empty
    rw [List.isEmpty_iff.mp empty] at within
    simp at within
  rw [CreatorsInfo.rowAt, if_neg nonempty, List.getElem?_map]

section Shown
variable {db : Db} {id : Pubkey} {infos : List CreatorsInfo}

/-- The row at a position that the newest list reaches is its own. -/
theorem latest_rowAt {newest : CreatorsInfo} {position : Nat} {row : AssetCreatorRow}
    (distinct : Identifies CreatorsInfo.seq infos) (isNewest : latest CreatorsInfo.seq infos = some newest)
    (found : newest.rowAt position = some row) :
    latest AssetCreatorRow.version (infos.filterMap (fun info => info.rowAt position)) = some row := by
  refine latest_eq_of_greatest ?_ (List.mem_filterMap.mpr ⟨newest, latest_mem _ isNewest, found⟩) ?_
  · intro x memberX y memberY sameSeq
    obtain ⟨i, inInfos, foundX⟩ := List.mem_filterMap.mp memberX
    obtain ⟨j, inInfos', foundY⟩ := List.mem_filterMap.mp memberY
    rw [CreatorsInfo.rowAt_version foundX, CreatorsInfo.rowAt_version foundY] at sameSeq
    rw [distinct i inInfos j inInfos' sameSeq, foundY] at foundX
    exact (Option.some.inj foundX).symm
  · intro x memberX
    obtain ⟨i, inInfos, foundX⟩ := List.mem_filterMap.mp memberX
    rw [CreatorsInfo.rowAt_version foundX, CreatorsInfo.rowAt_version found]
    exact le_latest _ isNewest inInfos

/-- Rows of longer older lists are left behind, yet only the newest list is
shown: every other row is older in the slot or in the sequence number. -/
theorem shownCreators_newest
    (cells : ∀ position, db.assetCreators.lookup (id, position) =
      latest AssetCreatorRow.version (infos.filterMap (fun info => info.rowAt position)))
    (positive : ∀ info ∈ infos, 0 < info.seq) (distinct : Identifies CreatorsInfo.seq infos)
    (slots : ∀ i ∈ infos, ∀ j ∈ infos, i.seq ≤ j.seq → i.slotUpdated ≤ j.slotUpdated)
    {newest : CreatorsInfo} (isNewest : latest CreatorsInfo.seq infos = some newest) :
    shownCreators db id = newest.creators.entries.map newest.creatorRow := by
  by_cases empty : newest.creators.entries = []
  · have placeholder : newest.rowAt 0 = some newest.emptyRow := by
      simp [CreatorsInfo.rowAt, empty]
    rw [empty, List.map_nil]
    refine shownCreators_empty ((cells 0).trans (latest_rowAt distinct isNewest placeholder)) rfl
  · refine shownCreators_eq newest.slotUpdated newest.seq ?_ ?_ ?_ ?_ ?_
    · simpa using empty
    · intro i within
      rw [List.length_map] at within
      have reached := CreatorsInfo.rowAt_of_lt within
      obtain ⟨row, found⟩ : ∃ row, newest.rowAt i = some row := by
        rw [reached, List.getElem?_map]
        exact ⟨_, by rw [List.getElem?_eq_getElem within]; rfl⟩
      rw [cells, latest_rowAt distinct isNewest found, ← reached, found]
    · intro row member
      obtain ⟨c, -, rfl⟩ := List.mem_map.mp member
      exact ⟨rfl, rfl⟩
    · intro row member
      obtain ⟨c, -, rfl⟩ := List.mem_map.mp member
      exact c.address.bytes_ne_nil
    · intro i row late stored
      rw [cells] at stored
      obtain ⟨info, inInfos, found⟩ := List.mem_filterMap.mp (latest_mem _ stored)
      obtain ⟨rowSeq, rowSlot⟩ := CreatorsInfo.rowAt_seq found
      have older := le_latest _ isNewest inInfos
      have olderSlot := slots info inInfos newest (latest_mem _ isNewest) older
      have differs : info ≠ newest := by
        rintro rfl
        rw [List.length_map] at late
        have nonempty : ¬ info.creators.entries.isEmpty := by simpa using empty
        rw [CreatorsInfo.rowAt, if_neg nonempty, List.getElem?_eq_none late] at found
        cases found
      rw [NotNewer, rowSeq, rowSlot]
      refine ⟨⟨Nat.succ_le_succ olderSlot, fun _ _ => ⟨?_, Nat.succ_le_succ older⟩⟩, fun same => differs ?_⟩
      · simpa using (positive info inInfos).ne'
      · exact distinct info inInfos newest (latest_mem _ isNewest) (Option.some.inj same.2)

end Shown

theorem NormalizedLeafFields.from_id (schema : LeafSchema) :
    (NormalizedLeafFields.from schema).id = schema.id := by
  cases schema <;> rfl

theorem filterMap_saveChangelogEvent (cl : ChangeLogEvent) (bundle : InstructionBundle)
    (instruction : String) :
    (saveChangelogEvent cl bundle instruction).filterMap Statement.creatorsInfo = [] := by
  refine List.filterMap_eq_nil_iff.mpr (fun s member => ?_)
  rcases mem_saveChangelogEvent member with ⟨entry, -, rfl⟩ | rfl | rfl <;> rfl

section Events
variable [Programs]

theorem Event.filterMap_creatorsInfo (event : Event) :
    event.statements.filterMap Statement.creatorsInfo = event.creatorsUpdate.toList := by
  unfold Event.statements Event.plan Event.creatorsUpdate
  cases handler : event.handler with
  | none => simp [Plan.statements, Plan.body]
  | some h =>
    cases h with
    | transfer | delegate | redeem | burn | collectionVerification =>
      simp only [transfer, delegationFreezingNontransferability, leafAndOwner, redeem, burn,
        collectionVerification]
      split
      · simp [Plan.statements, Plan.body, filterMap_saveChangelogEvent, Statement.creatorsInfo]
      · simp [Plan.statements, Plan.body, Plan.fail]
    | cancelRedeem =>
      simp only [cancelRedeem]
      split
      · rename_i le cl leafUpdate treeUpdate
        cases le.schema <;>
          simp [Plan.statements, Plan.body, filterMap_saveChangelogEvent, Statement.creatorsInfo]
      · simp [Plan.statements, Plan.body, Plan.fail]
    | mint =>
      simp only [mint]
      split
      · rename_i leafUpdate treeUpdate payload
        simp [Plan.statements, Plan.body, filterMap_saveChangelogEvent, leafUpdate, treeUpdate, payload,
          NormalizedLeafFields.from_id]
        rfl
      · rename_i unparsed
        split
        · rename_i leafUpdate treeUpdate payload
          exact (unparsed _ _ _ _ _ leafUpdate treeUpdate payload).elim
        · contradiction
        · contradiction
        · rfl
    | updateMetadata =>
      simp only [updateMetadata]
      split
      · rename_i leafUpdate treeUpdate payload
        simp [Plan.statements, Plan.body, filterMap_saveChangelogEvent, leafUpdate, treeUpdate, payload,
          NormalizedLeafFields.from_id]
        rfl
      · rename_i unparsed
        split
        · contradiction
        · rename_i leafUpdate treeUpdate payload
          exact (unparsed _ _ _ _ _ leafUpdate treeUpdate payload).elim
        · contradiction
        · rfl
    | creatorVerification =>
      simp only [creatorVerification]
      split
      · rename_i leafUpdate treeUpdate payload
        simp [Plan.statements, Plan.body, filterMap_saveChangelogEvent, leafUpdate, treeUpdate, payload,
          NormalizedLeafFields.from_id]
        rfl
      · rename_i unparsed
        split
        · contradiction
        · contradiction
        · rename_i leafUpdate treeUpdate payload
          exact (unparsed _ _ _ _ _ leafUpdate treeUpdate payload).elim
        · rfl

/-- The creator lists that a run writes for an asset. -/
def creatorsUpdates (id : Pubkey) (deliveries : List Event) : List CreatorsInfo :=
  deliveries.filterMap (fun event => event.creatorsUpdate.bind (fun write =>
    if id = write.1 then some write.2 else none))

theorem creatorWrites_eq (id : Pubkey) (position : Nat) (deliveries : List Event) :
    (deliveries.flatMap Event.statements).filterMap (Statement.creatorWrite (id, position)) =
      (creatorsUpdates id deliveries).filterMap (fun info => info.rowAt position) := by
  rw [List.filterMap_flatMap, creatorsUpdates, List.filterMap_filterMap]
  induction deliveries with
  | nil => rfl
  | cons event rest ih =>
    have writes : event.statements.filterMap (Statement.creatorWrite (id, position)) =
        (event.statements.filterMap Statement.creatorsInfo).filterMap (fun write =>
          if id = write.1 then write.2.rowAt position else none) := by
      rw [List.filterMap_filterMap]
      exact List.filterMap_congr (fun s _ => Statement.creatorWrite_eq_bind (id, position) s)
    rw [List.flatMap_cons, ih, writes, event.filterMap_creatorsInfo]
    cases written : event.creatorsUpdate with
    | none => simp [written]
    | some write =>
      by_cases same : id = write.1
      · cases row : write.2.rowAt position <;> simp [written, same, row]
      · simp [written, same]

omit [Programs] in
theorem Event.creatorsUpdate_seq {event : Event} {id : Pubkey} {info : CreatorsInfo}
    (written : event.creatorsUpdate = some (id, info)) :
    info.seq = event.seq ∧ info.slotUpdated = event.bundle.slot := by
  unfold Event.creatorsUpdate at written
  split at written
  · rename_i treeUpdate _
    cases written
    exact ⟨(Event.seq_of_treeUpdate treeUpdate).symm, rfl⟩
  · rename_i treeUpdate _
    cases written
    exact ⟨(Event.seq_of_treeUpdate treeUpdate).symm, rfl⟩
  · rename_i treeUpdate _
    cases written
    exact ⟨(Event.seq_of_treeUpdate treeUpdate).symm, rfl⟩
  · cases written

omit [Programs] in
theorem mem_creatorsUpdates {id : Pubkey} {deliveries : List Event} {info : CreatorsInfo} :
    info ∈ creatorsUpdates id deliveries ↔ ∃ event ∈ deliveries, event.creatorsUpdate = some (id, info) := by
  simp only [creatorsUpdates, List.mem_filterMap, Option.bind_eq_some_iff, Option.ite_none_right_eq_some,
    Option.some.injEq]
  constructor
  · rintro ⟨event, member, ⟨key, write⟩, written, rfl, rfl⟩
    exact ⟨event, member, written⟩
  · rintro ⟨event, member, written⟩
    exact ⟨event, member, (id, info), written, rfl, rfl⟩

/-- The creators that the API shows after any delivery of an asset's events are
those of the newest event that carries creators, in their order. -/
theorem shownCreators_newest_event (id : Pubkey) (deliveries : List Event)
    (positive : ∀ e ∈ deliveries, 0 < e.seq)
    (distinct : ∀ e ∈ deliveries, ∀ e' ∈ deliveries, e.seq = e'.seq → e = e')
    (slots : ∀ e ∈ deliveries, ∀ e' ∈ deliveries, e.seq ≤ e'.seq → e.bundle.slot ≤ e'.bundle.slot)
    (newest : Event) (member : newest ∈ deliveries) (info : CreatorsInfo)
    (list : newest.creatorsUpdate = some (id, info))
    (greatest : ∀ e ∈ deliveries, ∀ other, e.creatorsUpdate = some (id, other) → e.seq ≤ newest.seq) :
    (filterOutStaleCreators (creatorsByPosition (ingest {} deliveries) id)).map AssetCreatorRow.shown =
      info.creators.entries.map Creator.shown := by
  have statementsPositive : ∀ s ∈ deliveries.flatMap Event.statements, s.Positive := by
    intro s inStatements
    obtain ⟨e, inEvents, inE⟩ := List.mem_flatMap.mp inStatements
    exact Event.statements_positive (positive e inEvents) inE
  have cells : ∀ position, (ingest {} deliveries).assetCreators.lookup (id, position) =
      latest AssetCreatorRow.version
        ((creatorsUpdates id deliveries).filterMap (fun info => info.rowAt position)) := by
    intro position
    rw [ingest_eq_statements, run_assetCreators id statementsPositive, creatorWrites_eq]
  have distinctInfos : Identifies CreatorsInfo.seq (creatorsUpdates id deliveries) := by
    intro i memberI j memberJ same
    obtain ⟨e, inEvents, writtenI⟩ := mem_creatorsUpdates.mp memberI
    obtain ⟨e', inEvents', writtenJ⟩ := mem_creatorsUpdates.mp memberJ
    rw [(Event.creatorsUpdate_seq writtenI).1, (Event.creatorsUpdate_seq writtenJ).1] at same
    have sameEvent := distinct e inEvents e' inEvents' same
    subst sameEvent
    exact (Prod.mk.inj (Option.some.inj (writtenI.symm.trans writtenJ))).2
  have isNewest : latest CreatorsInfo.seq (creatorsUpdates id deliveries) = some info := by
    refine latest_eq_of_greatest distinctInfos (mem_creatorsUpdates.mpr ⟨newest, member, list⟩) ?_
    intro i memberI
    obtain ⟨e, inEvents, written⟩ := mem_creatorsUpdates.mp memberI
    rw [(Event.creatorsUpdate_seq written).1, (Event.creatorsUpdate_seq list).1]
    exact greatest e inEvents i written
  have shown := shownCreators_newest cells ?_ distinctInfos ?_ isNewest
  · rw [← shownCreators, shown, List.map_map]
    rfl
  · intro i memberI
    obtain ⟨e, inEvents, written⟩ := mem_creatorsUpdates.mp memberI
    rw [(Event.creatorsUpdate_seq written).1]
    exact positive e inEvents
  · intro i memberI j memberJ older
    obtain ⟨e, inEvents, writtenI⟩ := mem_creatorsUpdates.mp memberI
    obtain ⟨e', inEvents', writtenJ⟩ := mem_creatorsUpdates.mp memberJ
    rw [(Event.creatorsUpdate_seq writtenI).1, (Event.creatorsUpdate_seq writtenJ).1] at older
    rw [(Event.creatorsUpdate_seq writtenI).2, (Event.creatorsUpdate_seq writtenJ).2]
    exact slots e inEvents e' inEvents' older

end Events

theorem shownCreators_shortened_list :
    (filterOutStaleCreators (creatorsByPosition
      (ingest {} [Example.verifyCreator 2 20 Example.oneCreator (.fill 3),
        Example.mint 1 10 (.fill 2) Example.twoCreators none,
        Example.verifyCreator 2 20 Example.oneCreator (.fill 3)]) Example.asset)).map AssetCreatorRow.shown =
      [((Bytes32.fill 3).bytes, 100, true)] := by
  refine shownCreators_newest_event Example.asset _ ?_ ?_ ?_
    (Example.verifyCreator 2 20 Example.oneCreator (.fill 3)) List.mem_cons_self
    { creators := updatedCreators Example.oneCreator (.fill 3) true, slotUpdated := 20, seq := 2 } rfl ?_
  · simp [Event.seq, Example.verifyCreator, Example.mint, Example.changeLog]
  · simp [Event.seq, Example.verifyCreator, Example.mint, Example.changeLog]
  · simp [Event.seq, Example.verifyCreator, Example.mint, Example.changeLog]
  · simp [Event.seq, Example.verifyCreator, Example.mint, Example.changeLog]

end DasIndexer.Bubblegum
