import DasIndexer.Accounts.OneUpdate

namespace DasIndexer
open Sql Latest

/-- Nothing is stored about the asset that `save_v1_asset` writes. -/
structure V1Asset.Unseen (id : Pubkey) (db : Db) : Prop extends V1Asset.Fresh id db where
  ungrouped : ∀ group, db.assetGrouping.lookup (id, group) = none

theorem V1Asset.Unseen.empty (id : Pubkey) : V1Asset.Unseen id {} :=
  ⟨.empty id, fun _ => rfl⟩

/-- What `getAsset` answers for an asset is the collection of an account state,
if that is verified, and its creators. -/
def V1Asset.Shown (content : V1Asset.Content) (id : Pubkey) (db : Db) : Prop :=
  ∀ options, ∃ full, getById db id options = .ok full ∧
    full.groups.map (fun group => (group.1, group.2.1.groupValue)) =
      (content.collection.filter Collection.verified).toList.map (fun c => ("collection", some c.key.toBase58)) ∧
    full.creators.map AssetCreatorRow.shown = content.creators.entries.map Creator.shown

theorem V1Asset.shown_iff_rows {content : V1Asset.Content} {id : Pubkey} {db : Db}
    (retrievable : Retrievable db id) :
    V1Asset.Shown content id db ↔
      (shownGroups db id).map (fun group => (group.1, group.2.groupValue)) =
        (content.collection.filter Collection.verified).toList.map (fun c => ("collection", some c.key.toBase58)) ∧
      (shownCreators db id).map AssetCreatorRow.shown = content.creators.entries.map Creator.shown := by
  constructor
  · intro shown
    obtain ⟨full, found, groups, creators⟩ := shown {}
    obtain ⟨full', found', sameCreators, sameGroups⟩ := getById_of_retrievable retrievable {}
    cases Except.ok.inj (found.symm.trans found')
    rw [← sameCreators, ← sameGroups, List.map_map]
    exact ⟨groups, creators⟩
  · rintro ⟨groups, creators⟩ options
    obtain ⟨full, found, sameCreators, sameGroups⟩ := getById_of_retrievable retrievable options
    rw [← sameGroups, List.map_map] at groups
    rw [← sameCreators] at creators
    exact ⟨full, found, groups, creators⟩

namespace V1Asset

theorem groupingRow_shown (c : Collection) (slot : Nat) :
    (((some (groupingRow c slot)).filter (fun row => row.groupValue.isSome && row.verified)).toList.map
        (fun row => ("collection", row))).map (fun group => (group.1, group.2.groupValue)) =
      ((some c).filter Collection.verified).toList.map (fun c => ("collection", some c.key.toBase58)) := by
  cases verified : c.verified with
  | false => simp [Option.filter_some, groupingRow, verified]
  | true => simp [Option.filter_some, groupingRow, verified]

section Run
variable {E : Type} {step : Db → E → Db} {id : Pubkey} {newer : Option Nat → Option Nat → Truth}
  {content : E → Content} {authority : Db → E → Bytes} {slot : E → Nat}
  (saves : ∀ db e, Saves newer id (content e) (authority db e) (slot e) db (step db e))
  {db : Db} (unseen : Unseen id db)
  {events : List E} (identified : ∀ e ∈ events, ∀ e' ∈ events, slot e = slot e' → e = e')
  {e : E} (member : e ∈ events) (greatest : ∀ e' ∈ events, slot e' ≤ slot e)
include saves unseen

theorem run_otherGroups {group : String} (other : group ≠ "collection") (events : List E) :
    (events.foldl step db).assetGrouping.lookup (id, group) = none := by
  have keep : ∀ (db : Db) (e : E), True → db.assetGrouping.lookup (id, group) = none →
      (step db e).assetGrouping.lookup (id, group) = none := by
    intro db e _ absent
    rw [(saves db e).assetGrouping]
    cases present : (content e).collection with
    | none => exact absent
    | some c =>
      have different : (id, group) ≠ (id, "collection") := fun same => other (Prod.mk.inj same).2
      exact (Table.lookup_upsert_ne _ different _ _).trans absent
  exact foldl_invariant (fun db : Db => db.assetGrouping.lookup (id, group) = none) keep events
    (fun _ _ => trivial) (unseen.ungrouped group)

include identified member greatest

/-- The creators shown are those of the newest state exactly when that state
has creators, or none ever had. -/
theorem creators_shown_iff :
    (shownCreators (events.foldl step db) id).map AssetCreatorRow.shown =
        (content e).creators.entries.map Creator.shown ↔
      (content e).creators.entries ≠ [] ∨ ∀ e' ∈ events, (content e').creators.entries = [] := by
  have cells := fun position => run_assetCreators saves position (unseen.assetCreators position) events
  have sameCreators : ∀ x ∈ events, ∀ y ∈ events, slot x = slot y → (content x).creators = (content y).creators :=
    fun x memberX y memberY same => by rw [identified x memberX y memberY same]
  by_cases any : ∀ e' ∈ events, (content e').creators.entries = []
  · rw [shownCreators_never cells any, any e member]
    exact ⟨fun _ => Or.inr any, fun _ => rfl⟩
  · push Not at any
    obtain ⟨x, inEvents, hasCreators⟩ := any
    have nonempty : events.filter (fun e => !(content e).creators.entries.isEmpty) ≠ [] :=
      List.ne_nil_of_mem (List.mem_filter.mpr ⟨inEvents, by simpa using hasCreators⟩)
    obtain ⟨last, isLast⟩ := latest_exists slot nonempty
    obtain ⟨lastIn, lastCreators⟩ := List.mem_filter.mp (latest_mem slot isLast)
    have named : (content last).creators.entries ≠ [] := by simpa using lastCreators
    have newest : ∀ e' ∈ events, (content e').creators.entries ≠ [] → slot e' ≤ slot last := fun e' inEvents' some =>
      le_latest slot isLast (List.mem_filter.mpr ⟨inEvents', by simpa using some⟩)
    have shown := shownCreators_newest cells sameCreators lastIn named newest
    have said : (shownCreators (events.foldl step db) id).map AssetCreatorRow.shown =
        (content last).creators.entries.map Creator.shown := by
      rw [shown, List.map_map]
      rfl
    rw [said]
    constructor
    · intro same
      refine Or.inl (fun empty => named ?_)
      rw [empty] at same
      exact List.map_eq_nil_iff.mp same
    · rintro (present | never)
      · have sameState := identified last lastIn e member
          (le_antisymm (greatest last lastIn) (newest e member present))
        rw [sameState]
      · exact absurd (never x inEvents) hasCreators

/-- The collection shown is that of the newest state exactly when that state
has a collection, or no verified collection of an older one is in force. -/
theorem collection_shown_iff (accepts : ∀ x y, y < x → (newer (some x) (some y)).holds = true)
    (refuses : ∀ x y, x < y → (newer (some x) (some y)).holds = false) :
    (shownGroups (events.foldl step db) id).map (fun group => (group.1, group.2.groupValue)) =
        ((content e).collection.filter Collection.verified).toList.map
          (fun c => ("collection", some c.key.toBase58)) ↔
      (content e).collection.isSome ∨ ∀ e' ∈ events, ∀ c, (content e').collection = some c → c.verified = true →
        ∃ later ∈ events, (content later).collection.isSome ∧ slot e' < slot later := by
  have stored := run_assetGrouping saves accepts refuses unseen.assetGrouping
    (fun x memberX y memberY same => by rw [identified x memberX y memberY same])
  have writes : ∀ x ∈ events, ∀ c, (content x).collection = some c →
      (c, slot x) ∈ events.filterMap (fun e => (content e).collection.map (fun c => (c, slot e))) :=
    fun x inEvents c present => List.mem_filterMap.mpr ⟨x, inEvents, by rw [present]; rfl⟩
  rw [shownGroups_eq (fun group other => run_otherGroups saves unseen other events), stored]
  cases newest : latest Prod.snd (events.filterMap (fun e => (content e).collection.map (fun c => (c, slot e)))) with
  | none =>
    have never : ∀ x ∈ events, (content x).collection = none := by
      intro x inEvents
      have nothing := List.filterMap_eq_nil_iff.mp ((latest_eq_none Prod.snd).mp newest) x inEvents
      exact Option.map_eq_none_iff.mp nothing
    rw [never e member]
    refine ⟨fun _ => Or.inr (fun x inEvents c present => ?_), fun _ => rfl⟩
    rw [never x inEvents] at present
    cases present
  | some w =>
    obtain ⟨x, inEvents, found⟩ := List.mem_filterMap.mp (latest_mem Prod.snd newest)
    obtain ⟨c, present, rfl⟩ := Option.map_eq_some_iff.mp found
    rw [Option.map_some, groupingRow_shown c (slot x)]
    cases own : (content e).collection with
    | some c' =>
      have later := le_latest Prod.snd newest (writes e member c' own)
      have sameState := identified x inEvents e member (le_antisymm (greatest x inEvents) later)
      rw [sameState, own] at present
      cases present
      exact ⟨fun _ => Or.inl rfl, fun _ => rfl⟩
    | none =>
      cases verified : c.verified with
      | true =>
        refine ⟨fun same => by simp [Option.filter_some, verified] at same, ?_⟩
        rintro (absurdly | superseded)
        · cases absurdly
        · obtain ⟨later, inEvents', isSome, newer⟩ := superseded x inEvents c present verified
          obtain ⟨c', present'⟩ := Option.isSome_iff_exists.mp isSome
          have older := le_latest Prod.snd newest (writes later inEvents' c' present')
          exact absurd older (not_le.mpr newer)
      | false =>
        refine ⟨fun _ => Or.inr (fun y inEvents' c' present' verified' => ?_),
          fun _ => by simp [Option.filter_some, verified]⟩
        refine ⟨x, inEvents, by rw [present]; rfl, lt_of_le_of_ne
          (le_latest Prod.snd newest (writes y inEvents' c' present')) (fun same => ?_)⟩
        have sameState := identified y inEvents' x inEvents same
        rw [sameState, present] at present'
        cases present'
        rw [verified] at verified'
        cases verified'

end Run

/-- The condition under which the saves of a history leave nothing stale: what
the newest account state lacks, no older one in force has. -/
def NothingDropped {E : Type} (content : E → Content) (slot : E → Nat) (events : List E) (newest : E) : Prop :=
  ((content newest).collection.isSome ∨
    ∀ e ∈ events, ∀ c, (content e).collection = some c → c.verified = true →
      ∃ later ∈ events, (content later).collection.isSome ∧ slot e < slot later) ∧
  ((content newest).creators.entries ≠ [] ∨ ∀ e ∈ events, (content e).creators.entries = [])

end V1Asset

namespace TokenMetadata
variable [Programs] {mint : Pubkey}

theorem saveAll_supply {db : Db} (supplied : supplyOf db mint ≠ 0)
    (start : (db.assetOrDefault mint).supply ≠ 0) (updates : List (Update mint)) :
    ((saveAll db updates).assetOrDefault mint).supply ≠ 0 := by
  have keep : ∀ (db' : Db) (u : Update mint), True →
      db'.tokens = db.tokens ∧ (db'.assetOrDefault mint).supply ≠ 0 →
      (saveV1Asset db' u.metadata u.slot).1.tokens = db.tokens ∧
        ((saveV1Asset db' u.metadata u.slot).1.assetOrDefault mint).supply ≠ 0 := by
    rintro db' ⟨metadata, rfl, slot⟩ _ ⟨same, before⟩
    refine ⟨(saveV1Asset_tokens db' metadata slot).1.trans same, ?_⟩
    have readBackSupply : ((readBack db' metadata).assetOrDefault metadata.mint).supply ≠ 0 := by
      refine readBack_invariant (fun row => row.supply ≠ 0) metadata.mint ?_ ?_ before
      · intro token stored
        have positive : token.supply ≠ 0 := by
          rwa [supplyOf, ← same, stored] at supplied
        exact Db.upsertAsset_invariant db' _ _ _ _ (fun row => row.supply ≠ 0) (fun _ => positive)
          (fun _ _ => positive) before
      · intro db'' ta _ _ kept
        exact Db.upsertAsset_invariant db'' _ _ _ _ (fun row => row.supply ≠ 0) (fun _ => Nat.one_ne_zero)
          (fun _ held => held) kept
    rw [Db.assetOrDefault_congr (saveV1Asset_asset db' metadata slot)]
    exact Db.upsertAsset_invariant _ _ _ _ _ (fun row => row.supply ≠ 0) (fun _ => Nat.one_ne_zero)
      (fun _ held => held) readBackSupply
  exact (foldl_invariant (fun db' : Db => db'.tokens = db.tokens ∧ (db'.assetOrDefault mint).supply ≠ 0) keep
    updates (fun _ _ => trivial) ⟨rfl, start⟩).2

/-- The asset can be fetched as soon as its metadata account was saved. -/
theorem saveAll_retrievable {db : Db} (fresh : V1Asset.Fresh mint db) (supplied : supplyOf db mint ≠ 0)
    {updates : List (Update mint)} (nonempty : updates ≠ []) : Retrievable (saveAll db updates) mint := by
  have start : (db.assetOrDefault mint).supply ≠ 0 := by
    rw [Db.assetOrDefault, fresh.asset]
    exact Nat.one_ne_zero
  obtain ⟨newest, isNewest⟩ := latest_exists Update.slot nonempty
  have columns := saveAll_metadataColumns fresh.asset updates
  rw [isNewest] at columns
  have linked := congrArg (fun columns => columns.1.2.2) columns
  refine ⟨linked.trans (congrArg some newest.ofMint), saveAll_supply supplied start updates, ?_⟩
  have data := V1Asset.run_assetData (fun db (u : Update mint) => u.saves db) fresh.assetData updates
  change ((updates.foldl (fun db u => (saveV1Asset db u.metadata u.slot).1) db).assetData.lookup mint).isSome
  rw [data, Option.isSome_map, Option.isSome_iff_ne_none, Ne, List.argmax_eq_none]
  exact nonempty

theorem saveAll_shown_iff {db : Db} (unseen : V1Asset.Unseen mint db) (supplied : supplyOf db mint ≠ 0)
    {updates : List (Update mint)} (identified : ∀ u ∈ updates, ∀ v ∈ updates, u.slot = v.slot → u = v)
    {newest : Update mint} (member : newest ∈ updates) (greatest : ∀ u ∈ updates, u.slot ≤ newest.slot) :
    V1Asset.Shown newest.metadata.content mint (saveAll db updates) ↔
      V1Asset.NothingDropped (fun u : Update mint => u.metadata.content) Update.slot updates newest := by
  have saves := fun (db : Db) (u : Update mint) => u.saves db
  rw [V1Asset.shown_iff_rows (saveAll_retrievable unseen.toFresh supplied (List.ne_nil_of_mem member))]
  exact and_congr
    (V1Asset.collection_shown_iff saves unseen identified member greatest
      (fun x y older => by simpa using older) (fun x y later => by simpa using later.le))
    (V1Asset.creators_shown_iff saves unseen identified member greatest)

end TokenMetadata

namespace MplCore
variable [Programs] {id : Pubkey}

theorem saveAll_supply {db : Db} (start : (db.assetOrDefault id).supply ≠ 0) (updates : List Update) :
    ((saveAll db id updates).assetOrDefault id).supply ≠ 0 := by
  have keep : ∀ (db : Db) (u : Update), True → (db.assetOrDefault id).supply ≠ 0 →
      ((saveV1Asset db id u.data u.slot).1.assetOrDefault id).supply ≠ 0 := by
    intro db u _ before
    obtain ⟨owner, delegate, same⟩ := saveV1Asset_asset db id u.slot u.indexable
    rw [Db.assetOrDefault_congr same]
    refine Db.upsertAsset_invariant _ _ _ _ _ (fun row => row.supply ≠ 0) (fun _ => Nat.one_ne_zero)
      (fun _ held => held) ?_
    refine Db.upsertAsset_invariant _ _ _ _ _ (fun row => row.supply ≠ 0) (fun _ => Nat.one_ne_zero)
      (fun _ _ => Nat.one_ne_zero) ?_
    exact Db.upsertAsset_invariant _ _ _ _ _ (fun row => row.supply ≠ 0) (fun _ => Nat.one_ne_zero)
      (fun _ held => held) before
  exact foldl_invariant (fun db : Db => (db.assetOrDefault id).supply ≠ 0) keep updates (fun _ _ => trivial) start

/-- The asset can be fetched as soon as its account was saved. -/
theorem saveAll_retrievable {db : Db} (fresh : V1Asset.Fresh id db) {updates : List Update}
    (nonempty : updates ≠ []) : Retrievable (saveAll db id updates) id := by
  have start : (db.assetOrDefault id).supply ≠ 0 := by
    rw [Db.assetOrDefault, fresh.asset]
    exact Nat.one_ne_zero
  obtain ⟨newest, isNewest⟩ := latest_exists Update.slot nonempty
  have columns := saveAll_metadataColumns fresh.asset updates
  rw [isNewest] at columns
  refine ⟨congrArg (fun columns => columns.1.2.2) columns, saveAll_supply start updates, ?_⟩
  have data := V1Asset.run_assetData (fun db (u : Update) => saveV1Asset_saves db id u.slot u.indexable)
    fresh.assetData updates
  change ((updates.foldl (fun db u => (saveV1Asset db id u.data u.slot).1) db).assetData.lookup id).isSome
  rw [data, Option.isSome_map, Option.isSome_iff_ne_none, Ne, List.argmax_eq_none]
  exact nonempty

theorem saveAll_shown_iff {db : Db} (unseen : V1Asset.Unseen id db) {updates : List Update}
    (identified : ∀ u ∈ updates, ∀ v ∈ updates, u.slot = v.slot → u = v)
    {newest : Update} (member : newest ∈ updates) (greatest : ∀ u ∈ updates, u.slot ≤ newest.slot) :
    V1Asset.Shown newest.asset.content id (saveAll db id updates) ↔
      V1Asset.NothingDropped (fun u : Update => u.asset.content) Update.slot updates newest := by
  have saves := fun (db : Db) (u : Update) => saveV1Asset_saves db id u.slot u.indexable
  rw [V1Asset.shown_iff_rows (saveAll_retrievable unseen.toFresh (List.ne_nil_of_mem member))]
  exact and_congr
    (V1Asset.collection_shown_iff saves unseen identified member greatest
      (fun x y older => by simpa using older.le) (fun x y later => by simpa using later))
    (V1Asset.creators_shown_iff saves unseen identified member greatest)

end MplCore

/-- `getAsset` shows the collection and the creators of the newest account state
exactly when that state does not drop a collection or a creator list that an
older one set: an absent collection and an empty list write nothing. -/
theorem shown_newest_iff_nothing_dropped [Programs] :
    (∀ (mint : Pubkey) (db : Db) (updates : List (TokenMetadata.Update mint)) (newest : TokenMetadata.Update mint),
      V1Asset.Unseen mint db → TokenMetadata.supplyOf db mint ≠ 0 →
      (∀ u ∈ updates, ∀ v ∈ updates, u.slot = v.slot → u = v) → newest ∈ updates →
      (∀ u ∈ updates, u.slot ≤ newest.slot) →
      (V1Asset.Shown newest.metadata.content mint (TokenMetadata.saveAll db updates) ↔
        V1Asset.NothingDropped (fun u : TokenMetadata.Update mint => u.metadata.content) TokenMetadata.Update.slot
          updates newest)) ∧
    (∀ (id : Pubkey) (db : Db) (updates : List MplCore.Update) (newest : MplCore.Update),
      V1Asset.Unseen id db → (∀ u ∈ updates, ∀ v ∈ updates, u.slot = v.slot → u = v) → newest ∈ updates →
      (∀ u ∈ updates, u.slot ≤ newest.slot) →
      (V1Asset.Shown newest.asset.content id (MplCore.saveAll db id updates) ↔
        V1Asset.NothingDropped (fun u : MplCore.Update => u.asset.content) MplCore.Update.slot updates newest)) := by
  constructor
  · intro mint db updates newest unseen supplied identified member greatest
    exact TokenMetadata.saveAll_shown_iff unseen supplied identified member greatest
  · intro id db updates newest unseen identified member greatest
    exact MplCore.saveAll_shown_iff unseen identified member greatest

theorem shown_newest_of_two_states :
    (∀ u ∈ (TokenMetadata.Example.states 20 10).head?,
      V1Asset.Shown u.metadata.content (.fill 7) (TokenMetadata.saveAll {} (TokenMetadata.Example.states 20 10))) ∧
    ∀ u ∈ (MplCore.Example.states 20 10).head?,
      V1Asset.Shown u.asset.content (.fill 7) (MplCore.saveAll {} (.fill 7) (MplCore.Example.states 20 10)) := by
  have slots : ((TokenMetadata.Example.states 20 10).map TokenMetadata.Update.slot).Nodup := by decide
  have coreSlots : ((MplCore.Example.states 20 10).map MplCore.Update.slot).Nodup := by decide
  constructor
  · rintro u ⟨rfl⟩
    refine (shown_newest_iff_nothing_dropped.1 (.fill 7) {} _ _ (.empty _) Nat.one_ne_zero
      (fun u member v member' same => List.inj_on_of_nodup_map slots member member' same) List.mem_cons_self ?_).mpr
      ⟨Or.inl rfl, Or.inl (List.cons_ne_nil _ _)⟩
    simp [TokenMetadata.Example.states]
  · rintro u ⟨rfl⟩
    refine (shown_newest_iff_nothing_dropped.2 (.fill 7) {} _ _ (.empty _)
      (fun u member v member' same => List.inj_on_of_nodup_map coreSlots member member' same) List.mem_cons_self ?_).mpr
      ⟨Or.inl rfl, Or.inl (List.cons_ne_nil _ _)⟩
    simp [MplCore.Example.states, MplCore.Example.update]

/-- A metadata account with a creator and a collection is changed at slot 20. -/
def TokenMetadata.Example.change (creators : Option CreatorList) (newCollection : Option Collection) :
    List (TokenMetadata.Update (.fill 7)) :=
  [⟨metadata 500 true none (some oneCreator) (some collection), Eq.refl (Bytes32.fill 7), 10⟩,
    ⟨metadata 500 true none creators newCollection, rfl, 20⟩]

/-- A Core asset with a royalty creator in a collection is changed at slot 20. -/
def MplCore.Example.change (updateAuthority : UpdateAuthority) (plugins : List (PluginType × PluginSchema)) :
    List MplCore.Update :=
  [update "core" (.collection (.fill 5)) [royalties 500] 10, update "core" updateAuthority plugins 20]

theorem V1Asset.nothingDropped_pair {E : Type} {content : E → V1Asset.Content} {slot : E → Nat} {older newest : E}
    (kept : NothingDropped content slot [older, newest] newest) :
    (∀ c, (content older).collection = some c → c.verified = true → (content newest).collection.isSome) ∧
      ((content older).creators.entries ≠ [] → (content newest).creators.entries ≠ []) := by
  obtain ⟨collection, creators⟩ := kept
  constructor
  · intro c present verified
    rcases collection with own | superseded
    · exact own
    · obtain ⟨later, member, isSome, newer⟩ := superseded older List.mem_cons_self c present verified
      simp only [List.mem_cons, List.not_mem_nil, or_false] at member
      rcases member with rfl | rfl
      · exact absurd newer (lt_irrefl _)
      · exact isSome
  · intro named
    exact creators.resolve_right (fun never => named (never older List.mem_cons_self))

/-- A collection that was left and creators that were removed are still shown. -/
theorem shown_after_dropping :
    (∀ history ∈ [TokenMetadata.Example.change (some TokenMetadata.Example.oneCreator) none,
        TokenMetadata.Example.change none (some TokenMetadata.Example.collection)],
      ∀ newest ∈ history.getLast?,
        ¬ V1Asset.Shown newest.metadata.content (.fill 7) (TokenMetadata.saveAll {} history)) ∧
    ∀ history ∈ [MplCore.Example.change (.address (.fill 1)) [MplCore.Example.royalties 500],
        MplCore.Example.change (.collection (.fill 5)) []],
      ∀ newest ∈ history.getLast?,
        ¬ V1Asset.Shown newest.asset.content (.fill 7) (MplCore.saveAll {} (.fill 7) history) := by
  have kept : ∀ creators collection, ∀ newest ∈ (TokenMetadata.Example.change creators collection).getLast?,
      V1Asset.Shown newest.metadata.content (.fill 7)
        (TokenMetadata.saveAll {} (TokenMetadata.Example.change creators collection)) →
      collection.isSome ∧ (creators.getD .empty).entries ≠ [] := by
    rintro creators collection newest ⟨rfl⟩ shown
    have slots : ((TokenMetadata.Example.change creators collection).map TokenMetadata.Update.slot).Nodup := by
      simp [TokenMetadata.Example.change]
    have pair := V1Asset.nothingDropped_pair ((TokenMetadata.saveAll_shown_iff (.empty _) Nat.one_ne_zero
      (fun u member v member' same => List.inj_on_of_nodup_map slots member member' same)
      (List.mem_cons_of_mem _ List.mem_cons_self) (by simp [TokenMetadata.Example.change])).mp shown)
    exact ⟨pair.1 TokenMetadata.Example.collection rfl rfl, pair.2 (List.cons_ne_nil _ _)⟩
  have coreKept : ∀ authority plugins, ∀ newest ∈ (MplCore.Example.change authority plugins).getLast?,
      V1Asset.Shown newest.asset.content (.fill 7)
        (MplCore.saveAll {} (.fill 7) (MplCore.Example.change authority plugins)) →
      newest.asset.collection.isSome ∧ newest.asset.creatorList.entries ≠ [] := by
    rintro authority plugins newest ⟨rfl⟩ shown
    have slots : ((MplCore.Example.change authority plugins).map MplCore.Update.slot).Nodup := by
      simp [MplCore.Example.change, MplCore.Example.update]
    have pair := V1Asset.nothingDropped_pair ((MplCore.saveAll_shown_iff (.empty _)
      (fun u member v member' same => List.inj_on_of_nodup_map slots member member' same)
      (List.mem_cons_of_mem _ List.mem_cons_self) (by simp [MplCore.Example.change, MplCore.Example.update])).mp shown)
    exact ⟨pair.1 { key := .fill 5, verified := true } rfl rfl, pair.2 (List.cons_ne_nil _ _)⟩
  constructor
  · intro history inHistories newest last shown
    simp only [List.mem_cons, List.not_mem_nil, or_false] at inHistories
    rcases inHistories with rfl | rfl
    · cases (kept _ _ newest last shown).1
    · exact (kept _ _ newest last shown).2 rfl
  · intro history inHistories newest last shown
    simp only [List.mem_cons, List.not_mem_nil, or_false] at inHistories
    rcases inHistories with rfl | rfl
    · have present := (coreKept _ _ newest last shown).1
      cases last
      cases present
    · have named := (coreKept _ _ newest last shown).2
      cases last
      exact named rfl

end DasIndexer
