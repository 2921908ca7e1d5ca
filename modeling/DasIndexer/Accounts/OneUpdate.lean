import DasIndexer.Accounts.Runs
import DasIndexer.Mainnet

namespace DasIndexer
open Sql Latest

/-- No row of the asset is stored yet. -/
structure V1Asset.Fresh (id : Pubkey) (db : Db) : Prop where
  asset : db.asset.lookup id = none
  assetData : db.assetData.lookup id = none
  assetAuthority : db.assetAuthority.lookup id = none
  assetGrouping : db.assetGrouping.lookup (id, "collection") = none
  assetCreators : ∀ position, db.assetCreators.lookup (id, position) = none

theorem V1Asset.Fresh.empty (id : Pubkey) : V1Asset.Fresh id {} :=
  ⟨rfl, rfl, rfl, rfl, fun _ => rfl⟩

/-- The rows of an asset are those of one account state, saved at one slot. -/
structure V1Asset.From (content : V1Asset.Content) (columns : AssetMetadataAccountColumns)
    (authority : Bytes) (slot : Nat) (id : Pubkey) (db : Db) : Prop where
  assetData : db.assetData.lookup id = some (content.data slot)
  asset : metadataColumns (db.assetOrDefault id) = metadataColumns columns.model
  assetAuthority : db.assetAuthority.lookup id = some (authorityRow authority slot)
  assetGrouping : db.assetGrouping.lookup (id, "collection") =
    content.collection.map (fun c => groupingRow c slot)
  creators : shownCreators db id = content.creators.entries.map (creatorRow slot)

section Generic
open V1Asset
variable {E : Type} {step : Db → E → Db} {id : Pubkey} {newer : Option Nat → Option Nat → Truth}
  {content : E → Content} {authority : Db → E → Bytes} {slot : E → Nat}

/-- When a slot names one account state, all rows come from the newest one. -/
theorem V1Asset.from_newest (columns : E → AssetMetadataAccountColumns)
    (saves : ∀ db e, Saves newer id (content e) (authority db e) (slot e) db (step db e))
    (accepts : ∀ x y, y < x → (newer (some x) (some y)).holds = true)
    (refuses : ∀ x y, x < y → (newer (some x) (some y)).holds = false)
    {db : Db} (fresh : Fresh id db) {events : List E} (nonempty : events ≠ [])
    (identified : ∀ e ∈ events, ∀ e' ∈ events, slot e = slot e' → e = e')
    (collected : ∀ e ∈ events, (content e).collection.isSome)
    (created : ∀ e ∈ events, (content e).creators.entries ≠ [])
    (asset : ∀ e, latest slot events = some e →
      metadataColumns ((events.foldl step db).assetOrDefault id) = metadataColumns (columns e).model) :
    ∃ before e after, events = before ++ e :: after ∧
      From (content e) (columns e) (authority (before.foldl step db) e) (slot e) id (events.foldl step db) := by
  obtain ⟨before, e, after, split, isFirst, authorityRow⟩ := run_assetAuthority saves fresh.assetAuthority nonempty
  have isNewest : latest slot events = some e := (argmax_eq_latest identified).symm.trans isFirst
  have member := latest_mem slot isNewest
  refine ⟨before, e, after, split, ?_, asset e isNewest, authorityRow, ?_, ?_⟩
  · rw [run_assetData saves fresh.assetData, isFirst]
    rfl
  · obtain ⟨collection, present⟩ := Option.isSome_iff_exists.mp (collected e member)
    rw [run_assetGrouping saves accepts refuses fresh.assetGrouping
      (fun x memberX y memberY same => by rw [identified x memberX y memberY same]), present]
    have newestCollection : latest Prod.snd
        (events.filterMap (fun e => (content e).collection.map (fun c => (c, slot e)))) =
        some (collection, slot e) := by
      refine latest_eq_of_greatest ?_ (List.mem_filterMap.mpr ⟨e, member, by rw [present]; rfl⟩) ?_
      · intro x memberX y memberY same
        obtain ⟨i, inEvents, foundX⟩ := List.mem_filterMap.mp memberX
        obtain ⟨j, inEvents', foundY⟩ := List.mem_filterMap.mp memberY
        obtain ⟨ci, presentI, rfl⟩ := Option.map_eq_some_iff.mp foundX
        obtain ⟨cj, presentJ, rfl⟩ := Option.map_eq_some_iff.mp foundY
        have sameEvent := identified i inEvents j inEvents' same
        subst sameEvent
        rw [Option.some.inj (presentI.symm.trans presentJ)]
      · intro x memberX
        obtain ⟨i, inEvents, foundX⟩ := List.mem_filterMap.mp memberX
        obtain ⟨ci, presentI, rfl⟩ := Option.map_eq_some_iff.mp foundX
        exact le_latest slot isNewest inEvents
    rw [newestCollection]
    rfl
  · exact shownCreators_newest (fun position => run_assetCreators saves position (fresh.assetCreators position) events)
      (fun x memberX y memberY same => by rw [identified x memberX y memberY same]) member (created e member)
      (fun x memberX _ => le_latest slot isNewest memberX)

end Generic

namespace TokenMetadata
variable [Programs] {mint : Pubkey}

def saveAll (db : Db) (updates : List (Update mint)) : Db :=
  updates.foldl (fun db u => (saveV1Asset db u.metadata u.slot).1) db

theorem saveAll_metadataColumns {db : Db} (fresh : db.asset.lookup mint = none) (updates : List (Update mint)) :
    metadataColumns ((saveAll db updates).assetOrDefault mint) =
      ((latest Update.slot updates).map (fun u => metadataColumns (u.columns (supplyOf db mint)).model)).getD
        (metadataColumns {}) := by
  have keep : ∀ (db' : Db) (u : Update mint), True → db'.tokens = db.tokens →
      (saveV1Asset db' u.metadata u.slot).1.tokens = db.tokens := fun db' u _ same =>
    (saveV1Asset_tokens db' u.metadata u.slot).1.trans same
  have run : metadataColumns ((saveAll db updates).assetOrDefault mint) =
      ((latest Update.slot (updates.filterMap some)).map
        (fun u => metadataColumns (u.columns (supplyOf db mint)).model)).getD (metadataColumns {}) := by
    refine foldl_latest Update.slot (fun db' : Db => metadataColumns (db'.assetOrDefault mint))
      (fun c => (c.map (fun u => metadataColumns (u.columns (supplyOf db mint)).model)).getD (metadataColumns {}))
      keep ?skip (fun _ _ => trivial) rfl ?fresh ?put
    case skip =>
      intro db' u c _ _ nothing
      cases nothing
    case fresh =>
      rw [Db.assetOrDefault, fresh]
      rfl
    case put =>
      intro db' u c w _ same written _ held
      cases written
      refine saveV1Asset_metadataColumns (by rw [supplyOf, same]; rfl) ?_ ?_
      · rintro rfl
        exact congrArg (fun columns => columns.2.1) held
      · rintro x rfl
        exact held
  rwa [List.filterMap_some] at run

end TokenMetadata

namespace MplCore
variable [Programs]

def saveAll (db : Db) (id : Pubkey) (updates : List Update) : Db :=
  updates.foldl (fun db u => (saveV1Asset db id u.data u.slot).1) db

theorem saveAll_metadataColumns {db : Db} {id : Pubkey} (fresh : db.asset.lookup id = none)
    (updates : List Update) :
    metadataColumns ((saveAll db id updates).assetOrDefault id) =
      ((latest Update.slot updates).map (fun u => metadataColumns (u.columns id).model)).getD
        (metadataColumns {}) := by
  have keep : ∀ (db : Db) (u : Update), True → True → True := fun _ _ _ _ => trivial
  have run : metadataColumns ((saveAll db id updates).assetOrDefault id) =
      ((latest Update.slot (updates.filterMap some)).map (fun u => metadataColumns (u.columns id).model)).getD
        (metadataColumns {}) := by
    refine foldl_latest Update.slot (fun db : Db => metadataColumns (db.assetOrDefault id))
      (fun c => (c.map (fun u => metadataColumns (u.columns id).model)).getD (metadataColumns {})) keep ?skip
      (fun _ _ => trivial) trivial ?fresh ?put
    case skip =>
      intro db u c _ _ nothing
      cases nothing
    case fresh =>
      rw [Db.assetOrDefault, fresh]
      rfl
    case put =>
      intro db u c w _ _ written _ held
      cases written
      exact saveV1Asset_metadataColumns held
  rwa [List.filterMap_some] at run

end MplCore

/-- As long as no slot carries two states of the account, every state of the
database shows one update: its data, its columns, its authority, its collection
and its creators. The authority of a Core asset in a collection is the one that
was known when the update was saved. -/
theorem saves_show_one_update [Programs] :
    (∀ (mint : Pubkey) (db : Db) (updates : List (TokenMetadata.Update mint)), V1Asset.Fresh mint db →
      updates ≠ [] → (∀ u ∈ updates, u.metadata.collection.isSome ∧ u.metadata.creatorList.entries ≠ []) →
      (∀ u ∈ updates, ∀ v ∈ updates, u.slot = v.slot → u = v) →
      ∃ u ∈ updates, V1Asset.From u.metadata.content (u.columns (TokenMetadata.supplyOf db mint))
        u.metadata.updateAuthority.bytes u.slot mint (TokenMetadata.saveAll db updates)) ∧
    (∀ (id : Pubkey) (db : Db) (updates : List MplCore.Update), V1Asset.Fresh id db → updates ≠ [] →
      (∀ u ∈ updates, u.asset.collection.isSome ∧ u.asset.creatorList.entries ≠ []) →
      (∀ u ∈ updates, ∀ v ∈ updates, u.slot = v.slot → u = v) →
      ∃ before u after, updates = before ++ u :: after ∧ V1Asset.From u.asset.content (u.columns id)
        (MplCore.updateAuthorityOf (MplCore.saveAll db id before) u.asset.updateAuthority) u.slot id
        (MplCore.saveAll db id updates)) := by
  constructor
  · intro mint db updates fresh nonempty present identified
    obtain ⟨before, u, after, split, shown⟩ := V1Asset.from_newest
      (fun u => u.columns (TokenMetadata.supplyOf db mint)) (fun db (u : TokenMetadata.Update mint) => u.saves db)
      (fun x y older => by simpa using older) (fun x y later => by simpa using later.le) fresh nonempty identified
      (fun u member => (present u member).1) (fun u member => (present u member).2) (fun u newest => by
        have columns := TokenMetadata.saveAll_metadataColumns fresh.asset updates
        rwa [newest] at columns)
    have member : u ∈ updates := by
      rw [split]
      exact List.mem_append_right before List.mem_cons_self
    exact ⟨u, member, shown⟩
  · intro id db updates fresh nonempty present identified
    refine V1Asset.from_newest (fun u => u.columns id) (fun db u => MplCore.saveV1Asset_saves db id u.slot u.indexable)
      (fun x y older => by simpa using older.le) (fun x y later => by simpa using later) fresh nonempty identified
      (fun u member => (present u member).1) (fun u member => (present u member).2) ?_
    intro u newest
    have columns := MplCore.saveAll_metadataColumns fresh.asset updates
    rwa [newest] at columns

/-- Two states of a metadata account. -/
def TokenMetadata.Example.states (first second : Nat) : List (TokenMetadata.Update (.fill 7)) :=
  [⟨metadata 500 true none (some oneCreator) (some collection), rfl, first⟩,
    ⟨metadata 600 false none (some oneCreator) (some collection), rfl, second⟩]

/-- Two states of a Core asset. -/
def MplCore.Example.states (first second : Nat) : List MplCore.Update :=
  [update "first" (.collection (.fill 5)) [royalties 500] first,
    update "second" (.collection (.fill 5)) [royalties 600] second]

theorem saves_show_one_of_two_slots :
    (∃ u ∈ TokenMetadata.Example.states 20 10, V1Asset.From u.metadata.content (u.columns 1)
      u.metadata.updateAuthority.bytes u.slot (.fill 7)
      (TokenMetadata.saveAll {} (TokenMetadata.Example.states 20 10))) ∧
    ∃ before u after, MplCore.Example.states 20 10 = before ++ u :: after ∧
      V1Asset.From u.asset.content (u.columns (.fill 7))
        (MplCore.updateAuthorityOf (MplCore.saveAll {} (.fill 7) before) u.asset.updateAuthority) u.slot (.fill 7)
        (MplCore.saveAll {} (.fill 7) (MplCore.Example.states 20 10)) := by
  have slots : ((TokenMetadata.Example.states 20 10).map TokenMetadata.Update.slot).Nodup := by decide
  have coreSlots : ((MplCore.Example.states 20 10).map MplCore.Update.slot).Nodup := by decide
  constructor
  · refine saves_show_one_update.1 (.fill 7) {} _ (.empty _) nofun ?_
      (fun u member v member' same => List.inj_on_of_nodup_map slots member member' same)
    simp only [TokenMetadata.Example.states, List.forall_mem_cons]
    exact ⟨⟨rfl, nofun⟩, ⟨rfl, nofun⟩, by simp⟩
  · refine saves_show_one_update.2 (.fill 7) {} _ (.empty _) nofun ?_
      (fun u member v member' same => List.inj_on_of_nodup_map coreSlots member member' same)
    simp only [MplCore.Example.states, List.forall_mem_cons]
    exact ⟨⟨rfl, nofun⟩, ⟨rfl, nofun⟩, by simp⟩

/-- Of two states in one slot, the data comes from the first and the columns
come from the second. -/
theorem saves_mix_states_of_one_slot :
    (¬ ∃ u ∈ TokenMetadata.Example.states 10 10, V1Asset.From u.metadata.content (u.columns 1)
      u.metadata.updateAuthority.bytes u.slot (.fill 7)
        (TokenMetadata.saveAll {} (TokenMetadata.Example.states 10 10))) ∧
    ¬ ∃ authority, ∃ u ∈ MplCore.Example.states 10 10,
      V1Asset.From u.asset.content (u.columns (.fill 7)) authority u.slot
      (.fill 7) (MplCore.saveAll {} (.fill 7) (MplCore.Example.states 10 10)) := by
  have fresh := V1Asset.Fresh.empty (.fill 7)
  constructor
  · rintro ⟨u, member, shown⟩
    have asset := shown.asset.symm.trans (TokenMetadata.saveAll_metadataColumns rfl _)
    have data := shown.assetData.symm.trans (V1Asset.run_assetData
      (fun db (u : TokenMetadata.Update (.fill 7)) => u.saves db) fresh.assetData
        (TokenMetadata.Example.states 10 10))
    simp only [TokenMetadata.Example.states, List.mem_cons, List.not_mem_nil, or_false] at member
    rcases member with rfl | rfl
    · have royalty := congrArg (fun columns => columns.2.2.1) asset
      exact absurd royalty (by decide)
    · have mutability := congrArg (Option.map AssetDataRow.chainDataMutability) data
      exact absurd mutability (by decide)
  · rintro ⟨authority, u, member, shown⟩
    have asset := shown.asset.symm.trans (MplCore.saveAll_metadataColumns rfl _)
    have data := shown.assetData.symm.trans (V1Asset.run_assetData
      (fun db (u : MplCore.Update) => MplCore.saveV1Asset_saves db (.fill 7) u.slot u.indexable) fresh.assetData
        (MplCore.Example.states 10 10))
    simp only [MplCore.Example.states, List.mem_cons, List.not_mem_nil, or_false] at member
    rcases member with rfl | rfl
    · have royalty := congrArg (fun columns => columns.2.2.1) asset
      exact absurd royalty (by decide)
    · have name := congrArg (Option.map AssetDataRow.rawName) data
      exact absurd name (by decide)

end DasIndexer
