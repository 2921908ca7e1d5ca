import DasIndexer.Accounts.Saves
import DasIndexer.Dao

namespace DasIndexer.V1Asset
open Sql Latest

/-- The slot of a creator row, as the saves set it. -/
def creatorSlot (row : AssetCreatorRow) : Nat := row.slotUpdated.getD 0

/-- The row that a creator list proposes for a position, if it reaches it. -/
def creatorAt (creators : CreatorList) (slot position : Nat) : Option AssetCreatorRow :=
  creators.entries[position]?.map (creatorRow slot)

theorem creatorAt_slot {creators : CreatorList} {slot position : Nat} {row : AssetCreatorRow}
    (found : creatorAt creators slot position = some row) :
    row.slotUpdated = some slot ∧ row.seq = some 0 := by
  obtain ⟨c, -, rfl⟩ := Option.map_eq_some_iff.mp found
  exact ⟨rfl, rfl⟩

section Tables
variable (db : Db) (id : Pubkey) (slot : Nat)

theorem saveCreators_skip {creators : CreatorList} {key : Pubkey × Nat}
    (skip : key.1 = id → creatorAt creators slot key.2 = none) :
    (saveCreators db id creators slot).assetCreators.lookup key = db.assetCreators.lookup key := by
  dsimp only [saveCreators]
  split
  · rfl
  · refine Table.lookup_upsertMany_absent _ _ _ (fun entry member same => ?_)
    obtain ⟨⟨c, i⟩, inList, rfl⟩ := List.mem_map.mp member
    subst same
    have reached := List.mk_mem_zipIdx_iff_getElem?.mp inList
    have nothing := skip rfl
    rw [creatorAt, reached] at nothing
    cases nothing

theorem saveCreators_put {creators : CreatorList} {position : Nat} {row : AssetCreatorRow}
    (found : creatorAt creators slot position = some row) :
    (saveCreators db id creators slot).assetCreators.lookup (id, position) =
      some (creatorsOnConflict.resolve row (db.assetCreators.lookup (id, position))) := by
  obtain ⟨c, reached, rfl⟩ := Option.map_eq_some_iff.mp found
  have nonempty : ¬ creators.entries.isEmpty := by
    intro empty
    rw [List.isEmpty_iff.mp empty] at reached
    cases reached
  dsimp only [saveCreators]
  rw [if_neg nonempty]
  refine Table.lookup_upsertMany_mem _ _ _ ?_
    (List.mem_map.mpr ⟨(c, position), List.mk_mem_zipIdx_iff_getElem?.mpr reached, rfl⟩)
  have positions : creators.entries.zipIdx.map (fun entry => (id, entry.2)) =
      (creators.entries.zipIdx.map Prod.snd).map (fun i => (id, i)) := by
    rw [List.map_map]
    rfl
  have distinct : (creators.entries.zipIdx.map (fun entry => (id, entry.2))).Nodup := by
    rw [positions, List.zipIdx_map_snd]
    exact List.Nodup.map (fun i j same => (Prod.mk.inj same).2) List.nodup_range'
  rw [List.map_map]
  exact distinct

end Tables

section Steps
variable {E : Type} {id : Pubkey} {newer : Option Nat → Option Nat → Truth} {content : E → Content}
  {authority : Bytes} {slot : E → Nat} {db after : Db} {e : E} {c : Option E}
  (saves : Saves newer id (content e) authority (slot e) db after)
include saves

/-- A save moves the row of `asset_data` to a strictly newer account state. -/
theorem Saves.assetData_put (held : db.assetData.lookup id = c.map (fun e => (content e).data (slot e))) :
    after.assetData.lookup id = (some (strictlyNewer slot c e)).map (fun e => (content e).data (slot e)) := by
  rw [saves.assetData]
  refine (Table.lookup_upsert_self _ _ _ _).trans ?_
  rw [held]
  refine OnConflict.resolve_strictlyNewer (fun x stored => ?_) (fun x stored => ?_)
  · simp [assetDataOnConflict, (content x).slotted, (content e).slotted]
  · simp only [assetDataOnConflict, (content x).processing, ← (content e).processing (slot e)]

theorem Saves.assetAuthority_resolve :
    after.assetAuthority.lookup id =
      some (authorityOnConflict.resolve (authorityRow authority (slot e)) (db.assetAuthority.lookup id)) := by
  rw [saves.assetAuthority]
  exact Table.lookup_upsert_self _ _ _ _

end Steps

section Runs
variable {E : Type} {step : Db → E → Db} {id : Pubkey} {newer : Option Nat → Option Nat → Truth}
  {content : E → Content} {authority : Db → E → Bytes} {slot : E → Nat}
  (saves : ∀ db e, Saves newer id (content e) (authority db e) (slot e) db (step db e))
  {db : Db}
include saves

theorem run_assetCreators (position : Nat) (fresh : db.assetCreators.lookup (id, position) = none)
    (events : List E) :
    (events.foldl step db).assetCreators.lookup (id, position) =
      latest creatorSlot (events.filterMap (fun e => creatorAt (content e).creators (slot e) position)) := by
  have keep : ∀ (db : Db) (e : E), True → True → True := fun _ _ _ _ => trivial
  refine foldl_latest creatorSlot (fun db : Db => db.assetCreators.lookup (id, position)) (fun c => c) keep
    ?skip (fun _ _ => trivial) trivial fresh ?put
  case skip =>
    intro db e c _ _ nothing held
    rw [(saves db e).assetCreators, saveCreators_skip db id (slot e) (fun _ => nothing)]
    exact held
  case put =>
    intro db e c row _ _ written known held
    rw [(saves db e).assetCreators, saveCreators_put db id (slot e) written, held]
    have resolved : some (creatorsOnConflict.resolve row (c.map (fun x => x))) =
        (some (Latest.newer creatorSlot c row)).map (fun x => x) := by
      refine OnConflict.resolve_newer (fun x stored => ?_) (fun _ _ => rfl)
      obtain ⟨t, -, writtenT⟩ := known x stored
      refine (holds_ge_or_isNull_of (creatorAt_slot written).1 x.slotUpdated).trans ?_
      simp [creatorSlot, (creatorAt_slot writtenT).1, (creatorAt_slot written).1]
    simpa using resolved

/-- The row of `asset_data` is the first of those with the greatest slot. -/
theorem run_assetData (fresh : db.assetData.lookup id = none) (events : List E) :
    (events.foldl step db).assetData.lookup id =
      (events.argmax slot).map (fun e => (content e).data (slot e)) := by
  have keep : ∀ (db : Db) (e : E), True → True → True := fun _ _ _ _ => trivial
  have run : (events.foldl step db).assetData.lookup id =
      ((events.filterMap some).argmax slot).map (fun e => (content e).data (slot e)) := by
    refine foldl_argmax slot (fun db : Db => db.assetData.lookup id)
      (Option.map (fun e => (content e).data (slot e))) keep ?skip (fun _ _ => trivial) trivial fresh ?put
    case skip =>
      intro db e c _ _ nothing
      cases nothing
    case put =>
      intro db e c w _ _ written _ held
      cases written
      exact (saves db e).assetData_put held
  rwa [List.filterMap_some] at run

/-- The grouping row is the one of the newest account state with a collection;
`newer` may or may not accept equal slots. -/
theorem run_assetGrouping (accepts : ∀ x y, y < x → (newer (some x) (some y)).holds = true)
    (refuses : ∀ x y, x < y → (newer (some x) (some y)).holds = false)
    (fresh : db.assetGrouping.lookup (id, "collection") = none) {events : List E}
    (identifies : ∀ e ∈ events, ∀ e' ∈ events, slot e = slot e' → (content e).collection = (content e').collection) :
    (events.foldl step db).assetGrouping.lookup (id, "collection") =
      (latest Prod.snd (events.filterMap (fun e => (content e).collection.map (fun c => (c, slot e))))).map
        (fun w => groupingRow w.1 w.2) := by
  have keep : ∀ (db : Db) (e : E), e ∈ events → True → True := fun _ _ _ _ => trivial
  refine foldl_latest Prod.snd (fun db : Db => db.assetGrouping.lookup (id, "collection"))
    (Option.map (fun w : Collection × Nat => groupingRow w.1 w.2)) keep ?skip (fun _ member => member) trivial
    fresh ?put
  case skip =>
    intro db e c _ _ nothing held
    rw [Option.map_eq_none_iff] at nothing
    rw [(saves db e).assetGrouping]
    simpa only [saveGrouping, nothing] using held
  case put =>
    intro db e c w member _ written known held
    obtain ⟨collection, present, rfl⟩ := Option.map_eq_some_iff.mp written
    rw [(saves db e).assetGrouping]
    simp only [saveGrouping, present, Table.lookup_upsert_self, held]
    refine @OnConflict.resolve_identified _ _ _ _ Prod.snd (fun w => groupingRow w.1 w.2)
      (groupingOnConflict newer) c (collection, slot e) (fun x _ => accepts (slot e) x.2)
      (fun x _ => refuses (slot e) x.2) (fun x stored same => ?_) (fun _ _ => rfl)
    obtain ⟨e', member', written'⟩ := known x stored
    obtain ⟨collection', present', rfl⟩ := Option.map_eq_some_iff.mp written'
    have equal := identifies e' member' e member same
    rw [present', present] at equal
    cases equal
    exact Prod.ext rfl same

/-- The authority row is the one of the first account state with the greatest
slot, as it was resolved when that state was saved. -/
theorem run_assetAuthority (fresh : db.assetAuthority.lookup id = none) {events : List E} (nonempty : events ≠ []) :
    ∃ before e after, events = before ++ e :: after ∧ events.argmax slot = some e ∧
      (events.foldl step db).assetAuthority.lookup id =
        some (authorityRow (authority (before.foldl step db) e) (slot e)) := by
  induction events using List.reverseRecOn with
  | nil => exact absurd rfl nonempty
  | append_singleton earlier e ih =>
    rw [List.foldl_concat, (saves _ e).assetAuthority_resolve,
      argmax_concat_strictlyNewer]
    rcases List.eq_nil_or_concat' earlier with none | ⟨front, last, concat⟩
    · subst none
      refine ⟨[], e, [], rfl, rfl, ?_⟩
      rw [List.foldl_nil, fresh]
      rfl
    · obtain ⟨before, newest, after, split, isNewest, stored⟩ := ih (by simp [concat])
      rw [isNewest, stored, strictlyNewer, OnConflict.resolve]
      by_cases older : slot newest < slot e
      · refine ⟨earlier, e, [], rfl, by rw [if_pos older], ?_⟩
        rw [if_pos (by simpa [authorityOnConflict, authorityRow] using older)]
        rfl
      · refine ⟨before, newest, after ++ [e], by rw [split]; simp, by rw [if_neg older], ?_⟩
        rw [if_neg (by simpa [authorityOnConflict, authorityRow] using older)]

end Runs

section Shown
variable {E : Type} {content : E → Content} {slot : E → Nat} {db : Db} {id : Pubkey} {events : List E}
  (cells : ∀ position, db.assetCreators.lookup (id, position) =
    latest creatorSlot (events.filterMap (fun e => creatorAt (content e).creators (slot e) position)))
include cells

theorem shownCreators_never (empty : ∀ e ∈ events, (content e).creators.entries = []) :
    shownCreators db id = [] := by
  refine shownCreators_none (fun position => ?_)
  rw [cells position, latest_eq_none, List.filterMap_eq_nil_iff]
  intro e member
  rw [creatorAt, empty e member]
  rfl

/-- Shown are the creators of the newest account state that has any. -/
theorem shownCreators_newest
    (identifies : ∀ e ∈ events, ∀ e' ∈ events, slot e = slot e' → (content e).creators = (content e').creators)
    {e : E} (member : e ∈ events) (nonempty : (content e).creators.entries ≠ [])
    (greatest : ∀ e' ∈ events, (content e').creators.entries ≠ [] → slot e' ≤ slot e) :
    shownCreators db id = (content e).creators.entries.map (creatorRow (slot e)) := by
  have reaches : ∀ {e' position row}, creatorAt (content e').creators (slot e') position = some row →
      (content e').creators.entries ≠ [] := by
    intro e' position row found none
    rw [creatorAt, none] at found
    cases found
  refine shownCreators_eq (slot e) 0 (by simpa using nonempty) ?_ ?_ ?_ ?_
  · intro position within
    rw [List.length_map] at within
    rw [cells position, List.getElem?_map, List.getElem?_eq_getElem within, Option.map_some]
    have found : creatorAt (content e).creators (slot e) position =
        some (creatorRow (slot e) (content e).creators.entries[position]) := by
      rw [creatorAt, List.getElem?_eq_getElem within, Option.map_some]
    refine latest_eq_of_greatest ?_ (List.mem_filterMap.mpr ⟨e, member, found⟩) ?_
    · intro x memberX y memberY sameSlot
      obtain ⟨i, inEvents, foundX⟩ := List.mem_filterMap.mp memberX
      obtain ⟨j, inEvents', foundY⟩ := List.mem_filterMap.mp memberY
      rw [creatorSlot, creatorSlot, (creatorAt_slot foundX).1, (creatorAt_slot foundY).1] at sameSlot
      rw [identifies i inEvents j inEvents' sameSlot, show slot i = slot j from sameSlot, foundY] at foundX
      exact (Option.some.inj foundX).symm
    · intro x memberX
      obtain ⟨i, inEvents, foundX⟩ := List.mem_filterMap.mp memberX
      rw [creatorSlot, creatorSlot, (creatorAt_slot foundX).1, (creatorAt_slot found).1]
      exact greatest i inEvents (reaches foundX)
  · intro row inRows
    obtain ⟨c, -, rfl⟩ := List.mem_map.mp inRows
    exact ⟨rfl, rfl⟩
  · intro row inRows
    obtain ⟨c, -, rfl⟩ := List.mem_map.mp inRows
    exact c.address.bytes_ne_nil
  · intro position row late stored
    rw [List.length_map] at late
    rw [cells position] at stored
    obtain ⟨i, inEvents, found⟩ := List.mem_filterMap.mp (latest_mem _ stored)
    obtain ⟨rowSlot, rowSeq⟩ := creatorAt_slot found
    have older := greatest i inEvents (reaches found)
    rw [NotNewer, rowSlot]
    refine ⟨⟨Nat.succ_le_succ older, fun positive => absurd rfl positive⟩, fun same => ?_⟩
    rw [creatorAt, identifies i inEvents e member (Option.some.inj same.1), List.getElem?_eq_none late] at found
    cases found

end Shown

end DasIndexer.V1Asset
