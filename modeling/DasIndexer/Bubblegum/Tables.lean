import DasIndexer.Bubblegum.Columns

namespace DasIndexer

def AssetCreatorRow.version (row : AssetCreatorRow) : Nat := row.seq.getD 0

end DasIndexer

namespace DasIndexer.Bubblegum
open Sql Latest

/-- The row that a creator list proposes for a position, if it reaches it. -/
def CreatorsInfo.rowAt (info : CreatorsInfo) (position : Nat) : Option AssetCreatorRow :=
  if info.creators.entries.isEmpty then if position = 0 then some info.emptyRow else none
  else info.creators.entries[position]?.map info.creatorRow

theorem CreatorsInfo.mem_rows {info : CreatorsInfo} {position : Nat} {row : AssetCreatorRow} :
    (position, row) ∈ info.rows ↔ info.rowAt position = some row := by
  unfold CreatorsInfo.rows CreatorsInfo.rowAt
  by_cases empty : info.creators.entries.isEmpty
  · rw [if_pos empty, if_pos empty, List.mem_singleton, Prod.mk.injEq]
    by_cases first : position = 0
    · simp [first, eq_comm]
    · simp [first]
  · rw [if_neg empty, if_neg empty, List.mem_map]
    constructor
    · rintro ⟨⟨c, i⟩, member, same⟩
      cases same
      rw [List.mk_mem_zipIdx_iff_getElem?] at member
      rw [member]
      rfl
    · intro found
      obtain ⟨c, stored, same⟩ := Option.map_eq_some_iff.mp found
      exact ⟨(c, position), List.mk_mem_zipIdx_iff_getElem?.mpr stored, Prod.ext rfl same⟩

theorem CreatorsInfo.rows_distinct (info : CreatorsInfo) : (info.rows.map Prod.fst).Nodup := by
  unfold CreatorsInfo.rows
  by_cases empty : info.creators.entries.isEmpty
  · rw [if_pos empty]
    simp
  · rw [if_neg empty, List.map_map]
    have distinct : (info.creators.entries.zipIdx.map Prod.snd).Nodup := by
      rw [List.zipIdx_map_snd]
      exact List.nodup_range'
    exact distinct

theorem CreatorsInfo.rowAt_seq {info : CreatorsInfo} {position : Nat} {row : AssetCreatorRow}
    (found : info.rowAt position = some row) :
    row.seq = some info.seq ∧ row.slotUpdated = some info.slotUpdated := by
  unfold CreatorsInfo.rowAt at found
  split at found
  · split at found
    · cases found
      exact ⟨rfl, rfl⟩
    · cases found
  · obtain ⟨c, -, same⟩ := Option.map_eq_some_iff.mp found
    cases same
    exact ⟨rfl, rfl⟩

theorem CreatorsInfo.rowAt_version {info : CreatorsInfo} {position : Nat} {row : AssetCreatorRow}
    (found : info.rowAt position = some row) : row.version = info.seq := by
  rw [AssetCreatorRow.version, (CreatorsInfo.rowAt_seq found).1, Option.getD_some]

namespace Statement

def dataWrite (key : Pubkey) : Statement → Option AssetDataInfo
  | .assetData id info => if key = id then some info else none
  | _ => none

def groupWrite (key : Pubkey × String) : Statement → Option CollectionInfo
  | .collectionInfo id info => if key = (id, "collection") then some info else none
  | _ => none

def creatorWrite (key : Pubkey × Nat) : Statement → Option AssetCreatorRow
  | .creators id info => if key.1 = id then info.rowAt key.2 else none
  | _ => none

def authorityWrite (key : Pubkey) : Statement → Option AuthorityInfo
  | .authority id info => if key = id then some info else none
  | _ => none

def itemWrite (key : Pubkey × Nat) : Statement → Option ClItemRow
  | .clItem tree nodeIdx item => if key = (tree, nodeIdx) then some item else none
  | _ => none

def auditWrite (key : Pubkey × Nat × Nat) : Statement → Option ClAuditRow
  | .clAudit tree leafIdx seq audit => if key = (tree, leafIdx, seq) then some audit else none
  | _ => none

section Inversion
variable {s : Statement}

theorem dataWrite_eq {key : Pubkey} {info : AssetDataInfo} (written : s.dataWrite key = some info) :
    s = .assetData key info := by
  cases s <;> simp_all [dataWrite]

theorem groupWrite_eq {key : Pubkey × String} {info : CollectionInfo}
    (written : s.groupWrite key = some info) :
    key = (key.1, "collection") ∧ s = .collectionInfo key.1 info := by
  cases s <;> simp_all [groupWrite]

theorem creatorWrite_eq {key : Pubkey × Nat} {row : AssetCreatorRow}
    (written : s.creatorWrite key = some row) :
    ∃ info, s = .creators key.1 info ∧ info.rowAt key.2 = some row := by
  cases s <;> simp_all [creatorWrite]

theorem authorityWrite_eq {key : Pubkey} {info : AuthorityInfo} (written : s.authorityWrite key = some info) :
    s = .authority key info := by
  cases s <;> simp_all [authorityWrite]

theorem itemWrite_eq {key : Pubkey × Nat} {item : ClItemRow} (written : s.itemWrite key = some item) :
    s = .clItem key.1 key.2 item := by
  cases s <;> simp_all [itemWrite]

theorem auditWrite_eq {key : Pubkey × Nat × Nat} {audit : ClAuditRow}
    (written : s.auditWrite key = some audit) : s = .clAudit key.1 key.2.1 key.2.2 audit := by
  cases s <;> simp_all [auditWrite]

end Inversion

section Tables
variable [Programs] (db : Db)

theorem exec_assetData_skip {key : Pubkey} {s : Statement} (skip : s.dataWrite key = none) :
    (s.exec db).assetData.lookup key = db.assetData.lookup key := by
  cases s with
  | assetData id info =>
    have different : key ≠ id := fun same => by simp [dataWrite, same] at skip
    exact Table.lookup_upsert_ne _ different _ _
  | _ => rfl

/-- The first insertion fixes the column `metadata`, so all writes are asked to
carry the same. -/
theorem exec_assetData_put {key : Pubkey} {c : Option AssetDataInfo} {info : AssetDataInfo}
    (positive : ∀ x, c = some x → 0 < x.seq) (metadata : ∀ x, c = some x → x.metadata = info.metadata)
    (held : db.assetData.lookup key = c.map AssetDataInfo.model) :
    ((Statement.assetData key info).exec db).assetData.lookup key =
      (some (newer AssetDataInfo.seq c info)).map AssetDataInfo.model := by
  refine (Table.lookup_upsert_self _ _ _ _).trans ?_
  rw [held]
  refine OnConflict.resolve_newer (fun x stored => ?_) (fun x stored => ?_)
  · refine (holds_ne_and_ge_or_isNull info.seq 0 (some x.seq)).trans ?_
    simp [(positive x stored).ne']
  · have same := metadata x stored
    simp only [AssetDataInfo.onConflict, AssetDataInfo.model, same]

theorem exec_assetGrouping_skip {key : Pubkey × String} {s : Statement} (skip : s.groupWrite key = none) :
    (s.exec db).assetGrouping.lookup key = db.assetGrouping.lookup key := by
  cases s with
  | collectionInfo id info =>
    have different : key ≠ (id, "collection") := fun same => by simp [groupWrite, same] at skip
    exact Table.lookup_upsert_ne _ different _ _
  | _ => rfl

theorem exec_assetGrouping_put {id : Pubkey} {c : Option CollectionInfo} {info : CollectionInfo}
    (positive : ∀ x, c = some x → 0 < x.seq)
    (held : db.assetGrouping.lookup (id, "collection") = c.map CollectionInfo.model) :
    ((Statement.collectionInfo id info).exec db).assetGrouping.lookup (id, "collection") =
      (some (newer CollectionInfo.seq c info)).map CollectionInfo.model := by
  refine (Table.lookup_upsert_self _ _ _ _).trans ?_
  rw [held]
  refine OnConflict.resolve_newer (fun x stored => ?_) (fun _ _ => rfl)
  refine (holds_ne_and_ge_or_isNull info.seq 0 (some x.seq)).trans ?_
  simp [(positive x stored).ne']

theorem exec_assetAuthority_skip {key : Pubkey} {s : Statement} (skip : s.authorityWrite key = none) :
    (s.exec db).assetAuthority.lookup key = db.assetAuthority.lookup key := by
  cases s with
  | authority id info =>
    have different : key ≠ id := fun same => by simp [authorityWrite, same] at skip
    exact Table.lookup_upsert_ne _ different _ _
  | _ => rfl

theorem exec_assetAuthority_put {key : Pubkey} (info : AuthorityInfo) :
    ((Statement.authority key info).exec db).assetAuthority.lookup key =
      some ((db.assetAuthority.lookup key).getD info.model) := by
  refine (Table.lookup_upsert_self _ _ _ _).trans ?_
  cases db.assetAuthority.lookup key with
  | none => rfl
  | some row => rfl

theorem exec_clItems_skip {key : Pubkey × Nat} {s : Statement} (skip : s.itemWrite key = none) :
    (s.exec db).clItems.lookup key = db.clItems.lookup key := by
  cases s with
  | clItem tree nodeIdx item =>
    have different : key ≠ (tree, nodeIdx) := fun same => by simp [itemWrite, same] at skip
    exact Table.lookup_upsert_ne _ different _ _
  | _ => rfl

theorem exec_clItems_put {tree : Pubkey} {nodeIdx : Nat} (item : ClItemRow) :
    ((Statement.clItem tree nodeIdx item).exec db).clItems.lookup (tree, nodeIdx) =
      some (strictlyNewer ClItemRow.seq (db.clItems.lookup (tree, nodeIdx)) item) := by
  refine (Table.lookup_upsert_self _ _ _ _).trans ?_
  cases stored : db.clItems.lookup (tree, nodeIdx) with
  | none => rfl
  | some row =>
    rw [OnConflict.resolve, strictlyNewer, clItemOnConflict, holds_gt]
    simp

theorem exec_clAuditsV2_skip {key : Pubkey × Nat × Nat} {s : Statement} (skip : s.auditWrite key = none) :
    (s.exec db).clAuditsV2.lookup key = db.clAuditsV2.lookup key := by
  cases s with
  | clAudit tree leafIdx seq audit =>
    have different : key ≠ (tree, leafIdx, seq) := fun same => by simp [auditWrite, same] at skip
    exact Table.lookup_upsert_ne _ different _ _
  | _ => rfl

theorem exec_clAuditsV2_put {tree : Pubkey} {leafIdx seq : Nat} (audit : ClAuditRow) :
    ((Statement.clAudit tree leafIdx seq audit).exec db).clAuditsV2.lookup (tree, leafIdx, seq) =
      some ((db.clAuditsV2.lookup (tree, leafIdx, seq)).getD audit) := by
  refine (Table.lookup_upsert_self _ _ _ _).trans ?_
  cases db.clAuditsV2.lookup (tree, leafIdx, seq) with
  | none => rfl
  | some row => rfl

theorem exec_assetCreators_skip {key : Pubkey × Nat} {s : Statement} (skip : s.creatorWrite key = none) :
    (s.exec db).assetCreators.lookup key = db.assetCreators.lookup key := by
  cases s with
  | creators id info =>
    refine Table.lookup_upsertMany_absent _ _ _ (fun entry member same => ?_)
    obtain ⟨⟨position, row⟩, inRows, rfl⟩ := List.mem_map.mp member
    rw [creatorWrite, ← same, if_pos rfl, CreatorsInfo.mem_rows.mp inRows] at skip
    cases skip
  | _ => rfl

theorem exec_assetCreators_resolve {id : Pubkey} {position : Nat} {info : CreatorsInfo} {row : AssetCreatorRow}
    (found : info.rowAt position = some row) :
    ((Statement.creators id info).exec db).assetCreators.lookup (id, position) =
      some (CreatorsInfo.onConflict.resolve row (db.assetCreators.lookup (id, position))) := by
  have distinct : ((info.rows.map (fun entry => ((id, entry.1), entry.2))).map Prod.fst).Nodup := by
    rw [List.map_map]
    have keys : (Prod.fst ∘ fun (x : Nat × AssetCreatorRow) => ((id, x.1), x.2)) =
        (fun i => (id, i)) ∘ Prod.fst := rfl
    rw [keys, ← List.map_map]
    exact info.rows_distinct.map (fun i j same => (Prod.mk.inj same).2)
  exact Table.lookup_upsertMany_mem _ _ _ distinct
    (List.mem_map.mpr ⟨(position, row), CreatorsInfo.mem_rows.mpr found, rfl⟩)

theorem exec_assetCreators_put {id : Pubkey} {position : Nat} {c : Option AssetCreatorRow}
    {info : CreatorsInfo} {row : AssetCreatorRow} (found : info.rowAt position = some row)
    (positive : ∀ x, c = some x → ∃ n, 0 < n ∧ x.seq = some n)
    (held : db.assetCreators.lookup (id, position) = c) :
    ((Statement.creators id info).exec db).assetCreators.lookup (id, position) =
      some (newer AssetCreatorRow.version c row) := by
  rw [exec_assetCreators_resolve db found]
  have resolved : some (CreatorsInfo.onConflict.resolve row (c.map (fun x => x))) =
      (some (newer AssetCreatorRow.version c row)).map (fun x => x) := by
    refine OnConflict.resolve_newer (fun x stored => ?_) (fun _ _ => rfl)
    obtain ⟨n, large, seq⟩ := positive x stored
    simp [CreatorsInfo.onConflict, AssetCreatorRow.version, seq, (CreatorsInfo.rowAt_seq found).1, large.ne']
  simpa [held] using resolved

/-- A row of a creator is the one stored before or the one proposed. -/
theorem exec_assetCreators_origin {key : Pubkey × Nat} {s : Statement} {row : AssetCreatorRow}
    (stored : (s.exec db).assetCreators.lookup key = some row) :
    db.assetCreators.lookup key = some row ∨ s.creatorWrite key = some row := by
  cases written : s.creatorWrite key with
  | none =>
    rw [exec_assetCreators_skip db written] at stored
    exact Or.inl stored
  | some proposed =>
    obtain ⟨info, same, found⟩ := creatorWrite_eq written
    subst same
    rw [show key = (key.1, key.2) from rfl, exec_assetCreators_resolve db found] at stored
    cases Option.some.inj stored
    cases previous : db.assetCreators.lookup (key.1, key.2) with
    | none => exact Or.inr rfl
    | some old =>
      rw [OnConflict.resolve]
      split
      · exact Or.inr rfl
      · exact Or.inl rfl

/-- A creator of a decompressed asset stays. -/
theorem exec_assetCreators_frozen {key : Pubkey × Nat} {row : AssetCreatorRow}
    (stored : db.assetCreators.lookup key = some row) (frozen : row.seq = some 0) (s : Statement) :
    (s.exec db).assetCreators.lookup key = some row := by
  cases written : s.creatorWrite key with
  | none => exact (exec_assetCreators_skip db written).trans stored
  | some proposed =>
    obtain ⟨info, same, found⟩ := creatorWrite_eq written
    subst same
    rw [show key = (key.1, key.2) from rfl, exec_assetCreators_resolve db found, Prod.mk.eta, stored,
      OnConflict.resolve, if_neg]
    simp [CreatorsInfo.onConflict, frozen]

/-- A grouping row has the slot of the one stored before or of the one proposed. -/
theorem exec_assetGrouping_slot {key : Pubkey × String} {s : Statement} {row : AssetGroupingRow}
    (stored : (s.exec db).assetGrouping.lookup key = some row) :
    db.assetGrouping.lookup key = some row ∨
      ∃ info, s.groupWrite key = some info ∧ row.slotUpdated = some info.slotUpdated := by
  cases written : s.groupWrite key with
  | none =>
    rw [exec_assetGrouping_skip db written] at stored
    exact Or.inl stored
  | some info =>
    obtain ⟨collection, same⟩ := groupWrite_eq written
    subst same
    rw [collection] at stored ⊢
    rw [show ((Statement.collectionInfo key.1 info).exec db).assetGrouping.lookup (key.1, "collection") = _ from
      Table.lookup_upsert_self _ _ _ _] at stored
    cases Option.some.inj stored
    cases previous : db.assetGrouping.lookup (key.1, "collection") with
    | none => exact Or.inr ⟨info, rfl, rfl⟩
    | some old =>
      rw [OnConflict.resolve]
      split
      · exact Or.inr ⟨info, rfl, rfl⟩
      · exact Or.inl rfl

/-- The collection of a decompressed asset stays. -/
theorem exec_assetGrouping_frozen {key : Pubkey × String} {row : AssetGroupingRow}
    (stored : db.assetGrouping.lookup key = some row) (frozen : row.groupInfoSeq = some 0) (s : Statement) :
    (s.exec db).assetGrouping.lookup key = some row := by
  cases written : s.groupWrite key with
  | none => exact (exec_assetGrouping_skip db written).trans stored
  | some info =>
    obtain ⟨collection, same⟩ := groupWrite_eq written
    subst same
    rw [collection] at stored ⊢
    refine (Table.lookup_upsert_self _ _ _ _).trans ?_
    rw [stored, OnConflict.resolve, if_neg]
    simp [CollectionInfo.onConflict, frozen]

end Tables

end Statement

end DasIndexer.Bubblegum
