import DasIndexer.Schema
import Mathlib.Data.List.MinMax
import Mathlib.Data.List.Sort

namespace DasIndexer
open Sql

/-- The positions of an asset's creators, as `ORDER BY position` lists them. -/
def creatorPositions (db : Db) (id : Pubkey) : List Nat :=
  ((db.assetCreators.keys.filter (fun key => key.1 = id)).map Prod.snd).insertionSort (· ≤ ·)

def creatorsByPosition (db : Db) (id : Pubkey) : List AssetCreatorRow :=
  (creatorPositions db id).filterMap (fun position => db.assetCreators.lookup (id, position))

/-- The order of `Option<i64>`: `None` is below every value. -/
def nullRank : Option Nat → Nat
  | none => 0
  | some n => n + 1

/-- `Iterator::max` on a nullable column. -/
def maxColumn (columns : List (Option Nat)) : Option (Option Nat) := columns.argmax nullRank

/-- `creators.retain(..)` on the greatest value of a column. -/
def retainGreatest (column : AssetCreatorRow → Option Nat) (greatest : Option (Option Nat))
    (creators : List AssetCreatorRow) : List AssetCreatorRow :=
  match greatest with
  | some value => creators.filter (fun creator => column creator = value)
  | none => creators

/-- Creators of the newest slot, and among them those of the newest sequence
number, where 0 marks an asset that is not compressed. -/
def filterOutStaleCreators (creators : List AssetCreatorRow) : List AssetCreatorRow :=
  if creators.head?.any (fun first => first.creator.isEmpty) then []
  else
    let current := retainGreatest AssetCreatorRow.slotUpdated
      (maxColumn (creators.map AssetCreatorRow.slotUpdated)) creators
    let seq := if current.any (fun creator => creator.seq = some 0) then some (some 0)
      else maxColumn (current.map AssetCreatorRow.seq)
    retainGreatest AssetCreatorRow.seq seq current

def shownCreators (db : Db) (id : Pubkey) : List AssetCreatorRow :=
  filterOutStaleCreators (creatorsByPosition db id)

/-- What a creator entry says: its address, share and verification. -/
def AssetCreatorRow.shown (row : AssetCreatorRow) : Bytes × Nat × Bool := (row.creator, row.share, row.verified)

def Creator.shown (c : Creator) : Bytes × Nat × Bool := (c.address.bytes, c.share, c.verified)

/-- The display options of a request. -/
structure Options where
  showUnverifiedCollections : Bool := false
  showCollectionMetadata : Bool := false
  showZeroBalance : Bool := false
  showInscription : Bool := false
  showFungible : Bool := false

inductive DbErr where
  | recordNotFound (message : String)
  | custom (message : String)
  | query (message : String)
  deriving DecidableEq, Repr

/-- `DbErr::to_string`. -/
def dbErrText : DbErr → String
  | .recordNotFound message => "RecordNotFound Error: " ++ message
  | .custom message => "Custom Error: " ++ message
  | .query message => "Query Error: " ++ message

structure FullAsset where
  asset : AssetRow
  data : AssetDataRow
  tokenInfo : Option TokenRow
  authorities : List AssetAuthorityRow
  creators : List AssetCreatorRow
  inscription : Option AttachmentRow
  groups : List (String × AssetGroupingRow × Option AssetDataRow)

/-- Groups with a value that were verified; the column is never null. -/
def shownGroups (db : Db) (id : Pubkey) : List (String × AssetGroupingRow) :=
  (db.assetGrouping.entries.filter (fun entry =>
    entry.1.1 = id && entry.2.groupValue.isSome && entry.2.verified)).map (fun entry => (entry.1.2, entry.2))

def getInscriptionByMint (db : Db) (mint : Pubkey) : Option AttachmentRow :=
  (db.attachments.entries.find? (fun entry =>
    (entry.2.data.bind (Json.textAt "root")) == some mint.toBase58)).map (fun entry => entry.2)

def getById (db : Db) (id : Pubkey) (options : Options) : Except DbErr FullAsset :=
  match db.asset.lookup id with
  | none => .error (.recordNotFound "Asset Not Found")
  | some asset =>
    match asset.assetData.bind (fun dataId => db.assetData.lookup dataId) with
    | none => .error (.recordNotFound "Asset Not Found")
    | some data =>
      if asset.supply = 0 then .error (.custom "Asset has no supply")
      else .ok
        { asset, data
          tokenInfo := if options.showFungible then db.tokens.lookup id else none
          authorities := (db.assetAuthority.lookup id).toList
          creators := shownCreators db id
          inscription := if options.showInscription then getInscriptionByMint db id else none
          groups := (shownGroups db id).map (fun (key, group) =>
            (key, group, if options.showCollectionMetadata then db.assetData.lookup id else none)) }

section Positions
variable {db : Db} {id : Pubkey}

theorem mem_creatorPositions {position : Nat} :
    position ∈ creatorPositions db id ↔ (db.assetCreators.lookup (id, position)).isSome := by
  rw [creatorPositions, List.mem_insertionSort, List.mem_map, AList.lookup_isSome]
  constructor
  · rintro ⟨⟨asset, p⟩, member, rfl⟩
    obtain ⟨stored, same⟩ := List.mem_filter.mp member
    rw [decide_eq_true_eq] at same
    subst same
    exact stored
  · intro stored
    exact ⟨(id, position), List.mem_filter.mpr ⟨stored, by simp⟩, rfl⟩

theorem creatorPositions_nodup : (creatorPositions db id).Nodup := by
  rw [creatorPositions, (List.perm_insertionSort _ _).nodup_iff]
  refine List.Nodup.map_on ?_ (db.assetCreators.keys_nodup.filter _)
  intro x memberX y memberY samePosition
  have sameX := (List.mem_filter.mp memberX).2
  have sameY := (List.mem_filter.mp memberY).2
  rw [decide_eq_true_eq] at sameX sameY
  exact Prod.ext (sameX.trans sameY.symm) samePosition

/-- Below a bound on the positions, the sorted positions are those of a scan. -/
theorem creatorPositions_eq_range {bound : Nat}
    (bounded : ∀ position, (db.assetCreators.lookup (id, position)).isSome → position < bound) :
    creatorPositions db id =
      (List.range bound).filter (fun position => (db.assetCreators.lookup (id, position)).isSome) := by
  refine List.Perm.eq_of_sortedLE List.sortedLE_insertionSort ?_
    ((List.perm_ext_iff_of_nodup creatorPositions_nodup (List.nodup_range.filter _)).mpr ?_)
  · exact ((List.pairwise_lt_range.imp Nat.le_of_lt).filter _).sortedLE
  · intro position
    rw [mem_creatorPositions, List.mem_filter, List.mem_range]
    exact ⟨fun stored => ⟨bounded position stored, stored⟩, fun found => found.2⟩

theorem creatorsByPosition_eq_range {bound : Nat}
    (bounded : ∀ position, (db.assetCreators.lookup (id, position)).isSome → position < bound) :
    creatorsByPosition db id =
      (List.range bound).filterMap (fun position => db.assetCreators.lookup (id, position)) := by
  rw [creatorsByPosition, creatorPositions_eq_range bounded, List.filterMap_filter]
  refine List.filterMap_congr (fun position _ => ?_)
  cases db.assetCreators.lookup (id, position) <;> rfl

end Positions

theorem retainGreatest_some (column : AssetCreatorRow → Option Nat) (value : Option Nat)
    (creators : List AssetCreatorRow) :
    retainGreatest column (some value) creators = creators.filter (fun creator => column creator = value) :=
  rfl

theorem nullRank_injective {x y : Option Nat} (same : nullRank x = nullRank y) : x = y := by
  cases x <;> cases y <;> simp_all [nullRank]

theorem maxColumn_eq {columns : List (Option Nat)} {greatest : Option Nat} (member : greatest ∈ columns)
    (above : ∀ x ∈ columns, nullRank x ≤ nullRank greatest) : maxColumn columns = some greatest := by
  rw [maxColumn]
  cases found : columns.argmax nullRank with
  | none =>
    rw [List.argmax_eq_none.mp found] at member
    cases member
  | some x =>
    have le := above x (List.argmax_mem found)
    have ge := List.le_of_mem_argmax member found
    rw [nullRank_injective (le_antisymm le ge)]

/-- The rows written at slot `slot` with sequence number `seq` are the current
ones: nothing is newer, where the sequence number 0 is newest in its slot. -/
structure Current (slot seq : Nat) (creators : List AssetCreatorRow) : Prop where
  present : ∃ creator ∈ creators, creator.slotUpdated = some slot ∧ creator.seq = some seq
  newestSlot : ∀ creator ∈ creators, nullRank creator.slotUpdated ≤ nullRank (some slot)
  newestSeq : seq ≠ 0 → ∀ creator ∈ creators, creator.slotUpdated = some slot →
    creator.seq ≠ some 0 ∧ nullRank creator.seq ≤ nullRank (some seq)

/-- The filter keeps exactly the current rows. -/
theorem filterOutStaleCreators_eq {slot seq : Nat} {creators : List AssetCreatorRow}
    (current : Current slot seq creators)
    (named : ∀ first, creators.head? = some first → first.creator ≠ []) :
    filterOutStaleCreators creators =
      creators.filter (fun creator => creator.slotUpdated = some slot ∧ creator.seq = some seq) := by
  obtain ⟨witness, member, atSlot, atSeq⟩ := current.present
  have headNamed : creators.head?.any (fun first => first.creator.isEmpty) = false := by
    cases first : creators.head? with
    | none => rfl
    | some row => simpa using named row first
  have slots : maxColumn (creators.map AssetCreatorRow.slotUpdated) = some (some slot) := by
    refine maxColumn_eq (List.mem_map.mpr ⟨witness, member, atSlot⟩) (fun x inColumn => ?_)
    obtain ⟨creator, inRows, rfl⟩ := List.mem_map.mp inColumn
    exact current.newestSlot creator inRows
  have witnessKept : witness ∈ creators.filter (fun creator => creator.slotUpdated = some slot) :=
    List.mem_filter.mpr ⟨member, by simpa using atSlot⟩
  have seqs : (if (creators.filter (fun creator => creator.slotUpdated = some slot)).any
        (fun creator => creator.seq = some 0) then some (some 0)
      else maxColumn ((creators.filter (fun creator => creator.slotUpdated = some slot)).map
        AssetCreatorRow.seq)) = some (some seq) := by
    by_cases zero : seq = 0
    · subst zero
      exact if_pos (List.any_eq_true.mpr ⟨witness, witnessKept, by simpa using atSeq⟩)
    · rw [if_neg]
      · refine maxColumn_eq (List.mem_map.mpr ⟨witness, witnessKept, atSeq⟩) (fun x inColumn => ?_)
        obtain ⟨creator, inRows, rfl⟩ := List.mem_map.mp inColumn
        obtain ⟨inCreators, sameSlot⟩ := List.mem_filter.mp inRows
        exact (current.newestSeq zero creator inCreators (by simpa using sameSlot)).2
      · intro decompressed
        obtain ⟨creator, inRows, isZero⟩ := List.any_eq_true.mp decompressed
        obtain ⟨inCreators, sameSlot⟩ := List.mem_filter.mp inRows
        exact (current.newestSeq zero creator inCreators (by simpa using sameSlot)).1 (by simpa using isZero)
  unfold filterOutStaleCreators
  rw [headNamed, if_neg Bool.false_ne_true, slots]
  dsimp only
  rw [retainGreatest_some, seqs, retainGreatest_some, List.filter_filter]
  refine List.filter_congr (fun creator _ => ?_)
  rw [Bool.and_comm, Bool.decide_and]

theorem filterMap_range_getElem {α : Type} (items : List α) :
    (List.range items.length).filterMap (fun i => items[i]?) = items := by
  induction items with
  | nil => rfl
  | cons x rest ih =>
    rw [List.length_cons, List.range_succ_eq_map, List.filterMap_cons, List.filterMap_map]
    simpa using ih

/-- A row that is not newer than the current ones. -/
def NotNewer (slot seq : Nat) (creator : AssetCreatorRow) : Prop :=
  nullRank creator.slotUpdated ≤ nullRank (some slot) ∧
    (seq ≠ 0 → creator.slotUpdated = some slot →
      creator.seq ≠ some 0 ∧ nullRank creator.seq ≤ nullRank (some seq))

/-- What the API shows: the current rows fill the first positions and every
later position holds a stale row. -/
theorem shownCreators_eq {db : Db} {id : Pubkey} {rows : List AssetCreatorRow} (slot seq : Nat)
    (nonempty : rows ≠ []) (stored : ∀ i < rows.length, db.assetCreators.lookup (id, i) = rows[i]?)
    (current : ∀ row ∈ rows, row.slotUpdated = some slot ∧ row.seq = some seq)
    (named : ∀ row ∈ rows, row.creator ≠ [])
    (stale : ∀ i row, rows.length ≤ i → db.assetCreators.lookup (id, i) = some row →
      NotNewer slot seq row ∧ ¬ (row.slotUpdated = some slot ∧ row.seq = some seq)) :
    shownCreators db id = rows := by
  obtain ⟨extra, bounded⟩ : ∃ extra, ∀ position,
      (db.assetCreators.lookup (id, position)).isSome → position < rows.length + extra := by
    refine ⟨(creatorPositions db id).foldr max 0 + 1, fun position found => ?_⟩
    have small := List.le_max_of_le' 0 (mem_creatorPositions.mpr found) le_rfl
    omega
  have listed := creatorsByPosition_eq_range bounded
  have first : (List.range rows.length).filterMap (fun i => db.assetCreators.lookup (id, i)) = rows := by
    rw [List.filterMap_congr (g := fun i => rows[i]?) (fun i member => stored i (List.mem_range.mp member))]
    exact filterMap_range_getElem rows
  rw [List.range_add, List.filterMap_append, first] at listed
  have origin : ∀ row ∈ creatorsByPosition db id, row ∈ rows ∨
      ∃ i, rows.length ≤ i ∧ db.assetCreators.lookup (id, i) = some row := by
    intro row member
    rw [listed, List.mem_append] at member
    rcases member with inRows | later
    · exact Or.inl inRows
    · obtain ⟨i, inRange, found⟩ := List.mem_filterMap.mp later
      obtain ⟨k, -, rfl⟩ := List.mem_map.mp inRange
      exact Or.inr ⟨_, Nat.le_add_right _ _, found⟩
  obtain ⟨row, inRows⟩ := List.exists_mem_of_ne_nil rows nonempty
  have isCurrent : Current slot seq (creatorsByPosition db id) := by
    refine ⟨⟨row, ?_, current row inRows⟩, fun creator member => ?_, fun positive creator member atSlot => ?_⟩
    · rw [listed]
      exact List.mem_append_left _ inRows
    · rcases origin creator member with inRows | ⟨i, late, found⟩
      · rw [(current creator inRows).1]
      · exact (stale i creator late found).1.1
    · rcases origin creator member with inRows | ⟨i, late, found⟩
      · rw [(current creator inRows).2]
        exact ⟨by simpa using positive, le_rfl⟩
      · exact (stale i creator late found).1.2 positive atSlot
  rw [shownCreators, filterOutStaleCreators_eq isCurrent, listed, List.filter_append]
  · have kept : rows.filter (fun creator => creator.slotUpdated = some slot ∧ creator.seq = some seq) = rows :=
      List.filter_eq_self.mpr (fun row inRows => by simpa using current row inRows)
    rw [kept, List.filter_eq_nil_iff.mpr, List.append_nil]
    intro creator member
    obtain ⟨i, inRange, found⟩ := List.mem_filterMap.mp member
    obtain ⟨k, -, rfl⟩ := List.mem_map.mp inRange
    simpa using (stale _ creator (Nat.le_add_right _ _) found).2
  · intro creator head
    rw [listed, List.head?_append_of_ne_nil _ nonempty] at head
    exact named creator (List.mem_of_mem_head? head)

theorem shownCreators_none {db : Db} {id : Pubkey}
    (absent : ∀ position, db.assetCreators.lookup (id, position) = none) : shownCreators db id = [] := by
  have unbounded : ∀ position, (db.assetCreators.lookup (id, position)).isSome → position < 0 := by
    intro position found
    rw [absent position] at found
    cases found
  rw [shownCreators, creatorsByPosition_eq_range unbounded]
  rfl

theorem creatorsByPosition_first {db : Db} {id : Pubkey} {row : AssetCreatorRow}
    (stored : db.assetCreators.lookup (id, 0) = some row) : ∃ rest, creatorsByPosition db id = row :: rest := by
  have bounded : ∀ position, (db.assetCreators.lookup (id, position)).isSome →
      position < 1 + (creatorPositions db id).foldr max 0 := by
    intro position found
    have small := List.le_max_of_le' 0 (mem_creatorPositions.mpr found) le_rfl
    omega
  have first : (List.range 1).filterMap (fun position => db.assetCreators.lookup (id, position)) = [row] := by
    simp [stored]
  rw [creatorsByPosition_eq_range bounded, List.range_add, List.filterMap_append, first]
  exact ⟨_, rfl⟩

/-- A row without a creator at position 0 hides every other row. -/
theorem shownCreators_empty {db : Db} {id : Pubkey} {row : AssetCreatorRow}
    (stored : db.assetCreators.lookup (id, 0) = some row) (unnamed : row.creator = []) :
    shownCreators db id = [] := by
  obtain ⟨rest, listed⟩ := creatorsByPosition_first stored
  rw [shownCreators, listed, filterOutStaleCreators]
  simp [unnamed]

theorem filterOutStaleCreators_ne_nil {first : AssetCreatorRow} (rest : List AssetCreatorRow)
    (named : first.creator ≠ []) : filterOutStaleCreators (first :: rest) ≠ [] := by
  have kept : ∀ (column : AssetCreatorRow → Option Nat) (creators : List AssetCreatorRow) (value : Option Nat),
      value ∈ creators.map column → retainGreatest column (some value) creators ≠ [] := by
    intro column creators value member
    obtain ⟨creator, inRows, same⟩ := List.mem_map.mp member
    exact List.ne_nil_of_mem (List.mem_filter.mpr ⟨inRows, by simpa using same⟩)
  have retains : ∀ (column : AssetCreatorRow → Option Nat) (creators : List AssetCreatorRow), creators ≠ [] →
      retainGreatest column (maxColumn (creators.map column)) creators ≠ [] := by
    intro column creators nonempty
    cases greatest : maxColumn (creators.map column) with
    | none => exact nonempty
    | some value => exact kept column creators value (List.argmax_mem greatest)
  have current := retains AssetCreatorRow.slotUpdated (first :: rest) (List.cons_ne_nil _ _)
  unfold filterOutStaleCreators
  rw [if_neg (by simpa using named)]
  dsimp only
  split
  · rename_i decompressed
    obtain ⟨creator, inRows, zero⟩ := List.any_eq_true.mp decompressed
    exact kept _ _ _ (List.mem_map.mpr ⟨creator, inRows, by simpa using zero⟩)
  · exact retains AssetCreatorRow.seq _ current

/-- Creators are shown exactly when there is a named one at position 0. -/
theorem shownCreators_eq_nil_iff {db : Db} {id : Pubkey}
    (first : db.assetCreators.lookup (id, 0) = none → ∀ position, db.assetCreators.lookup (id, position) = none) :
    shownCreators db id = [] ↔ ∀ row, db.assetCreators.lookup (id, 0) = some row → row.creator = [] := by
  cases stored : db.assetCreators.lookup (id, 0) with
  | none => exact ⟨fun _ => nofun, fun _ => shownCreators_none (first stored)⟩
  | some row =>
    refine ⟨fun shown other same => ?_, fun unnamed => shownCreators_empty stored (unnamed row rfl)⟩
    cases same
    by_contra named
    obtain ⟨rest, listed⟩ := creatorsByPosition_first stored
    rw [shownCreators, listed] at shown
    exact filterOutStaleCreators_ne_nil rest named shown

/-- Of a table with a unique key, filtering by the key leaves the row found
under it. -/
theorem entries_filter_key {K R : Type} [DecidableEq K] (table : Table K R) (key : K) :
    table.entries.filter (fun entry => entry.1 = key) = ((table.lookup key).map (fun row => ⟨key, row⟩)).toList := by
  classical
  cases stored : table.lookup key with
  | none =>
    rw [List.filter_eq_nil_iff.mpr]
    · rfl
    · intro entry member same
      rw [decide_eq_true_eq] at same
      have found := AList.mem_lookup_iff.mpr member
      rw [same, stored] at found
      cases found
  | some row =>
    have member : (⟨key, row⟩ : Sigma fun _ => R) ∈ table.entries := AList.mem_lookup_iff.mp stored
    have only : table.entries.filter (fun entry => entry.1 = key) =
        table.entries.filter (fun entry => entry = ⟨key, row⟩) := by
      refine List.filter_congr (fun entry inTable => decide_eq_decide.mpr ⟨fun same => ?_, fun same => by rw [same]⟩)
      have found := AList.mem_lookup_iff.mpr inTable
      rw [same, stored] at found
      exact Sigma.ext same (heq_of_eq (Option.some.inj found).symm)
    rw [only, List.filter_eq, List.count_eq_one_of_mem (List.Nodup.of_map _ table.nodupKeys) member]
    rfl

/-- When an asset is grouped under nothing but collections, the API shows the
row of its collection, if that has a value and is verified. -/
theorem shownGroups_eq {db : Db} {id : Pubkey}
    (only : ∀ group, group ≠ "collection" → db.assetGrouping.lookup (id, group) = none) :
    shownGroups db id = ((db.assetGrouping.lookup (id, "collection")).filter (fun row =>
      row.groupValue.isSome && row.verified)).toList.map (fun row => ("collection", row)) := by
  have keyed : db.assetGrouping.entries.filter (fun entry =>
        entry.1.1 = id && entry.2.groupValue.isSome && entry.2.verified) =
      (db.assetGrouping.entries.filter (fun entry => entry.1 = (id, "collection"))).filter (fun entry =>
        entry.2.groupValue.isSome && entry.2.verified) := by
    rw [List.filter_filter]
    refine List.filter_congr (fun entry member => ?_)
    have named : entry.1.1 = id ↔ entry.1 = (id, "collection") := by
      refine ⟨fun same => ?_, fun same => by rw [same]⟩
      by_contra other
      have found := AList.mem_lookup_iff.mpr member
      have absent := only entry.1.2 (fun group => other (Prod.ext same group))
      rw [← same, Prod.mk.eta, Option.mem_def.mp found] at absent
      cases absent
    rw [Bool.and_assoc, Bool.and_comm, decide_eq_decide.mpr named]
  rw [shownGroups, keyed, entries_filter_key]
  cases db.assetGrouping.lookup (id, "collection") with
  | none => rfl
  | some row =>
    rw [Option.map_some, Option.toList_some, Option.filter_some, List.filter_cons, List.filter_nil]
    by_cases kept : (row.groupValue.isSome && row.verified) = true
    · rw [if_pos kept, if_pos kept]
      rfl
    · rw [if_neg kept, if_neg kept]
      rfl

/-- What `get_by_id` needs to find an asset. -/
def Retrievable (db : Db) (id : Pubkey) : Prop :=
  (db.assetOrDefault id).assetData = some id ∧ (db.assetOrDefault id).supply ≠ 0 ∧
    (db.assetData.lookup id).isSome

theorem getById_of_retrievable {db : Db} {id : Pubkey} (retrievable : Retrievable db id) (options : Options) :
    ∃ full, getById db id options = .ok full ∧ full.creators = shownCreators db id ∧
      full.groups.map (fun group => (group.1, group.2.1)) = shownGroups db id := by
  obtain ⟨linked, supplied, dataStored⟩ := retrievable
  obtain ⟨data, stored⟩ := Option.isSome_iff_exists.mp dataStored
  unfold Db.assetOrDefault at linked supplied
  unfold getById
  cases found : db.asset.lookup id with
  | none =>
    rw [found] at linked
    cases linked
  | some row =>
    rw [found, Option.getD_some] at linked supplied
    dsimp only
    rw [linked, Option.bind_some, stored]
    dsimp only
    rw [if_neg supplied]
    exact ⟨_, rfl, rfl, List.map_map.trans (List.map_id _)⟩

end DasIndexer
