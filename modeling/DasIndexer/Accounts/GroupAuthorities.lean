import DasIndexer.Accounts.MplCore
import DasIndexer.Lib.Loops
import DasIndexer.Lib.Paging

namespace DasIndexer.MplCore
open Sql Loops

section Rows
variable {authority : Bytes} {slot : Nat}

/-- What the bulk update makes of the row of a member. -/
def followed (authority : Bytes) (slot : Nat) (row : AssetAuthorityRow) : AssetAuthorityRow :=
  if row.authority ≠ authority ∧ row.slotUpdated < slot then { row with authority, slotUpdated := slot } else row

theorem followed_again (row : AssetAuthorityRow) :
    followed authority slot (followed authority slot row) = followed authority slot row := by
  by_cases changes : row.authority ≠ authority ∧ row.slotUpdated < slot
  · have first : followed authority slot row = { row with authority, slotUpdated := slot } := if_pos changes
    rw [first, followed, if_neg (fun again => again.1 rfl)]
  · have first : followed authority slot row = row := if_neg changes
    rw [first, first]

theorem updateAuthority_lookup (table : Table Pubkey AssetAuthorityRow) (id other : Pubkey) :
    (updateAuthority authority slot table id).lookup other =
      if other = id then (table.lookup other).map (followed authority slot) else table.lookup other := by
  unfold updateAuthority
  by_cases same : other = id
  · subst same
    rw [if_pos rfl]
    cases stored : table.lookup other with
    | none => exact stored
    | some row =>
      dsimp only
      by_cases changes : row.authority ≠ authority ∧ row.slotUpdated < slot
      · rw [if_pos changes, AList.lookup_insert, Option.map_some, followed, if_pos changes]
      · rw [if_neg changes, Option.map_some, followed, if_neg changes, stored]
  · rw [if_neg same]
    split
    · split
      · rw [AList.lookup_insert_ne same]
      · rfl
    · rfl

theorem updateAuthorities_lookup (db : Db) (ids : List Pubkey) (other : Pubkey) :
    (updateAuthorities db ids authority slot).assetAuthority.lookup other =
      if other ∈ ids then (db.assetAuthority.lookup other).map (followed authority slot)
      else db.assetAuthority.lookup other := by
  dsimp only [updateAuthorities]
  induction ids using List.reverseRecOn with
  | nil => simp
  | append_singleton earlier id ih =>
    rw [List.foldl_concat, updateAuthority_lookup, ih]
    have members : other ∈ earlier ++ [id] ↔ other ∈ earlier ∨ other = id := by simp
    by_cases last : other = id
    · rw [if_pos last, if_pos (members.mpr (Or.inr last))]
      by_cases before : other ∈ earlier
      · rw [if_pos before, Option.map_map]
        exact congrArg (fun f => (db.assetAuthority.lookup other).map f) (funext followed_again)
      · rw [if_neg before]
    · rw [if_neg last]
      by_cases before : other ∈ earlier
      · rw [if_pos before, if_pos (members.mpr (Or.inl before))]
      · rw [if_neg before, if_neg (fun member => (members.mp member).elim before last)]

/-- Updates of two lists of assets are one update of both. -/
theorem updateAuthorities_append (db : Db) (first second : List Pubkey) :
    updateAuthorities (updateAuthorities db first authority slot) second authority slot =
      updateAuthorities db (first ++ second) authority slot := by
  simp only [updateAuthorities, List.foldl_append]

end Rows

section Members
variable {db : Db} {groupValue : String} {after : Option Pubkey} {last : Pubkey}

theorem mem_groupMembers {db : Db} {groupValue : String} {id : Pubkey} :
    id ∈ groupMembers db groupValue ↔
      ∃ row, db.assetGrouping.lookup (id, "collection") = some row ∧ row.groupValue = some groupValue := by
  rw [groupMembers, List.mem_insertionSort, List.mem_map]
  constructor
  · rintro ⟨⟨⟨member, key⟩, row⟩, found, same⟩
    obtain ⟨inTable, chosen⟩ := List.mem_filter.mp found
    simp only [Bool.and_eq_true, decide_eq_true_eq, beq_iff_eq] at chosen same
    obtain ⟨isCollection, value⟩ := chosen
    subst isCollection same
    exact ⟨row, Table.mem_entries_iff.mp inTable, value⟩
  · rintro ⟨row, stored, value⟩
    refine ⟨⟨(id, "collection"), row⟩, List.mem_filter.mpr ⟨Table.mem_entries_iff.mpr stored, ?_⟩, rfl⟩
    simp [value]

/-- A table holds one row for each asset and group, so that the members of a group
are in strict order. -/
theorem groupMembers_ordered (db : Db) (groupValue : String) :
    (groupMembers db groupValue).Pairwise (fun x y => x.bytes < y.bytes) := by
  have total : Std.Total (fun x y : Pubkey => x.bytes ≤ y.bytes) := ⟨fun x y => List.le_total x.bytes y.bytes⟩
  have transitive : IsTrans Pubkey (fun x y => x.bytes ≤ y.bytes) := ⟨fun _ _ _ => List.le_trans⟩
  have sorted : (groupMembers db groupValue).Pairwise (fun x y => x.bytes ≤ y.bytes) :=
    List.pairwise_insertionSort _ _
  have distinct : (groupMembers db groupValue).Nodup := by
    refine (List.perm_insertionSort _ _).nodup_iff.mpr
      (List.Nodup.map_on ?_ (db.assetGrouping.nodupKeys.nodup.filter _))
    rintro ⟨⟨x, group⟩, row⟩ inX ⟨⟨y, other⟩, otherRow⟩ inY same
    obtain ⟨storedX, chosenX⟩ := List.mem_filter.mp inX
    obtain ⟨storedY, chosenY⟩ := List.mem_filter.mp inY
    simp only [Bool.and_eq_true, decide_eq_true_eq] at chosenX chosenY same
    obtain ⟨isCollection, -⟩ := chosenX
    obtain ⟨isAlso, -⟩ := chosenY
    subst isCollection isAlso same
    rw [db.assetGrouping.nodupKeys.eq_of_mk_mem storedX storedY]
  refine (sorted.and distinct).imp (fun {x y} both => ?_)
  rcases List.le_iff_lt_or_eq.mp both.1 with above | same
  · exact above
  · refine absurd ?_ both.2
    cases x
    cases y
    cases same
    rfl

/-- The members on the pages that start after an id. -/
def remaining (db : Db) (groupValue : String) (after : Option Pubkey) : List Pubkey :=
  (groupMembers db groupValue).filter (fun id => after.all (fun last => last.bytes < id.bytes))

theorem remaining_none : remaining db groupValue none = groupMembers db groupValue :=
  List.filter_eq_self.mpr (fun _ _ => rfl)

theorem remaining_ordered : (remaining db groupValue after).Pairwise (fun x y => x.bytes < y.bytes) :=
  (groupMembers_ordered db groupValue).filter _

/-- What a page leaves comes after its last id. -/
theorem remaining_next (isLast : ((remaining db groupValue after).take 1000).getLast? = some last) :
    remaining db groupValue after =
      (remaining db groupValue after).take 1000 ++ remaining db groupValue (some last) := by
  obtain ⟨front, page⟩ := List.getLast?_eq_some_iff.mp isLast
  have split : remaining db groupValue after = front ++ last :: (remaining db groupValue after).drop 1000 := by
    conv_lhs => rw [← List.take_append_drop 1000 (remaining db groupValue after), page]
    rw [List.append_assoc, List.singleton_append]
  have above : ∀ before ∈ after, before.bytes < last.bytes := by
    intro before isBefore
    have inRemaining := List.mem_of_mem_take (List.mem_of_getLast? isLast)
    have later := (List.mem_filter.mp inRemaining).2
    rw [Option.mem_def.mp isBefore, Option.all_some, decide_eq_true_eq] at later
    exact later
  have narrower : remaining db groupValue (some last) =
      (remaining db groupValue after).filter (fun id => last.bytes < id.bytes) := by
    rw [remaining, remaining, List.filter_filter]
    refine List.filter_congr (fun id _ => ?_)
    cases after with
    | none => simp
    | some before =>
      have below := above before rfl
      rw [Option.all_some, Option.all_some, Bool.eq_iff_iff, Bool.and_eq_true, decide_eq_true_eq, decide_eq_true_eq]
      exact ⟨fun later => ⟨later, List.lt_trans below later⟩, fun both => both.1⟩
  have irreflexive : Std.Irrefl (fun x y : Pubkey => x.bytes < y.bytes) := ⟨fun x => List.lt_irrefl x.bytes⟩
  have transitive : IsTrans Pubkey (fun x y => x.bytes < y.bytes) := ⟨fun _ _ _ => List.lt_trans⟩
  have ordered := @remaining_ordered db groupValue after
  have behind : remaining db groupValue (some last) = (remaining db groupValue after).drop 1000 := by
    rw [split] at ordered
    rw [narrower]
    conv_lhs => rw [split]
    exact Paging.filter_behind ordered
  rw [behind, List.take_append_drop]

theorem remaining_shrinks (isLast : ((remaining db groupValue after).take 1000).getLast? = some last) :
    (remaining db groupValue (some last)).length < (remaining db groupValue after).length := by
  have split := congrArg List.length (remaining_next isLast)
  have nonempty := List.length_pos_of_mem (List.mem_of_getLast? isLast)
  rw [List.length_append] at split
  omega

end Members

def isUncompressed (db : Db) (id : Pubkey) : Bool := (db.asset.lookup id).any (fun row => !row.compressed)

section Pages
variable {groupValue : String} {authority : Bytes} {slot fuel : Nat} {after : Option Pubkey} {db : Db}

theorem updatePages_end (empty : ((remaining db groupValue after).take 1000).getLast? = none) :
    updatePages groupValue authority slot (fuel + 1) after db = db := by
  rw [remaining] at empty
  simp only [updatePages, empty]

theorem updatePages_page {last : Pubkey} (isLast : ((remaining db groupValue after).take 1000).getLast? = some last) :
    updatePages groupValue authority slot (fuel + 1) after db =
      updatePages groupValue authority slot fuel (some last)
        (updateAuthorities db (((remaining db groupValue after).take 1000).filter (isUncompressed db))
          authority slot) := by
  rw [remaining] at isLast
  simp only [updatePages, isLast]
  rfl

/-- The update of all remaining members at once. -/
def bulkUpdate (groupValue : String) (authority : Bytes) (slot : Nat) (after : Option Pubkey) (db : Db) : Db :=
  updateAuthorities db ((remaining db groupValue after).filter (isUncompressed db)) authority slot

theorem bulkUpdate_end (empty : ((remaining db groupValue after).take 1000).getLast? = none) :
    bulkUpdate groupValue authority slot after db = db := by
  have nothing : remaining db groupValue after = [] := by simpa using List.getLast?_eq_none_iff.mp empty
  rw [bulkUpdate, nothing]
  rfl

theorem bulkUpdate_page {last : Pubkey} (isLast : ((remaining db groupValue after).take 1000).getLast? = some last) :
    bulkUpdate groupValue authority slot (some last)
        (updateAuthorities db (((remaining db groupValue after).take 1000).filter (isUncompressed db)) authority slot) =
      bulkUpdate groupValue authority slot after db := by
  have sameMembers : ∀ ids, remaining (updateAuthorities db ids authority slot) groupValue (some last) =
      remaining db groupValue (some last) := fun _ => rfl
  have sameAssets : ∀ ids, isUncompressed (updateAuthorities db ids authority slot) = isUncompressed db := fun _ => rfl
  rw [bulkUpdate, bulkUpdate, sameMembers, sameAssets, updateAuthorities_append, ← List.filter_append,
    ← remaining_next isLast]

/-- The loop over the pages does what one bulk update does. -/
theorem updatePages_bulk (enough : (remaining db groupValue after).length < fuel) :
    updatePages groupValue authority slot fuel after db = bulkUpdate groupValue authority slot after db := by
  induction fuel generalizing after db with
  | zero => omega
  | succ fuel ih =>
    cases isLast : ((remaining db groupValue after).take 1000).getLast? with
    | none => rw [updatePages_end isLast, bulkUpdate_end isLast]
    | some last =>
      have shrinks := remaining_shrinks isLast
      rw [updatePages_page isLast, ← bulkUpdate_page isLast]
      refine ih ?_
      show (remaining db groupValue (some last)).length < fuel
      omega

theorem updateGroupAssetAuthorities_bulk (db : Db) (group : Pubkey) (authority : Bytes) (slot : Nat) :
    updateGroupAssetAuthorities db group authority slot = bulkUpdate group.toBase58 authority slot none db := by
  rw [updateGroupAssetAuthorities, updatePages_bulk]
  rw [remaining_none]
  exact Nat.lt_succ_self _

theorem bulkUpdate_lookup (db : Db) (id : Pubkey) :
    (bulkUpdate groupValue authority slot none db).assetAuthority.lookup id =
      if id ∈ groupMembers db groupValue ∧ isUncompressed db id then
        (db.assetAuthority.lookup id).map (followed authority slot)
      else db.assetAuthority.lookup id := by
  rw [bulkUpdate, updateAuthorities_lookup, remaining_none]
  refine if_congr ?_ rfl rfl
  rw [List.mem_filter]

theorem updateGroupAssetAuthorities_lookup (db : Db) (groupValue id : Pubkey) :
    (updateGroupAssetAuthorities db groupValue authority slot).assetAuthority.lookup id =
      if id ∈ groupMembers db groupValue.toBase58 ∧ isUncompressed db id then
        (db.assetAuthority.lookup id).map (followed authority slot)
      else db.assetAuthority.lookup id := by
  rw [updateGroupAssetAuthorities_bulk, bulkUpdate_lookup]

end Pages

section Cursor
variable {groupValue : String} {authority : Bytes} {slot : Nat}

/-- The variables of the loop. The query keeps all bounds that it was given by
`after`. -/
structure GroupCursor where
  bounds : List Pubkey
  after : Option Pubkey
  db : Db

/-- `query.all`: the first 1000 members above every bound. -/
def groupEntries (db : Db) (groupValue : String) (bounds : List Pubkey) : List Pubkey :=
  ((groupMembers db groupValue).filter (fun id => bounds.all (fun bound => bound.bytes < id.bytes))).take 1000

/-- One turn of the loop of `update_group_asset_authorities`. -/
def groupPage (groupValue : String) (authority : Bytes) (slot : Nat) (cursor : GroupCursor) : Turn GroupCursor Db :=
  let bounds := cursor.after.toList ++ cursor.bounds
  let entries := groupEntries cursor.db groupValue bounds
  if entries.isEmpty then .stop cursor.db
  else
    let filteredAssetIds := entries.filter (fun id => (cursor.db.asset.lookup id).any (fun row => !row.compressed))
    let db := if filteredAssetIds.isEmpty then cursor.db
      else updateAuthorities cursor.db filteredAssetIds authority slot
    .again { bounds, after := entries.getLast?, db }

/-- `update_group_asset_authorities` with the loop as it is written. -/
def updateGroup (db : Db) (group : Pubkey) (authority : Bytes) (slot : Nat) (fuel : Nat) : Option Db :=
  loop (groupPage group.toBase58 authority slot) fuel { bounds := [], after := none, db }

/-- Earlier bounds say nothing that the last one does not. -/
def GroupCursor.Ordered (cursor : GroupCursor) : Prop :=
  ∀ bound ∈ cursor.bounds, ∃ last ∈ cursor.after, bound.bytes ≤ last.bytes

theorem GroupCursor.Ordered.entries {cursor : GroupCursor} (ordered : cursor.Ordered) :
    groupEntries cursor.db groupValue (cursor.after.toList ++ cursor.bounds) =
      (remaining cursor.db groupValue cursor.after).take 1000 := by
  rw [groupEntries, remaining]
  congr 1
  refine List.filter_congr (fun id _ => ?_)
  rw [Bool.eq_iff_iff, List.all_eq_true]
  constructor
  · intro above
    cases isAfter : cursor.after with
    | none => rfl
    | some last =>
      refine above last (List.mem_append_left _ ?_)
      rw [isAfter]
      exact List.mem_singleton_self _
  · intro above bound member
    rw [decide_eq_true_eq]
    rcases List.mem_append.mp member with isLast | earlier
    · rw [Option.mem_toList.mp isLast, Option.all_some, decide_eq_true_eq] at above
      exact above
    · obtain ⟨last, isAfter, below⟩ := ordered bound earlier
      rw [Option.mem_def.mp isAfter, Option.all_some, decide_eq_true_eq] at above
      exact List.lt_of_le_of_lt below above

theorem updateGroup_eq (db : Db) (group : Pubkey) (authority : Bytes) (slot : Nat) :
    ∃ fuel, updateGroup db group authority slot fuel = some (bulkUpdate group.toBase58 authority slot none db) := by
  refine @loop_ends _ _ _ GroupCursor.Ordered
    (fun cursor => (remaining cursor.db group.toBase58 cursor.after).length)
    (fun cursor => bulkUpdate group.toBase58 authority slot cursor.after cursor.db) ?_ _ nofun
  intro cursor ordered
  rw [groupPage]
  simp only [ordered.entries]
  cases isLast : ((remaining cursor.db group.toBase58 cursor.after).take 1000).getLast? with
  | none =>
    have nothing := List.getLast?_eq_none_iff.mp isLast
    left
    rw [nothing, bulkUpdate_end isLast]
    rfl
  | some last =>
    right
    have nonempty : ((remaining cursor.db group.toBase58 cursor.after).take 1000).isEmpty = false := by
      rw [List.isEmpty_eq_false_iff_exists_mem]
      exact ⟨last, List.mem_of_getLast? isLast⟩
    have updated : ∀ ids : List Pubkey, (if ids.isEmpty then cursor.db
        else updateAuthorities cursor.db ids authority slot) = updateAuthorities cursor.db ids authority slot := by
      intro ids
      cases ids with
      | nil => rfl
      | cons _ _ => rfl
    refine ⟨_, if_neg (by rw [nonempty]; exact Bool.false_ne_true), ?_, ?_, ?_⟩
    · intro bound member
      refine ⟨last, rfl, ?_⟩
      have inRemaining := (List.mem_filter.mp (List.mem_of_mem_take (List.mem_of_getLast? isLast))).2
      rcases List.mem_append.mp member with isAfter | earlier
      · rw [Option.mem_toList.mp isAfter, Option.all_some, decide_eq_true_eq] at inRemaining
        exact List.le_of_lt inRemaining
      · obtain ⟨before, isBefore, below⟩ := ordered bound earlier
        rw [Option.mem_def.mp isBefore, Option.all_some, decide_eq_true_eq] at inRemaining
        exact List.le_of_lt (List.lt_of_le_of_lt below inRemaining)
    · simp only [updated]
      exact remaining_shrinks isLast
    · simp only [updated]
      exact bulkUpdate_page isLast

end Cursor

/-- The rows that the update of a collection is about: those of uncompressed
members with another authority and an older slot. -/
def Concerned (db : Db) (collection : Pubkey) (authority : Bytes) (slot : Nat) (id : Pubkey)
    (row : AssetAuthorityRow) : Prop :=
  (∃ grouping, db.assetGrouping.lookup (id, "collection") = some grouping ∧
    grouping.groupValue = some collection.toBase58) ∧
  (∃ asset, db.asset.lookup id = some asset ∧ asset.compressed = false) ∧
  row.authority ≠ authority ∧ row.slotUpdated < slot

/-- What one bulk update does: the rows concerned get the authority and the slot,
and nothing else changes. -/
structure BulkUpdated (db after : Db) (collection : Pubkey) (authority : Bytes) (slot : Nat) : Prop where
  frame : after = { db with assetAuthority := after.assetAuthority }
  absent : ∀ id, db.assetAuthority.lookup id = none → after.assetAuthority.lookup id = none
  updated : ∀ id row, db.assetAuthority.lookup id = some row → Concerned db collection authority slot id row →
    after.assetAuthority.lookup id = some { row with authority, slotUpdated := slot }
  kept : ∀ id row, db.assetAuthority.lookup id = some row → ¬ Concerned db collection authority slot id row →
    after.assetAuthority.lookup id = some row

theorem bulkUpdate_bulkUpdated (db : Db) (collection : Pubkey) (authority : Bytes) (slot : Nat) :
    BulkUpdated db (bulkUpdate collection.toBase58 authority slot none db) collection authority slot := by
  have uncompressed : ∀ id, isUncompressed db id = true ↔
      ∃ asset, db.asset.lookup id = some asset ∧ asset.compressed = false := by
    intro id
    rw [isUncompressed]
    cases db.asset.lookup id with
    | none => simp
    | some asset => simp
  refine ⟨rfl, fun id absent => ?_, fun id row stored concerned => ?_, fun id row stored unconcerned => ?_⟩
  · rw [bulkUpdate_lookup, absent]
    split
    · rfl
    · rfl
  · obtain ⟨grouped, asset, changes⟩ := concerned
    rw [bulkUpdate_lookup, if_pos ⟨mem_groupMembers.mpr grouped, (uncompressed id).mpr asset⟩, stored,
      Option.map_some, followed, if_pos changes]
  · rw [bulkUpdate_lookup, stored]
    split
    · rename_i member
      rw [Option.map_some, followed, if_neg]
      exact fun changes => unconcerned ⟨mem_groupMembers.mp member.1, (uncompressed id).mp member.2, changes⟩
    · rfl

/-- The paged update of a collection ends, and it is one bulk update. -/
theorem updateGroup_bulkUpdated (db : Db) (collection : Pubkey) (authority : Bytes) (slot : Nat) :
    ∃ fuel after, updateGroup db collection authority slot fuel = some after ∧
      BulkUpdated db after collection authority slot := by
  obtain ⟨fuel, ended⟩ := updateGroup_eq db collection authority slot
  exact ⟨fuel, _, ended, bulkUpdate_bulkUpdated db collection authority slot⟩

end DasIndexer.MplCore
