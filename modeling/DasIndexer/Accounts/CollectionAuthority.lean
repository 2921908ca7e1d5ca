import DasIndexer.Accounts.Saves
import DasIndexer.Lib.Runs
import DasIndexer.Mainnet

namespace DasIndexer.MplCore
open Sql Latest


/-- An update of a collection, or of an asset whose update authority is that
collection. -/
inductive CollectionUpdate (c : Pubkey) where
  | collection (account : AccountInfo) (same : account.pubkey = c) (asset : IndexableAsset) (authority : Pubkey)
      (addressed : asset.updateAuthority = .address authority)
  | member (account : AccountInfo) (different : account.pubkey ≠ c) (asset : IndexableAsset)
      (grouped : asset.updateAuthority = .collection c)

namespace CollectionUpdate
variable {c : Pubkey}

def handle [Programs] (db : Db) : CollectionUpdate c → Db
  | .collection account _ asset _ _ => (handleMplCoreAccount db account (.collection asset)).1
  | .member account _ asset _ => (handleMplCoreAccount db account (.asset asset)).1

def deliver [Programs] (db : Db) (updates : List (CollectionUpdate c)) : Db := updates.foldl handle db

/-- The authority that an update gives the collection, and its slot. -/
def newAuthority : CollectionUpdate c → Option (Pubkey × Nat)
  | .collection account _ _ authority _ => some (authority, account.slot)
  | .member _ _ _ _ => none

def memberId : CollectionUpdate c → Option Pubkey
  | .collection _ _ _ _ _ => none
  | .member account _ _ _ => some account.pubkey

def members (updates : List (CollectionUpdate c)) : List Pubkey := updates.filterMap memberId

/-- The update of the collection with the greatest slot. -/
def newestAuthority (updates : List (CollectionUpdate c)) : Option (Pubkey × Nat) :=
  (updates.filterMap newAuthority).argmax Prod.snd

/-- Every uncompressed member has the authority of the newest collection. -/
def Follow (updates : List (CollectionUpdate c)) (db : Db) : Prop :=
  ∀ id ∈ members updates, isUncompressed db id → ∀ newest, newestAuthority updates = some newest →
    (db.assetAuthority.lookup id).map AssetAuthorityRow.authority = some newest.1.bytes

/-- What an update of the collection finds before it: as the newest one, only
members whose own slot is smaller, apart from those that have the authority
already; as an older one, no such members, apart from its not changing the
authority. -/
def Reaches (db : Db) : CollectionUpdate c → Prop
  | .collection account _ _ authority _ =>
    ∀ id ∈ groupMembers db c.toBase58, isUncompressed db id → ∀ row, db.assetAuthority.lookup id = some row →
      if (db.assetAuthority.lookup c).all (fun stored => stored.slotUpdated < account.slot) then
        row.slotUpdated < account.slot ∨ row.authority = authority.bytes
      else
        account.slot ≤ row.slotUpdated ∨
          (db.assetAuthority.lookup c).any (fun stored => stored.authority = authority.bytes)
  | .member _ _ _ _ => True

/-- Neither the collection nor its members are in the database. -/
structure Unseen (updates : List (CollectionUpdate c)) (db : Db) : Prop where
  collection : db.assetAuthority.lookup c = none
  authority : ∀ id ∈ members updates, db.assetAuthority.lookup id = none
  asset : ∀ id ∈ members updates, db.asset.lookup id = none
  grouping : ∀ id ∈ members updates, db.assetGrouping.lookup (id, "collection") = none
  ungrouped : ∀ id row, db.assetGrouping.lookup (id, "collection") = some row → row.groupValue ≠ some c.toBase58

section Saved
variable [Programs] (db : Db) (id other : Pubkey) {data : MplCoreAccountData} {asset : IndexableAsset} (slot : Nat)

theorem saveV1Asset_uncompressed (indexable : data.indexable = some asset)
    (before : (db.assetOrDefault id).compressed = false) : isUncompressed (saveV1Asset db id data slot).1 id := by
  obtain ⟨owner, delegate, same⟩ := saveV1Asset_asset db id slot indexable
  have kept : ((saveV1Asset db id data slot).1.assetOrDefault id).compressed = false := by
    rw [Db.assetOrDefault_congr same]
    refine Db.upsertAsset_invariant _ id id _ _ (fun row => row.compressed = false) (fun _ => rfl)
      (fun row kept => kept) ?_
    refine Db.upsertAsset_invariant _ id id _ _ (fun row => row.compressed = false) (fun _ => rfl)
      (fun row kept => kept) ?_
    exact Db.upsertAsset_invariant _ id id _ _ (fun row => row.compressed = false) (fun _ => rfl)
      (fun row kept => rfl) before
  have present : ∃ row, (saveV1Asset db id data slot).1.asset.lookup id = some row := by
    rw [same]
    exact ⟨_, (Db.upsertAsset_lookup _ id id _ _).trans (if_pos rfl)⟩
  obtain ⟨row, stored⟩ := present
  rw [Db.assetOrDefault, stored, Option.getD_some] at kept
  rw [isUncompressed, stored, Option.any_some, kept]
  rfl

theorem saveV1Asset_otherAsset (indexable : data.indexable = some asset) (different : other ≠ id) :
    (saveV1Asset db id data slot).1.asset.lookup other = db.asset.lookup other := by
  obtain ⟨owner, delegate, same⟩ := saveV1Asset_asset db id slot indexable
  rw [same]
  exact (Db.upsertAsset_other _ id other _ _ different).trans
    ((Db.upsertAsset_other _ id other _ _ different).trans (Db.upsertAsset_other _ id other _ _ different))

end Saved

section Collection
variable [Programs] (db : Db) (account : AccountInfo) (same : account.pubkey = c) (asset : IndexableAsset)
  (authority : Pubkey) (addressed : asset.updateAuthority = .address authority)

theorem collection_authority (id : Pubkey) :
    (handle db (.collection account same asset authority addressed)).assetAuthority.lookup id =
      if id ∈ groupMembers db c.toBase58 ∧ isUncompressed db id then
        ((V1Asset.saveAuthority db c authority.bytes account.slot).assetAuthority.lookup id).map
          (followed authority.bytes account.slot)
      else (V1Asset.saveAuthority db c authority.bytes account.slot).assetAuthority.lookup id := by
  subst same
  have saved : (handle db (.collection account rfl asset authority addressed)).assetAuthority =
      (updateGroupAssetAuthorities (V1Asset.saveAuthority db account.pubkey
        (updateAuthorityOf db asset.updateAuthority) account.slot) account.pubkey
        (updateAuthorityOf db asset.updateAuthority) account.slot).assetAuthority := rfl
  rw [saved, addressed]
  exact updateGroupAssetAuthorities_lookup _ account.pubkey id

theorem collection_grouping :
    (handle db (.collection account same asset authority addressed)).assetGrouping = db.assetGrouping := by
  have saves := (saveV1Asset_saves db account.pubkey account.slot
    (rfl : (MplCoreAccountData.collection asset).indexable = some asset)).assetGrouping
  have none : asset.content.collection = none := by
    rw [IndexableAsset.content, IndexableAsset.collection, addressed]
  rw [none] at saves
  exact saves

theorem collection_asset {id : Pubkey} (different : id ≠ c) :
    (handle db (.collection account same asset authority addressed)).asset.lookup id = db.asset.lookup id := by
  subst same
  exact saveV1Asset_otherAsset db account.pubkey id account.slot rfl different

end Collection

section Member
variable [Programs] (db : Db) (account : AccountInfo) (different : account.pubkey ≠ c) (asset : IndexableAsset)
  (grouped : asset.updateAuthority = .collection c)

theorem member_authority :
    (handle db (.member account different asset grouped)).assetAuthority =
      (V1Asset.saveAuthority db account.pubkey (updateAuthorityOf db (.collection c)) account.slot).assetAuthority := by
  rw [← grouped]
  rfl

theorem member_grouping :
    (handle db (.member account different asset grouped)).assetGrouping =
      Table.upsert db.assetGrouping (account.pubkey, "collection")
        (V1Asset.groupingRow { key := c, verified := true } account.slot) (V1Asset.groupingOnConflict ge) := by
  have saves := (saveV1Asset_saves db account.pubkey account.slot
    (rfl : (MplCoreAccountData.asset asset).indexable = some asset)).assetGrouping
  have collection : asset.content.collection = some { key := c, verified := true } := by
    rw [IndexableAsset.content, IndexableAsset.collection, grouped]
  rw [collection] at saves
  exact saves

variable {id : Pubkey}

theorem member_otherAuthority (other : id ≠ account.pubkey) :
    (handle db (.member account different asset grouped)).assetAuthority.lookup id = db.assetAuthority.lookup id := by
  rw [member_authority]
  exact Table.lookup_upsert_ne _ other _ _

theorem member_otherAsset (other : id ≠ account.pubkey) :
    (handle db (.member account different asset grouped)).asset.lookup id = db.asset.lookup id :=
  saveV1Asset_otherAsset db account.pubkey id account.slot rfl other

theorem member_otherGrouping (other : id ≠ account.pubkey) :
    (handle db (.member account different asset grouped)).assetGrouping.lookup (id, "collection") =
      db.assetGrouping.lookup (id, "collection") := by
  rw [member_grouping]
  exact Table.lookup_upsert_ne _ (fun equal => other (Prod.mk.inj equal).1) _ _

end Member

/-- What the database holds of the collection and its members after a run. -/
structure Tracked (start : Db) (updates : List (CollectionUpdate c)) (db : Db) : Prop where
  collection : db.assetAuthority.lookup c =
    (newestAuthority updates).map (fun newest => V1Asset.authorityRow newest.1.bytes newest.2)
  stored : ∀ id ∈ members updates, ∃ row, db.assetAuthority.lookup id = some row
  uncompressed : ∀ id ∈ members updates, isUncompressed db id
  grouped : ∀ id ∈ members updates, id ∈ groupMembers db c.toBase58
  authority : ∀ id, id ≠ c → id ∉ members updates → db.assetAuthority.lookup id = start.assetAuthority.lookup id
  asset : ∀ id, id ≠ c → id ∉ members updates → db.asset.lookup id = start.asset.lookup id
  grouping : ∀ id, id ∉ members updates →
    db.assetGrouping.lookup (id, "collection") = start.assetGrouping.lookup (id, "collection")

theorem members_concat (updates : List (CollectionUpdate c)) (u : CollectionUpdate c) :
    members (updates ++ [u]) = members updates ++ u.memberId.toList := by
  rw [members, List.filterMap_append, members]
  cases u <;> rfl

theorem newestAuthority_concat (updates : List (CollectionUpdate c)) (u : CollectionUpdate c) :
    newestAuthority (updates ++ [u]) =
      (u.newAuthority.map (strictlyNewer Prod.snd (newestAuthority updates))).or (newestAuthority updates) := by
  rw [newestAuthority, List.filterMap_append]
  cases written : u.newAuthority with
  | none => simp [written, newestAuthority]
  | some w =>
    rw [List.filterMap_cons_some written, List.filterMap_nil, argmax_concat_strictlyNewer]
    rfl

theorem member_ne {updates : List (CollectionUpdate c)} {id : Pubkey} (member : id ∈ members updates) : id ≠ c := by
  obtain ⟨u, -, named⟩ := List.mem_filterMap.mp member
  cases u with
  | collection => cases named
  | member account different asset grouped =>
    cases named
    exact different

theorem Tracked.nil {start : Db} (unseen : start.assetAuthority.lookup c = none) :
    Tracked start ([] : List (CollectionUpdate c)) start where
  collection := unseen
  stored _ member := absurd member List.not_mem_nil
  uncompressed _ member := absurd member List.not_mem_nil
  grouped _ member := absurd member List.not_mem_nil
  authority _ _ _ := rfl
  asset _ _ _ := rfl
  grouping _ _ := rfl

section Step
variable [Programs] {start db : Db} {updates : List (CollectionUpdate c)}

omit [Programs] in
theorem Tracked.mem_groupMembers (tracked : Tracked start updates db)
    (ungrouped : ∀ id row, start.assetGrouping.lookup (id, "collection") = some row →
      row.groupValue ≠ some c.toBase58) (id : Pubkey) :
    id ∈ groupMembers db c.toBase58 ↔ id ∈ members updates := by
  constructor
  · intro grouped
    obtain ⟨row, stored, value⟩ := MplCore.mem_groupMembers.mp grouped
    by_contra absent
    rw [tracked.grouping id absent] at stored
    exact ungrouped id row stored value
  · intro member
    exact tracked.grouped id member

omit [Programs] in
theorem saveAuthority_strictlyNewer (db : Db) (id authority : Pubkey) (slot : Nat) (newest : Option (Pubkey × Nat))
    (stored : db.assetAuthority.lookup id = newest.map (fun w => V1Asset.authorityRow w.1.bytes w.2)) :
    (V1Asset.saveAuthority db id authority.bytes slot).assetAuthority.lookup id =
      (some (strictlyNewer Prod.snd newest (authority, slot))).map (fun w => V1Asset.authorityRow w.1.bytes w.2) := by
  rw [V1Asset.saveAuthority, Table.lookup_upsert_self, stored]
  cases newest with
  | none => rfl
  | some w =>
    have filter : (V1Asset.authorityOnConflict.filter (V1Asset.authorityRow w.1.bytes w.2)
        (V1Asset.authorityRow authority.bytes slot)).holds = decide (w.2 < slot) := by
      simp [V1Asset.authorityOnConflict, V1Asset.authorityRow]
    rw [Option.map_some, OnConflict.resolve, filter, strictlyNewer]
    by_cases newer : w.2 < slot
    · simp [newer, V1Asset.authorityOnConflict]
    · simp [newer]

theorem Tracked.collection_step (tracked : Tracked start updates db) (unseen : Unseen updates start)
    (account : AccountInfo) (same : account.pubkey = c) (asset : IndexableAsset) (authority : Pubkey)
    (addressed : asset.updateAuthority = .address authority) :
    Tracked start (updates ++ [.collection account same asset authority addressed])
      (handle db (.collection account same asset authority addressed)) := by
  have sameMembers : members (updates ++ [.collection account same asset authority addressed]) = members updates := by
    rw [members_concat]
    exact List.append_nil _
  have isMember := tracked.mem_groupMembers unseen.ungrouped
  have saved : ∀ id, id ≠ c → (V1Asset.saveAuthority db c authority.bytes account.slot).assetAuthority.lookup id =
      db.assetAuthority.lookup id := fun id different => Table.lookup_upsert_ne _ different _ _
  have sameGroup : groupMembers (handle db (.collection account same asset authority addressed)) c.toBase58 =
      groupMembers db c.toBase58 := by
    rw [groupMembers, collection_grouping, groupMembers]
  refine ⟨?_, ?_, ?_, ?_, ?_, ?_, ?_⟩
  · have notMember : c ∉ groupMembers db c.toBase58 := fun grouped => member_ne ((isMember c).mp grouped) rfl
    rw [collection_authority, if_neg (fun found => notMember found.1), newestAuthority_concat]
    exact saveAuthority_strictlyNewer db c authority account.slot _ tracked.collection
  · intro id member
    rw [sameMembers] at member
    obtain ⟨row, stored⟩ := tracked.stored id member
    rw [collection_authority, saved id (member_ne member), stored]
    split
    · exact ⟨_, rfl⟩
    · exact ⟨_, rfl⟩
  · intro id member
    rw [sameMembers] at member
    rw [isUncompressed, collection_asset db account same asset authority addressed (member_ne member)]
    exact tracked.uncompressed id member
  · intro id member
    rw [sameMembers] at member
    rw [sameGroup]
    exact tracked.grouped id member
  · intro id different absent
    rw [sameMembers] at absent
    rw [collection_authority, if_neg (fun found => absent ((isMember id).mp found.1)), saved id different]
    exact tracked.authority id different absent
  · intro id different absent
    rw [sameMembers] at absent
    rw [collection_asset db account same asset authority addressed different]
    exact tracked.asset id different absent
  · intro id absent
    rw [sameMembers] at absent
    rw [collection_grouping]
    exact tracked.grouping id absent

section Members
variable (account : AccountInfo) (different : account.pubkey ≠ c) (asset : IndexableAsset)
  (grouped : asset.updateAuthority = .collection c)

omit [Programs] in
theorem mem_members_member (id : Pubkey) :
    id ∈ members (updates ++ [.member account different asset grouped]) ↔
      id ∈ members updates ∨ id = account.pubkey := by
  rw [members_concat, List.mem_append]
  exact or_congr Iff.rfl (by simp [memberId])

/-- The member itself is uncompressed after its update. -/
theorem Tracked.member_uncompressed (tracked : Tracked start updates db)
    (unseen : account.pubkey ∉ members updates → start.asset.lookup account.pubkey = none) :
    isUncompressed (handle db (.member account different asset grouped)) account.pubkey := by
  refine saveV1Asset_uncompressed db account.pubkey account.slot rfl ?_
  by_cases before : account.pubkey ∈ members updates
  · have uncompressed := tracked.uncompressed _ before
    rw [isUncompressed] at uncompressed
    rw [Db.assetOrDefault]
    cases stored : db.asset.lookup account.pubkey with
    | none => rfl
    | some row =>
      rw [stored] at uncompressed
      simpa using uncompressed
  · rw [Db.assetOrDefault, tracked.asset _ different before, unseen before]
    rfl

/-- The member itself is in the group after its update. -/
theorem Tracked.member_grouped (tracked : Tracked start updates db)
    (unseen : account.pubkey ∉ members updates → start.assetGrouping.lookup (account.pubkey, "collection") = none) :
    account.pubkey ∈ groupMembers (handle db (.member account different asset grouped)) c.toBase58 := by
  rw [MplCore.mem_groupMembers, member_grouping, Table.lookup_upsert_self]
  refine ⟨_, rfl, ?_⟩
  cases stored : db.assetGrouping.lookup (account.pubkey, "collection") with
  | none => rfl
  | some row =>
    rw [OnConflict.resolve]
    split
    · rfl
    · by_cases before : account.pubkey ∈ members updates
      · obtain ⟨old, known, value⟩ := MplCore.mem_groupMembers.mp (tracked.grouped _ before)
        rw [stored, Option.some_inj] at known
        rw [known]
        exact value
      · rw [tracked.grouping _ before, unseen before] at stored
        cases stored

end Members

theorem Tracked.member_step (tracked : Tracked start updates db) (account : AccountInfo)
    (different : account.pubkey ≠ c) (asset : IndexableAsset) (grouped : asset.updateAuthority = .collection c)
    (unseen : Unseen (updates ++ [.member account different asset grouped]) start) :
    Tracked start (updates ++ [.member account different asset grouped])
      (handle db (.member account different asset grouped)) := by
  have moreMembers := @mem_members_member c updates account different asset grouped
  have here : account.pubkey ∈ members (updates ++ [.member account different asset grouped]) :=
    (moreMembers account.pubkey).mpr (Or.inr rfl)
  have otherMember : ∀ id, id ∉ members (updates ++ [.member account different asset grouped]) →
      id ≠ account.pubkey ∧ id ∉ members updates := by
    intro id absent
    exact ⟨fun equal => absent ((moreMembers id).mpr (Or.inr equal)),
      fun member => absent ((moreMembers id).mpr (Or.inl member))⟩
  refine ⟨?_, ?_, ?_, ?_, ?_, ?_, ?_⟩
  · rw [member_otherAuthority db account different asset grouped different.symm, newestAuthority_concat]
    exact tracked.collection
  · intro id member
    by_cases other : id = account.pubkey
    · rw [other, member_authority]
      exact ⟨_, Table.lookup_upsert_self _ _ _ _⟩
    · rw [member_otherAuthority db account different asset grouped other]
      exact tracked.stored id (((moreMembers id).mp member).resolve_right other)
  · intro id member
    by_cases other : id = account.pubkey
    · rw [other]
      exact tracked.member_uncompressed account different asset grouped (fun _ => unseen.asset _ here)
    · rw [isUncompressed, member_otherAsset db account different asset grouped other]
      exact tracked.uncompressed id (((moreMembers id).mp member).resolve_right other)
  · intro id member
    by_cases other : id = account.pubkey
    · rw [other]
      exact tracked.member_grouped account different asset grouped (fun _ => unseen.grouping _ here)
    · rw [MplCore.mem_groupMembers, member_otherGrouping db account different asset grouped other]
      exact MplCore.mem_groupMembers.mp (tracked.grouped id (((moreMembers id).mp member).resolve_right other))
  · intro id notCollection absent
    obtain ⟨other, notMember⟩ := otherMember id absent
    rw [member_otherAuthority db account different asset grouped other]
    exact tracked.authority id notCollection notMember
  · intro id notCollection absent
    obtain ⟨other, notMember⟩ := otherMember id absent
    rw [member_otherAsset db account different asset grouped other]
    exact tracked.asset id notCollection notMember
  · intro id absent
    obtain ⟨other, notMember⟩ := otherMember id absent
    rw [member_otherGrouping db account different asset grouped other]
    exact tracked.grouping id notMember

omit [Programs] in
theorem Unseen.shorter {earlier : List (CollectionUpdate c)} (unseen : Unseen updates start)
    (begins : earlier <+: updates) : Unseen earlier start := by
  have included : ∀ id ∈ members earlier, id ∈ members updates := by
    intro id member
    obtain ⟨u, inEarlier, named⟩ := List.mem_filterMap.mp member
    exact List.mem_filterMap.mpr ⟨u, begins.subset inEarlier, named⟩
  exact ⟨unseen.collection, fun id member => unseen.authority id (included id member),
    fun id member => unseen.asset id (included id member),
    fun id member => unseen.grouping id (included id member), unseen.ungrouped⟩

omit [Programs] in
theorem Unseen.earlier {u : CollectionUpdate c} (unseen : Unseen (updates ++ [u]) start) : Unseen updates start :=
  unseen.shorter (List.prefix_append _ _)

theorem Tracked.step (tracked : Tracked start updates db) {u : CollectionUpdate c}
    (unseen : Unseen (updates ++ [u]) start) : Tracked start (updates ++ [u]) (handle db u) := by
  cases u with
  | collection account same asset authority addressed =>
    exact tracked.collection_step unseen.earlier account same asset authority addressed
  | member account different asset grouped => exact tracked.member_step account different asset grouped unseen

theorem deliver_concat (db : Db) (updates : List (CollectionUpdate c)) (u : CollectionUpdate c) :
    deliver db (updates ++ [u]) = handle (deliver db updates) u := by
  rw [deliver, List.foldl_concat, deliver]

theorem deliver_tracked (unseen : Unseen updates start) : Tracked start updates (deliver start updates) := by
  induction updates using List.reverseRecOn with
  | nil => exact Tracked.nil unseen.collection
  | append_singleton earlier u ih =>
    rw [deliver_concat]
    exact (ih unseen.earlier).step unseen

/-- A member takes the authority of the collection when it is indexed. -/
theorem Follow.member_step (tracked : Tracked start updates db) (follow : Follow updates db) (account : AccountInfo)
    (different : account.pubkey ≠ c) (asset : IndexableAsset) (grouped : asset.updateAuthority = .collection c)
    (unseen : Unseen (updates ++ [.member account different asset grouped]) start) :
    Follow (updates ++ [.member account different asset grouped])
      (handle db (.member account different asset grouped)) := by
  intro id member _ newest isNewest
  rw [newestAuthority_concat] at isNewest
  change newestAuthority updates = some newest at isNewest
  have known : updateAuthorityOf db (.collection c) = newest.1.bytes := by
    rw [updateAuthorityOf, tracked.collection, isNewest]
    rfl
  rw [member_authority, known]
  rw [members_concat, List.mem_append] at member
  by_cases other : id = account.pubkey
  · subst other
    rw [V1Asset.saveAuthority, Table.lookup_upsert_self, Option.map_some]
    by_cases before : account.pubkey ∈ members updates
    · have kept := follow _ before (tracked.uncompressed _ before) newest isNewest
      obtain ⟨row, stored⟩ := tracked.stored _ before
      rw [stored, Option.map_some] at kept
      rw [stored, OnConflict.resolve]
      split
      · rfl
      · exact kept
    · have here : account.pubkey ∈ members (updates ++ [.member account different asset grouped]) := by
        rw [members_concat]
        exact List.mem_append_right _ List.mem_cons_self
      rw [tracked.authority _ different before, unseen.authority _ here]
      rfl
  · have before : id ∈ members updates := by
      rcases member with old | new
      · exact old
      · exact absurd (List.mem_singleton.mp new) other
    have kept := Table.lookup_upsert_ne db.assetAuthority other
      (V1Asset.authorityRow newest.1.bytes account.slot) V1Asset.authorityOnConflict
    rw [V1Asset.saveAuthority, kept]
    exact follow id before (tracked.uncompressed id before) newest isNewest

omit [Programs] in
theorem followed_newest_iff (row : AssetAuthorityRow) (authority : Bytes) (slot : Nat) :
    (followed authority slot row).authority = authority ↔ row.slotUpdated < slot ∨ row.authority = authority := by
  rw [followed]
  split
  · rename_i changes
    exact ⟨fun _ => Or.inl changes.2, fun _ => rfl⟩
  · rename_i kept
    constructor
    · exact Or.inr
    · intro either
      by_contra different
      exact kept ⟨different, either.resolve_right different⟩

omit [Programs] in
theorem followed_older_iff (row : AssetAuthorityRow) (authority : Bytes) (slot : Nat) :
    (followed authority slot row).authority = row.authority ↔
      slot ≤ row.slotUpdated ∨ row.authority = authority := by
  rw [followed]
  split
  · rename_i changes
    constructor
    · intro same
      exact absurd same.symm changes.1
    · rintro (late | same)
      · omega
      · exact same.symm
  · rename_i kept
    refine ⟨fun _ => ?_, fun _ => rfl⟩
    by_cases same : row.authority = authority
    · exact Or.inr same
    · refine Or.inl (not_lt.mp (fun early => kept ⟨same, early⟩))

section Collections
variable (account : AccountInfo) (same : account.pubkey = c) (asset : IndexableAsset) (authority : Pubkey)
  (addressed : asset.updateAuthority = .address authority)

/-- What an update of the collection makes of the row of a member. -/
theorem Tracked.collection_member (tracked : Tracked start updates db) (unseen : Unseen updates start) {id : Pubkey}
    (member : id ∈ members updates) {row : AssetAuthorityRow} (stored : db.assetAuthority.lookup id = some row) :
    (handle db (.collection account same asset authority addressed)).assetAuthority.lookup id =
      some (followed authority.bytes account.slot row) := by
  have grouped := (tracked.mem_groupMembers unseen.ungrouped id).mpr member
  have saved := Table.lookup_upsert_ne db.assetAuthority (member_ne member)
    (V1Asset.authorityRow authority.bytes account.slot) V1Asset.authorityOnConflict
  rw [collection_authority, if_pos ⟨grouped, tracked.uncompressed id member⟩, V1Asset.saveAuthority, saved, stored,
    Option.map_some]

omit [Programs] in
/-- The row of a member has the newest authority after the update exactly when
the update reaches it. -/
theorem Follow.row_iff (tracked : Tracked start updates db) (follow : Follow updates db) {id : Pubkey}
    (member : id ∈ members updates) {row : AssetAuthorityRow} (stored : db.assetAuthority.lookup id = some row) :
    (followed authority.bytes account.slot row).authority =
        (strictlyNewer Prod.snd (newestAuthority updates) (authority, account.slot)).1.bytes ↔
      if (db.assetAuthority.lookup c).all (fun stored => stored.slotUpdated < account.slot) then
        row.slotUpdated < account.slot ∨ row.authority = authority.bytes
      else account.slot ≤ row.slotUpdated ∨
        (db.assetAuthority.lookup c).any (fun stored => stored.authority = authority.bytes) := by
  rw [tracked.collection]
  cases known : newestAuthority updates with
  | none => exact followed_newest_iff row authority.bytes account.slot
  | some w =>
    have kept := follow id member (tracked.uncompressed id member) w known
    rw [stored, Option.map_some, Option.some_inj] at kept
    rw [strictlyNewer, Option.map_some, Option.all_some, Option.any_some]
    by_cases newer : (V1Asset.authorityRow w.1.bytes w.2).slotUpdated < account.slot
    · have strictly : w.2 < (authority, account.slot).2 := newer
      rw [if_pos (decide_eq_true newer), if_pos strictly]
      exact followed_newest_iff row authority.bytes account.slot
    · have refused : ¬ w.2 < (authority, account.slot).2 := newer
      rw [if_neg (fun accepted => newer (of_decide_eq_true accepted)), if_neg refused, ← kept, followed_older_iff,
        decide_eq_true_eq, kept]
      rfl

/-- The members follow an update of the collection exactly when it reaches
them. -/
theorem Follow.collection_step (tracked : Tracked start updates db) (follow : Follow updates db)
    (unseen : Unseen updates start) :
    Follow (updates ++ [.collection account same asset authority addressed])
        (handle db (.collection account same asset authority addressed)) ↔
      Reaches db (.collection account same asset authority addressed) := by
  have sameMembers : members (updates ++ [.collection account same asset authority addressed]) = members updates := by
    rw [members_concat]
    exact List.append_nil _
  have isMember := tracked.mem_groupMembers unseen.ungrouped
  have after := tracked.collection_step unseen account same asset authority addressed
  have newest : newestAuthority (updates ++ [.collection account same asset authority addressed]) =
      some (strictlyNewer Prod.snd (newestAuthority updates) (authority, account.slot)) :=
    newestAuthority_concat updates _
  constructor
  · intro follows id grouped _ row stored
    have member := (isMember id).mp grouped
    have shown := follows id (by rw [sameMembers]; exact member)
      (after.uncompressed id (by rw [sameMembers]; exact member)) _ newest
    rw [tracked.collection_member account same asset authority addressed unseen member stored, Option.map_some,
      Option.some_inj] at shown
    exact (follow.row_iff account authority tracked member stored).mp shown
  · intro reaches id member _ found isNewest
    rw [sameMembers] at member
    obtain ⟨row, stored⟩ := tracked.stored id member
    have reached := reaches id ((isMember id).mpr member) (tracked.uncompressed id member) row stored
    rw [newest, Option.some_inj] at isNewest
    rw [tracked.collection_member account same asset authority addressed unseen member stored, Option.map_some,
      ← isNewest]
    exact congrArg some ((follow.row_iff account authority tracked member stored).mpr reached)

end Collections

theorem Follow.step_iff (tracked : Tracked start updates db) (follow : Follow updates db) {u : CollectionUpdate c}
    (unseen : Unseen (updates ++ [u]) start) : Follow (updates ++ [u]) (handle db u) ↔ Reaches db u := by
  cases u with
  | collection account same asset authority addressed =>
    exact Follow.collection_step account same asset authority addressed tracked follow unseen.earlier
  | member account different asset grouped =>
    exact ⟨fun _ => trivial, fun _ => Follow.member_step tracked follow account different asset grouped unseen⟩

/-- The members of a collection follow its authority all along a run exactly
when every update of the collection reaches the members it finds. -/
theorem members_follow_iff (start : Db) (updates : List (CollectionUpdate c)) (unseen : Unseen updates start) :
    (∀ earlier, earlier <+: updates → Follow earlier (deliver start earlier)) ↔
      ∀ earlier u, earlier ++ [u] <+: updates → Reaches (deliver start earlier) u := by
  have none : Follow ([] : List (CollectionUpdate c)) start := fun id member => absurd member List.not_mem_nil
  refine Runs.holds_iff_allowed updates none (fun earlier u begins follow => ?_)
  have unseenSoFar := unseen.shorter begins
  exact Follow.step_iff (deliver_tracked unseenSoFar.earlier) follow unseenSoFar

end Step

namespace Example

def collection : Pubkey := .fill 9

def ofCollection (authority : Pubkey) (slot : Nat) : CollectionUpdate collection :=
  .collection { slot, pubkey := collection, owner := .fill 7 } rfl
    { owner := none, updateAuthority := .address authority, name := "", uri := "" } authority rfl

def ofMember (slot : Nat) : CollectionUpdate collection :=
  .member { slot, pubkey := .fill 1, owner := .fill 7 } (fun same => by cases same)
    { owner := some (.fill 2), updateAuthority := .collection collection, name := "", uri := "" } rfl

/-- The authority changes after the last change of the member. -/
def later : List (CollectionUpdate collection) :=
  [ofCollection (.fill 3) 10, ofMember 12, ofCollection (.fill 4) 15]

/-- The member changes after the authority, and is indexed before it. -/
def earlier : List (CollectionUpdate collection) :=
  [ofCollection (.fill 3) 10, ofMember 20, ofCollection (.fill 4) 15]

theorem unseen (updates : List (CollectionUpdate collection)) : Unseen updates {} where
  collection := rfl
  authority _ _ := rfl
  asset _ _ := rfl
  grouping _ _ := rfl
  ungrouped _ _ stored := by cases stored

end Example

/-- The last element of a prefix of a list of three is one of the three. -/
theorem prefix_of_three {α : Type} {x y z u : α} {earlier : List α} (begins : earlier ++ [u] <+: [x, y, z]) :
    (earlier = [] ∧ u = x) ∨ (earlier = [x] ∧ u = y) ∨ (earlier = [x, y] ∧ u = z) := by
  rcases earlier with _ | ⟨first, _ | ⟨second, _ | ⟨third, rest⟩⟩⟩
  · simpa using begins
  · simpa using begins
  · simpa [and_assoc] using begins
  · have tooLong := begins.length_le
    simp only [List.length_append, List.length_cons, List.length_nil] at tooLong
    omega

theorem members_follow_later :
    Unseen Example.later {} ∧ ∀ earlier, earlier <+: Example.later → Follow earlier (deliver {} earlier) := by
  refine ⟨Example.unseen _, (members_follow_iff {} Example.later (Example.unseen _)).mpr (fun earlier u begins => ?_)⟩
  rcases prefix_of_three begins with ⟨sameRun, sameUpdate⟩ | ⟨sameRun, sameUpdate⟩ | ⟨sameRun, sameUpdate⟩
  · subst sameRun sameUpdate
    intro id grouped
    have nobody : groupMembers (deliver {} ([] : List (CollectionUpdate Example.collection)))
        Example.collection.toBase58 = [] := by decide
    rw [nobody] at grouped
    exact absurd grouped List.not_mem_nil
  · subst sameRun sameUpdate
    trivial
  · subst sameRun sameUpdate
    have rows : ∀ id ∈ groupMembers (deliver {} [Example.ofCollection (.fill 3) 10, Example.ofMember 12])
        Example.collection.toBase58,
        ((deliver {} [Example.ofCollection (.fill 3) 10, Example.ofMember 12]).assetAuthority.lookup id).all
          (fun row => row.slotUpdated < 15) := by decide
    intro id grouped _ row stored
    have older := rows id grouped
    rw [stored, Option.all_some, decide_eq_true_eq] at older
    exact Or.inl older

theorem members_keep_old_authority : ¬ Follow Example.earlier (deliver {} Example.earlier) := by
  intro follow
  have shown := follow (.fill 1) (by decide) (by decide) (.fill 4, 15) (by decide)
  revert shown
  decide

end CollectionUpdate

end DasIndexer.MplCore
