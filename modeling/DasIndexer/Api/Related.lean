import DasIndexer.Api.Listings
import DasIndexer.Lib.Paging

namespace DasIndexer
open Sql

section Orders
variable {db : Db} {id : Pubkey} {ids : List Pubkey}

theorem pubkey_eq_iff {key other : Pubkey} : byteaKey key.bytes = byteaKey other.bytes ↔ key = other := by
  constructor
  · intro same
    have bytes := byteaKey_injective same
    cases key
    cases other
    cases bytes
    rfl
  · intro same
    rw [same]

/-- Sorting by asset does not touch the order of the rows of one asset. -/
theorem rowsOf_filter {R : Type} {assetId : R → Pubkey} {rows : List R} (member : id ∈ ids) :
    (rowsOf assetId ids rows).filter (fun row => assetId row = id) = rows.filter (fun row => assetId row = id) := by
  rw [rowsOf, IndexMap.filter_insertionSort]
  · rw [List.filter_filter]
    refine List.filter_congr (fun row _ => ?_)
    by_cases same : assetId row = id
    · simp [same, member]
    · simp [same]
  · intro row other ofRow ofOther
    rw [decide_eq_true_eq] at ofRow ofOther
    rw [ofRow, ofOther]

/-- Sorted by asset and position, the rows of one asset are sorted by position. -/
theorem creatorsOf_filter (member : id ∈ ids) :
    ((creatorsOf db ids).filter (fun c => c.1.1 = id)).map Prod.snd = creatorsByPosition db id := by
  have keys : ((db.assetCreators.keys.filter (fun key => key.1 ∈ ids)).insertionSort (fun key other =>
      toLex (byteaKey key.1.bytes, key.2) ≤ toLex (byteaKey other.1.bytes, other.2))).filter (fun key => key.1 = id) =
      (creatorPositions db id).map (fun position => (id, position)) := by
    refine @List.Perm.eq_of_pairwise _ (fun key other => key.2 ≤ other.2) _ _ ?_ ?_ ?_ ?_
    · intro key other inKeys inOther up down
      have ofKey := (List.mem_filter.mp inKeys).2
      rw [decide_eq_true_eq] at ofKey
      obtain ⟨position, -, isOther⟩ := List.mem_map.mp inOther
      subst isOther
      exact Prod.ext ofKey (le_antisymm up down)
    · have sorted := List.pairwise_insertionSort (fun key other : Pubkey × Nat =>
        toLex (byteaKey key.1.bytes, key.2) ≤ toLex (byteaKey other.1.bytes, other.2))
        (db.assetCreators.keys.filter (fun key => key.1 ∈ ids))
      refine (sorted.filter (fun key => key.1 = id)).imp_of_mem (fun inKey inOther ordered => ?_)
      have ofKey := (List.mem_filter.mp inKey).2
      have ofOther := (List.mem_filter.mp inOther).2
      rw [decide_eq_true_eq] at ofKey ofOther
      rw [Prod.Lex.toLex_le_toLex, ofKey, ofOther] at ordered
      exact ordered.elim (fun less => (lt_irrefl _ less).elim) (fun both => both.2)
    · rw [List.pairwise_map]
      exact (List.sortedLE_insertionSort).pairwise
    · refine ((List.perm_insertionSort _ _).filter _).trans ?_
      have onlyId : (db.assetCreators.keys.filter (fun key => key.1 ∈ ids)).filter (fun key => key.1 = id) =
          db.assetCreators.keys.filter (fun key => key.1 = id) := by
        rw [List.filter_filter]
        refine List.filter_congr (fun key _ => ?_)
        by_cases same : key.1 = id
        · simp [same, member]
        · simp [same]
      have back : ((db.assetCreators.keys.filter (fun key => key.1 = id)).map Prod.snd).map (fun position => (id, position)) =
          db.assetCreators.keys.filter (fun key => key.1 = id) := by
        rw [List.map_map]
        refine (List.map_congr_left (fun key inKeys => ?_)).trans (List.map_id _)
        have ofKey := (List.mem_filter.mp inKeys).2
        rw [decide_eq_true_eq] at ofKey
        exact Prod.ext ofKey.symm rfl
      rw [onlyId, ← back]
      exact ((List.perm_insertionSort _ _).map _).symm
  have rows : ∀ l : List (Pubkey × Nat), ((l.filterMap (fun key => (db.assetCreators.lookup key).map
        (fun row => (key, row)))).filter (fun c => c.1.1 = id)).map Prod.snd =
      (l.filter (fun key => key.1 = id)).filterMap (fun key => db.assetCreators.lookup key) := by
    intro l
    induction l with
    | nil => rfl
    | cons key rest ih =>
      rw [List.filterMap_cons, List.filter_cons]
      cases stored : db.assetCreators.lookup key with
      | none =>
        rw [Option.map_none]
        dsimp only
        rw [ih]
        split
        · rw [List.filterMap_cons, stored]
        · rfl
      | some row =>
        rw [Option.map_some]
        dsimp only
        rw [List.filter_cons]
        split
        · rw [List.map_cons, ih, List.filterMap_cons, stored]
        · exact ih
  rw [creatorsOf, rows, keys, creatorsByPosition, List.filterMap_map]
  rfl

end Orders

section Stages
variable (db : Db) (options : Options)

theorem foldl_push_creators (rows : List ((Pubkey × Nat) × AssetCreatorRow)) (full : FullAsset) :
    rows.foldl (fun full c => { full with creators := full.creators ++ [c.2] }) full =
      { full with creators := full.creators ++ rows.map Prod.snd } := by
  induction rows generalizing full with
  | nil => simp
  | cons c rest ih =>
    rw [List.foldl_cons, ih]
    simp

theorem foldl_push_authorities (rows : List (Sigma (fun _ : Pubkey => AssetAuthorityRow))) (full : FullAsset) :
    rows.foldl (fun full a => { full with authorities := full.authorities ++ [a.2] }) full =
      { full with authorities := full.authorities ++ rows.map Sigma.snd } := by
  induction rows generalizing full with
  | nil => simp
  | cons a rest ih =>
    rw [List.foldl_cons, ih]
    simp

theorem foldl_push_groups (shown : Sigma (fun _ : Pubkey × String => AssetGroupingRow) → String × AssetGroupingRow × Option AssetDataRow)
    (rows : List (Sigma (fun _ : Pubkey × String => AssetGroupingRow))) (full : FullAsset) :
    rows.foldl (fun full g => { full with groups := full.groups ++ [shown g] }) full =
      { full with groups := full.groups ++ rows.map shown } := by
  induction rows generalizing full with
  | nil => simp
  | cons g rest ih =>
    rw [List.foldl_cons, ih]
    simp

theorem addCreators_eq (assetsMap : List (Pubkey × FullAsset)) :
    addCreators db assetsMap = assetsMap.map (fun entry => (entry.1,
      { entry.2 with creators := filterOutStaleCreators (entry.2.creators ++ creatorsByPosition db entry.1) })) := by
  rw [addCreators, IndexMap.foldl_modify, List.map_map]
  refine List.map_congr_left (fun entry member => ?_)
  rw [Function.comp_apply, foldl_push_creators, creatorsOf_filter (List.mem_map_of_mem member)]

theorem addAuthorities_eq (assetsMap : List (Pubkey × FullAsset)) :
    addAuthorities db assetsMap = assetsMap.map (fun entry => (entry.1,
      { entry.2 with authorities := entry.2.authorities ++ (db.assetAuthority.lookup entry.1).toList })) := by
  rw [addAuthorities, IndexMap.foldl_modify]
  refine List.map_congr_left (fun entry member => ?_)
  rw [rowsOf_filter (List.mem_map_of_mem member), entries_filter_key, foldl_push_authorities]
  cases db.assetAuthority.lookup entry.1 with
  | none => rfl
  | some row => rfl

theorem addTokens_eq (assetsMap : List (Pubkey × FullAsset)) :
    addTokens db options assetsMap = assetsMap.map (fun entry => (entry.1,
      { entry.2 with tokenInfo :=
          if options.showFungible then (db.tokens.lookup entry.1).or entry.2.tokenInfo else entry.2.tokenInfo })) := by
  unfold addTokens
  split
  · rw [IndexMap.foldl_modify]
    refine List.map_congr_left (fun entry member => ?_)
    have found : (findTokens db (assetsMap.map Prod.fst)).filter (fun t => t.1 = entry.1) =
        ((db.tokens.lookup entry.1).map (fun row => (entry.1, row))).toList := by
      have keyed := entries_filter_key db.tokens entry.1
      rw [findTokens, List.filter_map, List.filter_filter]
      have only : db.tokens.entries.filter (fun t => decide (t.1 = entry.1) && decide (t.1 ∈ assetsMap.map Prod.fst)) =
          db.tokens.entries.filter (fun t => t.1 = entry.1) := by
        refine List.filter_congr (fun t _ => ?_)
        by_cases same : t.1 = entry.1
        · rw [same, decide_eq_true (List.mem_map_of_mem member), Bool.and_true]
        · rw [decide_eq_false same, Bool.false_and]
      rw [show ((fun t : Pubkey × TokenRow => decide (t.1 = entry.1)) ∘ fun t : Sigma (fun _ : Pubkey => TokenRow) =>
        (t.1, t.2)) = (fun t => decide (t.1 = entry.1)) from rfl, only, keyed]
      cases db.tokens.lookup entry.1 with
      | none => rfl
      | some row => rfl
    rw [found]
    cases db.tokens.lookup entry.1 with
    | none => rfl
    | some row => rfl
  · exact (List.map_id _).symm

theorem addInscriptions_eq (assetIds : List Pubkey) (assetsMap : List (Pubkey × FullAsset)) :
    addInscriptions db options assetIds assetsMap = assetsMap.map (fun entry => (entry.1,
      { entry.2 with inscription :=
          if options.showInscription then ((db.attachments.lookup entry.1).filter (fun row =>
            row.assetId.any (fun id => id ∈ assetIds))).or entry.2.inscription
          else entry.2.inscription })) := by
  unfold addInscriptions
  split
  · rw [IndexMap.foldl_modify]
    refine List.map_congr_left (fun entry _ => ?_)
    rw [List.filter_comm, entries_filter_key]
    cases db.attachments.lookup entry.1 with
    | none => rfl
    | some row =>
      rw [Option.map_some, Option.toList_some, List.filter_cons, List.filter_nil, Option.filter_some]
      split
      · rfl
      · rfl
  · exact (List.map_id _).symm

/-- The groups of an asset that a listing shows. -/
def listedGroups (id : Pubkey) : List (String × AssetGroupingRow) :=
  (db.assetGrouping.entries.filter (fun entry => entry.1.1 = id && entry.2.groupValue.isSome &&
    (options.showUnverifiedCollections || entry.2.verified))).map (fun entry => (entry.1.2, entry.2))

theorem addGroups_eq (assetsMap : List (Pubkey × FullAsset)) :
    addGroups db options assetsMap = assetsMap.map (fun entry => (entry.1,
      { entry.2 with groups := entry.2.groups ++ (listedGroups db options entry.1).map (fun group =>
          (group.1, group.2, if options.showCollectionMetadata then db.assetData.lookup entry.1 else none)) })) := by
  rw [addGroups, IndexMap.foldl_modify]
  refine List.map_congr_left (fun entry member => ?_)
  rw [rowsOf_filter (List.mem_map_of_mem member), foldl_push_groups (fun g => (g.1.2, g.2,
    if options.showCollectionMetadata then db.assetData.lookup g.1.1 else none)), List.filter_filter, listedGroups,
    List.map_map]
  have same : db.assetGrouping.entries.filter (fun g => decide (g.1.1 = entry.1) && (g.2.groupValue.isSome &&
        (options.showUnverifiedCollections || g.2.verified))) =
      db.assetGrouping.entries.filter (fun g => decide (g.1.1 = entry.1) && g.2.groupValue.isSome &&
        (options.showUnverifiedCollections || g.2.verified)) :=
    List.filter_congr (fun g _ => (Bool.and_assoc _ _ _).symm)
  rw [same]
  congr 3
  refine List.map_congr_left (fun g inGroups => ?_)
  have ofEntry := (List.mem_filter.mp inGroups).2
  simp only [Bool.and_eq_true, decide_eq_true_eq] at ofEntry
  rw [ofEntry.1.1]
  rfl

end Stages

section Listed
variable {db : Db} {assets : List (Pubkey × AssetRow)}

/-- An asset with its row of `asset_data`, which is looked for among the rows of
the assets on the page. -/
def bareAsset (db : Db) (assetIds : List Pubkey) (id : Pubkey) : Option FullAsset :=
  (db.asset.lookup id).bind (fun asset =>
    ((asset.assetData.filter (fun dataId => dataId ∈ assetIds)).bind (fun dataId => db.assetData.lookup dataId)).map
      (fun data => { asset, data, tokenInfo := none, authorities := [], creators := [], inscription := none,
                     groups := [] }))

/-- The rows of an asset in the other tables. -/
def relatedAsset (db : Db) (options : Options) (assetIds : List Pubkey) (id : Pubkey) (full : FullAsset) : FullAsset :=
  { full with
    tokenInfo := if options.showFungible then db.tokens.lookup id else none
    authorities := (db.assetAuthority.lookup id).toList
    creators := shownCreators db id
    inscription := if options.showInscription then (db.attachments.lookup id).filter (fun row =>
      row.assetId.any (fun id => id ∈ assetIds)) else none
    groups := (listedGroups db options id).map (fun group =>
      (group.1, group.2, if options.showCollectionMetadata then db.assetData.lookup id else none)) }

theorem assetDataMap_lookup (ids : List Pubkey) (dataId : Pubkey) :
    (Table.insertAll (db.assetData.entries.filter (fun entry => entry.1 ∈ ids)) (fun entry => entry.1)
      (fun entry => entry.2)).lookup dataId = if dataId ∈ ids then db.assetData.lookup dataId else none := by
  refine Option.ext (fun row => ?_)
  rw [Table.lookup_insertAll_iff]
  · constructor
    · rintro ⟨entry, member, sameKey, sameRow⟩
      obtain ⟨inTable, asked⟩ := List.mem_filter.mp member
      rw [decide_eq_true_eq, sameKey] at asked
      rw [if_pos asked, ← sameKey, ← sameRow]
      exact AList.mem_lookup_iff.mpr inTable
    · intro found
      split at found
      · rename_i asked
        exact ⟨⟨dataId, row⟩, List.mem_filter.mpr ⟨AList.mem_lookup_iff.mp found, decide_eq_true asked⟩, rfl, rfl⟩
      · cases found
  · intro x inX y inY sameKey
    have storedX : db.assetData.lookup x.1 = some x.2 := AList.mem_lookup_iff.mpr (List.mem_filter.mp inX).1
    have storedY : db.assetData.lookup y.1 = some y.2 := AList.mem_lookup_iff.mpr (List.mem_filter.mp inY).1
    rw [sameKey, storedY] at storedX
    exact (Option.some.inj storedX).symm

theorem collectAssets_eq (stored : ∀ asset ∈ assets, db.asset.lookup asset.1 = some asset.2) :
    collectAssets db assets =
      ((assets.map Prod.fst).filter (fun id => (bareAsset db (assets.map Prod.fst) id).isSome)).eraseDups.filterMap
        (fun id => (bareAsset db (assets.map Prod.fst) id).map (fun full => (id, full))) := by
  refine IndexMap.foldl_insertSome (bareAsset db (assets.map Prod.fst)) (fun asset member => ?_)
  rw [bareAsset, stored asset member, Option.bind_some]
  congr 1
  cases asset.2.assetData with
  | none => rfl
  | some dataId =>
    rw [Option.bind_some, assetDataMap_lookup, Option.filter_some]
    by_cases asked : dataId ∈ assets.map Prod.fst
    · rw [if_pos asked, if_pos (decide_eq_true asked)]
      rfl
    · rw [if_neg asked, if_neg (by simpa using asked)]
      rfl

/-- Whether an asset passes the test for a required creator. -/
def listsCreator (db : Db) (requiredCreator : Option Bytes) (id : Pubkey) : Bool :=
  requiredCreator.all (fun required => (shownCreators db id).any (fun c => c.creator = required))

/-- What a listing makes of a page of assets. -/
theorem getRelatedForAssets_eq (stored : ∀ asset ∈ assets, db.asset.lookup asset.1 = some asset.2)
    (options : Options) (requiredCreator : Option Bytes) :
    getRelatedForAssets db assets options requiredCreator =
      ((collectAssets db assets).filter (fun entry => listsCreator db requiredCreator entry.1)).map (fun entry =>
        (entry.1, relatedAsset db options (assets.map Prod.fst) entry.1 entry.2)) := by
  have bare : ∀ entry ∈ collectAssets db assets, entry.2.tokenInfo = none ∧ entry.2.authorities = [] ∧
      entry.2.creators = [] ∧ entry.2.inscription = none ∧ entry.2.groups = [] := by
    intro entry member
    rw [collectAssets_eq stored] at member
    obtain ⟨id, -, isEntry⟩ := List.mem_filterMap.mp member
    obtain ⟨full, found, rfl⟩ := Option.map_eq_some_iff.mp isEntry
    obtain ⟨asset, -, more⟩ := Option.bind_eq_some_iff.mp found
    obtain ⟨data, -, rfl⟩ := Option.map_eq_some_iff.mp more
    exact ⟨rfl, rfl, rfl, rfl, rfl⟩
  have creators : addCreators db (collectAssets db assets) = (collectAssets db assets).map (fun entry =>
      (entry.1, { entry.2 with creators := shownCreators db entry.1 })) := by
    rw [addCreators_eq]
    refine List.map_congr_left (fun entry member => ?_)
    rw [(bare entry member).2.2.1]
    rfl
  have retained : retainCreator requiredCreator (addCreators db (collectAssets db assets)) =
      ((collectAssets db assets).filter (fun entry => listsCreator db requiredCreator entry.1)).map (fun entry =>
        (entry.1, { entry.2 with creators := shownCreators db entry.1 })) := by
    rw [creators]
    cases requiredCreator with
    | none =>
      have all : (collectAssets db assets).filter (fun entry => listsCreator db none entry.1) =
          collectAssets db assets := List.filter_eq_self.mpr (fun _ _ => rfl)
      rw [all]
      rfl
    | some required =>
      rw [retainCreator, List.filter_map]
      rfl
  unfold getRelatedForAssets
  dsimp only
  rw [retained, addAuthorities_eq, addTokens_eq, addInscriptions_eq, addGroups_eq, List.map_map, List.map_map,
    List.map_map, List.map_map]
  refine List.map_congr_left (fun entry member => ?_)
  obtain ⟨token, authorities, -, inscription, groups⟩ := bare entry (List.mem_filter.mp member).1
  simp only [Function.comp_apply, relatedAsset, token, authorities, inscription, groups, List.nil_append,
    Option.or_none]

/-- Assets refer to no row of `asset_data` but their own. -/
def LinkedToOwn (db : Db) : Prop :=
  ∀ id row dataId, db.asset.lookup id = some row → row.assetData = some dataId → dataId = id

theorem linkedToOwn_iff : LinkedToOwn db ↔
    ∀ entry ∈ db.asset.entries, ∀ dataId ∈ entry.2.assetData, dataId = entry.1 := by
  constructor
  · intro linked entry member dataId link
    exact linked entry.1 entry.2 dataId (AList.mem_lookup_iff.mpr member) link
  · intro linked id row dataId stored link
    exact linked ⟨id, row⟩ (AList.mem_lookup_iff.mp stored) dataId link

instance : Decidable (LinkedToOwn db) := decidable_of_iff _ linkedToOwn_iff.symm

/-- The asset has its row of `asset_data`. -/
def hasData (db : Db) (id : Pubkey) : Bool :=
  ((db.asset.lookup id).bind (fun asset => asset.assetData.bind (fun dataId => db.assetData.lookup dataId))).isSome

theorem bareAsset_isSome (linked : LinkedToOwn db) {ids : List Pubkey} {id : Pubkey} (member : id ∈ ids) :
    (bareAsset db ids id).isSome = hasData db id := by
  rw [bareAsset, hasData]
  cases stored : db.asset.lookup id with
  | none => rfl
  | some asset =>
    rw [Option.bind_some, Option.bind_some]
    cases link : asset.assetData with
    | none => rfl
    | some dataId =>
      have own := linked id asset dataId stored link
      subst own
      rw [Option.filter_some, if_pos (decide_eq_true member), Option.bind_some, Option.isSome_map]

/-- A listing shows of its page the assets that have their data and still list
the required creator, each once. -/
theorem getRelatedForAssets_ids (linked : LinkedToOwn db)
    (stored : ∀ asset ∈ assets, db.asset.lookup asset.1 = some asset.2) (options : Options)
    (requiredCreator : Option Bytes) :
    (getRelatedForAssets db assets options requiredCreator).map Prod.fst =
      Paging.shown (fun id => hasData db id && listsCreator db requiredCreator id) (assets.map Prod.fst) := by
  have withData : (assets.map Prod.fst).filter (fun id => (bareAsset db (assets.map Prod.fst) id).isSome) =
      (assets.map Prod.fst).filter (hasData db) :=
    List.filter_congr (fun id member => bareAsset_isSome linked member)
  have collected : (collectAssets db assets).map Prod.fst = ((assets.map Prod.fst).filter (hasData db)).eraseDups := by
    rw [collectAssets_eq stored, withData, List.map_filterMap]
    refine (List.filterMap_congr (g := some) (fun id member => ?_)).trans List.filterMap_some
    obtain ⟨inPage, found⟩ := List.mem_filter.mp (List.mem_eraseDups.mp member)
    obtain ⟨full, isFull⟩ := Option.isSome_iff_exists.mp ((bareAsset_isSome linked inPage).trans found)
    rw [isFull]
    rfl
  have both : (assets.map Prod.fst).filter (fun id => hasData db id && listsCreator db requiredCreator id) =
      ((assets.map Prod.fst).filter (hasData db)).filter (listsCreator db requiredCreator) := by
    rw [List.filter_filter]
    exact List.filter_congr (fun id _ => Bool.and_comm _ _)
  rw [getRelatedForAssets_eq stored, List.map_map, Paging.shown, both, ← IndexMap.filter_eraseDups, ← collected,
    List.filter_map]
  rfl

/-- The row of a listed asset is the stored one. -/
theorem getRelatedForAssets_asset (stored : ∀ asset ∈ assets, db.asset.lookup asset.1 = some asset.2)
    {options : Options} {requiredCreator : Option Bytes} {entry : Pubkey × FullAsset}
    (member : entry ∈ getRelatedForAssets db assets options requiredCreator) :
    db.asset.lookup entry.1 = some entry.2.asset := by
  rw [getRelatedForAssets_eq stored] at member
  obtain ⟨before, inMap, rfl⟩ := List.mem_map.mp member
  have inCollected := (List.mem_filter.mp inMap).1
  rw [collectAssets_eq stored] at inCollected
  obtain ⟨id, -, isEntry⟩ := List.mem_filterMap.mp inCollected
  obtain ⟨full, found, rfl⟩ := Option.map_eq_some_iff.mp isEntry
  obtain ⟨asset, isStored, more⟩ := Option.bind_eq_some_iff.mp found
  obtain ⟨data, -, rfl⟩ := Option.map_eq_some_iff.mp more
  exact isStored

end Listed

end DasIndexer
