import DasIndexer.Api.OneAsset
import DasIndexer.Lib.Neighbours

namespace DasIndexer
open Sql Rpc Neighbours

section Found
variable (db : ReadDb) (keys : List Pubkey) (options : Options)

/-- The assets with one of the ids and a positive supply. -/
def suppliedAssets : List (Pubkey × AssetRow) :=
  db.assets.filter (fun asset => decide (asset.1 ∈ keys) && decide (0 < asset.2.supply))

def suppliedIds : List Pubkey := (suppliedAssets db keys).map Prod.fst

/-- The asset with an id as a request for several ids finds it. -/
def foundAsset (id : Pubkey) : Option FullAsset :=
  if id ∈ suppliedIds db keys then
    (bareAsset db.toDb (suppliedIds db keys) id).map (relatedAsset db.toDb options (suppliedIds db keys) id)
  else none

/-- The asset with an id as the response shows it, if it was found. -/
def shownAsset [Crates] (id : Pubkey) : Option Asset :=
  (foundAsset db keys options id).bind (fun full => (assetToRpc id full options).toOption)

theorem shownAsset_id [Crates] {id : Pubkey} {asset : Asset} (shown : shownAsset db keys options id = some asset) :
    asset.id = id.toBase58 := by
  obtain ⟨full, -, renders⟩ := Option.bind_eq_some_iff.mp shown
  cases result : assetToRpc id full options with
  | error problem =>
    rw [result] at renders
    cases renders
  | ok other =>
    rw [result] at renders
    cases renders
    exact assetToRpc_id options result

variable {db keys}

theorem mem_suppliedIds {id : Pubkey} : id ∈ suppliedIds db keys ↔
    id ∈ keys ∧ ∃ row, db.asset.lookup id = some row ∧ 0 < row.supply := by
  simp only [suppliedIds, suppliedAssets, List.mem_map, List.mem_filter, Bool.and_eq_true, decide_eq_true_eq]
  constructor
  · rintro ⟨asset, ⟨inTable, asked, positive⟩, rfl⟩
    exact ⟨asked, asset.2, mem_assets.mp inTable, positive⟩
  · rintro ⟨asked, row, stored, positive⟩
    exact ⟨(id, row), ⟨mem_assets.mpr stored, asked, positive⟩, rfl⟩

theorem suppliedAssets_stored : ∀ asset ∈ suppliedAssets db keys, db.asset.lookup asset.1 = some asset.2 :=
  fun _ member => mem_assets.mp (List.mem_filter.mp member).1

/-- There are no more assets than ids. -/
theorem suppliedAssets_length : (suppliedAssets db keys).length ≤ keys.length := by
  have distinct : (suppliedIds db keys).Nodup := by
    have part : (suppliedIds db keys).Sublist (db.assets.map Prod.fst) := List.filter_sublist.map Prod.fst
    have all : db.assets.map Prod.fst = db.asset.keys := by
      rw [Db.assets, List.map_map]
      rfl
    rw [all] at part
    exact db.asset.keys_nodup.sublist part
  have asked : suppliedIds db keys ⊆ keys := fun id member => (mem_suppliedIds.mp member).1
  have count := (List.subperm_of_subset distinct asked).length_le
  rwa [suppliedIds, List.length_map] at count

theorem findAssets_many (limit : Nat) (enough : keys.length ≤ limit) :
    findAssets db (idsCondition keys) [] none .asc (.page 1) limit = .ok (suppliedAssets db keys) := by
  have found : findAssets db (idsCondition keys) [] none .asc (.page 1) limit =
      .ok (((((db.assets.map (fun asset => ({ asset } : Joined))).filter
        (assetSelect db (idsCondition keys) [] none .asc).keeps).drop (0 * limit)).take limit).map Joined.asset) := rfl
  have kept : (db.assets.map (fun asset => ({ asset } : Joined))).filter
      (assetSelect db (idsCondition keys) [] none .asc).keeps =
      (suppliedAssets db keys).map (fun asset => ({ asset } : Joined)) := by
    rw [List.filter_map, suppliedAssets]
    refine congrArg (List.map _) (List.filter_congr (fun asset _ => ?_))
    simp [Select.keeps, assetSelect, idsCondition, supplied]
  have short : (suppliedAssets db keys).length ≤ limit := suppliedAssets_length.trans enough
  rw [found, kept, Nat.zero_mul, List.drop_zero, List.take_of_length_le (by rwa [List.length_map]), List.map_map]
  exact congrArg Except.ok (List.map_id _)

theorem getAssets_many (limit : Nat) (enough : keys.length ≤ limit) : getAssets db keys (.page 1) limit options =
    .ok (getRelatedForAssets db.toDb (suppliedAssets db keys) options none) := by
  rw [getAssets, getAssetsByCondition, findAssets_many limit enough]
  rfl

theorem mem_related {id : Pubkey} {full : FullAsset} :
    (id, full) ∈ getRelatedForAssets db.toDb (suppliedAssets db keys) options none ↔
      foundAsset db keys options id = some full := by
  rw [getRelatedForAssets_eq suppliedAssets_stored, collectAssets_eq suppliedAssets_stored]
  show (id, full) ∈ ((((suppliedIds db keys).filter (fun id => (bareAsset db.toDb (suppliedIds db keys) id).isSome)).eraseDups.filterMap
    (fun id => (bareAsset db.toDb (suppliedIds db keys) id).map (fun full => (id, full)))).filter (fun _ => true)).map
      (fun entry => (entry.1, relatedAsset db.toDb options (suppliedIds db keys) entry.1 entry.2)) ↔ _
  rw [List.filter_true, List.mem_map, foundAsset]
  constructor
  · rintro ⟨entry, member, same⟩
    obtain ⟨other, inIds, isEntry⟩ := List.mem_filterMap.mp member
    obtain ⟨bare, isBare, rfl⟩ := Option.map_eq_some_iff.mp isEntry
    cases same
    rw [if_pos (List.mem_filter.mp (List.mem_eraseDups.mp inIds)).1, isBare]
    rfl
  · intro found
    split at found
    · rename_i inIds
      obtain ⟨bare, isBare, rfl⟩ := Option.map_eq_some_iff.mp found
      refine ⟨(id, bare), List.mem_filterMap.mpr ⟨id, List.mem_eraseDups.mpr (List.mem_filter.mpr ⟨inIds, ?_⟩), ?_⟩, rfl⟩
      · rw [isBare]
        rfl
      · rw [isBare]
        rfl
    · cases found

/-- The rendered assets under their ids. -/
theorem items_underIds [Crates] (assets : List (Pubkey × FullAsset)) :
    (assetListToRpc assets options).1.foldl (fun map asset => IndexMap.insert asset.id asset map) [] =
      assets.foldl (fun map entry =>
        IndexMap.insertSome entry.1.toBase58 (assetToRpc entry.1 entry.2 options).toOption map) [] := by
  induction assets using List.reverseRecOn with
  | nil => rfl
  | append_singleton before last ih =>
    rw [List.foldl_concat, ← ih]
    cases result : assetToRpc last.1 last.2 options with
    | error problem =>
      rw [assetListToRpc_concat_error options result]
      rfl
    | ok asset =>
      rw [assetListToRpc_concat_ok options result, List.foldl_concat, assetToRpc_id options result]
      rfl

/-- The map from ids to assets has what was found and can be rendered. -/
theorem getAssetMap_lookup [Crates] (limit : Nat) (enough : keys.length ≤ limit) :
    ∃ map, getAssetMap db keys limit options = .ok map ∧
      ∀ id : Pubkey, map.lookup id.toBase58 = shownAsset db keys options id := by
  rw [getAssetMap, getAssets_many options limit enough]
  refine ⟨_, rfl, fun id => ?_⟩
  show ((assetListToRpc _ options).1.foldl (fun map asset => IndexMap.insert asset.id asset map) []).lookup id.toBase58 = _
  have read : ∀ key : Pubkey, (Bytes32.ofBase58? key.toBase58).bind (shownAsset db keys options) =
      shownAsset db keys options key := by
    intro key
    rw [Bytes32.ofBase58?_toBase58]
    rfl
  rw [items_underIds, IndexMap.foldl_insertSome (fun text => (Bytes32.ofBase58? text).bind (shownAsset db keys options)),
    IndexMap.lookup_filterMap, read]
  · cases shown : shownAsset db keys options id with
    | none => exact ite_self none
    | some asset =>
      obtain ⟨full, found, -⟩ := Option.bind_eq_some_iff.mp shown
      refine if_pos (List.mem_eraseDups.mpr (List.mem_filter.mpr ⟨?_, ?_⟩))
      · exact List.mem_map_of_mem (f := fun entry : Pubkey × FullAsset => entry.1.toBase58)
          ((mem_related options).mpr found)
      · rw [read, shown]
        rfl
  · intro entry member
    rw [read, shownAsset, (mem_related options).mp member]
    rfl

end Found

/-- The request is answered with one entry for each id, in the order of first
occurrence, and refused when there are too many different ids. -/
def AnswersEachOnce [Crates] (db : ReadDb) (ids : List Address) (options : Option Options) : Prop :=
  requestAssets db (ids.map Address.text) options =
    if 1000 < (ids.map Address.key).eraseDups.length then .error .batchSizeExceededError
    else .ok ((ids.map Address.key).eraseDups.map (shownAsset db (ids.map Address.key) (options.getD {})))

section Answers
variable [Crates] {db : ReadDb} {ids : List Address} {options : Option Options}

omit [Crates] in
theorem Address.text_eq (address : Address) : address.text = address.key.toBase58 :=
  (Bytes32.toBase58_of address.reads).symm

omit [Crates] in
theorem suppliedAssets_congr {keys others : List Pubkey} (same : ∀ key, key ∈ keys ↔ key ∈ others) :
    suppliedAssets db keys = suppliedAssets db others := by
  rw [suppliedAssets, suppliedAssets]
  refine List.filter_congr (fun asset _ => ?_)
  rw [decide_eq_decide.mpr (same asset.1)]

theorem shownAsset_congr {keys others : List Pubkey} (same : ∀ key, key ∈ keys ↔ key ∈ others) (options : Options) :
    shownAsset db keys options = shownAsset db others options := by
  funext id
  rw [shownAsset, shownAsset, foundAsset, foundAsset, suppliedIds, suppliedIds, suppliedAssets_congr same]

omit [Crates] in
theorem validatePubkey_all (keys : List Pubkey) : (keys.map Bytes32.toBase58).mapM validatePubkey = .ok keys := by
  induction keys with
  | nil => rfl
  | cons key rest ih =>
    have read : validatePubkey key.toBase58 = .ok key := validatePubkey_address (.ofKey key)
    rw [List.map_cons, List.mapM_cons, read, ih]
    rfl

/-- The endpoint answers with an entry for each id that differs from the one before it. -/
theorem requestAssets_eq : requestAssets db (ids.map Address.text) options =
    if 1000 < ((ids.map Address.key).destutter (· ≠ ·)).length then .error .batchSizeExceededError
    else .ok (((ids.map Address.key).destutter (· ≠ ·)).map
      (shownAsset db (ids.map Address.key) (options.getD {}))) := by
  have spelled : ids.map Address.text = (ids.map Address.key).map Bytes32.toBase58 := by
    rw [List.map_map]
    exact List.map_congr_left (fun address _ => address.text_eq)
  have texts : (ids.map Address.text).destutter (· ≠ ·) =
      ((ids.map Address.key).destutter (· ≠ ·)).map Bytes32.toBase58 := by
    rw [spelled]
    exact (List.map_destutter_ne _ (fun _ _ same => Bytes32.toBase58_injective same)).symm
  obtain ⟨map, found, entries⟩ := @getAssetMap_lookup db ((ids.map Address.key).destutter (· ≠ ·))
    (options.getD {}) _ _ (le_refl _)
  have same : shownAsset db ((ids.map Address.key).destutter (· ≠ ·)) (options.getD {}) =
      shownAsset db (ids.map Address.key) (options.getD {}) := shownAsset_congr (fun key => mem_destutter) _
  rw [same] at entries
  rw [requestAssets, texts]
  simp only [List.length_map, validatePubkey_all, bind, Except.bind, found]
  split
  · rfl
  · show Except.ok _ = _
    rw [List.map_map]
    exact congrArg Except.ok (List.map_congr_left (fun key _ => entries key))

theorem answersEachOnce_iff : AnswersEachOnce db ids options ↔
    1000 < (ids.map Address.key).eraseDups.length ∨ Grouped (ids.map Address.key) := by
  have fewer : (ids.map Address.key).eraseDups.length ≤ ((ids.map Address.key).destutter (· ≠ ·)).length :=
    length_eraseDups_le
  rw [AnswersEachOnce, requestAssets_eq]
  by_cases tooMany : 1000 < (ids.map Address.key).eraseDups.length
  · rw [if_pos tooMany, if_pos (by omega)]
    exact iff_of_true rfl (.inl tooMany)
  · rw [if_neg tooMany, or_iff_right tooMany]
    constructor
    · intro answers
      split at answers
      · cases answers
      · have counts := congrArg List.length (Except.ok.inj answers)
        rw [List.length_map, List.length_map] at counts
        exact length_destutter_eq_iff.mp counts
    · intro grouped
      rw [destutter_eq_eraseDups grouped, if_neg tooMany]

end Answers

/-- `getAssets` answers each id once exactly when no id comes again after another
one, or when there are too many different ids. -/
theorem getAssets_answers_iff [Crates] (db : ReadDb) (ids : List Address) (options : Option Options) :
    AnswersEachOnce db ids options ↔
      1000 < (ids.map Address.key).eraseDups.length ∨ Grouped (ids.map Address.key) :=
  answersEachOnce_iff

namespace OneAsset.Example

/-- An id that comes again after another one is answered twice. -/
theorem repeated_id_answered_twice :
    ¬ @AnswersEachOnce .bare db [.ofKey (.fill 2), .ofKey (.fill 7), .ofKey (.fill 2)] none := by
  rw [@answersEachOnce_iff .bare]
  rintro (tooMany | grouped)
  · revert tooMany
    decide
  · have same := grouped (.fill 2) (.fill 7) (List.Sublist.refl _)
    revert same
    decide

end OneAsset.Example

end DasIndexer
