import DasIndexer.Api.Pages

namespace DasIndexer
open Sql Rpc

/-- The endpoints that list assets; a search is one with the default
conditions. -/
inductive Listing where
  | byOwner (owner : Address)
  | byGroup (groupKey : String) (groupValue : Address)
  | byCreator (creator : Address) (onlyVerified : Option Bool)
  | byAuthority (authority : Address)
  | search

namespace Listing

def request [Crates] [Postgres] (db : ReadDb) : Listing → ListRequest → Except DasApiError AssetList
  | byOwner owner => requestAssetsByOwner db owner.text
  | byGroup groupKey groupValue => requestAssetsByGroup db groupKey groupValue.text
  | byCreator creator onlyVerified => requestAssetsByCreator db creator.text onlyVerified
  | byAuthority authority => requestAssetsByAuthority db authority.text
  | search => requestSearchAssets db {}

/-- The asset matches the filter of the endpoint. -/
def Matches (db : ReadDb) (options : Options) (listing : Listing) (id : Pubkey) : Prop :=
  ∃ row, db.asset.lookup id = some row ∧ match listing with
    | byOwner owner => row.owner = some owner.key.bytes ∧ 0 < row.supply
    | byGroup groupKey groupValue => (∃ group, db.assetGrouping.lookup (id, groupKey) = some group ∧
        group.groupValue = some groupValue.text ∧
        (options.showUnverifiedCollections = true ∨ group.verified = true)) ∧ 0 < row.supply
    | byCreator creator onlyVerified => (∃ position c, db.assetCreators.lookup (id, position) = some c ∧
        c.creator = creator.key.bytes ∧ (onlyVerified = some true → c.verified = true)) ∧ 0 < row.supply
    | byAuthority authority => (∃ a, db.assetAuthority.lookup id = some a ∧
        a.authority = authority.key.bytes) ∧ 0 < row.supply
    | search => (row.supply ≠ 0 ∨ row.burnt = true) ∧ row.ownerType = .single ∧ row.supply ≤ 1

/-- The creator that an asset must still list. -/
def requiredCreator : Listing → Option Bytes
  | byCreator creator _ => some creator.key.bytes
  | _ => none

/-- The asset has its row of `asset_data` and still lists the creator asked
for. -/
def keeps (db : ReadDb) (listing : Listing) (id : Pubkey) : Bool :=
  hasData db.toDb id && listsCreator db.toDb listing.requiredCreator id

def condition (options : Options) : Listing → Joined → Truth
  | byOwner owner => ownerCondition owner.key.bytes
  | byGroup groupKey groupValue => groupCondition groupKey groupValue.text options
  | byCreator creator onlyVerified => creatorCondition creator.key.bytes (onlyVerified.getD false)
  | byAuthority authority => authorityCondition authority.key.bytes
  | search => fun row => Truth.all (SearchAssetsQuery.terms row {})

def joins : Listing → List Relation
  | byOwner _ => []
  | byGroup _ _ => [.assetGrouping]
  | byCreator _ _ => [.assetCreators]
  | byAuthority _ => [.assetAuthority]
  | search => []

/-- The joined rows behind the listing, in the order of the ids. -/
def rows (db : ReadDb) (options : Options) (direction : Order) (listing : Listing) : List Pubkey :=
  matchingIds db (listing.condition options) listing.joins .id direction

section Filters
variable {db : ReadDb} {options : Options} {id : Pubkey}

theorem joins_nodup (listing : Listing) : listing.joins.Nodup := by
  cases listing with
  | byOwner | search => exact List.nodup_nil
  | byGroup | byCreator | byAuthority => exact List.nodup_singleton _

theorem mem_joined_nil {row : Joined} : row ∈ joined db.toDb [] ↔
    ∃ asset, db.asset.lookup row.asset.1 = some asset ∧ row = { asset := (row.asset.1, asset) } := by
  rw [joined, List.foldl_nil, List.mem_map]
  constructor
  · rintro ⟨asset, member, rfl⟩
    exact ⟨asset.2, mem_assets.mp member, rfl⟩
  · rintro ⟨asset, stored, isRow⟩
    exact ⟨(row.asset.1, asset), mem_assets.mpr stored, isRow.symm⟩

@[simp] theorem holds_supplied (row : Joined) : (supplied row).holds = decide (0 < row.asset.2.supply) := by
  simp [supplied]

/-- A condition that fails without a partner selects the assets with a partner
that it accepts. -/
theorem exists_leftJoin {E : Type} {entries : List E} {on : Joined → E → Bool} {put : Joined × Option E → Joined}
    {Q : Joined → Prop} (needsPartner : ∀ row, ¬ Q (put (row, none))) :
    (∃ row ∈ (leftJoin (db.assets.map (fun asset => ({ asset } : Joined))) entries on).map put, Q row) ↔
      ∃ asset ∈ db.assets, ∃ e ∈ entries, on { asset } e = true ∧ Q (put ({ asset }, some e)) := by
  constructor
  · rintro ⟨row, member, holds⟩
    obtain ⟨⟨left, partner⟩, inJoin, rfl⟩ := List.mem_map.mp member
    obtain ⟨inLeft, matched | alone⟩ := mem_leftJoin.mp inJoin
    · obtain ⟨e, inEntries, matching, isPartner⟩ := matched
      obtain ⟨asset, inAssets, isLeft⟩ := List.mem_map.mp inLeft
      dsimp only at isPartner isLeft
      subst isPartner isLeft
      exact ⟨asset, inAssets, e, inEntries, matching, holds⟩
    · obtain ⟨isPartner, -⟩ := alone
      dsimp only at isPartner
      subst isPartner
      exact absurd holds (needsPartner left)
  · rintro ⟨asset, inAssets, e, inEntries, matching, holds⟩
    refine ⟨_, List.mem_map.mpr ⟨({ asset }, some e), mem_leftJoin.mpr ⟨?_, Or.inl ⟨e, inEntries, matching, rfl⟩⟩, rfl⟩,
      holds⟩
    exact List.mem_map.mpr ⟨asset, inAssets, rfl⟩

theorem holds_ownerCondition {owner : Bytes} {row : Joined} : (ownerCondition owner row).holds = true ↔
    row.asset.2.owner = some owner ∧ 0 < row.asset.2.supply := by
  simp [ownerCondition]

theorem holds_groupCondition {groupKey groupValue : String} {row : Joined} :
    (groupCondition groupKey groupValue options row).holds = true ↔
      (∃ group, row.grouping = some (groupKey, group) ∧ group.groupValue = some groupValue ∧
        (options.showUnverifiedCollections = true ∨ group.verified = true)) ∧ 0 < row.asset.2.supply := by
  rw [groupCondition, Truth.holds_and, Bool.and_eq_true, holds_supplied, decide_eq_true_eq]
  refine and_congr_left (fun _ => ?_)
  rcases row.grouping with _ | ⟨key, group⟩
  · cases options.showUnverifiedCollections with
    | true | false => simp
  · cases options.showUnverifiedCollections with
    | true => simp
    | false => simp [and_assoc]

theorem holds_creatorCondition {creator : Bytes} {onlyVerified : Bool} {row : Joined} :
    (creatorCondition creator onlyVerified row).holds = true ↔
      (∃ c, row.creator = some c ∧ c.creator = creator ∧ (onlyVerified = true → c.verified = true)) ∧
        0 < row.asset.2.supply := by
  rw [creatorCondition]
  cases row.creator with
  | none =>
    cases onlyVerified with
    | true | false => simp
  | some c =>
    cases onlyVerified with
    | false => simp
    | true =>
      simp
      tauto

theorem holds_authorityCondition {authority : Bytes} {row : Joined} :
    (authorityCondition authority row).holds = true ↔
      (∃ a, row.authority = some a ∧ a.authority = authority) ∧ 0 < row.asset.2.supply := by
  rw [authorityCondition]
  cases row.authority with
  | none => simp
  | some a => simp

theorem holds_searchCondition {row : Joined} : (Truth.all (SearchAssetsQuery.terms row {})).holds = true ↔
    (row.asset.2.supply ≠ 0 ∨ row.asset.2.burnt = true) ∧ row.asset.2.ownerType = .single ∧
      row.asset.2.supply ≤ 1 := by
  have terms : SearchAssetsQuery.terms row {} =
      [SearchAssetsQuery.supplyTerm row {}, SearchAssetsQuery.ownerTypeTerm row {}] := by
    delta SearchAssetsQuery.terms
    simp
  have supply : SearchAssetsQuery.supplyTerm row {} =
      (Sql.ne (some row.asset.2.supply) (some 0) ||| Sql.eq (some row.asset.2.burnt) (some true)) := rfl
  have ownerType : SearchAssetsQuery.ownerTypeTerm row {} =
      (Sql.eq (some row.asset.2.ownerType) (some .single) &&& Sql.le (some row.asset.2.supply) (some 1)) := rfl
  rw [terms, Truth.holds_all, List.all_cons, List.all_cons, List.all_nil, supply, ownerType]
  simp [Sql.le, Sql.compare]

/-- The joined rows that satisfy the condition are those of the assets that
match. -/
theorem mem_rows_iff (listing : Listing) (direction : Order) :
    id ∈ listing.rows db options direction ↔ listing.Matches db options id := by
  rw [rows, mem_matchingIds]
  cases listing with
  | byOwner owner =>
    constructor
    · rintro ⟨row, member, rfl, holds⟩
      exact ⟨row.asset.2, joined_stored member, holds_ownerCondition.mp holds⟩
    · rintro ⟨row, stored, filter⟩
      exact ⟨{ asset := (id, row) }, mem_joined_nil.mpr ⟨row, stored, rfl⟩, rfl, holds_ownerCondition.mpr filter⟩
  | search =>
    constructor
    · rintro ⟨row, member, rfl, holds⟩
      exact ⟨row.asset.2, joined_stored member, holds_searchCondition.mp holds⟩
    · rintro ⟨row, stored, filter⟩
      exact ⟨{ asset := (id, row) }, mem_joined_nil.mpr ⟨row, stored, rfl⟩, rfl, holds_searchCondition.mpr filter⟩
  | byGroup groupKey groupValue =>
    refine (exists_leftJoin (fun row holds => ?_)).trans ?_
    · obtain ⟨⟨group, isGroup, -⟩, -⟩ := holds_groupCondition.mp holds.2
      cases isGroup
    · constructor
      · rintro ⟨asset, inAssets, entry, inEntries, matching, rfl, holds⟩
        obtain ⟨⟨group, isGroup, filter⟩, positive⟩ := holds_groupCondition.mp holds
        cases isGroup
        have sameId : asset.1 = entry.1.1 := of_decide_eq_true matching
        refine ⟨asset.2, mem_assets.mp inAssets, ⟨entry.2, ?_, filter⟩, positive⟩
        have found := AList.mem_lookup_iff.mpr inEntries
        show db.assetGrouping.lookup (asset.1, entry.1.2) = some entry.2
        rwa [sameId]
      · rintro ⟨row, stored, ⟨group, found, filter⟩, positive⟩
        exact ⟨(id, row), mem_assets.mpr stored, ⟨(id, groupKey), group⟩, AList.mem_lookup_iff.mp found,
          decide_eq_true rfl, rfl, holds_groupCondition.mpr ⟨⟨group, rfl, filter⟩, positive⟩⟩
  | byCreator creator onlyVerified =>
    refine (exists_leftJoin (fun row holds => ?_)).trans ?_
    · obtain ⟨⟨c, isCreator, -⟩, -⟩ := holds_creatorCondition.mp holds.2
      cases isCreator
    · constructor
      · rintro ⟨asset, inAssets, entry, inEntries, matching, rfl, holds⟩
        obtain ⟨⟨c, isCreator, same, verified⟩, positive⟩ := holds_creatorCondition.mp holds
        cases isCreator
        have sameId : asset.1 = entry.1.1 := of_decide_eq_true matching
        refine ⟨asset.2, mem_assets.mp inAssets, ⟨entry.1.2, entry.2, ?_, same, fun only => verified ?_⟩, positive⟩
        · have found := AList.mem_lookup_iff.mpr inEntries
          rwa [sameId]
        · rw [only]
          rfl
      · rintro ⟨row, stored, ⟨position, c, found, same, verified⟩, positive⟩
        refine ⟨(id, row), mem_assets.mpr stored, ⟨(id, position), c⟩, AList.mem_lookup_iff.mp found,
          decide_eq_true rfl, rfl, holds_creatorCondition.mpr ⟨⟨c, rfl, same, fun only => verified ?_⟩, positive⟩⟩
        cases onlyVerified with
        | none => cases only
        | some value => exact congrArg some only
  | byAuthority authority =>
    refine (exists_leftJoin (fun row holds => ?_)).trans ?_
    · obtain ⟨⟨a, isAuthority, -⟩, -⟩ := holds_authorityCondition.mp holds.2
      cases isAuthority
    · constructor
      · rintro ⟨asset, inAssets, entry, inEntries, matching, rfl, holds⟩
        obtain ⟨⟨a, isAuthority, same⟩, positive⟩ := holds_authorityCondition.mp holds
        cases isAuthority
        have sameId : asset.1 = entry.1 := of_decide_eq_true matching
        refine ⟨asset.2, mem_assets.mp inAssets, ⟨entry.2, ?_, same⟩, positive⟩
        have found := AList.mem_lookup_iff.mpr inEntries
        rwa [sameId]
      · rintro ⟨row, stored, ⟨a, found, same⟩, positive⟩
        exact ⟨(id, row), mem_assets.mpr stored, ⟨id, a⟩, AList.mem_lookup_iff.mp found, decide_eq_true rfl, rfl,
          holds_authorityCondition.mpr ⟨⟨a, rfl, same⟩, positive⟩⟩

end Filters

section Answers
variable [Crates] [Postgres] {db : ReadDb} {options : Options} {limit : Nat} {sorting : Option AssetSortDirection}
  {cursor : Option String} {key : Cursor}

/-- A request sorted by id, from a cursor on. -/
def fromCursor (options : Options) (limit : Nat) (sorting : Option AssetSortDirection) (cursor : Option String) :
    ListRequest :=
  { sortBy := some ⟨.id, sorting⟩, limit := some limit, cursor, options := some options }

def directionOf (sorting : Option AssetSortDirection) : Order := (createSorting ⟨.id, sorting⟩).1

/-- The assets behind one answer. -/
def page (db : ReadDb) (options : Options) (limit : Nat) (direction : Order) (listing : Listing)
    (cursor : Option String) : Except DasApiError (List (Pubkey × FullAsset)) := do
  let key ← getCursor cursor
  ((findAssets db (listing.condition options) listing.joins (some .id) direction (.cursor key) limit).map
    (fun assets => getRelatedForAssets db.toDb assets options listing.requiredCreator)).mapError .databaseError

omit [Crates] [Postgres] in
theorem validatePagination_cursor (accepted : limit ≤ 1000) (read : getCursor cursor = .ok key) :
    validatePagination (some limit) none none none cursor (some ⟨.id, sorting⟩) =
      .ok { limit, cursor := some key } := by
  have small : ¬ 1000 < limit := Nat.not_lt.mpr accepted
  simp [validatePagination, validateKeyset, read, small]
  rfl

omit [Postgres] in
theorem answerListing_cursor {scope : Scope} {assets : List (Pubkey × FullAsset)} (accepted : limit ≤ 1000)
    (read : getCursor cursor = .ok key)
    (found : scope (some .id) (directionOf sorting) (.cursor key) limit options = .ok assets) :
    answerListing scope (fromCursor options limit sorting cursor) =
      .ok (buildAssetResponse assets limit (.cursor {}) options) := by
  have valid := @validatePagination_cursor limit sorting cursor key accepted read
  unfold answerListing fromCursor
  dsimp only [Option.getD_some]
  rw [valid]
  show (listAssets scope ⟨.id, sorting⟩ { limit, cursor := some key } options).mapError DasApiError.databaseError = _
  have listed : listAssets scope ⟨.id, sorting⟩ { limit, cursor := some key } options =
      (scope (some .id) (directionOf sorting) (.cursor key) limit options).map
        (fun assets => buildAssetResponse assets limit (.cursor {}) options) := rfl
  rw [listed, found]
  rfl

omit [Crates] in
theorem default_conditions : SearchAssetsQuery.conditions {} =
    .ok (fun row => Truth.all (SearchAssetsQuery.terms row {}), []) := by
  have built : SearchAssetsQuery.conditions {} =
      .ok (fun row => Truth.all (SearchAssetsQuery.terms row {} ++ []), []) := rfl
  rw [built]
  simp only [List.append_nil]

theorem request_fromCursor (listing : Listing) {assets : List (Pubkey × FullAsset)} (accepted : limit ≤ 1000)
    (found : listing.page db options limit (directionOf sorting) cursor = .ok assets) :
    listing.request db (fromCursor options limit sorting cursor) =
      .ok (buildAssetResponse assets limit (.cursor {}) options) := by
  cases read : getCursor cursor with
  | error problem =>
    rw [page, read] at found
    cases found
  | ok key =>
    have isFound : (findAssets db (listing.condition options) listing.joins (some .id) (directionOf sorting)
        (.cursor key) limit).map (fun assets =>
          getRelatedForAssets db.toDb assets options listing.requiredCreator) = .ok assets := by
      rw [page, read] at found
      cases result : (findAssets db (listing.condition options) listing.joins (some .id) (directionOf sorting)
          (.cursor key) limit).map (fun assets =>
            getRelatedForAssets db.toDb assets options listing.requiredCreator) with
      | error problem =>
        simp only [bind, Except.bind, result] at found
        cases found
      | ok assets =>
        simp only [bind, Except.bind, result] at found
        cases found
        rfl
    cases listing with
    | byOwner owner =>
      rw [request, requestAssetsByOwner, validatePubkey_address]
      exact answerListing_cursor accepted read isFound
    | byGroup groupKey groupValue =>
      rw [request, requestAssetsByGroup, validatePubkey_address]
      exact answerListing_cursor accepted read isFound
    | byCreator creator onlyVerified =>
      rw [request, requestAssetsByCreator, validatePubkey_address]
      exact answerListing_cursor accepted read isFound
    | byAuthority authority =>
      rw [request, requestAssetsByAuthority, validatePubkey_address]
      exact answerListing_cursor accepted read isFound
    | search =>
      have empty : SearchAssets.query {} = .ok {} := rfl
      rw [request, requestSearchAssets, empty]
      refine answerListing_cursor accepted read ?_
      rw [searchScope, default_conditions]
      exact isFound

end Answers

section Complete

/-- The answers together yield, in the order of the ids and without repetition,
exactly the assets that match, have their data and still list the creator. -/
def Complete (db : ReadDb) (options : Options) (direction : Order) (listing : Listing) (answers : List AssetList) :
    Prop :=
  ∃ ids : List Pubkey, ids.Pairwise (sortsBefore db .id direction) ∧
    (∀ id, id ∈ ids ↔ listing.Matches db options id ∧ listing.keeps db id = true) ∧
    answers.flatMap (fun answer => answer.items.map Asset.id) =
      (ids.filter (rendered db)).map Bytes32.toBase58 ∧
    answers.flatMap (fun answer => answer.errors.map DasError.id) =
      (ids.filter (fun id => !rendered db id)).map Bytes32.toBase58

variable {db : ReadDb} (options : Options) (limit : Nat) {direction : Order}

theorem getCursor_key (cursor : Option Pubkey) :
    getCursor (cursor.map Bytes32.toBase58) = .ok ⟨cursor.map Bytes32.bytes⟩ := by
  cases cursor with
  | none => rfl
  | some key => rw [Option.map_some, getCursor, Bytes32.toBase58, bs58Decode_encode, Option.map_some]

/-- The pages are those of a keyset over the joined rows. -/
theorem page_keyset (linked : LinkedToOwn db.toDb) (listing : Listing) :
    Paging.AnswersKeyset (listing.keeps db) limit (sortsBefore db .id direction) (listing.rows db options direction)
      Bytes32.toBase58 (listing.page db options limit direction)
      (fun assets => assets.getLast?.map (fun entry => entry.1.toBase58)) (fun assets => assets.map Prod.fst) := by
  intro cursor
  obtain ⟨found, isFound, ids⟩ :=
    findAssets_cursor db (listing.condition options) direction limit listing.joins_nodup cursor
  have stored := findAssets_stored db _ _ _ _ isFound
  refine ⟨_, by rw [page, getCursor_key]; simp only [bind, Except.bind, isFound]; rfl, ?_, ?_⟩
  · show (getRelatedForAssets db.toDb found options listing.requiredCreator).map Prod.fst = _
    rw [getRelatedForAssets_ids linked stored, ids]
    rfl
  · rw [List.getLast?_map, Option.map_map]
    rfl

variable {options limit} in
theorem page_renders (listing : Listing) {cursor : Option String} {assets : List (Pubkey × FullAsset)}
    (found : listing.page db options limit direction cursor = .ok assets) :
    ∀ entry ∈ assets, Renders entry.2 = rendered db entry.1 := by
  intro entry member
  cases read : getCursor cursor with
  | error problem =>
    rw [page, read] at found
    cases found
  | ok key =>
    rw [page, read] at found
    cases result : findAssets db (listing.condition options) listing.joins (some .id) direction (.cursor key) limit with
    | error problem =>
      simp only [bind, Except.bind, result] at found
      cases found
    | ok rows =>
      simp only [bind, Except.bind, result] at found
      cases found
      exact related_renders (findAssets_stored db _ _ _ _ result) entry member

/-- The items and the errors of the answers are the assets of the pages, in
their order. -/
theorem items_of_pages [Crates] {pages : List (List (Pubkey × FullAsset))} (pagination : Pagination)
    (renders : ∀ assets ∈ pages, ∀ entry ∈ assets, Renders entry.2 = rendered db entry.1) :
    (pages.map (fun assets => buildAssetResponse assets limit pagination options)).flatMap
        (fun answer => answer.items.map Asset.id) =
      ((pages.flatMap (fun assets => assets.map Prod.fst)).filter (rendered db)).map Bytes32.toBase58 ∧
    (pages.map (fun assets => buildAssetResponse assets limit pagination options)).flatMap
        (fun answer => answer.errors.map DasError.id) =
      ((pages.flatMap (fun assets => assets.map Prod.fst)).filter (fun id => !rendered db id)).map
        Bytes32.toBase58 := by
  induction pages with
  | nil => exact ⟨rfl, rfl⟩
  | cons assets rest ih =>
    obtain ⟨itemsRest, errorsRest⟩ := ih (fun later member => renders later (List.mem_cons_of_mem _ member))
    obtain ⟨items, errors⟩ := items_of_page options limit (renders assets List.mem_cons_self) pagination
    rw [List.map_cons, List.flatMap_cons, List.flatMap_cons, List.flatMap_cons, itemsRest, errorsRest, items,
      errors, List.filter_append, List.filter_append, List.map_append, List.map_append]
    exact ⟨rfl, rfl⟩

/-- A first part of a list with the same items and the same errors is all of
it. -/
theorem eq_of_prefix_of_filters {ids others : List Pubkey} (isPart : ids <+: others)
    (items : (ids.filter (rendered db)).map Bytes32.toBase58 =
      (others.filter (rendered db)).map Bytes32.toBase58)
    (errors : (ids.filter (fun id => !rendered db id)).map Bytes32.toBase58 =
      (others.filter (fun id => !rendered db id)).map Bytes32.toBase58) : ids = others := by
  refine isPart.eq_of_length ?_
  have shownItems := congrArg List.length items
  have shownErrors := congrArg List.length errors
  rw [List.length_map, List.length_map] at shownItems shownErrors
  have split := @List.length_eq_length_filter_add _ ids (rendered db)
  have splitOther := @List.length_eq_length_filter_add _ others (rendered db)
  omega

/-- The assets of the answers are those that the pages keep. -/
theorem complete_iff [Crates] (listing : Listing) {pages : List (List (Pubkey × FullAsset))}
    (pagination : Pagination)
    (renders : ∀ assets ∈ pages, ∀ entry ∈ assets, Renders entry.2 = rendered db entry.1)
    (isPart : pages.flatMap (fun assets => assets.map Prod.fst) <+:
      Paging.shown (listing.keeps db) (listing.rows db options direction)) :
    listing.Complete db options direction
        (pages.map (fun assets => buildAssetResponse assets limit pagination options)) ↔
      pages.flatMap (fun assets => assets.map Prod.fst) =
        Paging.shown (listing.keeps db) (listing.rows db options direction) := by
  have sorted := matchingIds_sorted db (listing.condition options) listing.joins .id direction
  have ordered : (Paging.shown (listing.keeps db) (listing.rows db options direction)).Pairwise
      (sortsBefore db .id direction) := Paging.shown_pairwise (listing.keeps db) sorted
  have members : ∀ id, id ∈ Paging.shown (listing.keeps db) (listing.rows db options direction) ↔
      listing.Matches db options id ∧ listing.keeps db id = true := by
    intro id
    rw [Paging.mem_shown, mem_rows_iff]
  obtain ⟨items, errors⟩ := items_of_pages options limit pagination renders
  rw [Complete, items, errors]
  constructor
  · rintro ⟨ids, idsOrdered, idsMembers, sameItems, sameErrors⟩
    have isShown : ids = Paging.shown (listing.keeps db) (listing.rows db options direction) :=
      Paging.eq_of_same_members idsOrdered ordered (fun id => (idsMembers id).trans (members id).symm)
    rw [isShown] at sameItems sameErrors
    exact eq_of_prefix_of_filters isPart sameItems sameErrors
  · intro all
    exact ⟨_, ordered, members, by rw [all], by rw [all]⟩

variable {options limit} in
theorem request_refused [Crates] [Postgres] (listing : Listing) {sorting : Option AssetSortDirection}
    (refused : 1000 < limit) (cursor : Option String) :
    listing.request db (fromCursor options limit sorting cursor) = .error .paginationExceededError := by
  have exceeded : validatePagination (some limit) none none none cursor (some ⟨.id, sorting⟩) =
      .error .paginationExceededError := by
    simp [validatePagination, refused]
    rfl
  have answered : ∀ scope, answerListing scope (fromCursor options limit sorting cursor) =
      .error .paginationExceededError := by
    intro scope
    unfold answerListing fromCursor
    dsimp only [Option.getD_some]
    rw [exceeded]
    rfl
  cases listing with
  | byOwner owner =>
    rw [request, requestAssetsByOwner, validatePubkey_address]
    exact answered _
  | byGroup groupKey groupValue =>
    rw [request, requestAssetsByGroup, validatePubkey_address]
    exact answered _
  | byCreator creator onlyVerified =>
    rw [request, requestAssetsByCreator, validatePubkey_address]
    exact answered _
  | byAuthority authority =>
    rw [request, requestAssetsByAuthority, validatePubkey_address]
    exact answered _
  | search => exact answered _

/-- Following the cursors ends. The answers are complete exactly when no gap of
dropped rows is as long as a page. -/
theorem follows_cursors [Crates] [Postgres] (linked : LinkedToOwn db.toDb) (listing : Listing)
    (sorting : Option AssetSortDirection) (accepted : limit ≤ 1000) :
    ∃ answers, Paging.Enumerates (fun cursor => listing.request db (fromCursor options limit sorting cursor))
        AssetList.cursor none answers ∧
      (listing.Complete db options (directionOf sorting) answers ↔
        Paging.Gapless (listing.keeps db) limit 0 (listing.rows db options (directionOf sorting))) := by
  obtain ⟨pages, run, isPart, complete⟩ := Paging.enumerates_from
    (matchingIds_sorted db (listing.condition options) listing.joins .id (directionOf sorting))
    (page_keyset options limit linked listing) none
  have renders : ∀ assets ∈ pages, ∀ entry ∈ assets, Renders entry.2 = rendered db entry.1 := by
    intro assets member
    obtain ⟨cursor, found⟩ := run.answered assets member
    exact page_renders listing found
  have answered : Paging.Enumerates
      (fun cursor => listing.request db (fromCursor options limit sorting cursor)) AssetList.cursor none
      (pages.map (fun assets => buildAssetResponse assets limit (.cursor {}) options)) :=
    run.map (fun cursor assets found => request_fromCursor listing accepted found) (fun assets => rfl)
  exact ⟨_, answered, (complete_iff options limit listing (.cursor {}) renders isPart).trans complete⟩

/-- A listing yields every asset once exactly when no gap of dropped rows is as
long as a page. -/
theorem cursor_listing_complete_iff [Crates] [Postgres] (linked : LinkedToOwn db.toDb) (listing : Listing)
    (sorting : Option AssetSortDirection) :
    (∃ answers, Paging.Enumerates (fun cursor => listing.request db (fromCursor options limit sorting cursor))
        AssetList.cursor none answers ∧ listing.Complete db options (directionOf sorting) answers) ↔
      limit ≤ 1000 ∧
        Paging.Gapless (listing.keeps db) limit 0 (listing.rows db options (directionOf sorting)) := by
  by_cases accepted : limit ≤ 1000
  · obtain ⟨answers, run, complete⟩ := follows_cursors options limit linked listing sorting accepted
    constructor
    · rintro ⟨others, other, isComplete⟩
      rw [← run.unique other] at isComplete
      exact ⟨accepted, complete.mp isComplete⟩
    · rintro ⟨-, gapless⟩
      exact ⟨answers, run, complete.mpr gapless⟩
  · constructor
    · rintro ⟨answers, run, -⟩
      cases run with
      | last answered _ | more answered _ _ =>
        rw [request_refused listing (Nat.not_le.mp accepted)] at answered
        cases answered
    · rintro ⟨small, -⟩
      exact absurd small accepted

end Complete

namespace Example

def owner : Address := .ofKey (.fill 7)

/-- An owner whose first asset waits for its data. -/
def db : ReadDb where
  asset := AList.insert (.fill 1) { owner := some owner.key.bytes } (AList.insert (.fill 2)
    { owner := some owner.key.bytes, specificationAssetClass := some .nft, assetData := some (.fill 2) } ∅)
  assetData := AList.insert (.fill 2)
    { chainData := .obj [], metadataUrl := "", metadata := .obj [], slotUpdated := 5 } ∅

theorem cursor_listing_pages_of_two :
    LinkedToOwn db.toDb ∧ ∃ answers, Paging.Enumerates (fun cursor =>
        @request .bare .refusing db (.byOwner owner) (fromCursor {} 2 (some .asc) cursor))
        AssetList.cursor none answers ∧
      (Listing.byOwner owner).Complete db {} .asc answers :=
  ⟨by decide, (@cursor_listing_complete_iff db {} 2 .bare .refusing (by decide) (.byOwner owner) (some .asc)).mpr
    ⟨by decide, by decide⟩⟩

/-- On pages of one row the first is empty, and nothing is listed. -/
theorem cursor_listing_loses_asset :
    ¬ ∃ answers, Paging.Enumerates (fun cursor =>
        @request .bare .refusing db (.byOwner owner) (fromCursor {} 1 (some .asc) cursor))
        AssetList.cursor none answers ∧
      (Listing.byOwner owner).Complete db {} .asc answers := by
  rintro ⟨others, other, isComplete⟩
  obtain ⟨answers, run, complete⟩ :=
    @follows_cursors db {} 1 .bare .refusing (by decide) (.byOwner owner) (some .asc) (by decide)
  rw [← run.unique other] at isComplete
  have gapless := complete.mp isComplete
  revert gapless
  decide

end Example

end Listing

end DasIndexer
