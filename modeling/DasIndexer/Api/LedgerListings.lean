import DasIndexer.Api.CursorPages
import DasIndexer.Api.LedgerAnswers
import DasIndexer.Api.ManyAssets

/-! What the listings of the API answer about the assets of a ledger. -/

namespace DasIndexer
open Sql Rpc Bubblegum

/-- The listing asks for an asset as it is on the chain. -/
def Listing.AsksFor (options : Options) (h : Holding) : Listing → Prop
  | byOwner owner => h.contents.owner = owner.key
  | byGroup groupKey groupValue => groupKey = "collection" ∧ ∃ c, h.contents.metadata.collection = some c ∧
    c.key = groupValue.key ∧ (options.showUnverifiedCollections = true ∨ c.verified = true)
  | byCreator creator onlyVerified => ∃ c ∈ h.contents.metadata.creators.entries, c.address = creator.key ∧
    (onlyVerified = some true → c.verified = true)
  | byAuthority authority => h.authority = authority.key
  | search => True

section Pages
variable [Crates] {options : Options} {P : Pubkey → Asset → Prop}

/-- When every asset of a page is rendered, they are the items in their order. -/
theorem assetListToRpc_all {assets : List (Pubkey × FullAsset)}
    (rendered : ∀ entry ∈ assets, ∃ asset, assetToRpc entry.1 entry.2 options = .ok asset ∧ P entry.1 asset) :
    (assetListToRpc assets options).2 = [] ∧
      List.Forall₂ P (assets.map Prod.fst) (assetListToRpc assets options).1 := by
  induction assets using List.reverseRecOn with
  | nil => exact ⟨rfl, .nil⟩
  | append_singleton earlier last ih =>
    obtain ⟨errors, items⟩ := ih (fun entry member => rendered entry (List.mem_append_left _ member))
    obtain ⟨asset, isAsset, holds⟩ := rendered last (by simp)
    rw [assetListToRpc_concat_ok options isAsset, List.map_append]
    exact ⟨errors, List.rel_append items (.cons holds .nil)⟩

theorem items_all {pages : List (List (Pubkey × FullAsset))} (limit : Nat) (pagination : Pagination)
    (rendered : ∀ assets ∈ pages, ∀ entry ∈ assets,
      ∃ asset, assetToRpc entry.1 entry.2 options = .ok asset ∧ P entry.1 asset) :
    (pages.map (fun assets => buildAssetResponse assets limit pagination options)).flatMap AssetList.errors = [] ∧
      List.Forall₂ P (pages.flatMap (fun assets => assets.map Prod.fst))
        ((pages.map (fun assets => buildAssetResponse assets limit pagination options)).flatMap AssetList.items) := by
  induction pages with
  | nil => exact ⟨rfl, .nil⟩
  | cons assets rest ih =>
    obtain ⟨errorsRest, itemsRest⟩ := ih (fun later member => rendered later (List.mem_cons_of_mem _ member))
    obtain ⟨errors, items⟩ := assetListToRpc_all (rendered assets List.mem_cons_self)
    rw [List.map_cons, List.flatMap_cons, List.flatMap_cons, List.flatMap_cons, errorsRest, List.append_nil]
    exact ⟨errors, List.rel_append items itemsRest⟩

end Pages

/-- A listed asset comes with its rows. -/
theorem getRelatedForAssets_rows {db : Db} {assets : List (Pubkey × AssetRow)} (linked : LinkedToOwn db)
    (stored : ∀ asset ∈ assets, db.asset.lookup asset.1 = some asset.2) {options : Options}
    {requiredCreator : Option Bytes} {entry : Pubkey × FullAsset}
    (member : entry ∈ getRelatedForAssets db assets options requiredCreator) :
    db.asset.lookup entry.1 = some entry.2.asset ∧ db.assetData.lookup entry.1 = some entry.2.data ∧
      entry.2.authorities = (db.assetAuthority.lookup entry.1).toList ∧
      entry.2.creators = shownCreators db entry.1 ∧
      entry.2.groups.map (fun group => (group.1, group.2.1.groupValue)) =
        (listedGroups db options entry.1).map (fun group => (group.1, group.2.groupValue)) := by
  rw [getRelatedForAssets_eq stored] at member
  obtain ⟨before, inMap, rfl⟩ := List.mem_map.mp member
  have inCollected := (List.mem_filter.mp inMap).1
  rw [collectAssets_eq stored] at inCollected
  obtain ⟨id, -, isEntry⟩ := List.mem_filterMap.mp inCollected
  obtain ⟨full, found, rfl⟩ := Option.map_eq_some_iff.mp isEntry
  obtain ⟨asset, isStored, more⟩ := Option.bind_eq_some_iff.mp found
  obtain ⟨data, isData, rfl⟩ := Option.map_eq_some_iff.mp more
  obtain ⟨dataId, link, inData⟩ := Option.bind_eq_some_iff.mp isData
  have own := linked id asset dataId isStored (Option.filter_eq_some_iff.mp link).1
  subst own
  refine ⟨isStored, inData, rfl, rfl, ?_⟩
  rw [relatedAsset, List.map_map]
  rfl

theorem Bytes32.bytes_eq_iff {key other : Bytes32} : key.bytes = other.bytes ↔ key = other := by
  constructor
  · intro same
    cases key
    cases other
    congr
  · intro same
    rw [same]

/-- The rows of an asset match a listing when the asset does. -/
theorem Bubblegum.Holding.Shown.matches_iff [Programs] {chain : Chain} {db : ReadDb} {id : Pubkey} {h : Holding}
    (shown : h.Shown chain id db.toDb) {listing : Listing} (options : Options)
    (noCreator : listing.requiredCreator = none) :
    listing.Matches db options id ↔ listing.AsksFor options h := by
  obtain ⟨row, stored, columns⟩ := shown.row
  obtain ⟨-, supply, -, -, -, -, -, ownerType⟩ := columns.rendered
  have one : 0 < row.supply := by omega
  cases listing with
  | byOwner owner =>
    simp only [Listing.Matches, stored, Option.some.injEq, exists_eq_left', columns.owner, Bytes32.bytes_eq_iff, one,
      and_true, Listing.AsksFor]
  | byGroup groupKey groupValue =>
    simp only [Listing.Matches, stored, Option.some.injEq, exists_eq_left', one, and_true, Listing.AsksFor]
    by_cases isCollection : groupKey = "collection"
    · obtain ⟨slot, seq, group⟩ := shown.collection
      subst isCollection
      simp only [group, Option.some.injEq, exists_eq_left', true_and, CollectionInfo.model]
      cases h.contents.metadata.collection with
      | none => simp
      | some c =>
        have sameText : c.key.toBase58 = groupValue.key.toBase58 ↔ c.key = groupValue.key :=
          ⟨Bytes32.toBase58_injective, congrArg _⟩
        simp [Address.text_eq, sameText]
    · simp [shown.noGroup groupKey isCollection, isCollection]
  | byCreator creator onlyVerified => cases noCreator
  | byAuthority authority =>
    obtain ⟨a, found, same⟩ := Option.map_eq_some_iff.mp shown.authority
    simp only [Listing.Matches, stored, Option.some.injEq, exists_eq_left', one, and_true, Listing.AsksFor, found, same,
      Bytes32.bytes_eq_iff]
  | search =>
    simp only [Listing.Matches, stored, Option.some.injEq, exists_eq_left', Listing.AsksFor, iff_true]
    exact ⟨.inl (by omega), ownerType, by omega⟩

namespace Bubblegum.Ledger.Shown
variable [Programs] {chain : Chain} {l : Ledger} {db : ReadDb} (shows : l.Shown chain db.toDb)
include shows

theorem stored {id : Pubkey} {row : AssetRow} (found : db.asset.lookup id = some row) :
    ∃ h, l.holdings id = some h ∧ h.Row chain id row := by
  cases holds : l.holdings id with
  | none =>
    rw [shows.absent id holds] at found
    cases found
  | some h =>
    obtain ⟨other, isOther, columns⟩ := (shows.holding id h holds).row
    rw [found, Option.some.injEq] at isOther
    exact ⟨h, rfl, isOther ▸ columns⟩

theorem linkedToOwn : LinkedToOwn db.toDb := by
  intro id row dataId found link
  obtain ⟨h, -, columns⟩ := shows.stored found
  rw [columns.rendered.1, Option.some.injEq] at link
  exact link.symm

theorem hasData {id : Pubkey} {row : AssetRow} (found : db.asset.lookup id = some row) :
    DasIndexer.hasData db.toDb id = true := by
  obtain ⟨h, holds, columns⟩ := shows.stored found
  obtain ⟨slot, seq, data⟩ := (shows.holding id h holds).data
  simp [DasIndexer.hasData, found, columns.rendered.1, data]

theorem matches_iff {listing : Listing} (options : Options) (noCreator : listing.requiredCreator = none) {id : Pubkey} :
    listing.Matches db options id ↔ ∃ h, l.holdings id = some h ∧ listing.AsksFor options h := by
  constructor
  · intro isMatch
    have inTable := isMatch
    obtain ⟨row, found, -⟩ := inTable
    obtain ⟨h, holds, -⟩ := shows.stored found
    exact ⟨h, holds, ((shows.holding id h holds).matches_iff options noCreator).mp isMatch⟩
  · rintro ⟨h, holds, asks⟩
    exact ((shows.holding id h holds).matches_iff options noCreator).mpr asks

theorem keeps_rows {listing : Listing} {options : Options} {direction : Order}
    (noCreator : listing.requiredCreator = none) :
    ∀ id ∈ listing.rows db options direction, listing.keeps db id = true := by
  intro id member
  obtain ⟨row, found, -⟩ := (Listing.mem_rows_iff listing direction).mp member
  rw [Listing.keeps, shows.hasData found, noCreator]
  rfl

variable [Crates] (selects : SelectsFields)
include selects

/-- Every entry of a page is rendered. -/
theorem page_answered {listing : Listing} {options : Options} {limit : Nat} {direction : Order} {cursor : Option String}
    {assets : List (Pubkey × FullAsset)} (found : listing.page db options limit direction cursor = .ok assets) :
    ∀ entry ∈ assets, ∃ asset, assetToRpc entry.1 entry.2 options = .ok asset ∧ ∃ h, l.holdings entry.1 = some h ∧
      Answered chain entry.1 h options.showUnverifiedCollections asset := by
  intro entry member
  obtain ⟨key, read, more⟩ := Loops.bind_eq_ok.mp found
  cases result : findAssets db (listing.condition options) listing.joins (some .id) direction (.cursor key) limit with
  | error problem =>
    rw [result] at more
    cases more
  | ok rows =>
    rw [result] at more
    cases more
    obtain ⟨stored, data, authorities, creators, groups⟩ :=
      getRelatedForAssets_rows shows.linkedToOwn (findAssets_stored db _ _ _ _ result) member
    obtain ⟨h, holds, -⟩ := shows.stored stored
    have shown := shows.holding entry.1 h holds
    rw [shown.listedGroups] at groups
    obtain ⟨asset, rendered, answered⟩ :=
      rendered_answered selects shown stored data authorities creators groups options
    exact ⟨asset, rendered, h, holds, answered⟩

/-- Following the cursors of a listing ends, and shows every asset that it asks for once. -/
theorem listed [Postgres] {listing : Listing} (options : Options) {limit : Nat} (positive : 0 < limit)
    (accepted : limit ≤ 1000) (sorting : Option AssetSortDirection) (noCreator : listing.requiredCreator = none) :
    ∃ answers, Paging.Enumerates (fun cursor => listing.request db (Listing.fromCursor options limit sorting cursor))
        AssetList.cursor none answers ∧
      ∃ ids : List Pubkey, ids.Pairwise (sortsBefore db .id (Listing.directionOf sorting)) ∧
        (∀ id, id ∈ ids ↔ ∃ h, l.holdings id = some h ∧ listing.AsksFor options h) ∧
        answers.flatMap AssetList.errors = [] ∧
        List.Forall₂ (fun id item => ∃ h, l.holdings id = some h ∧
          Answered chain id h options.showUnverifiedCollections item) ids (answers.flatMap AssetList.items) := by
  have sorted : Paging.Sorted (sortsBefore db .id (Listing.directionOf sorting))
      (listing.rows db options (Listing.directionOf sorting)) :=
    matchingIds_sorted db (listing.condition options) listing.joins .id (Listing.directionOf sorting)
  obtain ⟨pages, run, -, complete⟩ := Paging.enumerates_from sorted
    (Listing.page_keyset options limit shows.linkedToOwn listing) none
  have rendered : ∀ assets ∈ pages, ∀ entry ∈ assets, ∃ asset, assetToRpc entry.1 entry.2 options = .ok asset ∧
      ∃ h, l.holdings entry.1 = some h ∧ Answered chain entry.1 h options.showUnverifiedCollections asset := by
    intro assets member
    obtain ⟨cursor, found⟩ := run.answered assets member
    exact shows.page_answered selects found
  have all := complete.mpr (Paging.gapless_kept positive (shows.keeps_rows noCreator))
  obtain ⟨errors, items⟩ := @items_all _ options (fun id item => ∃ h, l.holdings id = some h ∧
    Answered chain id h options.showUnverifiedCollections item) pages limit (.cursor {}) rendered
  refine ⟨pages.map (fun assets => buildAssetResponse assets limit (.cursor {}) options),
    run.map (fun cursor assets found => Listing.request_fromCursor listing accepted found) (fun assets => rfl), _,
    Paging.shown_pairwise (listing.keeps db) sorted, fun id => ?_, errors, ?_⟩
  · rw [Paging.mem_shown, ← shows.matches_iff options noCreator, ← Listing.mem_rows_iff]
    exact ⟨fun both => both.1, fun member => ⟨member, shows.keeps_rows noCreator id member⟩⟩
  · rw [all] at items
    exact items

end Bubblegum.Ledger.Shown

end DasIndexer
