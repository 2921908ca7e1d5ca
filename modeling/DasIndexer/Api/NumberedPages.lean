import DasIndexer.Api.Pages
import Mathlib.Data.List.Count

namespace DasIndexer
open Sql Rpc

/-- The assets of an answer, shown or reported as errors. -/
def Rpc.AssetList.listed (answer : AssetList) : List String :=
  answer.items.map Asset.id ++ answer.errors.map DasError.id

theorem listed_perm [Crates] (assets : List (Pubkey × FullAsset)) (limit : Nat) (pagination : Pagination)
    (options : Options) :
    (buildAssetResponse assets limit pagination options).listed.Perm
      ((assets.map Prod.fst).map Bytes32.toBase58) := by
  obtain ⟨items, errors⟩ := assetListToRpc_ids options assets
  show ((assetListToRpc assets options).1.map Asset.id ++ (assetListToRpc assets options).2.map DasError.id).Perm _
  rw [items, errors, ← List.map_append, List.map_map]
  exact (List.filter_append_perm _ _).map _

namespace SearchAssets

/-- A request for a page by its number. -/
def byPage (options : Options) (limit : Nat) (sortBy : Option AssetSorting) (page : Nat) : ListRequest :=
  { sortBy, limit := some limit, page := some page, options := some options }

/-- The number of a page and the assets on it. -/
def page (db : ReadDb) (options : Options) (limit : Nat) (condition : Joined → Truth) (joins : List Relation)
    (column : AssetColumn) (direction : Order) : Nat → Except DasApiError (Nat × List (Pubkey × FullAsset))
  | 0 => .error .paginationEmptyError
  | number + 1 =>
    ((getAssetsByCondition db (some column) direction (.page (number + 1)) limit options condition joins).map
      (fun assets => (number + 1, assets))).mapError .databaseError

/-- The answer with a page. -/
def answer [Crates] (options : Options) (limit : Nat) (page : Nat × List (Pubkey × FullAsset)) : AssetList :=
  buildAssetResponse page.2 limit (.page page.1) options

section Requests
variable [Crates] [Postgres] {db : ReadDb} {options : Options} {limit : Nat} {payload : SearchAssets}
  {query : SearchAssetsQuery} {condition : Joined → Truth} {joins : List Relation} {sortBy : Option AssetSorting}
  {column : AssetColumn} {direction : Order}

omit [Crates] [Postgres] in
theorem validatePagination_page (accepted : limit ≤ 1000) (page : Nat) (sorting : AssetSorting) :
    validatePagination (some limit) (some (page + 1)) none none none (some sorting) =
      .ok { limit, page := some (page + 1) } := by
  have small : ¬ 1000 < limit := Nat.not_lt.mpr accepted
  simp [validatePagination, validateKeyset, small]
  rfl

omit [Postgres] in
/-- The answer to a request by page number, for any query behind the listing. -/
theorem answerListing_byPage {scope : Scope} (sorted : createSorting (sortBy.getD {}) = (direction, some column))
    (accepted : limit ≤ 1000) (number : Nat) {found : Except DbErr (List (Pubkey × FullAsset))}
    (ofScope : scope (some column) direction (.page (number + 1)) limit options = found) :
    answerListing scope (byPage options limit sortBy (number + 1)) =
      (found.map (fun assets => buildAssetResponse assets limit (.page (number + 1)) options)).mapError
        .databaseError := by
  have valid := validatePagination_page accepted number (sortBy.getD {})
  have paged : createPagination { limit, page := some (number + 1) } = .ok (.page (number + 1)) := rfl
  have listed : listAssets scope (sortBy.getD {}) { limit, page := some (number + 1) } options =
      found.map (fun assets => buildAssetResponse assets limit (.page (number + 1)) options) := by
    rw [listAssets, paged, sorted, ← ofScope]
    rfl
  unfold answerListing byPage
  dsimp only [Option.getD_some]
  rw [valid]
  show (listAssets scope (sortBy.getD {}) { limit, page := some (number + 1) } options).mapError
    DasApiError.databaseError = _
  rw [listed]

/-- The answer with a page shows the assets behind it. -/
theorem request_byPage (asked : payload.query = .ok query) (built : query.conditions = .ok (condition, joins))
    (sorted : createSorting (sortBy.getD {}) = (direction, some column)) (accepted : limit ≤ 1000) (number : Nat) :
    requestSearchAssets db payload (byPage options limit sortBy (number + 1)) =
      (page db options limit condition joins column direction (number + 1)).map (answer options limit) := by
  have ofQuery : searchScope db query (some column) direction (.page (number + 1)) limit options =
      getAssetsByCondition db (some column) direction (.page (number + 1)) limit options condition joins := by
    rw [searchScope, built]
    rfl
  rw [requestSearchAssets, asked]
  show answerListing (searchScope db query) (byPage options limit sortBy (number + 1)) = _
  rw [answerListing_byPage sorted accepted number ofQuery, page]
  cases getAssetsByCondition db (some column) direction (.page (number + 1)) limit options condition joins with
  | error problem => rfl
  | ok assets => rfl

theorem request_refused (asked : payload.query = .ok query) (refused : 1000 < limit) (number : Nat) :
    requestSearchAssets db payload (byPage options limit sortBy number) = .error .paginationExceededError := by
  have exceeded : validatePagination (some limit) (some number) none none none (some (sortBy.getD {})) =
      .error .paginationExceededError := by
    simp [validatePagination, refused]
    rfl
  rw [requestSearchAssets, asked]
  show answerListing (searchScope db query) (byPage options limit sortBy number) = _
  unfold answerListing byPage
  dsimp only [Option.getD_some]
  rw [exceeded]
  rfl

end Requests

section Complete
variable {db : ReadDb} (options : Options) (limit : Nat) {payload : SearchAssets} {query : SearchAssetsQuery}
  {condition : Joined → Truth} {joins : List Relation} {column : AssetColumn} {direction : Order}

/-- A joined row of the asset satisfies the condition. -/
def Matches (db : ReadDb) (condition : Joined → Truth) (joins : List Relation) (id : Pubkey) : Prop :=
  ∃ row ∈ joined db.toDb joins, row.asset.1 = id ∧ (condition row).holds = true

theorem page_numbered (linked : LinkedToOwn db.toDb) (once : joins.Nodup) :
    Paging.AnswersNumbered (hasData db.toDb) limit (matchingIds db condition joins column direction)
      (page db options limit condition joins column direction) (fun page => page.2.isEmpty)
      (fun page => page.2.map Prod.fst) := by
  intro number
  obtain ⟨found, isFound, ids⟩ := findAssets_page db condition column direction limit once number
  have stored := findAssets_stored db _ _ _ _ isFound
  have shown := getRelatedForAssets_ids linked stored options none
  refine ⟨(number + 1, getRelatedForAssets db.toDb found options none), ?_, ?_, ?_⟩
  · rw [page, getAssetsByCondition, isFound]
    rfl
  · show (getRelatedForAssets db.toDb found options none).map Prod.fst = _
    rw [shown, ids]
    simp only [listsCreator, Option.all_none, Bool.and_true]
  · rw [List.isEmpty_iff, List.map_eq_nil_iff]

theorem count_listed [Crates] (pages : List (Nat × List (Pubkey × FullAsset))) (id : Pubkey) :
    ((pages.map (answer options limit)).flatMap AssetList.listed).count id.toBase58 =
      (pages.flatMap (fun page => page.2.map Prod.fst)).count id := by
  induction pages with
  | nil => rfl
  | cons page rest ih =>
    have first : (answer options limit page).listed.count id.toBase58 = (page.2.map Prod.fst).count id := by
      rw [answer, (listed_perm page.2 limit (.page page.1) options).count_eq]
      exact List.count_map_of_injective _ _ (fun _ _ same => Bytes32.toBase58_injective same) _
    rw [List.map_cons, List.flatMap_cons, List.flatMap_cons, List.count_append, List.count_append, first, ih]

/-- Every matching asset with its data is on the pages once exactly when no asset
has rows on two pages and no page is blank too early. -/
theorem pages_complete_iff [Crates] [Postgres] (linked : LinkedToOwn db.toDb) (positive : 0 < limit)
    (accepted : limit ≤ 1000) (once : joins.Nodup) (asked : payload.query = .ok query)
    (built : query.conditions = .ok (condition, joins)) {sortBy : Option AssetSorting}
    (sorted : createSorting (sortBy.getD {}) = (direction, some column)) :
    (∃ answers, Paging.Numbered (fun number => requestSearchAssets db payload (byPage options limit sortBy number))
        (fun answer => answer.listed.isEmpty) 1 answers ∧
      ∀ id, Matches db condition joins id → hasData db.toDb id = true →
        (answers.flatMap AssetList.listed).count id.toBase58 = 1) ↔
      Paging.OnOnePage (hasData db.toDb) limit (matchingIds db condition joins column direction) ∧
        Paging.NoBlankPage (hasData db.toDb) limit (matchingIds db condition joins column direction) := by
  rw [← Paging.numbered_complete_iff (matchingIds_sorted db condition joins column direction) positive
    (page_numbered options limit linked once)]
  have empties : ∀ page, (answer options limit page).listed.isEmpty = page.2.isEmpty := by
    intro page
    rw [answer, (listed_perm page.2 limit (.page page.1) options).isEmpty_eq, List.isEmpty_map, List.isEmpty_map]
  have answers : ∀ number found, page db options limit condition joins column direction number = .ok found →
      requestSearchAssets db payload (byPage options limit sortBy number) = .ok (answer options limit found) := by
    intro number found isFound
    cases number with
    | zero => cases isFound
    | succ number =>
      rw [request_byPage asked built sorted accepted, isFound]
      rfl
  obtain ⟨n, pages, run, -⟩ := Paging.numbered_from positive (page_numbered options limit linked once) 0
  have answered : Paging.Numbered (fun number => requestSearchAssets db payload (byPage options limit sortBy number))
      (fun answer => answer.listed.isEmpty) 1 (pages.map (answer options limit)) := run.map answers empties
  constructor
  · rintro ⟨others, other, isComplete⟩
    refine ⟨pages, run, fun id inRows hasData => ?_⟩
    rw [← answered.unique other] at isComplete
    rw [← count_listed options limit]
    exact isComplete id ((mem_matchingIds db condition joins column direction).mp inRows) hasData
  · rintro ⟨others, other, isComplete⟩
    refine ⟨pages.map (answer options limit), answered, fun id isMatch hasData => ?_⟩
    rw [← run.unique other] at isComplete
    rw [count_listed options limit]
    exact isComplete id ((mem_matchingIds db condition joins column direction).mpr isMatch) hasData

/-- A search by page number finds every matching asset once under the conditions
above, if the limit is accepted and no table is joined twice, and only then. -/
theorem search_pages_complete_iff [Crates] [Postgres] (linked : LinkedToOwn db.toDb) (positive : 0 < limit)
    (asked : payload.query = .ok query) (built : query.conditions = .ok (condition, joins))
    {sortBy : Option AssetSorting} (sorted : createSorting (sortBy.getD {}) = (direction, some column)) :
    (∃ answers, Paging.Numbered (fun number => requestSearchAssets db payload (byPage options limit sortBy number))
        (fun answer => answer.listed.isEmpty) 1 answers ∧
      ∀ id, Matches db condition joins id → hasData db.toDb id = true →
        (answers.flatMap AssetList.listed).count id.toBase58 = 1) ↔
      limit ≤ 1000 ∧ ¬ (query.jsonUri.isSome = true ∧ query.name.isSome = true) ∧
        Paging.OnOnePage (hasData db.toDb) limit (matchingIds db condition joins column direction) ∧
        Paging.NoBlankPage (hasData db.toDb) limit (matchingIds db condition joins column direction) := by
  rw [← query.joins_nodup_iff, ← SearchAssetsQuery.conditions_joins built]
  by_cases accepted : limit ≤ 1000
  · by_cases once : joins.Nodup
    · rw [pages_complete_iff options limit linked positive accepted once asked built sorted]
      exact ⟨fun both => ⟨accepted, once, both⟩, fun all => all.2.2⟩
    · constructor
      · rintro ⟨answers, run, -⟩
        have failed : requestSearchAssets db payload (byPage options limit sortBy 1) =
            .error (.databaseError (.query "table name specified more than once")) := by
          rw [request_byPage asked built sorted accepted, page, getAssetsByCondition, findAssets, if_neg once]
          rfl
        cases run with
        | last answered _ | more answered _ _ =>
          rw [failed] at answered
          cases answered
      · rintro ⟨-, single, -⟩
        exact absurd single once
  · constructor
    · rintro ⟨answers, run, -⟩
      cases run with
      | last answered _ | more answered _ _ =>
        rw [request_refused asked (Nat.not_le.mp accepted)] at answered
        cases answered
    · rintro ⟨small, -⟩
      exact absurd small accepted

end Complete

namespace Example

/-- An asset with two verified creators. -/
def db : ReadDb where
  asset := AList.insert (.fill 2) { specificationAssetClass := some .nft, assetData := some (.fill 2) } ∅
  assetData := AList.insert (.fill 2)
    { chainData := .obj [], metadataUrl := "", metadata := .obj [], slotUpdated := 5 } ∅
  assetCreators :=
    AList.insert (.fill 2, 0) { creator := (Bytes32.fill 3).bytes, share := 50, verified := true }
      (AList.insert (.fill 2, 1) { creator := (Bytes32.fill 4).bytes, share := 50, verified := true } ∅)

def verified : SearchAssets := { creatorVerified := some true }

def condition (row : Joined) : Truth := Truth.all (SearchAssetsQuery.terms row { creatorVerified := some true })

theorem verified_conditions : @SearchAssetsQuery.conditions .refusing { creatorVerified := some true } =
    .ok (condition, [.assetCreators]) := by
  have built : @SearchAssetsQuery.conditions .refusing { creatorVerified := some true } =
      .ok (fun row => Truth.all (SearchAssetsQuery.terms row { creatorVerified := some true } ++ []),
        [.assetCreators]) := rfl
  rw [built]
  simp only [List.append_nil]
  rfl

theorem search_pages_of_two :
    LinkedToOwn db.toDb ∧ ∃ answers, Paging.Numbered (fun number =>
        @requestSearchAssets .bare db .refusing verified (byPage {} 2 none number))
        (fun answer => answer.listed.isEmpty) 1 answers ∧
      ∀ id, Matches db condition [.assetCreators] id → hasData db.toDb id = true →
        (answers.flatMap AssetList.listed).count id.toBase58 = 1 :=
  ⟨by decide, (@search_pages_complete_iff db {} 2 verified _ _ _ .id .desc .bare .refusing (by decide) (by decide) rfl
    verified_conditions none rfl).mpr ⟨by decide, by decide, Paging.fits_first_page (by decide)⟩⟩

/-- On pages of one row the asset comes twice. -/
theorem search_pages_repeat_asset :
    ¬ ∃ answers, Paging.Numbered (fun number =>
        @requestSearchAssets .bare db .refusing verified (byPage {} 1 none number))
        (fun answer => answer.listed.isEmpty) 1 answers ∧
      ∀ id, Matches db condition [.assetCreators] id → hasData db.toDb id = true →
        (answers.flatMap AssetList.listed).count id.toBase58 = 1 := by
  rw [@pages_complete_iff db {} 1 verified _ _ _ .id .desc .bare .refusing (by decide) (by decide) (by decide)
    (by decide) rfl verified_conditions none rfl]
  rintro ⟨single, -⟩
  exact absurd (single 0 1 (.fill 2) (by decide) (by decide) (by decide)) (by decide)

end Example

end SearchAssets

end DasIndexer
