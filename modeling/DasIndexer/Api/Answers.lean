import DasIndexer.Api.NumberedPages
import DasIndexer.Lib.Loops

namespace DasIndexer
open Sql Rpc

/-- The query behind a listing. -/
def findScope (db : ReadDb) (condition : Joined → Truth) (joins : List Relation) (requiredCreator : Option Bytes) :
    Scope := fun column direction pagination limit options =>
  (findAssets db condition joins column direction pagination limit).map (fun assets =>
    getRelatedForAssets db.toDb assets options requiredCreator)

/-- The asset has its data and can be rendered. -/
def Presentable (db : ReadDb) (id : Pubkey) : Prop := hasData db.toDb id = true ∧ rendered db id = true

section Answers
variable [Crates] {db : ReadDb} {condition : Joined → Truth} {joins : List Relation}
  {requiredCreator : Option Bytes}

/-- An asset that is returned matches the condition, still lists the required
creator and is presentable. -/
theorem answer_sound (linked : LinkedToOwn db.toDb) {request : ListRequest} {answer : AssetList}
    (answered : answerListing (findScope db condition joins requiredCreator) request = .ok answer) {item : Asset}
    (returned : item ∈ answer.items) :
    ∃ id, item.id = id.toBase58 ∧ Presentable db id ∧ listsCreator db.toDb requiredCreator id = true ∧
      SearchAssets.Matches db condition joins id ∧ joins.Nodup := by
  obtain ⟨pageOptions, -, listed⟩ := Loops.bind_eq_ok.mp answered
  have listedOk : listAssets (findScope db condition joins requiredCreator) (request.sortBy.getD {}) pageOptions
      (request.options.getD {}) = .ok answer := by
    cases outcome : listAssets (findScope db condition joins requiredCreator) (request.sortBy.getD {}) pageOptions
        (request.options.getD {}) with
    | error problem =>
      rw [outcome] at listed
      cases listed
    | ok found =>
      rw [outcome] at listed
      cases listed
      rfl
  obtain ⟨pagination, -, searched⟩ := Loops.bind_eq_ok.mp listedOk
  obtain ⟨full, isFull, isAnswer⟩ := Loops.bind_eq_ok.mp searched
  cases isAnswer
  obtain ⟨assets, found, rfl⟩ := Loops.map_eq_ok.mp isFull
  have stored := findAssets_stored db _ _ _ _ found
  have renders : ∀ entry ∈ getRelatedForAssets db.toDb assets (request.options.getD {}) requiredCreator,
      Renders entry.2 = rendered db entry.1 := related_renders stored
  have items := (items_of_page (request.options.getD {}) pageOptions.limit renders pagination).1
  have inItems := List.mem_map_of_mem (f := Asset.id) returned
  rw [items, getRelatedForAssets_ids linked stored] at inItems
  obtain ⟨id, inShown, isId⟩ := List.mem_map.mp inItems
  obtain ⟨inPage, renders⟩ := List.mem_filter.mp inShown
  obtain ⟨inAssets, kept⟩ := Paging.mem_shown.mp inPage
  obtain ⟨data, lists⟩ := Bool.and_eq_true_iff.mp kept
  obtain ⟨asset, isAsset, sameId⟩ := List.mem_map.mp inAssets
  obtain ⟨row, inJoin, sameRow, holds⟩ := findAssets_sound db _ _ _ _ found asset isAsset
  refine ⟨id, isId.symm, ⟨data, renders⟩, lists, ⟨row, inJoin, ?_, holds⟩, ?_⟩
  · rw [sameRow, sameId]
  · by_contra twice
    rw [findAssets, if_neg twice] at found
    cases found

/-- A matching asset that still lists the required creator and is presentable is
on one of the numbered pages. -/
theorem answer_byPage (linked : LinkedToOwn db.toDb) (once : joins.Nodup) {id : Pubkey}
    (isMatch : SearchAssets.Matches db condition joins id) (presentable : Presentable db id)
    (lists : listsCreator db.toDb requiredCreator id = true) :
    ∃ number answer, answerListing (findScope db condition joins requiredCreator)
        (SearchAssets.byPage {} 1 none (number + 1)) = .ok answer ∧ ∃ item ∈ answer.items, item.id = id.toBase58 := by
  obtain ⟨number, onPage⟩ := Paging.exists_pageOf Nat.one_pos
    ((mem_matchingIds db condition joins .id .desc).mpr isMatch)
  obtain ⟨found, isFound, ids⟩ := findAssets_page db condition .id .desc 1 once number
  have stored := findAssets_stored db _ _ _ _ isFound
  have renders : ∀ entry ∈ getRelatedForAssets db.toDb found {} requiredCreator,
      Renders entry.2 = rendered db entry.1 := related_renders stored
  have items := (items_of_page {} 1 renders (.page (number + 1))).1
  refine ⟨number, buildAssetResponse
    (getRelatedForAssets db.toDb found {} requiredCreator) 1 (.page (number + 1)) {}, ?_, ?_⟩
  · have ofScope : findScope db condition joins requiredCreator (some .id) .desc (.page (number + 1)) 1 {} =
        .ok (getRelatedForAssets db.toDb found {} requiredCreator) := by
      rw [findScope, isFound]
      rfl
    exact SearchAssets.answerListing_byPage rfl (Nat.le_add_left 1 999) number ofScope
  · have inItems : id.toBase58 ∈ (buildAssetResponse (getRelatedForAssets db.toDb found {} requiredCreator) 1
        (.page (number + 1)) {}).items.map Asset.id := by
      rw [items, getRelatedForAssets_ids linked stored, ids]
      refine List.mem_map_of_mem (List.mem_filter.mpr ⟨Paging.mem_shown.mpr ⟨onPage, ?_⟩, presentable.2⟩)
      rw [presentable.1, lists]
      rfl
    exact List.mem_map.mp inItems

/-- A property of all the assets that any request returns is one of the matching
assets. -/
theorem answers_iff (linked : LinkedToOwn db.toDb) (P : Pubkey → Prop) :
    (∀ request answer, answerListing (findScope db condition joins requiredCreator) request = .ok answer →
      ∀ item ∈ answer.items, ∃ id, item.id = id.toBase58 ∧ P id) ↔
      (joins.Nodup → ∀ id, SearchAssets.Matches db condition joins id → Presentable db id →
        listsCreator db.toDb requiredCreator id = true → P id) := by
  constructor
  · intro returned once id isMatch presentable lists
    obtain ⟨number, answer, answered, item, inItems, isItem⟩ :=
      answer_byPage linked once isMatch presentable lists
    obtain ⟨other, isOther, holds⟩ := returned _ answer answered item inItems
    rw [isItem] at isOther
    rwa [Bytes32.toBase58_injective isOther]
  · intro matching request answer answered item inItems
    obtain ⟨id, isItem, presentable, lists, isMatch, once⟩ := answer_sound linked answered inItems
    exact ⟨id, isItem, matching once id isMatch presentable lists⟩

end Answers

end DasIndexer
