import DasIndexer.Api.Answers
import DasIndexer.Api.CursorPages
import DasIndexer.Api.Indexed
import DasIndexer.DecompressedShown

namespace DasIndexer
open Sql Rpc

structure GroupingSize where
  size : Nat
  deriving DecidableEq

structure GetGroupingResponse where
  groupKey : String
  groupName : String
  groupSize : Nat
  deriving DecidableEq

abbrev GroupingEntry := Sigma (fun _ : Pubkey × String => AssetGroupingRow)

def groupingCondition (groupKey groupValue : String) (entry : GroupingEntry) : Truth :=
  Sql.eq (some entry.1.2) (some groupKey) &&& Sql.eq entry.2.groupValue (some groupValue) &&&
    (Sql.eq (some entry.2.verified) (some true) ||| Sql.isNull (some entry.2.verified))

/-- `get_grouping` of the scopes, a count over `asset_grouping` alone. -/
def getGrouping (db : Db) (groupKey groupValue : String) : GroupingSize where
  size := (db.assetGrouping.entries.filter (fun entry => (groupingCondition groupKey groupValue entry).holds)).length

def requestGrouping (db : Db) (groupKey groupValue : String) : GetGroupingResponse where
  groupKey := groupKey
  groupName := groupValue
  groupSize := (getGrouping db groupKey groupValue).size

/-- The asset has a row that is counted. -/
def CountedInGroup (db : Db) (groupKey groupValue : String) (id : Pubkey) : Prop :=
  ∃ group, db.assetGrouping.lookup (id, groupKey) = some group ∧ group.groupValue = some groupValue ∧
    group.verified = true

/-- Some request for the group with the default options returns the asset. -/
def ListedInGroup [Crates] (db : ReadDb) (groupKey groupValue : String) (id : Pubkey) : Prop :=
  ∃ request answer, request.options.getD {} = {} ∧
    requestAssetsByGroup db groupKey groupValue request = .ok answer ∧ ∃ item ∈ answer.items, item.id = id.toBase58

/-- The size of the group is the number of the assets that its listing returns. -/
def SizeMatches [Crates] (db : ReadDb) (groupKey groupValue : String) : Prop :=
  ∃ ids : List Pubkey, ids.Nodup ∧ (∀ id, id ∈ ids ↔ ListedInGroup db groupKey groupValue id) ∧
    (requestGrouping db.toDb groupKey groupValue).groupSize = ids.length

/-- What the listing asks for beyond the row of `asset_grouping`. -/
structure Showable (db : ReadDb) (groupValue : String) (id : Pubkey) : Prop where
  address : (Bytes32.ofBase58? groupValue).isSome = true
  supplied : ∃ row, db.asset.lookup id = some row ∧ 0 < row.supply
  presentable : Presentable db id

section Counted
variable {db : Db} {groupKey groupValue : String} {id : Pubkey}

theorem holds_groupingCondition {entry : GroupingEntry} : (groupingCondition groupKey groupValue entry).holds = true ↔
    entry.1.2 = groupKey ∧ entry.2.groupValue = some groupValue ∧ entry.2.verified = true := by
  simp [groupingCondition, and_assoc]

/-- The assets of the rows that are counted. -/
def countedIds (db : Db) (groupKey groupValue : String) : List Pubkey :=
  (db.assetGrouping.entries.filter (fun entry => (groupingCondition groupKey groupValue entry).holds)).map
    (fun entry => entry.1.1)

theorem mem_countedIds : id ∈ countedIds db groupKey groupValue ↔ CountedInGroup db groupKey groupValue id := by
  simp only [countedIds, List.mem_map, List.mem_filter, holds_groupingCondition]
  constructor
  · rintro ⟨entry, ⟨stored, rfl, value, verified⟩, rfl⟩
    exact ⟨entry.2, AList.mem_lookup_iff.mpr stored, value, verified⟩
  · rintro ⟨group, stored, value, verified⟩
    exact ⟨⟨(id, groupKey), group⟩, ⟨AList.mem_lookup_iff.mp stored, rfl, value, verified⟩, rfl⟩

/-- An asset has one row for a group key. -/
theorem countedIds_nodup : (countedIds db groupKey groupValue).Nodup := by
  have keyed := db.assetGrouping.nodupKeys
  refine List.Nodup.map_on (fun entry member other otherMember same => ?_) (keyed.nodup.filter _)
  obtain ⟨stored, passes⟩ := List.mem_filter.mp member
  obtain ⟨otherStored, otherPasses⟩ := List.mem_filter.mp otherMember
  obtain ⟨key, -⟩ := holds_groupingCondition.mp passes
  obtain ⟨otherKey, -⟩ := holds_groupingCondition.mp otherPasses
  exact keyed.eq_of_fst_eq stored otherStored (Prod.ext same (key.trans otherKey.symm))

theorem groupSize_eq : (requestGrouping db groupKey groupValue).groupSize = (countedIds db groupKey groupValue).length :=
  (List.length_map _).symm

end Counted

section Listed
variable [Crates] {db : ReadDb} {groupKey groupValue : String} {id : Pubkey}

/-- Only what a scope does with the options of the request matters. -/
theorem answerListing_congr {scope other : Scope} (request : ListRequest) {options : Options}
    (asked : request.options.getD {} = options)
    (same : ∀ column direction pagination limit, scope column direction pagination limit options =
      other column direction pagination limit options) : answerListing scope request = answerListing other request := by
  unfold answerListing listAssets
  simp only [asked, same]

omit [Crates] in
theorem matches_group (address : Address) : SearchAssets.Matches db (groupCondition groupKey address.text {})
    [.assetGrouping] id ↔ CountedInGroup db.toDb groupKey address.text id ∧
      ∃ row, db.asset.lookup id = some row ∧ 0 < row.supply := by
  have inRows : id ∈ (Listing.byGroup groupKey address).rows db {} .asc ↔
      (Listing.byGroup groupKey address).Matches db {} id := Listing.mem_rows_iff _ .asc
  rw [SearchAssets.Matches, ← mem_matchingIds db (groupCondition groupKey address.text {}) [.assetGrouping] .id .asc]
  refine inRows.trans ?_
  constructor
  · rintro ⟨row, stored, ⟨group, found, value, shown⟩, positive⟩
    exact ⟨⟨group, found, value, shown.resolve_left (by decide)⟩, row, stored, positive⟩
  · rintro ⟨⟨group, found, value, verified⟩, row, stored, positive⟩
    exact ⟨row, stored, ⟨group, found, value, .inr verified⟩, positive⟩

/-- A request for the group of an address with the default options. -/
theorem requestAssetsByGroup_default (address : Address) {request : ListRequest}
    (defaults : request.options.getD {} = {}) : requestAssetsByGroup db groupKey address.text request =
      answerListing (findScope db (groupCondition groupKey address.text {}) [.assetGrouping] none)
        request.nonemptyBounds := by
  rw [requestAssetsByGroup, validatePubkey_address address]
  exact answerListing_congr request.nonemptyBounds defaults (fun _ _ _ _ => rfl)

theorem listedInGroup_iff (linked : LinkedToOwn db.toDb) : ListedInGroup db groupKey groupValue id ↔
    CountedInGroup db.toDb groupKey groupValue id ∧ Showable db groupValue id := by
  constructor
  · rintro ⟨request, answer, defaults, answered, item, inItems, isItem⟩
    cases reads : Bytes32.ofBase58? groupValue with
    | none =>
      rw [requestAssetsByGroup, validatePubkey, reads] at answered
      cases answered
    | some key =>
      rw [requestAssetsByGroup_default ⟨groupValue, key, reads⟩ defaults] at answered
      obtain ⟨other, isOther, presentable, -, isMatch, -⟩ := answer_sound linked answered inItems
      rw [isItem] at isOther
      rw [← Bytes32.toBase58_injective isOther] at presentable isMatch
      obtain ⟨counted, supplied⟩ := (matches_group ⟨groupValue, key, reads⟩).mp isMatch
      exact ⟨counted, by rw [reads]; rfl, supplied, presentable⟩
  · rintro ⟨counted, readable, supplied, presentable⟩
    obtain ⟨key, reads⟩ := Option.isSome_iff_exists.mp readable
    have isMatch := (matches_group ⟨groupValue, key, reads⟩).mpr ⟨counted, supplied⟩
    have lists : listsCreator db.toDb none id = true := rfl
    obtain ⟨number, answer, answered, item, inItems, isItem⟩ :=
      answer_byPage linked (List.nodup_singleton _) isMatch presentable lists
    refine ⟨SearchAssets.byPage {} 1 none (number + 1), answer, rfl, ?_, item, inItems, isItem⟩
    exact (requestAssetsByGroup_default ⟨groupValue, key, reads⟩ rfl).trans answered

theorem sizeMatches_iff (linked : LinkedToOwn db.toDb) : SizeMatches db groupKey groupValue ↔
    ∀ id, CountedInGroup db.toDb groupKey groupValue id → Showable db groupValue id := by
  constructor
  · rintro ⟨ids, distinct, listed, size⟩ id counted
    have part : ids ⊆ countedIds db.toDb groupKey groupValue := by
      intro other member
      exact mem_countedIds.mpr ((listedInGroup_iff linked).mp ((listed other).mp member)).1
    have all : ids.Perm (countedIds db.toDb groupKey groupValue) := by
      refine (List.subperm_of_subset distinct part).perm_of_length_le ?_
      rw [← groupSize_eq, size]
    exact ((listedInGroup_iff linked).mp ((listed id).mp (all.symm.subset (mem_countedIds.mpr counted)))).2
  · intro shown
    refine ⟨countedIds db.toDb groupKey groupValue, countedIds_nodup, fun id => ?_, groupSize_eq⟩
    rw [mem_countedIds, listedInGroup_iff linked]
    exact ⟨fun counted => ⟨counted, shown id counted⟩, fun both => both.1⟩

end Listed

/-- In every state that indexing reaches, the size of a group is the number of the
assets listed exactly when every asset that is counted has supply and can be
shown. -/
theorem group_size_matches_iff [Programs] [Crates] (operations : List Operation) (createdAt : Pubkey → Option Int)
    (groupKey groupValue : String) :
    SizeMatches { toDb := operations.foldl Operation.run {}, createdAt } groupKey groupValue ↔
      ∀ id, CountedInGroup (operations.foldl Operation.run {}) groupKey groupValue id →
        Showable { toDb := operations.foldl Operation.run {}, createdAt } groupValue id :=
  sizeMatches_iff (indexed_linkedToOwn operations)

namespace GroupSize.Example

/-- The metadata account of a member of a collection is indexed, and then its mint
without supply. -/
def burntMember : List Operation :=
  [.account
    { account := { slot := 20, pubkey := .fill 6, owner := .fill 5 }
      parsed := .tokenMetadata (.metadataV1 TokenMetadata.Example.complete) },
    .account
      { account := { slot := 30, pubkey := TokenMetadata.Example.complete.mint, owner := .fill 5 }
        parsed := .tokenProgramEntity
          (.mint { mintAuthority := none, supply := 0, decimals := 0, freezeAuthority := none }) }]

/-- The member is counted, but not listed. -/
theorem burnt_member_counted :
    (requestGrouping (burntMember.foldl Operation.run {}) "collection"
        TokenMetadata.Example.collection.key.toBase58).groupSize = 1 ∧
      ¬ @SizeMatches .bare { toDb := burntMember.foldl Operation.run {} } "collection"
        TokenMetadata.Example.collection.key.toBase58 := by
  refine ⟨by decide, fun same => ?_⟩
  have linked : LinkedToOwn (burntMember.foldl Operation.run {}) := indexed_linkedToOwn burntMember
  have counted : CountedInGroup (burntMember.foldl Operation.run {}) "collection"
      TokenMetadata.Example.collection.key.toBase58 TokenMetadata.Example.complete.mint := by
    rw [← mem_countedIds]
    decide
  obtain ⟨row, stored, positive⟩ := ((@sizeMatches_iff .bare { toDb := burntMember.foldl Operation.run {} }
    _ _ linked).mp same _ counted).supplied
  have supply : ((burntMember.foldl Operation.run {}).asset.lookup TokenMetadata.Example.complete.mint).map
      AssetRow.supply = some 0 := by decide
  rw [stored] at supply
  have zero := Option.some.inj supply
  omega

end GroupSize.Example

end DasIndexer
