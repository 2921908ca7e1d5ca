import DasIndexer.Api.Answers
import DasIndexer.Api.CursorPages
import DasIndexer.Api.Indexed
import DasIndexer.Api.SearchDefaults
import DasIndexer.Mainnet

namespace DasIndexer
open Sql Rpc

namespace CreatorQueries

/-- A creator row is one that a query for the creator asks for. -/
def Names (creator : Bytes) (verified : Option Bool) (row : AssetCreatorRow) : Prop :=
  row.creator = creator ∧ ∀ v ∈ verified, row.verified = v

instance (creator : Bytes) (verified : Option Bool) : DecidablePred (Names creator verified) := fun _ =>
  inferInstanceAs (Decidable (_ ∧ _))

section States
variable (db : Db) (creator : Bytes) (verified : Option Bool) (id : Pubkey)

/-- The current creators of the asset include the creator. -/
def Lists : Prop := ∃ row ∈ shownCreators db id, Names creator verified row

/-- Some row of the asset names the creator, current or not. -/
def Stored : Prop := ∃ position row, db.assetCreators.lookup (id, position) = some row ∧ Names creator verified row

/-- Only rows of superseded lists name the creator. -/
def Outdated : Prop := Stored db creator verified id ∧ ¬ Lists db creator verified id

instance : Decidable (Lists db creator verified id) := inferInstanceAs (Decidable (∃ row ∈ _, Names _ _ row))

end States

/-- Every asset that a listing returns has the creator among its current ones. -/
def Current (db : Db) (creator : Bytes) (verified : Option Bool)
    (listing : ListRequest → Except DasApiError AssetList) : Prop :=
  ∀ request answer, listing request = .ok answer →
    ∀ item ∈ answer.items, ∃ id, item.id = id.toBase58 ∧ Lists db creator verified id

theorem retainGreatest_subset (column : AssetCreatorRow → Option Nat) (value : Option (Option Nat))
    (creators : List AssetCreatorRow) : retainGreatest column value creators ⊆ creators := by
  cases value with
  | none => exact List.Subset.refl _
  | some value => exact List.filter_subset_self creators

theorem filterOutStaleCreators_subset (creators : List AssetCreatorRow) :
    filterOutStaleCreators creators ⊆ creators := by
  unfold filterOutStaleCreators
  split
  · exact List.nil_subset _
  · exact fun _ kept => retainGreatest_subset _ _ _ (retainGreatest_subset _ _ _ kept)

section Rows
variable {db : Db} {creator : Bytes} {verified : Option Bool} {id : Pubkey}

theorem stored_of_lists (lists : Lists db creator verified id) : Stored db creator verified id := by
  obtain ⟨row, shown, names⟩ := lists
  obtain ⟨position, -, isRow⟩ := List.mem_filterMap.mp (filterOutStaleCreators_subset _ shown)
  exact ⟨position, row, isRow, names⟩

theorem lists_iff : Lists db creator verified id ↔
    Stored db creator verified id ∧ ¬ Outdated db creator verified id := by
  constructor
  · intro lists
    exact ⟨stored_of_lists lists, fun outdated => outdated.2 lists⟩
  · rintro ⟨stored, current⟩
    by_contra unlisted
    exact current ⟨stored, unlisted⟩

/-- The creator row beside an asset is one of its own. -/
theorem foldl_join_creator (joins : List Relation) {rows : List Joined}
    (own : ∀ row ∈ rows, ∀ c ∈ row.creator, ∃ position, db.assetCreators.lookup (row.asset.1, position) = some c) :
    ∀ row ∈ joins.foldl (fun rows relation => relation.join db rows) rows,
      ∀ c ∈ row.creator, ∃ position, db.assetCreators.lookup (row.asset.1, position) = some c := by
  induction joins generalizing rows with
  | nil => exact own
  | cons relation rest ih =>
    refine ih (fun row inJoin c isCreator => ?_)
    cases relation with
    | assetData | assetAuthority | assetGrouping | tokenAccounts =>
      obtain ⟨pair, inPairs, rfl⟩ := List.mem_map.mp inJoin
      exact own pair.1 (mem_leftJoin.mp inPairs).1 c isCreator
    | assetCreators =>
      obtain ⟨⟨left, partner⟩, inPairs, rfl⟩ := List.mem_map.mp inJoin
      obtain ⟨entry, isPartner, rfl⟩ := Option.map_eq_some_iff.mp isCreator
      subst isPartner
      obtain ⟨-, ⟨other, inTable, sameAsset, same⟩ | ⟨absent, -⟩⟩ := mem_leftJoin.mp inPairs
      · cases same
        rw [decide_eq_true_eq] at sameAsset
        refine ⟨entry.1.2, ?_⟩
        show db.assetCreators.lookup (left.asset.1, entry.1.2) = some entry.2
        rw [sameAsset]
        exact AList.mem_lookup_iff.mpr inTable
      · cases absent

theorem joined_creator {joins : List Relation} {row : Joined} (member : row ∈ joined db joins) {c : AssetCreatorRow}
    (isCreator : row.creator = some c) : ∃ position, db.assetCreators.lookup (row.asset.1, position) = some c := by
  refine foldl_join_creator joins (fun row inRows c isCreator => ?_) row member c isCreator
  obtain ⟨asset, -, rfl⟩ := List.mem_map.mp inRows
  cases isCreator

end Rows

section ByCreator
variable {db : ReadDb}

/-- What `onlyVerified` asks of a creator row. -/
def asked (onlyVerified : Option Bool) : Option Bool := if onlyVerified.getD false then some true else none

theorem asked_iff {onlyVerified : Option Bool} {verified : Bool} :
    (∀ v ∈ asked onlyVerified, verified = v) ↔ (onlyVerified.getD false = true → verified = true) := by
  unfold asked
  split
  · rename_i set
    simp [set]
  · rename_i unset
    simp [unset]

theorem mem_joined_creators {id : Pubkey} {asset : AssetRow} (isAsset : db.asset.lookup id = some asset)
    {position : Nat} {c : AssetCreatorRow} (stored : db.assetCreators.lookup (id, position) = some c) :
    { asset := (id, asset), creator := some c } ∈ joined db.toDb [.assetCreators] := by
  refine List.mem_map.mpr ⟨({ asset := (id, asset) }, some ⟨(id, position), c⟩), mem_leftJoin.mpr ⟨?_, Or.inl ?_⟩, rfl⟩
  · exact List.mem_map.mpr ⟨(id, asset), mem_assets.mpr isAsset, rfl⟩
  · exact ⟨⟨(id, position), c⟩, AList.mem_lookup_iff.mp stored, decide_eq_true rfl, rfl⟩

theorem matches_byCreator {creator : Bytes} {onlyVerified : Option Bool} {id : Pubkey} :
    SearchAssets.Matches db (creatorCondition creator (onlyVerified.getD false)) [.assetCreators] id ↔
      0 < (db.assetOrDefault id).supply ∧ (db.asset.lookup id).isSome ∧
        Stored db.toDb creator (asked onlyVerified) id := by
  constructor
  · rintro ⟨row, inJoin, rfl, holds⟩
    obtain ⟨⟨c, isCreator, sameCreator, verified⟩, supplied⟩ := Listing.holds_creatorCondition.mp holds
    obtain ⟨position, stored⟩ := joined_creator inJoin isCreator
    have asset := joined_stored inJoin
    refine ⟨?_, by rw [asset]; rfl, position, c, stored, sameCreator, asked_iff.mpr verified⟩
    rwa [Db.assetOrDefault, asset, Option.getD_some]
  · rintro ⟨supplied, present, position, c, stored, sameCreator, verified⟩
    obtain ⟨asset, isAsset⟩ := Option.isSome_iff_exists.mp present
    rw [Db.assetOrDefault, isAsset, Option.getD_some] at supplied
    exact ⟨_, mem_joined_creators isAsset stored, rfl, Listing.holds_creatorCondition.mpr
      ⟨⟨c, rfl, sameCreator, asked_iff.mp verified⟩, supplied⟩⟩

theorem listsCreator_iff {creator : Bytes} {id : Pubkey} :
    listsCreator db.toDb (some creator) id = true ↔ Lists db.toDb creator none id := by
  rw [listsCreator, Option.all_some, List.any_eq_true]
  simp [Lists, Names]

/-- By creator, an asset is returned for a superseded row only if the creator is
still listed, but perhaps no longer as verified. -/
theorem byCreator_current_iff [Crates] (linked : LinkedToOwn db.toDb) (creator : Address) (onlyVerified : Option Bool) :
    Current db.toDb creator.key.bytes (asked onlyVerified) (requestAssetsByCreator db creator.text onlyVerified) ↔
      (onlyVerified = some true → ∀ id, 0 < (db.assetOrDefault id).supply → Presentable db id →
        Lists db.toDb creator.key.bytes none id → ¬ Outdated db.toDb creator.key.bytes (some true) id) := by
  have asListing : requestAssetsByCreator db creator.text onlyVerified =
      answerListing (findScope db (creatorCondition creator.key.bytes (onlyVerified.getD false)) [.assetCreators]
        (some creator.key.bytes)) := by
    funext request
    rw [requestAssetsByCreator, validatePubkey_address]
    rfl
  rw [Current, asListing, answers_iff linked]
  constructor
  · rintro current rfl id supplied presentable lists ⟨stored, unlisted⟩
    have present : (db.asset.lookup id).isSome := by
      have data := presentable.1
      rw [hasData] at data
      cases isAsset : db.asset.lookup id with
      | none =>
        rw [isAsset] at data
        cases data
      | some asset => rfl
    exact unlisted (current (List.nodup_singleton _) id (matches_byCreator.mpr ⟨supplied, present, stored⟩)
      presentable (listsCreator_iff.mpr lists))
  · intro condition _ id isMatch presentable lists
    obtain ⟨supplied, -, stored⟩ := matches_byCreator.mp isMatch
    rw [listsCreator_iff] at lists
    rcases onlyVerified with _ | verified
    · exact lists
    · cases verified with
      | false => exact lists
      | true => exact lists_iff.mpr ⟨stored, condition rfl id supplied presentable lists⟩

end ByCreator

section Search
variable [Postgres] {db : ReadDb}

/-- The search combines its conditions with `OR`, or is negated. -/
def Loose (payload : SearchAssets) : Prop := payload.negate = some true ∨ payload.conditionType = some .any

/-- The joined rows that a search selects. -/
def Selects (db : ReadDb) (payload : SearchAssets) (row : Joined) : Prop :=
  ∃ query condition joins, payload.query = .ok query ∧ query.conditions = .ok (condition, joins) ∧ joins.Nodup ∧
    row ∈ joined db.toDb joins ∧ (condition row).holds = true

omit [Postgres] in
theorem query_fields {payload : SearchAssets} {query : SearchAssetsQuery} (asked : payload.query = .ok query)
    (creator : Address) (byCreator : payload.creatorAddress = some creator.text) :
    query.creatorAddress = some creator.key ∧ query.creatorVerified = payload.creatorVerified ∧
      query.negate = payload.negate ∧ query.conditionType = payload.conditionType := by
  have read : validateOptPubkey payload.creatorAddress = .ok (some creator.key) := by
    rw [byCreator]
    exact validateOptPubkey_address (some creator)
  unfold SearchAssets.query at asked
  obtain ⟨owner, -, asked⟩ := Loops.bind_eq_ok.mp asked
  obtain ⟨name, -, asked⟩ := Loops.bind_eq_ok.mp asked
  obtain ⟨other, isOther, asked⟩ := Loops.bind_eq_ok.mp asked
  obtain ⟨delegate, -, asked⟩ := Loops.bind_eq_ok.mp asked
  obtain ⟨authority, -, asked⟩ := Loops.bind_eq_ok.mp asked
  obtain ⟨supplyMint, -, asked⟩ := Loops.bind_eq_ok.mp asked
  obtain ⟨royaltyTarget, -, asked⟩ := Loops.bind_eq_ok.mp asked
  rw [read] at isOther
  cases isOther
  cases asked
  exact ⟨rfl, rfl, rfl, rfl⟩

/-- A search that is not loose selects rows that satisfy each of its terms. -/
theorem terms_hold {query : SearchAssetsQuery} {condition : Joined → Truth} {joins : List Relation}
    (built : query.conditions = .ok (condition, joins)) (straight : query.negate ≠ some true)
    (conjunctive : query.conditionType ≠ some .any) {row : Joined} (holds : (condition row).holds = true) :
    ∀ term ∈ query.terms row, term.holds = true := by
  obtain ⟨-, name, -, isCondition⟩ := SearchAssetsQuery.conditions_cases built
  rw [isCondition, if_neg straight, SearchAssetsQuery.combine_all conjunctive, Truth.holds_all, List.all_append,
    Bool.and_eq_true] at holds
  exact List.all_eq_true.mp holds.1

/-- A search that is not loose selects rows beside a creator row as asked for. -/
theorem selects_stored {payload : SearchAssets} {creator : Address}
    (byCreator : payload.creatorAddress = some creator.text) (strict : ¬ Loose payload) {row : Joined}
    (selected : Selects db payload row) : Stored db.toDb creator.key.bytes payload.creatorVerified row.asset.1 := by
  obtain ⟨query, condition, joins, asked, built, -, inJoin, holds⟩ := selected
  obtain ⟨address, verified, negate, conditionType⟩ := query_fields asked creator byCreator
  obtain ⟨straight, conjunctive⟩ := not_or.mp strict
  have terms := terms_hold built (by rwa [negate]) (by rwa [conditionType]) holds
  have byAddress : (Sql.eq (row.creator.map AssetCreatorRow.creator) (some creator.key.bytes)).holds = true := by
    refine terms _ ?_
    delta SearchAssetsQuery.terms
    iterate 4 refine List.mem_append_left _ ?_
    refine List.mem_append_right _ ?_
    rw [address]
    exact List.mem_singleton_self _
  have byVerified : ∀ v ∈ payload.creatorVerified,
      (Sql.eq (row.creator.map AssetCreatorRow.verified) (some v)).holds = true := by
    intro v given
    refine terms _ ?_
    delta SearchAssetsQuery.terms
    iterate 3 refine List.mem_append_left _ ?_
    refine List.mem_append_right _ ?_
    rw [verified, Option.mem_def.mp given]
    exact List.mem_singleton_self _
  rw [Sql.holds_eq, decide_eq_true_eq, Option.map_eq_some_iff] at byAddress
  obtain ⟨c, isCreator, sameCreator⟩ := byAddress
  obtain ⟨position, stored⟩ := joined_creator inJoin isCreator
  refine ⟨position, c, stored, sameCreator, fun v given => ?_⟩
  have sameVerified := byVerified v given
  rw [isCreator, Sql.holds_eq, decide_eq_true_eq] at sameVerified
  exact Option.some.inj sameVerified

omit [Postgres] in
/-- A listing whose query fails returns nothing. -/
theorem answerListing_failed [Crates] {scope : Scope} {problem : DbErr}
    (failed : ∀ column direction pagination limit options,
      scope column direction pagination limit options = .error problem) (request : ListRequest) (answer : AssetList) :
    answerListing scope request ≠ .ok answer := by
  intro answered
  obtain ⟨pageOptions, -, listed⟩ := Loops.bind_eq_ok.mp answered
  cases paged : createPagination pageOptions with
  | error other =>
    simp only [listAssets, paged, bind, Except.bind, Except.mapError] at listed
    cases listed
  | ok pagination =>
    simp only [listAssets, paged, failed, bind, Except.bind, Except.mapError] at listed
    cases listed

/-- A search returns assets for superseded rows, too. -/
theorem search_current_iff [Crates] (linked : LinkedToOwn db.toDb) (creator : Address) (payload : SearchAssets)
    (byCreator : payload.creatorAddress = some creator.text) :
    Current db.toDb creator.key.bytes payload.creatorVerified (requestSearchAssets db payload) ↔
      ∀ row, Selects db payload row → Presentable db row.asset.1 →
        (Loose payload → Stored db.toDb creator.key.bytes payload.creatorVerified row.asset.1) ∧
          ¬ Outdated db.toDb creator.key.bytes payload.creatorVerified row.asset.1 := by
  have onRows : Current db.toDb creator.key.bytes payload.creatorVerified (requestSearchAssets db payload) ↔
      ∀ row, Selects db payload row → Presentable db row.asset.1 →
        Lists db.toDb creator.key.bytes payload.creatorVerified row.asset.1 := by
    cases asked : payload.query with
    | error problem =>
      constructor
      · rintro - row ⟨query, -, -, isQuery, -⟩
        rw [asked] at isQuery
        cases isQuery
      · intro _ request answer answered
        rw [requestSearchAssets, asked] at answered
        cases answered
    | ok query =>
      have asListing : requestSearchAssets db payload = answerListing (searchScope db query) := by
        funext request
        rw [requestSearchAssets, asked]
        rfl
      cases built : query.conditions with
      | error problem =>
        have failed : ∀ column direction pagination limit options,
            searchScope db query column direction pagination limit options = .error problem := by
          intro column direction pagination limit options
          rw [searchScope, built]
          rfl
        constructor
        · rintro - row ⟨other, condition, joins, isQuery, isBuilt, -⟩
          rw [asked] at isQuery
          cases isQuery
          rw [built] at isBuilt
          cases isBuilt
        · intro _ request answer answered
          rw [asListing] at answered
          exact absurd answered (answerListing_failed failed request answer)
      | ok found =>
        obtain ⟨condition, joins⟩ := found
        have scope : searchScope db query = findScope db condition joins none := by
          funext column direction pagination limit options
          rw [searchScope, built]
          rfl
        rw [Current, asListing, scope, answers_iff linked]
        constructor
        · rintro current row ⟨other, condition', joins', isQuery, isBuilt, once, inJoin, holds⟩ presentable
          rw [asked] at isQuery
          cases isQuery
          rw [built] at isBuilt
          cases isBuilt
          exact current once row.asset.1 ⟨row, inJoin, rfl, holds⟩ presentable rfl
        · rintro current once id ⟨row, inJoin, rfl, holds⟩ presentable -
          exact current row ⟨query, condition, joins, asked, built, once, inJoin, holds⟩ presentable
  rw [onRows]
  refine forall_congr' (fun row => forall_congr' (fun selected => forall_congr' (fun _ => ?_)))
  rw [lists_iff]
  refine and_congr_left (fun _ => ⟨fun stored _ => stored, fun stored => ?_⟩)
  by_cases loose : Loose payload
  · exact stored loose
  · exact selects_stored byCreator loose selected

end Search

namespace Example

def save (entries : List Creator) (short : entries.length < 2 ^ 15) (slot : Nat) : Operation :=
  .account
    { account := { slot, pubkey := .fill 9, owner := .fill 6 }
      parsed := .tokenMetadata (.metadataV1 (TokenMetadata.Example.metadata 500 true (some .nonFungible)
        (some ⟨entries, short⟩) none)) }

def created : Operation := save [⟨.fill 1, true, 40⟩, ⟨.fill 2, true, 30⟩, ⟨.fill 3, true, 30⟩] (by decide) 10

/-- One creator is left, and not verified any more. -/
def changed : Operation := save [⟨.fill 2, false, 100⟩] (by decide) 20

def indexed (operations : List Operation) : ReadDb where
  toDb := operations.foldl Operation.run {}

def kept : Address := .ofKey (.fill 2)

def removed : Address := .ofKey (.fill 3)

def byCreator (creator : Address) : SearchAssets := { creatorAddress := some creator.text }

theorem selects_byCreator {db : ReadDb} {creator : Address} {id : Pubkey} {asset : AssetRow}
    (isAsset : db.asset.lookup id = some asset) {position : Nat} {c : AssetCreatorRow}
    (stored : db.assetCreators.lookup (id, position) = some c) (named : c.creator = creator.key.bytes)
    (supply : asset.supply = 1) (ownerType : asset.ownerType = .single) :
    @Selects .refusing db (byCreator creator) { asset := (id, asset), creator := some c } := by
  have asked : (byCreator creator).query = .ok { creatorAddress := some creator.key } := by
    have read : validateOptPubkey (some creator.text) = .ok (some creator.key) := validateOptPubkey_address (some creator)
    unfold SearchAssets.query byCreator
    dsimp only
    rw [read]
    rfl
  refine ⟨{ creatorAddress := some creator.key }, fun row => Truth.all (SearchAssetsQuery.terms row
    { creatorAddress := some creator.key } ++ []), [.assetCreators], asked, rfl, List.nodup_singleton _,
    mem_joined_creators isAsset stored, ?_⟩
  have terms : SearchAssetsQuery.terms { asset := (id, asset), creator := some c }
      { creatorAddress := some creator.key } =
      [SearchAssetsQuery.supplyTerm { asset := (id, asset), creator := some c } { creatorAddress := some creator.key },
        SearchAssetsQuery.ownerTypeTerm { asset := (id, asset), creator := some c }
          { creatorAddress := some creator.key },
        Sql.eq (some c.creator) (some creator.key.bytes)] := by
    delta SearchAssetsQuery.terms
    simp
  dsimp only
  rw [terms, Truth.holds_all]
  simp [SearchAssetsQuery.supplyTerm, SearchAssetsQuery.ownerTypeTerm, Sql.le, Sql.compare, supply, ownerType, named]

theorem not_outdated {creator : Bytes} {verified : Option Bool} (id : Pubkey) :
    ¬ Outdated (indexed [created]).toDb creator verified id := by
  rintro ⟨⟨position, row, stored, names⟩, unlisted⟩
  have allShown : ∀ entry ∈ (indexed [created]).assetCreators.entries,
      entry.1.1 = .fill 7 ∧ entry.2 ∈ shownCreators (indexed [created]).toDb (.fill 7) := by decide
  obtain ⟨isAsset, shown⟩ := allShown ⟨(id, position), row⟩ (AList.mem_lookup_iff.mp stored)
  dsimp only at isAsset
  subst isAsset
  exact unlisted ⟨row, shown, names⟩

end Example

end CreatorQueries

end DasIndexer
