import DasIndexer.Api.Search
import DasIndexer.Lib.Loops

namespace DasIndexer.SearchAssetsQuery
open Sql

/-- What a search without a supply leaves out by default: malformed tokens, and
without a type of owner or token everything that is no NFT. -/
structure Default (query : SearchAssetsQuery) (row : Joined) : Prop where
  wellFormed : ¬ (row.asset.2.supply = 0 ∧ row.asset.2.burnt = false)
  nft : query.ownerType = none → query.tokenType = none →
    row.asset.2.ownerType = .single ∧ row.asset.2.supply ≤ 1

def combine (query : SearchAssetsQuery) (terms : List Truth) : Truth :=
  if query.conditionType = some .any then Truth.any terms else Truth.all terms

section Conditions
variable [Postgres] {query : SearchAssetsQuery} {condition : Joined → Truth} {joins : List Relation}

/-- The condition of a valid search on a row. -/
theorem conditions_of_valid {name : Option (Joined → Truth)} (valid : query.validate = .ok ())
    (named : query.name.mapM nameCondition = .ok name) :
    query.conditions = .ok (fun row =>
      if query.negate = some true then
        (query.combine (query.terms row ++ (name.map (fun condition => condition row)).toList)).not
      else query.combine (query.terms row ++ (name.map (fun condition => condition row)).toList), query.joins) := by
  refine Loops.bind_eq_ok.mpr ⟨(), valid, Loops.bind_eq_ok.mpr ⟨name, named, ?_⟩⟩
  refine congrArg Except.ok (Prod.ext (funext fun row => ?_) rfl)
  unfold combine
  by_cases negated : query.negate = some true
  · simp only [if_pos negated]
    cases query.conditionType with
    | none => rfl
    | some type => cases type <;> rfl
  · simp only [if_neg negated]
    cases query.conditionType with
    | none => rfl
    | some type => cases type <;> rfl

theorem conditions_cases (built : query.conditions = .ok (condition, joins)) :
    query.validate = .ok () ∧ ∃ name, query.name.mapM nameCondition = .ok name ∧
      ∀ row, condition row =
        if query.negate = some true then
          (query.combine (query.terms row ++ (name.map (fun condition => condition row)).toList)).not
        else query.combine (query.terms row ++ (name.map (fun condition => condition row)).toList) := by
  have parts := built
  unfold SearchAssetsQuery.conditions at parts
  obtain ⟨_, valid, parts⟩ := Loops.bind_eq_ok.mp parts
  obtain ⟨name, named, -⟩ := Loops.bind_eq_ok.mp parts
  rw [conditions_of_valid valid named] at built
  cases built
  exact ⟨valid, name, named, fun row => rfl⟩

end Conditions

/-- No asset fails all the filters at once. -/
def Exclusive [Postgres] (query : SearchAssetsQuery) : Prop :=
  query.burnt = some false ∨ (query.tokenType = some .all ∧ query.specificationAssetClass.isSome) ∨
    ∃ name condition, query.name = some name ∧ nameCondition name = .ok condition ∧
      ∀ row, (∀ term ∈ query.terms row, term = .no) → condition row ≠ .no

/-- The defaults are conditions beside the filters, or nothing is found at all. -/
def KeepsDefaults [Postgres] (query : SearchAssetsQuery) : Prop :=
  (query.negate ≠ some true ∧ query.conditionType ≠ some .any) ∨
    (query.negate = some true ∧ query.conditionType = some .any ∧ query.Exclusive)

section Terms
variable {query : SearchAssetsQuery} {row : Joined}

theorem supplyTerm_mem : supplyTerm row query ∈ query.terms row := by
  delta terms
  simp only [List.mem_append, List.mem_cons, true_or, or_true]

theorem ownerTypeTerm_mem : ownerTypeTerm row query ∈ query.terms row := by
  delta terms
  simp only [List.mem_append, List.mem_cons, true_or, or_true]

theorem supplyTerm_holds (unset : query.supply = none) :
    (supplyTerm row query).holds = true ↔ ¬ (row.asset.2.supply = 0 ∧ row.asset.2.burnt = false) := by
  rw [supplyTerm, unset]
  cases row.asset.2.burnt <;> by_cases zero : row.asset.2.supply = 0 <;> simp [zero]

theorem supplyTerm_no (unset : query.supply = none) :
    supplyTerm row query = .no ↔ row.asset.2.supply = 0 ∧ row.asset.2.burnt = false := by
  have known : supplyTerm row query ≠ .null := by
    rw [supplyTerm, unset]
    by_cases zero : row.asset.2.supply = 0
    · rw [zero]
      cases row.asset.2.burnt <;> decide
    · have present : Sql.ne (some row.asset.2.supply) (some 0) = .yes := by simp [Sql.ne, Sql.compare, Truth.ofBool, zero]
      rw [present]
      intro unknown
      cases unknown
  have holds := @supplyTerm_holds query row unset
  cases outcome : supplyTerm row query with
  | yes =>
    rw [outcome] at holds
    refine ⟨fun refuted => ?_, fun malformed => absurd malformed (holds.mp rfl)⟩
    cases refuted
  | no =>
    rw [outcome] at holds
    refine ⟨fun _ => ?_, fun _ => rfl⟩
    by_contra wellFormed
    cases holds.mpr wellFormed
  | null => exact absurd outcome known

theorem default_of_terms (unset : query.supply = none) (holds : ∀ term ∈ query.terms row, term.holds = true) :
    query.Default row := by
  refine ⟨(supplyTerm_holds unset).mp (holds _ supplyTerm_mem), fun anyOwner anyToken => ?_⟩
  have nft := holds _ ownerTypeTerm_mem
  rw [ownerTypeTerm, anyOwner, anyToken] at nft
  simpa [Sql.le, Sql.compare] using nft

/-- A row that a filter rejects for certain. -/
theorem option_no {α : Type} {filter : Option α} {term : α → Truth} (no : ∀ x, filter = some x → term x = .no) :
    ∀ t ∈ (filter.map term).toList, t = .no := by
  intro t member
  cases chosen : filter with
  | none =>
    rw [chosen] at member
    cases member
  | some x =>
    rw [chosen, Option.map_some, Option.toList_some, List.mem_singleton] at member
    rw [member]
    exact no x chosen

theorem exists_other {α : Type} [Nontrivial α] (filter : Option α) : ∃ y, ∀ x, filter = some x → y ≠ x := by
  cases filter with
  | none =>
    obtain ⟨x, -⟩ := exists_pair_ne α
    exact ⟨x, nofun⟩
  | some x =>
    obtain ⟨y, different⟩ := exists_ne x
    exact ⟨y, fun z same => by rw [← Option.some.inj same]; exact different⟩

instance : Nontrivial Pubkey := ⟨.fill 0, .fill 1, by decide⟩

instance : Nontrivial SpecificationVersions := ⟨.v0, .v1, nofun⟩

instance : Nontrivial RoyaltyTargetType := ⟨.single, .fanout, nofun⟩

theorem eq_no_of_other {α : Type} [DecidableEq α] {filter : Option α} {y : α} (other : ∀ x, filter = some x → y ≠ x) :
    ∀ x, filter = some x → Sql.eq (some y) (some x) = .no :=
  fun x chosen => eq_no_iff.mpr ⟨y, rfl, other x chosen⟩

theorem eq_no_of_otherKey {filter : Option Pubkey} {y : Pubkey} (other : ∀ x, filter = some x → y ≠ x) :
    ∀ x, filter = some x → Sql.eq (some y.bytes) (some x.bytes) = .no := by
  refine fun x chosen => eq_no_iff.mpr ⟨y.bytes, rfl, fun same => other x chosen ?_⟩
  cases x
  cases y
  cases same
  rfl

/-- A class that no filter and no type of token asks for. -/
def otherClass (query : SearchAssetsQuery) : Option SpecificationAssetClass :=
  if query.tokenType = some .all then none
  else if query.specificationAssetClass = some .nft then some .print
  else some .nft

theorem otherClass_no (row : Joined) (isOther : row.asset.2.specificationAssetClass = query.otherClass)
    (classed : ¬ (query.tokenType = some .all ∧ query.specificationAssetClass.isSome)) :
    ∀ assetClass, query.specificationAssetClass = some assetClass → hasClass row assetClass = .no := by
  intro assetClass chosen
  have untyped : query.tokenType ≠ some .all := fun all => classed ⟨all, by rw [chosen]; rfl⟩
  rw [hasClass, isOther, otherClass, if_neg untyped, chosen]
  split
  · rename_i isNft
    rw [Option.some.inj isNft]
    rfl
  · rename_i notNft
    exact eq_no_iff.mpr ⟨.nft, rfl, fun same => notNft (congrArg some same.symm)⟩

theorem fungible_no (row : Joined) (isOther : row.asset.2.specificationAssetClass = query.otherClass)
    (type : query.tokenType = some .fungible) :
    hasClass row .fungibleAsset = .no ∧ hasClass row .fungibleToken = .no := by
  rw [hasClass, hasClass, isOther, otherClass, type, if_neg (by decide)]
  split
  · exact ⟨rfl, rfl⟩
  · exact ⟨rfl, rfl⟩

theorem all_no (row : Joined) (isOther : row.asset.2.specificationAssetClass = query.otherClass)
    (type : query.tokenType = some .all) : Sql.isNotNull row.asset.2.specificationAssetClass = .no := by
  rw [isOther, otherClass, if_pos type]
  rfl

/-- Unless two filters exclude each other, some malformed token fails all of them. -/
theorem refuted_row (unset : query.supply = none) (notUnburnt : query.burnt ≠ some false)
    (classed : ¬ (query.tokenType = some .all ∧ query.specificationAssetClass.isSome)) :
    ∃ row, ∀ term ∈ query.terms row, term = .no := by
  obtain ⟨version, otherVersion⟩ := exists_other query.specificationVersion
  obtain ⟨owner, otherOwner⟩ := exists_other query.ownerAddress
  obtain ⟨delegate, otherDelegate⟩ := exists_other query.delegate
  obtain ⟨frozen, otherFrozen⟩ := exists_other query.frozen
  obtain ⟨supplyMint, otherSupplyMint⟩ := exists_other query.supplyMint
  obtain ⟨compressed, otherCompressed⟩ := exists_other query.compressed
  obtain ⟨compressible, otherCompressible⟩ := exists_other query.compressible
  obtain ⟨targetType, otherTargetType⟩ := exists_other query.royaltyTargetType
  obtain ⟨target, otherTarget⟩ := exists_other query.royaltyTarget
  obtain ⟨amount, otherAmount⟩ := exists_other query.royaltyAmount
  obtain ⟨creator, otherCreator⟩ := exists_other query.creatorAddress
  obtain ⟨verified, otherVerified⟩ := exists_other query.creatorVerified
  obtain ⟨authority, otherAuthority⟩ := exists_other query.authorityAddress
  obtain ⟨groupKey, otherKey⟩ := exists_other (query.grouping.map Prod.fst)
  obtain ⟨uri, otherUri⟩ := exists_other query.jsonUri
  let asset : AssetRow :=
    { specificationVersion := some version
      specificationAssetClass := query.otherClass
      owner := some owner.bytes
      ownerType := if query.ownerType = some .unknown then .token else .unknown
      delegate := some delegate.bytes
      frozen
      supply := 0
      supplyMint := some supplyMint
      compressed
      compressible
      treeId := if query.tokenType = some .compressed then none else some owner
      royaltyTargetType := targetType
      royaltyTarget := some target.bytes
      royaltyAmount := amount
      burnt := false }
  let row : Joined :=
    { asset := (owner, asset)
      data := some { chainData := .null, metadataUrl := uri, metadata := .null, slotUpdated := 0 }
      authority := some { authority := authority.bytes, seq := 0, slotUpdated := 0 }
      creator := some { creator := creator.bytes, verified }
      grouping := some (groupKey, {})
      tokenAccount := some
        { mint := owner
          amount := 0
          owner
          frozen
          closeAuthority := none
          delegate := none
          delegatedAmount := 0
          slotUpdated := 0
          tokenProgram := owner
          extensions := none } }
  have tokenType : ∀ type, query.tokenType = some type → tokenTypeCondition row type = .no := by
    intro type chosen
    cases type with
    | compressed =>
      have tree : row.asset.2.treeId = none := if_pos chosen
      rw [tokenTypeCondition, tree]
      rfl
    | nft | nonFungible =>
      have tree : row.asset.2.treeId = some owner := if_neg (by rw [chosen]; decide)
      rw [tokenTypeCondition, tree]
      rfl
    | fungible =>
      obtain ⟨noAsset, noToken⟩ := fungible_no row rfl chosen
      rw [tokenTypeCondition, noAsset, noToken]
      rfl
    | all => exact all_no row rfl chosen
  have ownerNo : ∀ x, query.ownerAddress = some x → ownerTerm row query x = .no := by
    intro x chosen
    have byAsset : Sql.eq row.asset.2.owner (some x.bytes) = .no := eq_no_of_otherKey otherOwner x chosen
    have byAccount : Sql.eq (row.tokenAccount.map TokenAccountRow.owner) (some x) = .no :=
      eq_no_of_other otherOwner x chosen
    rw [ownerTerm, byAsset, byAccount]
    exact ite_self _
  have ownerType : ownerTypeTerm row query = .no := by
    rw [ownerTypeTerm]
    cases given : query.ownerType with
    | some ownerType =>
      refine eq_no_iff.mpr ⟨_, rfl, ?_⟩
      show (if query.ownerType = some .unknown then OwnerType.token else OwnerType.unknown) ≠ ownerType
      rw [given]
      cases ownerType <;> decide
    | none =>
      have unknown : row.asset.2.ownerType = .unknown := if_neg (by rw [given]; decide)
      cases type : query.tokenType with
      | none =>
        rw [unknown]
        rfl
      | some type' =>
        cases type' with
        | fungible =>
          obtain ⟨noAsset, noToken⟩ := fungible_no row rfl type
          rw [unknown, noAsset, noToken]
          rfl
        | all => exact all_no row rfl type
        | _ =>
          rw [unknown]
          rfl
  have burntNo : ∀ x, query.burnt = some x → Sql.eq (some row.asset.2.burnt) (some x) = .no := by
    intro x chosen
    cases x with
    | false => exact absurd chosen notUnburnt
    | true => rfl
  have groupingNo : ∀ g, query.grouping = some g → (Sql.eq (row.grouping.map Prod.fst) (some g.1) &&&
      Sql.eq (row.grouping.bind (fun group => group.2.groupValue)) (some g.2)) = .no := by
    intro g chosen
    have byKey : Sql.eq (row.grouping.map Prod.fst) (some g.1) = .no :=
      eq_no_of_other otherKey g.1 (by rw [chosen]; rfl)
    rw [byKey]
    rfl
  refine ⟨row, fun term member => ?_⟩
  change term ∈ query.terms row at member
  delta terms at member
  simp only [List.mem_append, or_assoc] at member
  rcases member with m | m | m | m | m | m | m | m | m | m | m | m | m | m | m | m | m | m | m
  · exact option_no (eq_no_of_other otherVersion) term m
  · exact option_no tokenType term m
  · exact option_no (otherClass_no row rfl classed) term m
  · exact option_no ownerNo term m
  · exact option_no (eq_no_of_otherKey otherDelegate) term m
  · exact option_no (eq_no_of_other otherFrozen) term m
  · exact option_no (eq_no_of_other otherSupplyMint) term m
  · exact option_no (eq_no_of_other otherCompressed) term m
  · exact option_no (eq_no_of_other otherCompressible) term m
  · exact option_no (eq_no_of_other otherTargetType) term m
  · exact option_no (eq_no_of_otherKey otherTarget) term m
  · exact option_no (eq_no_of_other otherAmount) term m
  · exact option_no burntNo term m
  · rcases List.mem_pair.mp m with isSupply | isOwnerType
    · rw [isSupply]
      exact (supplyTerm_no unset).mpr ⟨rfl, rfl⟩
    · rw [isOwnerType]
      exact ownerType
  · exact option_no (eq_no_of_otherKey otherCreator) term m
  · exact option_no (eq_no_of_other otherVerified) term m
  · exact option_no (eq_no_of_otherKey otherAuthority) term m
  · exact option_no groupingNo term m
  · exact option_no (eq_no_of_other otherUri) term m

/-- The type of owner can be met by a malformed token. -/
theorem malformed_row (query : SearchAssetsQuery) : ∃ row, (ownerTypeTerm row query).holds = true ∧
    row.asset.2.supply = 0 ∧ row.asset.2.burnt = false := by
  have built : ∀ asset : AssetRow, (ownerTypeTerm { asset := (.fill 0, asset) } query).holds = true →
      asset.supply = 0 ∧ asset.burnt = false → ∃ row, (ownerTypeTerm row query).holds = true ∧
        row.asset.2.supply = 0 ∧ row.asset.2.burnt = false :=
    fun asset holds malformed => ⟨{ asset := (.fill 0, asset) }, holds, malformed⟩
  cases given : query.ownerType with
  | some ownerType =>
    refine built { ownerType, supply := 0 } ?_ ⟨rfl, rfl⟩
    rw [ownerTypeTerm, given]
    simp
  | none =>
    cases type : query.tokenType with
    | none =>
      refine built { supply := 0 } ?_ ⟨rfl, rfl⟩
      rw [ownerTypeTerm, given, type]
      rfl
    | some type' =>
      cases type' with
      | fungible =>
        refine built { ownerType := .token, specificationAssetClass := some .fungibleToken, supply := 0 } ?_ ⟨rfl, rfl⟩
        rw [ownerTypeTerm, given, type]
        rfl
      | all =>
        refine built { specificationAssetClass := some .nft, supply := 0 } ?_ ⟨rfl, rfl⟩
        rw [ownerTypeTerm, given, type]
        rfl
      | _ =>
        refine built { supply := 0 } ?_ ⟨rfl, rfl⟩
        rw [ownerTypeTerm, given, type]
        rfl

end Terms

theorem combine_any {query : SearchAssetsQuery} (disjunctive : query.conditionType = some .any) (terms : List Truth) :
    query.combine terms = Truth.any terms := if_pos disjunctive

theorem combine_all {query : SearchAssetsQuery} (conjunctive : query.conditionType ≠ some .any) (terms : List Truth) :
    query.combine terms = Truth.all terms := if_neg conjunctive

end DasIndexer.SearchAssetsQuery
