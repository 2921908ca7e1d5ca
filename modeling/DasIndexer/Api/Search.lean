import DasIndexer.Api.Listings

namespace DasIndexer
open Sql

inductive TokenTypeClass where
  | fungible
  | nonFungible
  | compressed
  | nft
  | all
  deriving DecidableEq, Repr

inductive SearchConditionType where
  | all
  | any
  deriving DecidableEq, Repr

structure SearchAssetsQuery where
  negate : Option Bool := none
  conditionType : Option SearchConditionType := none
  interface : Option Rpc.Interface := none
  specificationVersion : Option SpecificationVersions := none
  specificationAssetClass : Option SpecificationAssetClass := none
  ownerAddress : Option Pubkey := none
  ownerType : Option OwnerType := none
  creatorAddress : Option Pubkey := none
  creatorVerified : Option Bool := none
  authorityAddress : Option Pubkey := none
  grouping : Option (String × String) := none
  delegate : Option Pubkey := none
  frozen : Option Bool := none
  supply : Option Nat := none
  supplyMint : Option Pubkey := none
  compressed : Option Bool := none
  compressible : Option Bool := none
  royaltyTargetType : Option RoyaltyTargetType := none
  royaltyTarget : Option Pubkey := none
  royaltyAmount : Option Nat := none
  burnt : Option Bool := none
  jsonUri : Option String := none
  name : Option Bytes := none
  tokenType : Option TokenTypeClass := none

/-- The part of Postgres that reads conditions given as text. -/
class Postgres where
  /-- What the condition says of a row; `none` when the statement is refused. -/
  custom : String → Option (Joined → Truth)

/-- A Postgres that refuses every condition given as text. -/
@[reducible] def Postgres.refusing : Postgres := ⟨fun _ => none⟩

namespace SearchAssetsQuery

def validate (query : SearchAssetsQuery) : Except DbErr Unit :=
  if query.tokenType.isSome then
    if query.ownerType.isSome then
      .error (.custom "`ownerType` is not supported when using `tokenType` field")
    else if query.ownerAddress.isNone then
      .error (.custom "Must provide `ownerAddress` when using `tokenType` field")
    else if query.interface.isSome then
      .error (.custom "`interface` is not supported when using `tokenType` field")
    else .ok ()
  else .ok ()

section Terms
variable (row : Joined)

def hasClass (assetClass : SpecificationAssetClass) : Truth :=
  Sql.eq row.asset.2.specificationAssetClass (some assetClass)

def tokenTypeCondition : TokenTypeClass → Truth
  | .compressed => Sql.isNotNull row.asset.2.treeId
  | .nft | .nonFungible => Sql.isNull row.asset.2.treeId &&&
      (hasClass row .nft ||| hasClass row .mplCoreAsset ||| hasClass row .programmableNft |||
        hasClass row .mplCoreCollection ||| hasClass row .nonTransferableNft ||| hasClass row .identityNft |||
        hasClass row .print ||| hasClass row .printableNft ||| hasClass row .transferRestrictedNft)
  | .fungible => hasClass row .fungibleAsset ||| hasClass row .fungibleToken
  | .all => Sql.isNotNull row.asset.2.specificationAssetClass

/-- Whether the owner is also looked for among the token accounts. -/
def joinsTokenAccounts (query : SearchAssetsQuery) : Bool :=
  query.ownerAddress.isSome && (query.tokenType = some .fungible || query.tokenType = some .all)

def ownerTerm (query : SearchAssetsQuery) (owner : Pubkey) : Truth :=
  if query.joinsTokenAccounts then
    Sql.eq row.asset.2.owner (some owner.bytes) |||
      Sql.eq (row.tokenAccount.map TokenAccountRow.owner) (some owner)
  else Sql.eq row.asset.2.owner (some owner.bytes)

/-- Malformed tokens, with supply 0 and not burnt, are left out by default. -/
def supplyTerm (query : SearchAssetsQuery) : Truth :=
  match query.supply with
  | some supply => Sql.eq (some row.asset.2.supply) (some supply)
  | none => Sql.ne (some row.asset.2.supply) (some 0) ||| Sql.eq (some row.asset.2.burnt) (some true)

/-- Without a type of owner or token, only NFTs are searched. -/
def ownerTypeTerm (query : SearchAssetsQuery) : Truth :=
  match query.ownerType with
  | some ownerType => Sql.eq (some row.asset.2.ownerType) (some ownerType)
  | none => match query.tokenType with
    | some .fungible => Sql.eq (some row.asset.2.ownerType) (some .token) &&&
        (hasClass row .fungibleToken ||| hasClass row .fungibleAsset)
    | some .all => Sql.isNotNull row.asset.2.specificationAssetClass
    | _ => Sql.eq (some row.asset.2.ownerType) (some .single) &&& Sql.le (some row.asset.2.supply) (some 1)

/-- All terms but that of the name, in the order in which they are added. -/
def terms (query : SearchAssetsQuery) : List Truth :=
  let asset := row.asset.2
  (query.specificationVersion.map (fun x => Sql.eq asset.specificationVersion (some x))).toList ++
  (query.tokenType.map (tokenTypeCondition row)).toList ++
  (query.specificationAssetClass.map (hasClass row)).toList ++
  (query.ownerAddress.map (ownerTerm row query)).toList ++
  (query.delegate.map (fun x => Sql.eq asset.delegate (some x.bytes))).toList ++
  (query.frozen.map (fun x => Sql.eq (some asset.frozen) (some x))).toList ++
  (query.supplyMint.map (fun x => Sql.eq asset.supplyMint (some x))).toList ++
  (query.compressed.map (fun x => Sql.eq (some asset.compressed) (some x))).toList ++
  (query.compressible.map (fun x => Sql.eq (some asset.compressible) (some x))).toList ++
  (query.royaltyTargetType.map (fun x => Sql.eq (some asset.royaltyTargetType) (some x))).toList ++
  (query.royaltyTarget.map (fun x => Sql.eq asset.royaltyTarget (some x.bytes))).toList ++
  (query.royaltyAmount.map (fun x => Sql.eq (some asset.royaltyAmount) (some x))).toList ++
  (query.burnt.map (fun x => Sql.eq (some asset.burnt) (some x))).toList ++
  [supplyTerm row query, ownerTypeTerm row query] ++
  (query.creatorAddress.map (fun x => Sql.eq (row.creator.map AssetCreatorRow.creator) (some x.bytes))).toList ++
  (query.creatorVerified.map (fun x => Sql.eq (row.creator.map AssetCreatorRow.verified) (some x))).toList ++
  (query.authorityAddress.map (fun x => Sql.eq (row.authority.map AssetAuthorityRow.authority) (some x.bytes))).toList ++
  (query.grouping.map (fun g => Sql.eq (row.grouping.map Prod.fst) (some g.1) &&&
    Sql.eq (row.grouping.bind (fun group => group.2.groupValue)) (some g.2))).toList ++
  (query.jsonUri.map (fun x => Sql.eq (row.data.map AssetDataRow.metadataUrl) (some x))).toList

end Terms

/-- The name is pasted into the text of the condition. -/
def nameExpr (name : String) : String := "chain_data->>'name' LIKE '%" ++ name ++ "%'"

def nameCondition [Postgres] (name : Bytes) : Except DbErr (Joined → Truth) :=
  match Rpc.utf8Text name with
  | none => .error (.custom "Could not convert raw name bytes into string for comparison")
  | some name => match Postgres.custom (nameExpr name) with
    | some condition => .ok condition
    | none => .error (.query "syntax error")

def joins (query : SearchAssetsQuery) : List Relation :=
  (if query.joinsTokenAccounts then [Relation.tokenAccounts] else []) ++
  (if query.creatorAddress.isSome || query.creatorVerified.isSome then [Relation.assetCreators] else []) ++
  (if query.authorityAddress.isSome then [Relation.assetAuthority] else []) ++
  (if query.grouping.isSome then [Relation.assetGrouping] else []) ++
  (if query.jsonUri.isSome then [Relation.assetData] else []) ++
  (if query.name.isSome then [Relation.assetData] else [])

/-- The condition with the joins it needs. -/
def conditions [Postgres] (query : SearchAssetsQuery) : Except DbErr ((Joined → Truth) × List Relation) := do
  query.validate
  let name ← query.name.mapM nameCondition
  let combine := match query.conditionType with
    | some .any => Truth.any
    | some .all => Truth.all
    | none => Truth.all
  let condition := fun row => combine (query.terms row ++ (name.map (fun condition => condition row)).toList)
  return (if query.negate = some true then fun row => (condition row).not else condition, query.joins)

/-- A table is joined twice exactly when the address of the metadata and the name
are both searched for. -/
theorem joins_nodup_iff (query : SearchAssetsQuery) :
    query.joins.Nodup ↔ ¬ (query.jsonUri.isSome = true ∧ query.name.isSome = true) := by
  have one : ∀ (joins : Bool) (relation : Relation), (if joins then [relation] else []).Sublist [relation] := by
    intro joins relation
    cases joins with
    | false => exact List.nil_sublist _
    | true => exact List.Sublist.refl _
  have front := (((one query.joinsTokenAccounts .tokenAccounts).append
    (one (query.creatorAddress.isSome || query.creatorVerified.isSome) .assetCreators)).append
    (one query.authorityAddress.isSome .assetAuthority)).append (one query.grouping.isSome .assetGrouping)
  rw [joins]
  constructor
  · rintro distinct ⟨byUri, byName⟩
    rw [byUri, byName] at distinct
    exact (List.nodup_append.mp distinct).2.2 .assetData (List.mem_append_right _ List.mem_cons_self)
      .assetData List.mem_cons_self rfl
  · intro apart
    have tables : [Relation.tokenAccounts, .assetCreators, .assetAuthority, .assetGrouping, .assetData].Nodup := by
      decide
    refine tables.sublist ?_
    rw [List.append_assoc]
    refine front.append ?_
    cases byUri : query.jsonUri.isSome with
    | false => exact one query.name.isSome .assetData
    | true =>
      have unnamed : query.name.isSome = false := Bool.eq_false_iff.mpr (fun byName => apart ⟨byUri, byName⟩)
      rw [unnamed]
      exact List.Sublist.refl _

theorem conditions_joins [Postgres] {query : SearchAssetsQuery} {condition : Joined → Truth} {joins : List Relation}
    (built : query.conditions = .ok (condition, joins)) : joins = query.joins := by
  unfold conditions at built
  cases valid : query.validate with
  | error problem =>
    rw [valid] at built
    cases built
  | ok _ =>
    rw [valid] at built
    cases named : query.name.mapM nameCondition with
    | error problem =>
      rw [named] at built
      cases built
    | ok name =>
      rw [named] at built
      exact (Prod.mk.inj (Except.ok.inj built)).2.symm

end SearchAssetsQuery

end DasIndexer
