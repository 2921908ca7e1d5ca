import DasIndexer.Api.Related
import DasIndexer.Api.Search
import DasIndexer.Lib.Paging

namespace DasIndexer
open Sql Rpc

/-- The fields by which every listing is paginated and sorted. -/
structure ListRequest where
  sortBy : Option AssetSorting := none
  limit : Option Nat := none
  page : Option Nat := none
  before : Option String := none
  after : Option String := none
  options : Option Options := none
  cursor : Option String := none

/-- Empty bounds count as absent. -/
def ListRequest.nonemptyBounds (request : ListRequest) : ListRequest :=
  { request with
    before := request.before.filter (fun before => !before.isEmpty)
    after := request.after.filter (fun after => !after.isEmpty) }

/-- A scope: the query behind a listing. -/
abbrev Scope := Option AssetColumn → Order → Pagination → Nat → Options → Except DbErr (List (Pubkey × FullAsset))

section Requests
variable [Crates]

/-- The body of the functions `get_assets_by_..` and `search_assets` of `dapi`. -/
def listAssets (scope : Scope) (sorting : AssetSorting) (pageOptions : PageOptions) (options : Options) :
    Except DbErr AssetList := do
  let pagination ← createPagination pageOptions
  let (sortDirection, sortColumn) := createSorting sorting
  let assets ← scope sortColumn sortDirection pagination pageOptions.limit options
  return buildAssetResponse assets pageOptions.limit pagination options

/-- The body of the same functions of the API, after their own parameters are
validated. -/
def answerListing (scope : Scope) (request : ListRequest) : Except DasApiError AssetList := do
  let sorting := request.sortBy.getD {}
  let options := request.options.getD {}
  let pageOptions ← validatePagination request.limit request.page request.before request.after request.cursor
    (some sorting)
  (listAssets scope sorting pageOptions options).mapError .databaseError

variable (db : ReadDb)

def requestAssetsByOwner (ownerAddress : String) (request : ListRequest) : Except DasApiError AssetList := do
  let owner ← validatePubkey ownerAddress
  answerListing (fun column direction pagination limit options =>
    getAssetsByOwner db column direction pagination limit options owner.bytes) request.nonemptyBounds

def requestAssetsByGroup (groupKey groupValue : String) (request : ListRequest) : Except DasApiError AssetList := do
  let _ ← validatePubkey groupValue
  answerListing (fun column direction pagination limit options =>
    getByGrouping db column direction pagination limit options groupKey groupValue) request.nonemptyBounds

def requestAssetsByCreator (creatorAddress : String) (onlyVerified : Option Bool) (request : ListRequest) :
    Except DasApiError AssetList := do
  let creator ← validatePubkey creatorAddress
  answerListing (fun column direction pagination limit options =>
    getByCreator db column direction pagination limit options creator.bytes (onlyVerified.getD false)) request

def requestAssetsByAuthority (authorityAddress : String) (request : ListRequest) : Except DasApiError AssetList := do
  let authority ← validatePubkey authorityAddress
  answerListing (fun column direction pagination limit options =>
    getByAuthority db column direction pagination limit options authority.bytes) request

/-- `searchAssets` before its addresses are read. -/
structure SearchAssets where
  negate : Option Bool := none
  conditionType : Option SearchConditionType := none
  interface : Option Interface := none
  ownerAddress : Option String := none
  ownerType : Option OwnershipModel := none
  creatorAddress : Option String := none
  creatorVerified : Option Bool := none
  authorityAddress : Option String := none
  grouping : Option (String × String) := none
  delegate : Option String := none
  frozen : Option Bool := none
  supply : Option Nat := none
  supplyMint : Option String := none
  compressed : Option Bool := none
  compressible : Option Bool := none
  royaltyTargetType : Option RoyaltyModel := none
  royaltyTarget : Option String := none
  royaltyAmount : Option Nat := none
  burnt : Option Bool := none
  jsonUri : Option String := none
  name : Option String := none
  tokenType : Option TokenTypeClass := none

def Interface.specification : Interface → SpecificationVersions × SpecificationAssetClass
  | .v1Nft => (.v1, .nft)
  | .legacyNft => (.v0, .nft)
  | .programmableNft => (.v1, .programmableNft)
  | .v1Print => (.v1, .print)
  | .fungibleAsset => (.v1, .fungibleAsset)
  | .mplCoreAsset => (.v1, .mplCoreAsset)
  | .mplCoreCollection => (.v1, .mplCoreCollection)
  | .fungibleToken => (.v1, .fungibleToken)
  | _ => (.v1, .unknown)

def OwnershipModel.toOwnerType : OwnershipModel → OwnerType
  | .single => .single
  | .token => .token

def RoyaltyModel.toTarget : RoyaltyModel → RoyaltyTargetType
  | .creators => .creators
  | .fanout => .fanout
  | .single => .single

def validateSearchWithName (name : Option String) (owner : Option Pubkey) : Except DasApiError (Option Bytes) :=
  match name with
  | some name =>
    if owner.isNone then
      .error (.validationError "Owner address must be provided in order to search assets by name")
    else .ok (some (utf8 name))
  | none => .ok none

def SearchAssets.query (payload : SearchAssets) : Except DasApiError SearchAssetsQuery := do
  let ownerAddress ← validateOptPubkey payload.ownerAddress
  let name ← validateSearchWithName payload.name ownerAddress
  let creatorAddress ← validateOptPubkey payload.creatorAddress
  let delegate ← validateOptPubkey payload.delegate
  let authorityAddress ← validateOptPubkey payload.authorityAddress
  let supplyMint ← validateOptPubkey payload.supplyMint
  let royaltyTarget ← validateOptPubkey payload.royaltyTarget
  return {
    negate := payload.negate
    conditionType := payload.conditionType
    interface := payload.interface
    specificationVersion := payload.interface.map (fun interface => (Interface.specification interface).1)
    specificationAssetClass := payload.interface.map (fun interface => (Interface.specification interface).2)
    ownerAddress
    ownerType := payload.ownerType.map OwnershipModel.toOwnerType
    creatorAddress
    creatorVerified := payload.creatorVerified
    authorityAddress
    grouping := payload.grouping
    delegate
    frozen := payload.frozen
    supply := payload.supply
    supplyMint
    compressed := payload.compressed
    compressible := payload.compressible
    royaltyTargetType := payload.royaltyTargetType.map RoyaltyModel.toTarget
    royaltyTarget
    royaltyAmount := payload.royaltyAmount
    burnt := payload.burnt
    jsonUri := payload.jsonUri
    name
    tokenType := payload.tokenType }

def searchScope [Postgres] (query : SearchAssetsQuery) : Scope :=
  fun column direction pagination limit options => do
    let (condition, joins) ← query.conditions
    getAssetsByCondition db column direction pagination limit options condition joins

def requestSearchAssets [Postgres] (payload : SearchAssets) (request : ListRequest) :
    Except DasApiError AssetList := do
  let query ← payload.query
  answerListing (searchScope db query) request

end Requests

end DasIndexer
