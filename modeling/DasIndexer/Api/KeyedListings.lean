import DasIndexer.Accounts.TokenMetadata
import DasIndexer.Api.Rpc

namespace DasIndexer
open Sql

section TokenAccounts

namespace Rpc

/-- A token account as it is shown; the extensions are not filled in. -/
structure TokenAccount where
  address : String
  mint : String
  amount : Nat
  owner : String
  frozen : Bool
  delegate : Option String
  delegatedAmount : Nat
  closeAuthority : Option String
  extensions : Option Json := none

structure TokenAccountList where
  total : Nat
  limit : Nat
  page : Option Nat
  before : Option String
  after : Option String
  tokenAccounts : List TokenAccount
  cursor : Option String
  errors : List DasError

/-- `as u64` on a 64-bit integer. -/
def toU64 (n : Int) : Nat := (n % 2 ^ 64).toNat

def tokenAccountToRpc (account : Pubkey × TokenAccountRow) (_options : Options) : Except DbErr TokenAccount :=
  .ok {
    address := account.1.toBase58
    mint := account.2.mint.toBase58
    amount := toU64 account.2.amount
    owner := account.2.owner.toBase58
    frozen := account.2.frozen
    delegate := account.2.delegate.map Bytes32.toBase58
    delegatedAmount := toU64 account.2.delegatedAmount
    closeAuthority := account.2.closeAuthority.map Bytes32.toBase58 }

def tokenAccountListToRpc (accounts : List (Pubkey × TokenAccountRow)) (options : Options) :
    List TokenAccount × List DasError :=
  accounts.foldl (fun (items, errors) account =>
    match tokenAccountToRpc account options with
    | .ok item => (items ++ [item], errors)
    | .error problem => (items, errors ++ [{ id := account.1.toBase58, error := dbErrText problem }])) ([], [])

def buildTokenListResponse (accounts : List (Pubkey × TokenAccountRow)) (limit : Nat) (pagination : Pagination)
    (options : Options) : TokenAccountList :=
  let (page, before, after) := echo pagination
  let (items, errors) := tokenAccountListToRpc accounts options
  { total := accounts.length
    limit
    page
    before
    after
    tokenAccounts := items
    cursor := match pagination with
      | .cursor _ => accounts.getLast?.map (fun account => account.1.toBase58)
      | _ => none
    errors }

end Rpc

/-- The condition on a token account. -/
def tokenAccountCondition (ownerAddress mintAddress : Option Pubkey) (options : Options)
    (row : Pubkey × TokenAccountRow) : Truth :=
  Truth.all ((if options.showZeroBalance then Sql.ge (some row.2.amount) (some 0)
      else Sql.gt (some row.2.amount) (some 0)) ::
    (ownerAddress.map (fun owner => Sql.eq (some row.2.owner) (some owner))).toList ++
    (mintAddress.map (fun mint => Sql.eq (some row.2.mint) (some mint))).toList)

/-- The statement has no `ORDER BY`. -/
def tokenAccountSelect (db : Db) (ownerAddress mintAddress : Option Pubkey) (options : Options) :
    Select (Pubkey × TokenAccountRow) where
  source := db.tokenAccounts.entries.map (fun entry => (entry.1, entry.2))
  filters := [tokenAccountCondition ownerAddress mintAddress options]

def getTokenAccounts (db : Db) (ownerAddress mintAddress : Option Pubkey) (pagination : Pagination) (limit : Nat)
    (options : Options) : Except DbErr (List (Pubkey × TokenAccountRow)) :=
  if ownerAddress.isNone && mintAddress.isNone then
    .error (.custom "Either 'ownerAddress' or 'mintAddress' must be provided")
  else
    (paginate pagination limit (tokenAccountSelect db ownerAddress mintAddress options) .asc
      (.bytea (fun row => row.1.bytes))).map Select.all

structure GetTokenAccounts where
  ownerAddress : Option String := none
  mintAddress : Option String := none
  limit : Option Nat := none
  page : Option Nat := none
  before : Option String := none
  after : Option String := none
  options : Option Options := none
  cursor : Option String := none

def requestTokenAccounts (db : Db) (payload : GetTokenAccounts) : Except DasApiError Rpc.TokenAccountList := do
  let ownerAddress ← validateOptPubkey payload.ownerAddress
  let mintAddress ← validateOptPubkey payload.mintAddress
  let options := payload.options.getD {}
  let pageOptions ← validatePagination payload.limit payload.page payload.before payload.after payload.cursor none
  let pagination ← (createPagination pageOptions).mapError .databaseError
  let accounts ← (getTokenAccounts db ownerAddress mintAddress pagination pageOptions.limit options).mapError
    .databaseError
  return Rpc.buildTokenListResponse accounts pageOptions.limit pagination options

end TokenAccounts

section NftEditions

/-- `serde_json::from_value` for the accounts of the token metadata program,
with the text of the error. -/
class EditionCrate where
  readMasterEdition : Json → Except String TokenMetadata.MasterEdition
  readEdition : Json → Except String TokenMetadata.Edition

structure NftEdition where
  mintAddress : String
  editionAddress : String
  editionNumber : Nat

structure NftEditions where
  total : Nat
  limit : Nat
  masterEditionAddress : String
  supply : Nat
  maxSupply : Option Nat
  editions : List NftEdition
  page : Option Nat
  before : Option String
  after : Option String
  cursor : Option String

def attachmentToNftEdition [EditionCrate] (attachment : Pubkey × AttachmentRow) : Except DbErr NftEdition := do
  let some data := attachment.2.data | throw (.recordNotFound "Edition data not found")
  let edition ← (EditionCrate.readEdition data).mapError .custom
  return {
    mintAddress := (attachment.2.assetId.map Bytes32.toBase58).getD ""
    editionNumber := edition.edition
    editionAddress := attachment.1.toBase58 }

/-- The editions printed from a master edition. -/
def editionCondition (masterEdition : Pubkey) (row : Pubkey × AttachmentRow) : Truth :=
  Sql.eq (some row.2.attachmentType) (some .edition) &&& Sql.isNotNull row.2.data &&&
    Sql.eq (row.2.data.bind (Json.textAt "parent")) (some masterEdition.toBase58)

/-- The statement has no `ORDER BY`. -/
def editionSelect (db : Db) (masterEdition : Pubkey) : Select (Pubkey × AttachmentRow) where
  source := db.attachments.entries.map (fun entry => (entry.1, entry.2))
  filters := [editionCondition masterEdition]

def getNftEditions [Programs] [EditionCrate] (db : Db) (mintAddress : Pubkey) (pagination : Pagination)
    (limit : Nat) : Except DbErr NftEditions := do
  let masterEditionPubkey := Programs.findMasterEdition mintAddress
  let some masterEdition := db.attachments.lookup masterEditionPubkey
    | throw (.recordNotFound "Master Edition not found")
  let some data := masterEdition.data | throw (.recordNotFound "Master Edition data not found")
  let masterEditionData ← (EditionCrate.readMasterEdition data).mapError .custom
  let stmt ← paginate pagination limit (editionSelect db masterEditionPubkey) .asc (.bytea (fun row => row.1.bytes))
  let editions ← stmt.all.mapM attachmentToNftEdition
  let (page, before, after) := Rpc.echo pagination
  return {
    total := editions.length
    limit
    masterEditionAddress := masterEditionPubkey.toBase58
    supply := masterEditionData.supply
    maxSupply := masterEditionData.maxSupply
    editions
    page
    before
    after
    cursor := match pagination with
      | .cursor _ => editions.getLast?.map NftEdition.editionAddress
      | _ => none }

structure GetNftEditions where
  mintAddress : String
  page : Option Nat := none
  limit : Option Nat := none
  before : Option String := none
  after : Option String := none
  cursor : Option String := none

def requestNftEditions [Programs] [EditionCrate] (db : Db) (payload : GetNftEditions) :
    Except DasApiError NftEditions := do
  let pageOptions ← validatePagination payload.limit payload.page payload.before payload.after payload.cursor none
  let mintAddress ← validatePubkey payload.mintAddress
  let pagination ← (createPagination pageOptions).mapError .databaseError
  (getNftEditions db mintAddress pagination pageOptions.limit).mapError .databaseError

end NftEditions

section Signatures

def Instruction.toPascalCase : Instruction → String
  | .burn => "Burn"
  | .burnV2 => "BurnV2"
  | .cancelRedeem => "CancelRedeem"
  | .compress => "Compress"
  | .decompressV1 => "DecompressV1"
  | .delegate => "Delegate"
  | .delegateAndFreezeV2 => "DelegateAndFreezeV2"
  | .delegateV2 => "DelegateV2"
  | .freezeV2 => "FreezeV2"
  | .mintToCollectionV1 => "MintToCollectionV1"
  | .mintV1 => "MintV1"
  | .mintV2 => "MintV2"
  | .redeem => "Redeem"
  | .setAndVerifyCollection => "SetAndVerifyCollection"
  | .setCollectionV2 => "SetCollectionV2"
  | .setNonTransferableV2 => "SetNonTransferableV2"
  | .thawAndRevokeV2 => "ThawAndRevokeV2"
  | .thawV2 => "ThawV2"
  | .transfer => "Transfer"
  | .transferV2 => "TransferV2"
  | .unknown => "Unknown"
  | .unverifyCollection => "UnverifyCollection"
  | .unverifyCreator => "UnverifyCreator"
  | .unverifyCreatorV2 => "UnverifyCreatorV2"
  | .updateAssetDataV2 => "UpdateAssetDataV2"
  | .updateMetadata => "UpdateMetadata"
  | .updateMetadataV2 => "UpdateMetadataV2"
  | .verifyCollection => "VerifyCollection"
  | .verifyCreator => "VerifyCreator"
  | .verifyCreatorV2 => "VerifyCreatorV2"

/-- A row of `cl_audits_v2` with its tree, leaf and sequence number. -/
abbrev Audit := (Pubkey × Nat × Nat) × ClAuditRow

def Audit.seq (audit : Audit) : Nat := audit.1.2.2

/-- The newest come first by default. -/
def signatureOrder (sortDirection : Option AssetSortDirection) : Order :=
  match sortDirection.getD .desc with
  | .asc => .asc
  | .desc => .desc

def auditSelect (db : Db) (tree : Pubkey) (leafIdx : Int) (order : Order) : Select Audit where
  source := db.clAuditsV2.entries.map (fun entry => (entry.1, entry.2))
  filters := [fun audit => Sql.eq (some audit.1.1) (some tree),
    fun audit => Sql.eq (some (audit.1.2.1 : Int)) (some leafIdx)]
  orderBy := some (fun audit other => match order with
    | .asc => audit.seq ≤ other.seq
    | .desc => other.seq ≤ audit.seq)

/-- The rows behind the transactions. -/
def findAudits (db : Db) (tree : Pubkey) (leafIdx : Int) (pagination : Pagination) (limit : Nat)
    (sortDirection : Option AssetSortDirection) : Except DbErr (List Audit) :=
  let order := signatureOrder sortDirection
  (paginate pagination limit (auditSelect db tree leafIdx order) order (.bigint (fun audit => (audit.seq : Int)))).map
    Select.all

def Audit.transaction (audit : Audit) : String × String :=
  (bs58Encode audit.2.tx, audit.2.instruction.toPascalCase)

def fetchTransactions (db : Db) (tree : Pubkey) (leafIdx : Int) (pagination : Pagination) (limit : Nat)
    (sortDirection : Option AssetSortDirection) : Except DbErr (List (String × String)) :=
  (findAudits db tree leafIdx pagination limit sortDirection).map (List.map Audit.transaction)

def getAssetSignatures (db : Db) (assetId treeId : Option Pubkey) (leafIdx : Option Int) (pagination : Pagination)
    (limit : Nat) (sortDirection : Option AssetSortDirection) : Except DbErr (List (String × String)) :=
  match treeId, leafIdx with
  | some tree, some leafIdx => fetchTransactions db tree leafIdx pagination limit sortDirection
  | _, _ => match assetId with
    | none => .error (.custom "Either 'id' or both 'tree' and 'leafIndex' must be provided")
    | some assetId => match db.asset.lookup assetId with
      | none => .ok []
      | some asset => match asset.treeId with
        | none => .error (.recordNotFound "Tree not found")
        | some tree => match asset.nonce with
          | none => .error (.recordNotFound "Leaf ID does not exist")
          | some leafIdx => fetchTransactions db tree leafIdx pagination limit sortDirection

structure TransactionSignatureList where
  total : Nat
  limit : Nat
  page : Option Nat
  before : Option String
  after : Option String
  items : List (String × String)

def buildTransactionSignaturesResponse (items : List (String × String)) (limit : Nat) (pagination : Pagination) :
    TransactionSignatureList :=
  let (page, before, after) := Rpc.echo pagination
  { total := items.length, limit, page, before, after, items }

structure GetAssetSignatures where
  id : Option String := none
  limit : Option Nat := none
  page : Option Nat := none
  before : Option String := none
  after : Option String := none
  tree : Option String := none
  leafIndex : Option Int := none
  cursor : Option String := none
  sortDirection : Option AssetSortDirection := none

def requestAssetSignatures (db : Db) (payload : GetAssetSignatures) :
    Except DasApiError TransactionSignatureList := do
  if !(payload.id.isSome && payload.tree.isNone && payload.leafIndex.isNone ||
      payload.id.isNone && payload.tree.isSome && payload.leafIndex.isSome) then
    throw (.validationError "Must provide either 'id' or both 'tree' and 'leafIndex'")
  let id ← validateOptPubkey payload.id
  let tree ← validateOptPubkey payload.tree
  let pageOptions ← validatePagination payload.limit payload.page payload.before payload.after payload.cursor none
  let pagination ← (createPagination pageOptions).mapError .databaseError
  let transactions ← (getAssetSignatures db id tree payload.leafIndex pagination pageOptions.limit
    payload.sortDirection).mapError .databaseError
  return buildTransactionSignaturesResponse transactions pageOptions.limit pagination

end Signatures

end DasIndexer
