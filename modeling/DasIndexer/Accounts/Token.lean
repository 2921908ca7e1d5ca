import DasIndexer.Accounts.AssetUpserts

namespace DasIndexer
open Sql

/-- An account update. The data is handed on as the program's parser reads it. -/
structure AccountInfo where
  slot : Nat
  pubkey : Pubkey
  owner : Pubkey

inductive AccountState where
  | uninitialized
  | initialized
  | frozen
  deriving DecidableEq, Repr

/-- The fields of `spl_token::state::Account` that are indexed. -/
structure SplAccount where
  mint : Pubkey
  owner : Pubkey
  amount : UInt64
  delegate : Option Pubkey
  state : AccountState
  delegatedAmount : UInt64

/-- The fields of `spl_token::state::Mint` that are indexed. -/
structure SplMint where
  mintAuthority : Option Pubkey
  supply : UInt64
  decimals : UInt8
  freezeAuthority : Option Pubkey

inductive TokenProgramEntity where
  | mint (m : SplMint)
  | tokenAccount (ta : SplAccount)
  | closeIx (key : Pubkey)

def SplAccount.isFrozen (ta : SplAccount) : Bool := ta.state = .frozen

def tokenAccountRow (account : AccountInfo) (ta : SplAccount) (extensions : Option Json) :
    TokenAccountRow :=
  { mint := ta.mint
    delegate := ta.delegate
    owner := ta.owner
    frozen := ta.isFrozen
    delegatedAmount := asI64 ta.delegatedAmount.toNat
    tokenProgram := account.owner
    slotUpdated := account.slot
    amount := asI64 ta.amount.toNat
    closeAuthority := none
    extensions }

def tokenRow (account : AccountInfo) (m : SplMint) (extensions : Option Json) : TokenRow :=
  { tokenProgram := account.owner
    slotUpdated := account.slot
    supply := m.supply.toNat
    decimals := m.decimals.toNat
    closeAuthority := none
    extensionData := none
    mintAuthority := m.mintAuthority
    freezeAuthority := m.freezeAuthority
    extensions }

def tokenAccountColumnsOf (account : AccountInfo) (ta : SplAccount) : AssetTokenAccountColumns :=
  { mint := ta.mint
    owner := some ta.owner.bytes
    frozen := ta.isFrozen
    delegate := ta.delegate.map Bytes32.bytes
    slotUpdatedTokenAccount := some account.slot }

/-- The token account branch of both token handlers: the asset row is touched
only when the mint is already known to be non-fungible. -/
def indexTokenAccount (clause : OnConflict TokenAccountRow) (extensions : Option Json) (db : Db)
    (account : AccountInfo) (ta : SplAccount) : Db :=
  let db := { db with
    tokenAccounts := Table.upsert db.tokenAccounts account.pubkey (tokenAccountRow account ta extensions) clause }
  let isNonFungible := ((db.tokens.lookup ta.mint).map TokenRow.isNonFungible).getD false
  if isNonFungible then upsertAssetsTokenAccountColumns db (tokenAccountColumnsOf account ta) else db

/-- The mint branch of both token handlers. -/
def indexMint (clause : OnConflict TokenRow) (extensions : Option Json) (db : Db) (account : AccountInfo)
    (m : SplMint) : Db :=
  let db := { db with tokens := Table.upsert db.tokens account.pubkey (tokenRow account m extensions) clause }
  upsertAssetsMintAccountColumns db
    { mint := account.pubkey
      supply := m.supply.toNat
      slotUpdatedMintAccount := account.slot
      extensions }

namespace Token

/-- Every column but `extensions` is updated. -/
def tokenAccountsOnConflict : OnConflict TokenAccountRow where
  set stored excluded := { excluded with extensions := stored.extensions }
  filter stored excluded := gt (some excluded.slotUpdated) (some stored.slotUpdated)

/-- Every column but `extensions` is updated. -/
def tokensOnConflict : OnConflict TokenRow where
  set stored excluded := { excluded with extensions := stored.extensions }
  filter stored excluded := ge (some excluded.slotUpdated) (some stored.slotUpdated)

def handleTokenProgramAccount (db : Db) (account : AccountInfo) (parsingResult : TokenProgramEntity) :
    Db × Except ProgramTransformerError Unit :=
  match parsingResult with
  | .tokenAccount ta => (indexTokenAccount tokenAccountsOnConflict none db account ta, .ok ())
  | .mint m => (indexMint tokensOnConflict none db account m, .ok ())
  | .closeIx _ => (db, .error .notImplemented)

end Token

/-- `spl_token_metadata_interface::state::TokenMetadata`. -/
structure ShadowMetadata where
  updateAuthority : Option Pubkey
  mint : Pubkey
  name : String
  symbol : String
  uri : String
  additionalMetadata : List (String × String)

def ShadowMetadata.toJson (metadata : ShadowMetadata) : Json :=
  .obj [("update_authority", (metadata.updateAuthority.map (fun key => Json.str key.toBase58)).getD .null),
    ("mint", .str metadata.mint.toBase58),
    ("name", .str metadata.name),
    ("symbol", .str metadata.symbol),
    ("uri", .str metadata.uri),
    ("additional_metadata",
      .arr (metadata.additionalMetadata.map (fun (key, value) => .arr [.str key, .str value])))]

/-- The extensions of a Token-2022 mint. But for the metadata, each stands for
the JSON value of its shadow type. -/
structure MintAccountExtensions where
  defaultAccountState : Option Json := none
  confidentialTransferMint : Option Json := none
  confidentialTransferFeeConfig : Option Json := none
  interestBearingConfig : Option Json := none
  transferFeeConfig : Option Json := none
  mintCloseAuthority : Option Json := none
  permanentDelegate : Option Json := none
  metadataPointer : Option Json := none
  metadata : Option ShadowMetadata := none
  transferHook : Option Json := none
  groupPointer : Option Json := none
  tokenGroup : Option Json := none
  groupMemberPointer : Option Json := none
  tokenGroupMember : Option Json := none
  nonTransferable : Option Bool := none
  immutableOwner : Option Bool := none

/-- The last two extensions are not asked for. -/
def MintAccountExtensions.isSome (e : MintAccountExtensions) : Bool :=
  e.defaultAccountState.isSome || e.confidentialTransferMint.isSome ||
    e.confidentialTransferFeeConfig.isSome || e.interestBearingConfig.isSome ||
    e.transferFeeConfig.isSome || e.mintCloseAuthority.isSome || e.permanentDelegate.isSome ||
    e.metadataPointer.isSome || e.metadata.isSome || e.transferHook.isSome || e.groupPointer.isSome ||
    e.tokenGroup.isSome || e.groupMemberPointer.isSome || e.tokenGroupMember.isSome

def MintAccountExtensions.toJson (e : MintAccountExtensions) : Json :=
  .obj [("default_account_state", e.defaultAccountState.getD .null),
    ("confidential_transfer_mint", e.confidentialTransferMint.getD .null),
    ("confidential_transfer_fee_config", e.confidentialTransferFeeConfig.getD .null),
    ("interest_bearing_config", e.interestBearingConfig.getD .null),
    ("transfer_fee_config", e.transferFeeConfig.getD .null),
    ("mint_close_authority", e.mintCloseAuthority.getD .null),
    ("permanent_delegate", e.permanentDelegate.getD .null),
    ("metadata_pointer", e.metadataPointer.getD .null),
    ("metadata", (e.metadata.map ShadowMetadata.toJson).getD .null),
    ("transfer_hook", e.transferHook.getD .null),
    ("group_pointer", e.groupPointer.getD .null),
    ("token_group", e.tokenGroup.getD .null),
    ("group_member_pointer", e.groupMemberPointer.getD .null),
    ("token_group_member", e.tokenGroupMember.getD .null),
    ("non_transferable", (e.nonTransferable.map Json.bool).getD .null),
    ("immutable_owner", (e.immutableOwner.map Json.bool).getD .null)]

/-- The extensions of a Token-2022 token account. -/
structure TokenAccountExtensions where
  confidentialTransfer : Option Json := none
  cpiGuard : Option Json := none
  memoTransfer : Option Json := none
  transferFeeAmount : Option Json := none
  immutableOwner : Option Bool := none
  nonTransferableAccount : Option Bool := none

/-- The last two extensions are not asked for. -/
def TokenAccountExtensions.isSome (e : TokenAccountExtensions) : Bool :=
  e.confidentialTransfer.isSome || e.cpiGuard.isSome || e.memoTransfer.isSome || e.transferFeeAmount.isSome

def TokenAccountExtensions.toJson (e : TokenAccountExtensions) : Json :=
  .obj [("confidential_transfer", e.confidentialTransfer.getD .null),
    ("cpi_guard", e.cpiGuard.getD .null),
    ("memo_transfer", e.memoTransfer.getD .null),
    ("transfer_fee_amount", e.transferFeeAmount.getD .null),
    ("immutable_owner", (e.immutableOwner.map Json.bool).getD .null),
    ("non_transferable_account", (e.nonTransferableAccount.map Json.bool).getD .null)]

def Json.isNull : Json → Bool
  | .null => true
  | _ => false

def filterNonNullFields : Json → Option Json
  | .null => none
  | .obj entries =>
    if entries.all (fun entry => entry.2.isNull) then none
    else
      let filtered := entries.filter (fun entry => !entry.2.isNull)
      if filtered.isEmpty then none else some (.obj filtered)
  | value => some value

inductive TokenExtensionsProgramEntity where
  | tokenAccount (account : SplAccount) (extensions : TokenAccountExtensions)
  | mintAccount (account : SplMint) (extensions : MintAccountExtensions)
  | closeIx (key : Pubkey)

namespace TokenExtensions

def tokenAccountsOnConflict : OnConflict TokenAccountRow where
  set _ excluded := excluded
  filter stored excluded := gt (some excluded.slotUpdated) (some stored.slotUpdated)

def tokensOnConflict : OnConflict TokenRow where
  set _ excluded := excluded
  filter stored excluded := ge (some excluded.slotUpdated) (some stored.slotUpdated)

/-- The update leaves `metadata`, `metadata_mutability` and `reindex` alone. -/
def assetDataOnConflict : OnConflict AssetDataRow where
  set stored excluded :=
    { stored with
      chainDataMutability := excluded.chainDataMutability
      chainData := excluded.chainData
      metadataUrl := excluded.metadataUrl
      slotUpdated := excluded.slotUpdated
      baseInfoSeq := excluded.baseInfoSeq
      rawName := excluded.rawName
      rawSymbol := excluded.rawSymbol }
  filter stored excluded := ge (some excluded.slotUpdated) (some stored.slotUpdated)

def upsertAssetsMetadataColsOnConflict : OnConflict AssetRow where
  set asset excluded := { asset with slotUpdatedMetadataAccount := excluded.slotUpdatedMetadataAccount }
  filter asset excluded :=
    ge excluded.slotUpdatedMetadataAccount asset.slotUpdatedMetadataAccount |||
      isNull asset.slotUpdatedMetadataAccount

def upsertAssetsMetadataCols (db : Db) (mint : Pubkey) (slot : Nat) : Db :=
  db.upsertAsset mint { slotUpdatedMetadataAccount := some slot } upsertAssetsMetadataColsOnConflict

/-- The task is built from the URI as it is, without cleaning it. -/
def upsertAssetData (db : Db) (metadata : ShadowMetadata) (key : Pubkey) (slot : Nat) :
    Db × Option DownloadMetadataInfo :=
  let row : AssetDataRow :=
    { metadataUrl := metadata.uri
      metadata := .str "processing"
      chainDataMutability := .mutable
      chainData := metadata.toJson
      slotUpdated := slot
      baseInfoSeq := some 0
      rawName := some (utf8 metadata.name)
      rawSymbol := some (utf8 metadata.symbol) }
  let db := { db with assetData := Table.upsert db.assetData key row assetDataOnConflict }
  let db := upsertAssetsMetadataCols db key slot
  (db, if metadata.uri = "" then none else some { uri := metadata.uri, assetDataId := key })

/-- The database after the call, and the download task handed to the notifier. -/
def handleTokenExtensionsProgramAccount (db : Db) (account : AccountInfo)
    (parsingResult : TokenExtensionsProgramEntity) :
    Db × Except ProgramTransformerError (Option DownloadMetadataInfo) :=
  match parsingResult with
  | .tokenAccount ta extensions =>
    let json := if extensions.isSome then filterNonNullFields extensions.toJson else none
    (indexTokenAccount tokenAccountsOnConflict json db account ta, .ok none)
  | .mintAccount m extensions =>
    let json := if extensions.isSome then filterNonNullFields extensions.toJson else none
    let db := indexMint tokensOnConflict json db account m
    match extensions.metadata with
    | some metadata =>
      let (db, task) := upsertAssetData db metadata account.pubkey account.slot
      (db, .ok task)
    | none => (db, .ok none)
  | .closeIx _ => (db, .error .notImplemented)

end TokenExtensions

end DasIndexer
