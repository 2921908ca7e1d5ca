import DasIndexer.Accounts.TokenMetadata
import DasIndexer.Accounts.MplCore

namespace DasIndexer
open Sql

/-- What the program parsers make of an account's data. Inscriptions write no
table but `asset_v1_account_attachments` and are left out. -/
inductive ProgramParseResult where
  | tokenMetadata (data : TokenMetadata.TokenMetadataAccountData)
  | tokenProgramEntity (entity : TokenProgramEntity)
  | tokenExtensionsProgramEntity (entity : TokenExtensionsProgramEntity)
  | mplCore (data : MplCore.MplCoreAccountData)
  | other

structure AccountUpdate where
  account : AccountInfo
  parsed : ProgramParseResult

/-- The database after the call, and what the call returns: the download task
handed to the notifier, if any. -/
def handleAccountUpdate [Programs] (db : Db) (update : AccountUpdate) :
    Db × Except ProgramTransformerError (Option DownloadMetadataInfo) :=
  match update.parsed with
  | .tokenMetadata data => TokenMetadata.handleTokenMetadataAccount db update.account data
  | .tokenProgramEntity entity =>
    let (db, result) := Token.handleTokenProgramAccount db update.account entity
    (db, result.map (fun _ => none))
  | .tokenExtensionsProgramEntity entity =>
    TokenExtensions.handleTokenExtensionsProgramAccount db update.account entity
  | .mplCore data => MplCore.handleMplCoreAccount db update.account data
  | .other => (db, .error .notImplemented)

/-- The database after a sequence of account updates. -/
def deliver [Programs] (db : Db) (updates : List AccountUpdate) : Db :=
  updates.foldl (fun db update => (handleAccountUpdate db update).1) db

end DasIndexer
