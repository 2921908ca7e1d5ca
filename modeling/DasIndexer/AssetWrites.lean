import DasIndexer.Accounts.Removals
import DasIndexer.Bubblegum.Handlers

namespace DasIndexer
open Sql

/-- The row of `asset` that a statement upserts. -/
def Bubblegum.Statement.assetKey : Statement → Option Pubkey
  | .leafInfo id _ | .ownerInfo id _ | .compressionInfo id _ | .assetSeq id _ | .baseInfo id _ => some id
  | .burnt id => some id
  | .clItem .. | .clAudit .. | .backfillItem .. | .collectionInfo .. | .assetData .. | .creators .. => none
  | .authority .. => none

/-- What writes the table `asset`. The row of a metadata account refers to its own
row of `asset_data`. -/
inductive AssetWrite where
  | tokenAccount (columns : AssetTokenAccountColumns)
  | mintAccount (columns : AssetMintAccountColumns)
  | metadataAccount (columns : AssetMetadataAccountColumns) (own : columns.assetData = some columns.mint)
  | metadataCols (key : Pubkey) (slot : Nat)
  | burnV1Asset (key : Pubkey) (slot : Nat)
  | setBurnt (key : Pubkey)
  | bubblegum (s : Bubblegum.Statement)

/-- The row that is upserted. Marking a row as burnt inserts none. -/
def AssetWrite.key : AssetWrite → Option Pubkey
  | .tokenAccount columns => some columns.mint
  | .mintAccount columns => some columns.mint
  | .metadataAccount columns _ => some columns.mint
  | .metadataCols key _ | .burnV1Asset key _ => some key
  | .setBurnt _ => none
  | .bubblegum s => s.assetKey

def AssetWrite.exec [Programs] (db : Db) : AssetWrite → Db
  | .tokenAccount columns => upsertAssetsTokenAccountColumns db columns
  | .mintAccount columns => upsertAssetsMintAccountColumns db columns
  | .metadataAccount columns _ => upsertAssetsMetadataAccountColumns db columns
  | .metadataCols key slot => TokenExtensions.upsertAssetsMetadataCols db key slot
  | .burnV1Asset key slot => DasIndexer.burnV1Asset db key slot
  | .setBurnt key => db.setBurnt key
  | .bubblegum s => s.exec db

/-- One database comes from another one by the allowed writes of `asset`, in any
order with changes of the other tables. -/
inductive Db.Written [Programs] (Allowed : AssetWrite → Prop) : Db → Db → Prop where
  | frame {db after : Db} (same : after.asset = db.asset) : Written Allowed db after
  | write (db : Db) (w : AssetWrite) (allowed : Allowed w) : Written Allowed db (w.exec db)
  | trans {db middle after : Db} (first : Written Allowed db middle) (second : Written Allowed middle after) :
    Written Allowed db after

section Rules
variable [Programs] {Allowed : AssetWrite → Prop} {db after : Db}

/-- What depends on `asset` alone and is kept by every allowed write is kept. -/
theorem Db.Written.invariant (Inv : Db → Prop)
    (assetOnly : ∀ db after : Db, after.asset = db.asset → Inv db → Inv after)
    (keeps : ∀ db w, Allowed w → Inv db → Inv (w.exec db)) (written : Db.Written Allowed db after) (held : Inv db) :
    Inv after := by
  induction written with
  | frame same => exact assetOnly _ _ same held
  | write db w allowed => exact keeps db w allowed held
  | trans first second firstKeeps secondKeeps => exact secondKeeps (firstKeeps held)

theorem Db.Written.foldl {E : Type} {step : Db → E → Db} (events : List E)
    (written : ∀ e ∈ events, ∀ db, Db.Written Allowed db (step db e)) (db : Db) :
    Db.Written Allowed db (events.foldl step db) := by
  induction events generalizing db with
  | nil => exact .frame rfl
  | cons e rest ih =>
    exact (written e List.mem_cons_self db).trans
      (ih (fun later member => written later (List.mem_cons_of_mem e member)) (step db e))

end Rules

/-- The row of `asset` that an account update writes. -/
def AccountUpdate.writtenId (update : AccountUpdate) : Option Pubkey :=
  match update.parsed with
  | .tokenMetadata (.metadataV1 metadata) => some metadata.mint
  | .tokenMetadata .emptyAccount => some update.account.pubkey
  | .tokenProgramEntity (.mint _) | .tokenExtensionsProgramEntity (.mintAccount ..) => some update.account.pubkey
  | .tokenProgramEntity (.tokenAccount ta) | .tokenExtensionsProgramEntity (.tokenAccount ta _) => some ta.mint
  | .mplCore (.asset _) | .mplCore (.collection _) | .mplCore .emptyAccount => some update.account.pubkey
  | _ => none

section Handlers
variable [Programs] {Allowed : AssetWrite → Prop} (db : Db)

theorem indexTokenAccount_written (clause : OnConflict TokenAccountRow) (extensions : Option Json)
    (account : AccountInfo) (ta : SplAccount) (allowed : ∀ w : AssetWrite, w.key = some ta.mint → Allowed w) :
    Db.Written Allowed db (indexTokenAccount clause extensions db account ta) := by
  dsimp only [indexTokenAccount]
  split
  · refine Db.Written.trans ?_ (.write _ (.tokenAccount _) (allowed _ rfl))
    exact .frame rfl
  · exact .frame rfl

theorem indexMint_written (clause : OnConflict TokenRow) (extensions : Option Json) (account : AccountInfo)
    (m : SplMint) (allowed : ∀ w : AssetWrite, w.key = some account.pubkey → Allowed w) :
    Db.Written Allowed db (indexMint clause extensions db account m) := by
  refine Db.Written.trans ?_ (.write _ (.mintAccount _) (allowed _ rfl))
  exact .frame rfl

theorem handleTokenProgramAccount_written (account : AccountInfo) (entity : TokenProgramEntity)
    (allowed : ∀ w : AssetWrite, w.key = AccountUpdate.writtenId ⟨account, .tokenProgramEntity entity⟩ → Allowed w) :
    Db.Written Allowed db (Token.handleTokenProgramAccount db account entity).1 := by
  cases entity with
  | mint m => exact indexMint_written db _ _ account m allowed
  | tokenAccount ta => exact indexTokenAccount_written db _ _ account ta allowed
  | closeIx key => exact .frame rfl

theorem handleTokenExtensionsProgramAccount_written (account : AccountInfo) (entity : TokenExtensionsProgramEntity)
    (allowed : ∀ w : AssetWrite,
      w.key = AccountUpdate.writtenId ⟨account, .tokenExtensionsProgramEntity entity⟩ → Allowed w) :
    Db.Written Allowed db (TokenExtensions.handleTokenExtensionsProgramAccount db account entity).1 := by
  cases entity with
  | tokenAccount ta extensions => exact indexTokenAccount_written db _ _ account ta allowed
  | mintAccount m extensions =>
    dsimp only [TokenExtensions.handleTokenExtensionsProgramAccount]
    have minted := indexMint_written db TokenExtensions.tokensOnConflict
      (if extensions.isSome then filterNonNullFields extensions.toJson else none) account m allowed
    cases extensions.metadata with
    | none => exact minted
    | some metadata =>
      refine Db.Written.trans ?_ (.write _ (.metadataCols account.pubkey account.slot) (allowed _ rfl))
      exact minted.trans (.frame rfl)
  | closeIx key => exact .frame rfl

theorem TokenMetadata.saveV1Asset_written (metadata : TokenMetadata.Metadata) (slot : Nat)
    (allowed : ∀ w : AssetWrite, w.key = some metadata.mint → Allowed w) :
    Db.Written Allowed db (TokenMetadata.saveV1Asset db metadata slot).1 := by
  have minted : Db.Written Allowed db (TokenMetadata.indexAndFetchMintData db metadata.mint).1 := by
    unfold TokenMetadata.indexAndFetchMintData
    cases db.tokens.lookup metadata.mint with
    | none => exact .frame rfl
    | some token => exact .write db (.mintAccount (token.columns metadata.mint)) (allowed _ rfl)
  have read : Db.Written Allowed db (TokenMetadata.readBack db metadata) := by
    dsimp only [TokenMetadata.readBack, TokenMetadata.indexTokenAccountData]
    split
    · split
      · rename_i ta found
        exact minted.trans (.write _ (.tokenAccount (ta.columns metadata.mint)) (allowed _ rfl))
      · exact minted
    · exact minted
  exact (read.trans (.write _ (.metadataAccount _ rfl) (allowed _ rfl))).trans
    (.frame (TokenMetadata.saveV1Asset_asset db metadata slot))

theorem MplCore.saveV1Asset_written (key : Pubkey) (data : MplCore.MplCoreAccountData) (slot : Nat)
    (allowed : ∀ w : AssetWrite, w.key = some key → Allowed w) :
    Db.Written Allowed db (MplCore.saveV1Asset db key data slot).1 := by
  cases indexable : data.indexable with
  | none =>
    unfold MplCore.saveV1Asset
    rw [indexable]
    exact .frame rfl
  | some asset =>
    obtain ⟨owner, delegate, same⟩ := MplCore.saveV1Asset_asset db key slot indexable
    have saved := Db.Written.write db (.metadataAccount (asset.columns key
      (if data.isCollection then .mplCoreCollection else .mplCoreAsset) slot) rfl) (allowed _ rfl)
    exact ((saved.trans (.write _ (.mintAccount _) (allowed _ rfl))).trans
      (.write _ (.tokenAccount _) (allowed _ rfl))).trans (.frame same)

/-- An account update writes one row of `asset` at most. -/
theorem handleAccountUpdate_written (update : AccountUpdate)
    (allowed : ∀ w : AssetWrite, w.key = update.writtenId → Allowed w) :
    Db.Written Allowed db (handleAccountUpdate db update).1 := by
  obtain ⟨account, parsed⟩ := update
  cases parsed with
  | tokenMetadata data =>
    cases data with
    | metadataV1 metadata => exact TokenMetadata.saveV1Asset_written db metadata account.slot allowed
    | emptyAccount => exact .write db (.burnV1Asset account.pubkey account.slot) (allowed _ rfl)
    | editionV1 | masterEditionV1 | masterEditionV2 => exact .frame rfl
    | editionMarker | useAuthorityRecord | collectionAuthorityRecord => exact .frame rfl
  | tokenProgramEntity entity => exact handleTokenProgramAccount_written db account entity allowed
  | tokenExtensionsProgramEntity entity => exact handleTokenExtensionsProgramAccount_written db account entity allowed
  | mplCore data =>
    cases data with
    | asset a => exact MplCore.saveV1Asset_written db account.pubkey (.asset a) account.slot allowed
    | collection a => exact MplCore.saveV1Asset_written db account.pubkey (.collection a) account.slot allowed
    | emptyAccount => exact .write db (.burnV1Asset account.pubkey account.slot) (allowed _ rfl)
    | hashedAsset => exact .frame rfl
  | other => exact .frame rfl

theorem handleTokenProgramCloseIx_written (key : Pubkey) (allowed : ∀ w : AssetWrite, w.key = none → Allowed w) :
    Db.Written Allowed db (handleTokenProgramCloseIx db key) := by
  unfold handleTokenProgramCloseIx
  cases db.tokens.lookup key with
  | none => exact .frame rfl
  | some token =>
    refine Db.Written.trans ?_ (.write _ (.setBurnt key) (allowed _ rfl))
    exact .frame rfl

theorem purgeMints_written (keys : List Pubkey) (allowed : ∀ w : AssetWrite, w.key = none → Allowed w) :
    Db.Written Allowed db (purgeMints db keys) := by
  have erased : Db.Written Allowed db
      { db with tokens := keys.foldl (fun tokens key => tokens.erase key) db.tokens } := .frame rfl
  refine erased.trans (Db.Written.foldl keys (fun key _ db => ?_) _)
  split
  · exact .write db (.setBurnt key) (allowed _ rfl)
  · exact .frame rfl

theorem handleBubblegumInstruction_written (event : Bubblegum.Event)
    (allowed : ∀ s ∈ event.statements, Allowed (.bubblegum s)) :
    Db.Written Allowed db (Bubblegum.handleBubblegumInstruction db event).1 :=
  Db.Written.foldl event.statements (fun s member db => .write db (.bubblegum s) (allowed s member)) db

end Handlers

end DasIndexer
