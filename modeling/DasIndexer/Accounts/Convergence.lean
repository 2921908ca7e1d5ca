import DasIndexer.Accounts.Runs
import DasIndexer.Mainnet

namespace DasIndexer
open Sql Latest

namespace AccountUpdate

def mintUpdate (mint : Pubkey) (u : AccountUpdate) : Option (AccountInfo × SplMint) :=
  match u.parsed with
  | .tokenProgramEntity (.mint m) => if u.account.pubkey = mint then some (u.account, m) else none
  | _ => none

def tokenAccountUpdate (key : Pubkey) (u : AccountUpdate) : Option (AccountInfo × SplAccount) :=
  match u.parsed with
  | .tokenProgramEntity (.tokenAccount ta) => if u.account.pubkey = key then some (u.account, ta) else none
  | _ => none

def metadataUpdate (mint : Pubkey) (u : AccountUpdate) : Option (TokenMetadata.Update mint) :=
  match u.parsed with
  | .tokenMetadata (.metadataV1 m) => if ofMint : m.mint = mint then some ⟨m, ofMint, u.account.slot⟩ else none
  | _ => none

/-- An update of the mint account, of a token account or of the metadata account
of a mint. -/
def OfMint (mint : Pubkey) (u : AccountUpdate) : Prop :=
  match u.parsed with
  | .tokenProgramEntity (.mint _) => u.account.pubkey = mint
  | .tokenProgramEntity (.tokenAccount ta) => ta.mint = mint
  | .tokenMetadata (.metadataV1 m) => m.mint = mint
  | _ => False

/-- The accounts of a mint: one mint account, one metadata account and any number
of token accounts. -/
inductive Source where
  | mint
  | metadata
  | tokenAccount (key : Pubkey)
  | other

def source (u : AccountUpdate) : Source :=
  match u.parsed with
  | .tokenProgramEntity (.mint _) => .mint
  | .tokenProgramEntity (.tokenAccount _) => .tokenAccount u.account.pubkey
  | .tokenMetadata (.metadataV1 _) => .metadata
  | _ => .other

/-- No two updates of one account share a slot. -/
def DistinctSlots (updates : List AccountUpdate) : Prop :=
  ∀ u ∈ updates, ∀ v ∈ updates, u.source = v.source → u.account.slot = v.account.slot → u = v

section Inversion
variable {mint key : Pubkey} {u : AccountUpdate}

theorem mintUpdate_eq {w : AccountInfo × SplMint} (written : u.mintUpdate mint = some w) :
    u = ⟨w.1, .tokenProgramEntity (.mint w.2)⟩ ∧ w.1.pubkey = mint := by
  unfold mintUpdate at written
  split at written
  · rename_i m parsed
    obtain ⟨ofMint, ⟨⟩⟩ := Option.ite_none_right_eq_some.mp written
    exact ⟨by rw [← parsed], ofMint⟩
  · cases written

theorem tokenAccountUpdate_eq {w : AccountInfo × SplAccount} (written : u.tokenAccountUpdate key = some w) :
    u = ⟨w.1, .tokenProgramEntity (.tokenAccount w.2)⟩ ∧ w.1.pubkey = key := by
  unfold tokenAccountUpdate at written
  split at written
  · rename_i ta parsed
    obtain ⟨ofKey, ⟨⟩⟩ := Option.ite_none_right_eq_some.mp written
    exact ⟨by rw [← parsed], ofKey⟩
  · cases written

theorem metadataUpdate_eq {w : TokenMetadata.Update mint} (written : u.metadataUpdate mint = some w) :
    u.parsed = .tokenMetadata (.metadataV1 w.metadata) ∧ u.account.slot = w.slot := by
  unfold metadataUpdate at written
  split at written
  · rename_i m parsed
    split at written
    · cases written
      exact ⟨parsed, rfl⟩
    · cases written
  · cases written

/-- What an update of a mint can be, and what it does. -/
theorem handle_cases [Programs] (ofMint : u.OfMint mint) :
    (∃ account m, u = ⟨account, .tokenProgramEntity (.mint m)⟩ ∧ account.pubkey = mint ∧
      ∀ db, (handleAccountUpdate db u).1 = indexMint Token.tokensOnConflict none db account m) ∨
    (∃ account ta, u = ⟨account, .tokenProgramEntity (.tokenAccount ta)⟩ ∧ ta.mint = mint ∧
      ∀ db, (handleAccountUpdate db u).1 = indexTokenAccount Token.tokenAccountsOnConflict none db account ta) ∨
    (∃ account m, u = ⟨account, .tokenMetadata (.metadataV1 m)⟩ ∧ m.mint = mint ∧
      ∀ db, (handleAccountUpdate db u).1 = (TokenMetadata.saveV1Asset db m account.slot).1) := by
  obtain ⟨account, parsed⟩ := u
  unfold OfMint at ofMint
  split at ofMint
  · rename_i m same
    cases same
    exact Or.inl ⟨account, m, rfl, ofMint, fun _ => rfl⟩
  · rename_i ta same
    cases same
    exact Or.inr (Or.inl ⟨account, ta, rfl, ofMint, fun _ => rfl⟩)
  · rename_i m same
    cases same
    exact Or.inr (Or.inr ⟨account, m, rfl, ofMint, fun _ => rfl⟩)
  · exact ofMint.elim

end Inversion

end AccountUpdate

section Effects
variable (db : Db) (account : AccountInfo)

theorem indexTokenAccount_tables (clause : OnConflict TokenAccountRow) (extensions : Option Json) (ta : SplAccount) :
    ∃ asset, indexTokenAccount clause extensions db account ta =
      { db with
        asset
        tokenAccounts :=
          Table.upsert db.tokenAccounts account.pubkey (tokenAccountRow account ta extensions) clause } := by
  dsimp only [indexTokenAccount]
  split
  · exact ⟨_, rfl⟩
  · exact ⟨_, rfl⟩

/-- Columns that the statement for the token account leaves alone. -/
theorem indexTokenAccount_frame {β : Type} (columns : AssetRow → β) (clause : OnConflict TokenAccountRow)
    (extensions : Option Json) (ta : SplAccount) (key : Pubkey)
    (frame : ∀ db' account, columns ((upsertAssetsTokenAccountColumns db' account).assetOrDefault key) =
      columns (db'.assetOrDefault key)) :
    columns ((indexTokenAccount clause extensions db account ta).assetOrDefault key) =
      columns (db.assetOrDefault key) := by
  dsimp only [indexTokenAccount]
  split
  · exact frame _ _
  · rfl

end Effects

section Mint
variable [Programs] {mint : Pubkey}

/-- What the row of `tokens` and the mint columns of the asset have in common. -/
def mintCell (mint : Pubkey) (db : Db) := (db.tokens.lookup mint, mintAccountColumns (db.assetOrDefault mint))

def mintRow (w : AccountInfo × SplMint) : TokenRow := tokenRow w.1 w.2 none

def renderMint (mint : Pubkey) (c : Option (AccountInfo × SplMint)) :=
  (c.map mintRow, (c.map (fun w => mintAccountColumns ((mintRow w).columns mint).model)).getD (mintAccountColumns {}))

omit [Programs] in
theorem mintCell_indexMint {db : Db} {c : Option (AccountInfo × SplMint)} (held : mintCell mint db = renderMint mint c)
    (w : AccountInfo × SplMint) (ofMint : w.1.pubkey = mint) :
    mintCell mint (indexMint Token.tokensOnConflict none db w.1 w.2) =
      renderMint mint (some (newer (fun w => w.1.slot) c w)) := by
  obtain ⟨rows, columns⟩ := Prod.mk.inj held
  refine Prod.ext ?_ ?_
  · dsimp only [mintCell, renderMint, indexMint]
    rw [ofMint]
    refine (Table.lookup_upsert_self _ _ _ _).trans ?_
    rw [rows]
    refine OnConflict.resolve_newer (fun x _ => ?_) (fun _ _ => rfl)
    simp [Token.tokensOnConflict, mintRow, tokenRow]
  · subst ofMint
    dsimp only [mintCell, renderMint, indexMint]
    rw [Option.map_some, Option.getD_some]
    refine mintAccountUpsert_newer
      { db with tokens := Table.upsert db.tokens w.1.pubkey (tokenRow w.1 w.2 none) Token.tokensOnConflict }
      w.1.pubkey (fun _ => rfl) rfl columns

/-- Reading the row of `tokens` back changes nothing, since the asset already
follows it. -/
theorem mintCell_saveV1Asset {db : Db} {c : Option (AccountInfo × SplMint)}
    (held : mintCell mint db = renderMint mint c) {metadata : TokenMetadata.Metadata} (ofMint : metadata.mint = mint)
    (slot : Nat) : mintCell mint (TokenMetadata.saveV1Asset db metadata slot).1 = renderMint mint c := by
  obtain ⟨rows, columns⟩ := Prod.mk.inj held
  subst ofMint
  have back : mintAccountColumns ((TokenMetadata.readBack db metadata).assetOrDefault metadata.mint) =
      (renderMint metadata.mint c).2 := by
    refine TokenMetadata.readBack_invariant (fun row => mintAccountColumns row = (renderMint metadata.mint c).2)
      metadata.mint ?_ ?_ columns
    · intro token stored
      rw [rows] at stored
      obtain ⟨w, same, rfl⟩ := Option.map_eq_some_iff.mp stored
      subst same
      have again := @mintAccountUpsert_newer db metadata.mint _ (fun w => w.1.slot) (some w) w
        (fun x => (mintRow x).columns metadata.mint) (fun _ => rfl) rfl columns
      rw [newer, if_neg (lt_irrefl _)] at again
      exact again
    · intro db' ta _ _ kept
      exact (tokenAccountUpsert_mintAccountColumns db' metadata.mint _).trans kept
  refine Prod.ext ?_ ?_
  · dsimp only [mintCell]
    rw [(TokenMetadata.saveV1Asset_tokens db metadata slot).1]
    exact rows
  · dsimp only [mintCell]
    rw [Db.assetOrDefault_congr (TokenMetadata.saveV1Asset_asset db metadata slot)]
    exact (metadataAccountUpsert_mintAccountColumns _ metadata.mint _).trans back

theorem deliver_mintCell {deliveries : List AccountUpdate} (ofMint : ∀ u ∈ deliveries, u.OfMint mint) :
    mintCell mint (deliver {} deliveries) =
      renderMint mint (latest (fun w => w.1.slot) (deliveries.filterMap (AccountUpdate.mintUpdate mint))) := by
  have keep : ∀ (db : Db) (u : AccountUpdate), u.OfMint mint → True → True := fun _ _ _ _ => trivial
  refine foldl_latest (fun w => w.1.slot) (mintCell mint) (renderMint mint) keep ?skip ofMint trivial ?fresh ?put
  case fresh => rfl
  case skip =>
    intro db u c good _ nothing held
    rcases AccountUpdate.handle_cases good with ⟨account, m, rfl, key, -⟩ | ⟨account, ta, rfl, -, run⟩ |
      ⟨account, m, rfl, key, run⟩
    · simp [AccountUpdate.mintUpdate, key] at nothing
    · rw [run]
      obtain ⟨asset, tables⟩ := indexTokenAccount_tables db account Token.tokenAccountsOnConflict none ta
      refine (Prod.ext ?_ ?_).trans held
      · dsimp only [mintCell]
        rw [tables]
      · exact indexTokenAccount_frame db account mintAccountColumns _ _ ta mint
          (fun db' columns => tokenAccountUpsert_mintAccountColumns db' mint columns)
    · rw [run]
      exact mintCell_saveV1Asset held key account.slot
  case put =>
    intro db u c w _ _ written _ held
    obtain ⟨rfl, key⟩ := AccountUpdate.mintUpdate_eq written
    exact mintCell_indexMint held w key

end Mint

section TokenAccounts
variable [Programs] {mint : Pubkey}

theorem deliver_tokenAccounts {deliveries : List AccountUpdate} (ofMint : ∀ u ∈ deliveries, u.OfMint mint)
    (key : Pubkey) :
    (deliver {} deliveries).tokenAccounts.lookup key =
      ((deliveries.filterMap (AccountUpdate.tokenAccountUpdate key)).argmax (fun w => w.1.slot)).map
        (fun w => tokenAccountRow w.1 w.2 none) := by
  have keep : ∀ (db : Db) (u : AccountUpdate), u.OfMint mint → True → True := fun _ _ _ _ => trivial
  refine foldl_argmax (fun w : AccountInfo × SplAccount => w.1.slot) (fun db : Db => db.tokenAccounts.lookup key)
    (Option.map (fun w => tokenAccountRow w.1 w.2 none)) keep ?skip ofMint trivial ?fresh ?put
  case fresh => rfl
  case skip =>
    intro db u c good _ nothing held
    rcases AccountUpdate.handle_cases good with ⟨account, m, rfl, -, run⟩ | ⟨account, ta, rfl, -, run⟩ |
      ⟨account, m, rfl, -, run⟩
    · rw [run]
      exact held
    · have different : key ≠ account.pubkey := fun same => by
        simp [AccountUpdate.tokenAccountUpdate, same] at nothing
      obtain ⟨asset, tables⟩ := indexTokenAccount_tables db account Token.tokenAccountsOnConflict none ta
      rw [run, tables]
      exact (Table.lookup_upsert_ne _ different _ _).trans held
    · rw [run, (TokenMetadata.saveV1Asset_tokens db m account.slot).2]
      exact held
  case put =>
    intro db u c w _ _ written _ held
    obtain ⟨rfl, rfl⟩ := AccountUpdate.tokenAccountUpdate_eq written
    obtain ⟨asset, tables⟩ := indexTokenAccount_tables db w.1 Token.tokenAccountsOnConflict none w.2
    change (indexTokenAccount Token.tokenAccountsOnConflict none db w.1 w.2).tokenAccounts.lookup w.1.pubkey = _
    rw [tables]
    refine (Table.lookup_upsert_self _ _ _ _).trans ?_
    rw [held]
    refine OnConflict.resolve_strictlyNewer (fun x _ => ?_) (fun _ _ => rfl)
    simp [Token.tokenAccountsOnConflict, tokenAccountRow]

end TokenAccounts

section Metadata
variable [Programs] {mint : Pubkey} {deliveries : List AccountUpdate}

/-- The updates that do not save a metadata account leave its tables alone. -/
theorem AccountUpdate.unsaved_tables {db : Db} {u : AccountUpdate} (ofMint : u.OfMint mint)
    (nothing : u.metadataUpdate mint = none) :
    (handleAccountUpdate db u).1.assetData = db.assetData ∧
      (handleAccountUpdate db u).1.assetAuthority = db.assetAuthority ∧
      metadataAccountColumns ((handleAccountUpdate db u).1.assetOrDefault mint) =
        metadataAccountColumns (db.assetOrDefault mint) := by
  rcases AccountUpdate.handle_cases ofMint with ⟨account, m, rfl, -, run⟩ | ⟨account, ta, rfl, -, run⟩ |
    ⟨account, m, rfl, key, -⟩
  · rw [run]
    exact ⟨rfl, rfl, mintAccountUpsert_metadataAccountColumns
      { db with tokens := Table.upsert db.tokens account.pubkey (tokenRow account m none) Token.tokensOnConflict }
      mint _⟩
  · obtain ⟨asset, tables⟩ := indexTokenAccount_tables db account Token.tokenAccountsOnConflict none ta
    have columns := indexTokenAccount_frame db account metadataAccountColumns Token.tokenAccountsOnConflict none ta
      mint (fun db' columns => tokenAccountUpsert_metadataAccountColumns db' mint columns)
    rw [run]
    refine ⟨?_, ?_, columns⟩ <;> rw [tables]
  · simp [AccountUpdate.metadataUpdate, key] at nothing

theorem AccountUpdate.saved {u : AccountUpdate} {w : TokenMetadata.Update mint}
    (written : u.metadataUpdate mint = some w) (db : Db) :
    (handleAccountUpdate db u).1 = (TokenMetadata.saveV1Asset db w.metadata w.slot).1 := by
  obtain ⟨account, parsed⟩ := u
  obtain ⟨rfl, same⟩ := AccountUpdate.metadataUpdate_eq written
  rw [← same]
  rfl

variable (ofMint : ∀ u ∈ deliveries, u.OfMint mint)
include ofMint

theorem deliver_assetData :
    (deliver {} deliveries).assetData.lookup mint =
      ((deliveries.filterMap (AccountUpdate.metadataUpdate mint)).argmax TokenMetadata.Update.slot).map
        (fun w => w.metadata.assetDataRow w.slot) := by
  have keep : ∀ (db : Db) (u : AccountUpdate), u.OfMint mint → True → True := fun _ _ _ _ => trivial
  refine foldl_argmax TokenMetadata.Update.slot (fun db : Db => db.assetData.lookup mint)
    (Option.map (fun w => w.metadata.assetDataRow w.slot)) keep ?skip ofMint trivial ?fresh ?put
  case fresh => rfl
  case skip =>
    intro db u c good _ nothing held
    rw [(AccountUpdate.unsaved_tables good nothing).1]
    exact held
  case put =>
    intro db u c w _ _ written _ held
    rw [AccountUpdate.saved written]
    exact @V1Asset.Saves.assetData_put (TokenMetadata.Update mint) mint gt (fun w => w.metadata.content) _
      TokenMetadata.Update.slot db _ w c (w.saves db) held

theorem deliver_assetAuthority :
    (deliver {} deliveries).assetAuthority.lookup mint =
      ((deliveries.filterMap (AccountUpdate.metadataUpdate mint)).argmax TokenMetadata.Update.slot).map
        (fun w => V1Asset.authorityRow w.metadata.updateAuthority.bytes w.slot) := by
  have keep : ∀ (db : Db) (u : AccountUpdate), u.OfMint mint → True → True := fun _ _ _ _ => trivial
  refine foldl_argmax TokenMetadata.Update.slot (fun db : Db => db.assetAuthority.lookup mint)
    (Option.map (fun w => V1Asset.authorityRow w.metadata.updateAuthority.bytes w.slot)) keep ?skip ofMint trivial
    ?fresh ?put
  case fresh => rfl
  case skip =>
    intro db u c good _ nothing held
    rw [(AccountUpdate.unsaved_tables good nothing).2.1]
    exact held
  case put =>
    intro db u c w _ _ written _ held
    rw [AccountUpdate.saved written]
    refine (@V1Asset.Saves.assetAuthority_resolve (TokenMetadata.Update mint) mint gt (fun w => w.metadata.content) _
      TokenMetadata.Update.slot db _ w (w.saves db)).trans ?_
    rw [held]
    refine OnConflict.resolve_strictlyNewer (fun x _ => ?_) (fun _ _ => rfl)
    simp [V1Asset.authorityOnConflict, V1Asset.authorityRow]

theorem deliver_metadataAccountColumns :
    metadataAccountColumns ((deliver {} deliveries).assetOrDefault mint) =
      ((latest TokenMetadata.Update.slot (deliveries.filterMap (AccountUpdate.metadataUpdate mint))).map
        (fun w => metadataAccountColumns (w.columns 1).model)).getD (metadataAccountColumns {}) := by
  have keep : ∀ (db : Db) (u : AccountUpdate), u.OfMint mint → True → True := fun _ _ _ _ => trivial
  refine foldl_latest TokenMetadata.Update.slot (fun db : Db => metadataAccountColumns (db.assetOrDefault mint))
    (fun c => (c.map (fun w : TokenMetadata.Update mint => metadataAccountColumns (w.columns 1).model)).getD
      (metadataAccountColumns {})) keep ?skip ofMint trivial ?fresh ?put
  case fresh => rfl
  case skip =>
    intro db u c good _ nothing held
    exact (AccountUpdate.unsaved_tables good nothing).2.2.trans held
  case put =>
    intro db u c w _ _ written _ held
    obtain ⟨metadata, rfl, slot⟩ := w
    have sameColumns : ∀ x : TokenMetadata.Update metadata.mint,
        metadataAccountColumns (x.columns (TokenMetadata.supplyOf db metadata.mint)).model =
          metadataAccountColumns (x.columns 1).model := fun _ => rfl
    rw [AccountUpdate.saved written, Db.assetOrDefault_congr (TokenMetadata.saveV1Asset_asset db metadata slot)]
    refine (@metadataAccountUpsert_newer (TokenMetadata.readBack db metadata) metadata.mint _
      TokenMetadata.Update.slot c ⟨metadata, rfl, slot⟩ _ metadataAccountColumns (fun columns => columns.1)
      (fun x => x.columns (TokenMetadata.supplyOf db metadata.mint)) (fun _ => rfl) (fun _ _ => rfl) (fun _ => rfl) rfl
      (metadataAccountColumns {}) (fun _ => nofun) ?_).trans (sameColumns _)
    rw [TokenMetadata.readBack_metadataAccountColumns db metadata metadata.mint, funext sameColumns]
    exact held

end Metadata

section Linked
variable [Programs] {mint : Pubkey}

/-- An asset is linked to its data as soon as its mint or its metadata account
is indexed. -/
def AssetRow.Linked (mint : Pubkey) (row : AssetRow) : Prop :=
  row.assetData =
    if row.slotUpdatedMintAccount.isSome || row.slotUpdatedMetadataAccount.isSome then some mint else none

omit [Programs] in
theorem tokenAccountUpsert_linked (db : Db) (columns : AssetTokenAccountColumns)
    (linked : (db.assetOrDefault mint).Linked mint) :
    ((upsertAssetsTokenAccountColumns db columns).assetOrDefault mint).Linked mint :=
  Db.upsertAsset_invariant db _ mint _ _ (AssetRow.Linked mint) (fun _ => rfl) (fun _ held => held) linked

omit [Programs] in
theorem mintAccountUpsert_linked (db : Db) (columns : AssetMintAccountColumns) (ofMint : columns.mint = mint)
    (linked : (db.assetOrDefault mint).Linked mint) :
    ((upsertAssetsMintAccountColumns db columns).assetOrDefault mint).Linked mint := by
  subst ofMint
  exact Db.upsertAsset_invariant db _ columns.mint _ _ (AssetRow.Linked columns.mint) (fun _ => rfl)
    (fun _ _ => rfl) linked

theorem deliver_linked {deliveries : List AccountUpdate} (ofMint : ∀ u ∈ deliveries, u.OfMint mint) :
    ((deliver {} deliveries).assetOrDefault mint).Linked mint := by
  have keep : ∀ (db : Db) (u : AccountUpdate), u.OfMint mint → (db.assetOrDefault mint).Linked mint →
      ((handleAccountUpdate db u).1.assetOrDefault mint).Linked mint := by
    intro db u good linked
    rcases AccountUpdate.handle_cases good with ⟨account, m, -, key, run⟩ | ⟨account, ta, -, -, run⟩ |
      ⟨account, m, -, key, run⟩
    · rw [run]
      exact mintAccountUpsert_linked _ _ key linked
    · rw [run]
      dsimp only [indexTokenAccount]
      split
      · exact tokenAccountUpsert_linked _ _ linked
      · exact linked
    · subst key
      have back : ((TokenMetadata.readBack db m).assetOrDefault m.mint).Linked m.mint :=
        TokenMetadata.readBack_invariant (AssetRow.Linked m.mint) m.mint
          (fun _ _ => mintAccountUpsert_linked db _ rfl linked)
          (fun db' _ _ _ held => tokenAccountUpsert_linked db' _ held) linked
      rw [run, Db.assetOrDefault_congr (TokenMetadata.saveV1Asset_asset db m account.slot)]
      refine Db.upsertAsset_invariant _ _ m.mint _ _ (AssetRow.Linked m.mint) (fun _ => rfl) (fun row _ => ?_) back
      rw [AssetRow.Linked, AssetRow.updateSlotUpdated]
      simp [AssetMetadataAccountColumns.onConflict, AssetMetadataAccountColumns.model, TokenMetadata.Metadata.columns]
  exact foldl_invariant (fun db : Db => (db.assetOrDefault mint).Linked mint) keep deliveries ofMint rfl

end Linked

namespace AccountUpdate
variable (mint : Pubkey) (updates : List AccountUpdate)

def newestMint : Option (AccountInfo × SplMint) := latest (fun w => w.1.slot) (updates.filterMap (mintUpdate mint))

def newestTokenAccount (key : Pubkey) : Option (AccountInfo × SplAccount) :=
  latest (fun w => w.1.slot) (updates.filterMap (tokenAccountUpdate key))

def newestMetadata : Option (TokenMetadata.Update mint) :=
  latest TokenMetadata.Update.slot (updates.filterMap (metadataUpdate mint))

variable {mint updates} {deliveries : List AccountUpdate} (distinct : DistinctSlots updates)
  (same : ∀ u, u ∈ deliveries ↔ u ∈ updates)
include distinct same

/-- The newest update of an account depends on the delivered set only. -/
theorem latest_deliveries {W : Type} (ver : W → Nat) (write : AccountUpdate → Option W)
    (one : ∀ {u v w x}, write u = some w → write v = some x → u.source = v.source)
    (slot : ∀ {u w}, write u = some w → u.account.slot = ver w) :
    Identifies ver (deliveries.filterMap write) ∧
      latest ver (deliveries.filterMap write) = latest ver (updates.filterMap write) := by
  have identifies : Identifies ver (deliveries.filterMap write) := by
    intro w memberW x memberX sameSlot
    obtain ⟨u, inDeliveries, writtenU⟩ := List.mem_filterMap.mp memberW
    obtain ⟨v, inDeliveries', writtenV⟩ := List.mem_filterMap.mp memberX
    have sameUpdate := distinct u ((same u).mp inDeliveries) v ((same v).mp inDeliveries') (one writtenU writtenV)
      (by rw [slot writtenU, slot writtenV, sameSlot])
    subst sameUpdate
    exact Option.some.inj (writtenU.symm.trans writtenV)
  refine ⟨identifies, latest_congr identifies (fun w => ?_)⟩
  simp only [List.mem_filterMap, same]

end AccountUpdate

/-- The rows of a mint are those of the newest update of each of its accounts;
columns of an account that was never updated have their defaults. -/
structure AccountUpdate.Converged (mint : Pubkey) (updates : List AccountUpdate) (db : Db) : Prop where
  tokens : db.tokens.lookup mint = (newestMint mint updates).map (fun w => tokenRow w.1 w.2 none)
  tokenAccounts : ∀ key, db.tokenAccounts.lookup key =
    (newestTokenAccount updates key).map (fun w => tokenAccountRow w.1 w.2 none)
  assetData : db.assetData.lookup mint = (newestMetadata mint updates).map (fun w => w.metadata.assetDataRow w.slot)
  assetAuthority : db.assetAuthority.lookup mint = (newestMetadata mint updates).map
    (fun w => V1Asset.authorityRow w.metadata.updateAuthority.bytes w.slot)
  mintColumns :
    ((db.assetOrDefault mint).slotUpdatedMintAccount, (db.assetOrDefault mint).supply,
        (db.assetOrDefault mint).mintExtensions) =
      ((newestMint mint updates).map (fun w => (some w.1.slot, w.2.supply.toNat, none))).getD (none, 1, none)
  metadataColumns :
    ((db.assetOrDefault mint).slotUpdatedMetadataAccount, (db.assetOrDefault mint).royaltyAmount,
        (db.assetOrDefault mint).seq, (db.assetOrDefault mint).burnt) =
      ((newestMetadata mint updates).map (fun w => (some w.slot, w.metadata.sellerFeeBasisPoints, some 0, false))).getD
        (none, 0, none, false)
  linked : (db.assetOrDefault mint).assetData =
    if (newestMint mint updates).isSome || (newestMetadata mint updates).isSome then some mint else none

/-- Updates of the accounts of a mint may be processed in any order and any
number of times. -/
theorem deliver_converges [Programs] (mint : Pubkey) (updates deliveries : List AccountUpdate)
    (ofMint : ∀ u ∈ updates, u.OfMint mint) (distinct : AccountUpdate.DistinctSlots updates)
    (same : ∀ u, u ∈ deliveries ↔ u ∈ updates) :
    AccountUpdate.Converged mint updates (deliver {} deliveries) := by
  have good : ∀ u ∈ deliveries, u.OfMint mint := fun u member => ofMint u ((same u).mp member)
  have mints := AccountUpdate.latest_deliveries distinct same (fun w => w.1.slot) (AccountUpdate.mintUpdate mint)
    (fun writtenU writtenV => by
      rw [(AccountUpdate.mintUpdate_eq writtenU).1, (AccountUpdate.mintUpdate_eq writtenV).1]
      rfl)
    (fun written => congrArg (fun u => u.account.slot) (AccountUpdate.mintUpdate_eq written).1)
  have accounts := fun key => AccountUpdate.latest_deliveries distinct same (fun w => w.1.slot)
    (AccountUpdate.tokenAccountUpdate key)
    (fun writtenU writtenV => by
      obtain ⟨rfl, keyU⟩ := AccountUpdate.tokenAccountUpdate_eq writtenU
      obtain ⟨rfl, keyV⟩ := AccountUpdate.tokenAccountUpdate_eq writtenV
      exact congrArg AccountUpdate.Source.tokenAccount (keyU.trans keyV.symm))
    (fun written => congrArg (fun u => u.account.slot) (AccountUpdate.tokenAccountUpdate_eq written).1)
  have metadata := AccountUpdate.latest_deliveries distinct same TokenMetadata.Update.slot
    (AccountUpdate.metadataUpdate mint)
    (fun writtenU writtenV => by
      rw [AccountUpdate.source, AccountUpdate.source, (AccountUpdate.metadataUpdate_eq writtenU).1,
        (AccountUpdate.metadataUpdate_eq writtenV).1])
    (fun written => (AccountUpdate.metadataUpdate_eq written).2)
  have mintCells := deliver_mintCell good
  have metadataCells := deliver_metadataAccountColumns good
  rw [mints.2] at mintCells
  rw [metadata.2] at metadataCells
  have mintColumns : mintAccountColumns ((deliver {} deliveries).assetOrDefault mint) =
      ((AccountUpdate.newestMint mint updates).map (fun w => (some w.1.slot, w.2.supply.toNat, none))).getD
        (none, 1, none) := congrArg Prod.snd mintCells
  have metadataColumns :
      (((deliver {} deliveries).assetOrDefault mint).slotUpdatedMetadataAccount,
          ((deliver {} deliveries).assetOrDefault mint).royaltyAmount,
          ((deliver {} deliveries).assetOrDefault mint).seq, ((deliver {} deliveries).assetOrDefault mint).burnt) =
        ((AccountUpdate.newestMetadata mint updates).map
          (fun w => (some w.slot, w.metadata.sellerFeeBasisPoints, some 0, false))).getD (none, 0, none, false) := by
    refine (congrArg (fun columns => (columns.1, columns.2.1, columns.2.2.1, columns.2.2.2.1)) metadataCells).trans ?_
    change _ = ((latest TokenMetadata.Update.slot (updates.filterMap (AccountUpdate.metadataUpdate mint))).map _).getD _
    cases latest TokenMetadata.Update.slot (updates.filterMap (AccountUpdate.metadataUpdate mint)) with
    | none => rfl
    | some w => rfl
  refine ⟨congrArg Prod.fst mintCells, fun key => ?_, ?_, ?_, mintColumns, metadataColumns, ?_⟩
  · rw [deliver_tokenAccounts good key, argmax_eq_latest (accounts key).1, (accounts key).2]
    rfl
  · rw [deliver_assetData good, argmax_eq_latest metadata.1, metadata.2]
    rfl
  · rw [deliver_assetAuthority good, argmax_eq_latest metadata.1, metadata.2]
    rfl
  · have mintSlot := congrArg (fun columns => columns.1.isSome) mintColumns
    have metadataSlot := congrArg (fun columns => columns.1.isSome) metadataColumns
    have linked := deliver_linked good
    dsimp only [mintAccountColumns] at mintSlot metadataSlot
    rw [AssetRow.Linked, mintSlot, metadataSlot] at linked
    rw [linked]
    cases AccountUpdate.newestMint mint updates <;> cases AccountUpdate.newestMetadata mint updates <;> rfl

namespace AccountUpdate.Example

/-- Updates of the accounts of one mint, for concrete histories. -/
def mint (supply : UInt64) (slot : Nat) : AccountUpdate where
  account := { slot, pubkey := .fill 7, owner := .fill 6 }
  parsed := .tokenProgramEntity
    (.mint { mintAuthority := none, supply, decimals := 0, freezeAuthority := none })

def tokenAccount (key owner : Pubkey) (amount : UInt64) (slot : Nat) : AccountUpdate where
  account := { slot, pubkey := key, owner := .fill 6 }
  parsed := .tokenProgramEntity
    (.tokenAccount { mint := .fill 7, owner, amount, delegate := none, state := .initialized, delegatedAmount := 0 })

def metadata (m : TokenMetadata.Metadata) (slot : Nat) : AccountUpdate where
  account := { slot, pubkey := .fill 9, owner := .fill 6 }
  parsed := .tokenMetadata (.metadataV1 m)

def nft (sellerFeeBasisPoints slot : Nat) : AccountUpdate :=
  metadata (TokenMetadata.Example.metadata sellerFeeBasisPoints true (some .nonFungible) none none) slot

end AccountUpdate.Example

open AccountUpdate.Example in
/-- The newer metadata comes first and the mint in between. -/
theorem deliver_converges_newest_first :
    AccountUpdate.Converged (.fill 7) [mint 1 5, nft 500 7, tokenAccount (.fill 1) (.fill 2) 1 6, nft 600 9]
      (deliver {} [nft 600 9, tokenAccount (.fill 1) (.fill 2) 1 6, mint 1 5, nft 500 7, mint 1 5]) := by
  refine deliver_converges (.fill 7) _ _ ?_ ?_ ?_
  · intro u member
    simp only [List.mem_cons, List.not_mem_nil, or_false] at member
    rcases member with rfl | rfl | rfl | rfl <;> rfl
  · intro u member v member' sameSource sameSlot
    simp only [List.mem_cons, List.not_mem_nil, or_false] at member member'
    rcases member with rfl | rfl | rfl | rfl <;> rcases member' with rfl | rfl | rfl | rfl <;>
      first | rfl | exact absurd sameSlot (by decide)
  · intro u
    simp only [List.mem_cons, List.not_mem_nil, or_false]
    tauto

end DasIndexer
