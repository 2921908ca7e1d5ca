import DasIndexer.Accounts.Convergence
import Mathlib.Data.List.Permutation

namespace DasIndexer
open Sql Latest

/-- The columns of an asset by which an NFT is recognised. -/
def AssetRow.nftColumns (row : AssetRow) :=
  (row.owner, row.delegate, row.frozen, row.ownerType, row.specificationAssetClass, row.supply, row.supplyMint)

section Rows

/-- The row of an asset after each of the three statements. -/
def mintUpserted (columns : AssetMintAccountColumns) (asset : Option AssetRow) : AssetRow :=
  (throughTrigger AssetMintAccountColumns.onConflict).resolve columns.model asset

def tokenAccountUpserted (columns : AssetTokenAccountColumns) (asset : Option AssetRow) : AssetRow :=
  (throughTrigger AssetTokenAccountColumns.onConflict).resolve columns.model asset

def metadataUpserted (columns : AssetMetadataAccountColumns) (asset : Option AssetRow) : AssetRow :=
  (throughTrigger AssetMetadataAccountColumns.onConflict).resolve columns.model asset

/-- A statement is accepted again at the slot it was accepted at. -/
theorem mintUpserted_again {columns : AssetMintAccountColumns} {row : AssetRow}
    (slot : row.slotUpdatedMintAccount = some columns.slotUpdatedMintAccount) :
    mintUpserted columns (some row) =
      (AssetMintAccountColumns.onConflict.set row columns.model).updateSlotUpdated := by
  refine if_pos ((holds_ge_or_isNull columns.slotUpdatedMintAccount row.slotUpdatedMintAccount).trans ?_)
  rw [slot]
  simp

theorem tokenAccountUpserted_again {columns : AssetTokenAccountColumns} {row : AssetRow} {v : Nat}
    (known : columns.slotUpdatedTokenAccount = some v) (slot : row.slotUpdatedTokenAccount = some v) :
    tokenAccountUpserted columns (some row) =
      (AssetTokenAccountColumns.onConflict.set row columns.model).updateSlotUpdated := by
  have proposed : columns.model.slotUpdatedTokenAccount = some v := known
  refine if_pos ((holds_ge_or_isNull_of proposed row.slotUpdatedTokenAccount).trans ?_)
  rw [slot]
  simp

/-- The row after the row of the mint was read back. -/
def mintReadBack (mint : Pubkey) (token : Option TokenRow) (asset : Option AssetRow) : Option AssetRow :=
  match token with
  | some token => some (mintUpserted (token.columns mint) asset)
  | none => asset

/-- The row after the row of the token account was read back. -/
def tokenAccountReadBack (mint : Pubkey) (account : Option TokenAccountRow) (asset : Option AssetRow) :
    Option AssetRow :=
  match account with
  | some ta => some (tokenAccountUpserted (ta.columns mint) asset)
  | none => asset

/-- What the handlers read of the accounts of a mint with at most one token
account. -/
structure Reads (mint : Pubkey) (token : Option TokenRow) (account : Option TokenAccountRow)
    (asset : Option AssetRow) (db : Db) : Prop where
  tokens : db.tokens.lookup mint = token
  found : TokenMetadata.findTokenAccount db mint = account
  unseen : account = none → db.tokenAccounts = ∅
  stored : db.asset.lookup mint = asset

end Rows

section Steps
variable {mint : Pubkey} {token : Option TokenRow} {account : Option TokenAccountRow} {asset : Option AssetRow}
  {db : Db}

theorem Reads.start (mint : Pubkey) : Reads mint none none none {} :=
  ⟨rfl, rfl, fun _ => rfl, rfl⟩

theorem findTokenAccount_congr {other : Db} (same : other.tokenAccounts = db.tokenAccounts) (mint : Pubkey) :
    TokenMetadata.findTokenAccount other mint = TokenMetadata.findTokenAccount db mint := by
  rw [TokenMetadata.findTokenAccount, TokenMetadata.findTokenAccount, same]

theorem Reads.indexMint (reads : Reads mint none account asset db) (w : AccountInfo × SplMint)
    (ofMint : w.1.pubkey = mint) :
    Reads mint (some (mintRow w)) account (some (mintUpserted ((mintRow w).columns mint) asset))
      (indexMint Token.tokensOnConflict none db w.1 w.2) := by
  subst ofMint
  refine ⟨?_, reads.found, reads.unseen, ?_⟩
  · refine (Table.lookup_upsert_self _ _ _ _).trans ?_
    rw [reads.tokens]
    rfl
  · refine (Table.lookup_upsert_self _ _ _ _).trans ?_
    rw [reads.stored]
    rfl

theorem Reads.indexTokenAccount (reads : Reads mint token none asset db) (w : AccountInfo × SplAccount)
    (ofMint : w.2.mint = mint) (held : w.2.amount = 1) :
    Reads mint token (some (tokenAccountRow w.1 w.2 none))
      (if token.any TokenRow.isNonFungible then some (tokenAccountUpserted (tokenAccountColumnsOf w.1 w.2) asset)
        else asset)
      (indexTokenAccount Token.tokenAccountsOnConflict none db w.1 w.2) := by
  subst ofMint
  have tables := indexTokenAccount_tables db w.1 Token.tokenAccountsOnConflict none w.2
  refine ⟨?_, ?_, nofun, ?_⟩
  · obtain ⟨rows, same⟩ := tables
    rw [same]
    exact reads.tokens
  · obtain ⟨rows, same⟩ := tables
    rw [same, TokenMetadata.findTokenAccount, reads.unseen rfl]
    have entries : (Table.upsert (∅ : Table Pubkey TokenAccountRow) w.1.pubkey (tokenAccountRow w.1 w.2 none)
        Token.tokenAccountsOnConflict).entries.map (fun entry => entry.2) = [tokenAccountRow w.1 w.2 none] := rfl
    have kept : [tokenAccountRow w.1 w.2 none].filter (fun ta => ta.mint = w.2.mint && 0 < ta.amount) =
        [tokenAccountRow w.1 w.2 none] := by
      have positive : 0 < asI64 w.2.amount.toNat := by
        rw [held]
        decide
      simpa [tokenAccountRow] using positive
    dsimp only
    rw [entries, kept, List.argmax_singleton]
  · dsimp only [DasIndexer.indexTokenAccount]
    rw [reads.tokens]
    cases token with
    | none => exact reads.stored
    | some token =>
      rw [Option.map_some, Option.getD_some, Option.any_some]
      split
      · refine (Table.lookup_upsert_self _ _ _ _).trans ?_
        rw [← reads.stored]
        rfl
      · exact reads.stored

theorem Reads.readBack {metadata : TokenMetadata.Metadata} {supply : Nat}
    (reads : Reads metadata.mint token account asset db) (known : TokenMetadata.supplyOf db metadata.mint = supply) :
    (TokenMetadata.readBack db metadata).asset.lookup metadata.mint =
      if metadata.ownershipType supply = .token then mintReadBack metadata.mint token asset
      else tokenAccountReadBack metadata.mint account (mintReadBack metadata.mint token asset) := by
  have back : (TokenMetadata.indexAndFetchMintData db metadata.mint).1.asset.lookup metadata.mint =
      mintReadBack metadata.mint token asset := by
    unfold TokenMetadata.indexAndFetchMintData
    rw [reads.tokens]
    cases token with
    | none => exact reads.stored
    | some token =>
      refine (Table.lookup_upsert_self _ _ _ _).trans ?_
      rw [reads.stored]
      rfl
  have same : (TokenMetadata.indexAndFetchMintData db metadata.mint).1.tokenAccounts = db.tokenAccounts := by
    rw [TokenMetadata.indexAndFetchMintData_eq]
  have found := (findTokenAccount_congr same metadata.mint).trans reads.found
  have accountBack : (TokenMetadata.indexTokenAccountData (TokenMetadata.indexAndFetchMintData db metadata.mint).1
      metadata.mint).asset.lookup metadata.mint =
        tokenAccountReadBack metadata.mint account (mintReadBack metadata.mint token asset) := by
    unfold TokenMetadata.indexTokenAccountData
    rw [found]
    cases account with
    | none => exact back
    | some ta =>
      refine (Table.lookup_upsert_self _ _ _ _).trans ?_
      rw [back]
      rfl
  dsimp only [TokenMetadata.readBack]
  rw [known]
  cases metadata.ownershipType supply with
  | single => simpa using accountBack
  | token => simpa using back
  | unknown => simpa using accountBack

theorem Reads.saveV1Asset [Programs] {metadata : TokenMetadata.Metadata} {supply : Nat}
    (reads : Reads metadata.mint token account asset db) (known : (token.map TokenRow.supply).getD 1 = supply)
    (slot : Nat) :
    Reads metadata.mint token account
      (some (metadataUpserted (metadata.columns supply slot)
        (if metadata.ownershipType supply = .token then mintReadBack metadata.mint token asset
          else tokenAccountReadBack metadata.mint account (mintReadBack metadata.mint token asset))))
      (TokenMetadata.saveV1Asset db metadata slot).1 := by
  obtain ⟨tokens, accounts⟩ := TokenMetadata.saveV1Asset_tokens db metadata slot
  have indexed : TokenMetadata.supplyOf db metadata.mint = supply := by
    rw [TokenMetadata.supplyOf, reads.tokens, known]
  refine ⟨by rw [tokens, reads.tokens], ?_, fun absent => by rw [accounts, reads.unseen absent], ?_⟩
  · exact (findTokenAccount_congr accounts metadata.mint).trans reads.found
  · rw [TokenMetadata.saveV1Asset_asset db metadata slot, indexed]
    refine (Table.lookup_upsert_self _ _ _ _).trans ?_
    rw [reads.readBack indexed]
    rfl

end Steps

/-- The accounts of an NFT. -/
inductive NftAccount where
  | mint
  | token
  | metadata
  deriving DecidableEq, Repr

/-- A state of each account of an NFT: of its metadata account, of its mint of
supply 1 without decimals, and of the token account that holds it. -/
structure Nft where
  metadata : TokenMetadata.Metadata
  metadataAccount : AccountInfo
  tokenProgram : Pubkey
  mintSlot : Nat
  mintAuthority : Option Pubkey
  freezeAuthority : Option Pubkey
  tokenSlot : Nat
  tokenKey : Pubkey
  owner : Pubkey
  delegate : Option Pubkey
  state : AccountState
  delegatedAmount : UInt64

namespace Nft
variable (n : Nft)

def id : Pubkey := n.metadata.mint

def mint : AccountInfo × SplMint :=
  ({ slot := n.mintSlot, pubkey := n.id, owner := n.tokenProgram },
    { mintAuthority := n.mintAuthority, supply := 1, decimals := 0, freezeAuthority := n.freezeAuthority })

def token : AccountInfo × SplAccount :=
  ({ slot := n.tokenSlot, pubkey := n.tokenKey, owner := n.tokenProgram },
    { mint := n.id, owner := n.owner, amount := 1, delegate := n.delegate, state := n.state
      delegatedAmount := n.delegatedAmount })

def update : NftAccount → AccountUpdate
  | .mint => ⟨n.mint.1, .tokenProgramEntity (.mint n.mint.2)⟩
  | .token => ⟨n.token.1, .tokenProgramEntity (.tokenAccount n.token.2)⟩
  | .metadata => ⟨n.metadataAccount, .tokenMetadata (.metadataV1 n.metadata)⟩

/-- What the asset looks like, with or without the columns of its token account
and the mint of its supply. -/
def columns (owned minted : Bool) :=
  (if owned then some n.owner.bytes else none, if owned then n.delegate.map Bytes32.bytes else none,
    owned && n.token.2.isFrozen, n.metadata.ownershipType 1, some (n.metadata.assetClass 1), 1,
    if minted then some n.id else none)

section Orders
variable [Programs] {token : Option TokenRow} {account : Option TokenAccountRow} {asset : Option AssetRow} {db : Db}

def mintColumns : AssetMintAccountColumns := (mintRow n.mint).columns n.id

def tokenRow : TokenAccountRow := tokenAccountRow n.token.1 n.token.2 none

def tokenColumns : AssetTokenAccountColumns := tokenAccountColumnsOf n.token.1 n.token.2

def metadataColumns : AssetMetadataAccountColumns := n.metadata.columns 1 n.metadataAccount.slot

theorem reads_mint (reads : Reads n.id none account asset db) :
    Reads n.id (some (mintRow n.mint)) account (some (mintUpserted n.mintColumns asset))
      (handleAccountUpdate db (n.update .mint)).1 :=
  reads.indexMint n.mint rfl

theorem reads_token_unminted (reads : Reads n.id none none asset db) :
    Reads n.id none (some n.tokenRow) asset (handleAccountUpdate db (n.update .token)).1 :=
  reads.indexTokenAccount n.token rfl rfl

theorem reads_token_minted (reads : Reads n.id (some (mintRow n.mint)) none asset db) :
    Reads n.id (some (mintRow n.mint)) (some n.tokenRow) (some (tokenAccountUpserted n.tokenColumns asset))
      (handleAccountUpdate db (n.update .token)).1 :=
  reads.indexTokenAccount n.token rfl rfl

theorem reads_metadata (reads : Reads n.id token account asset db) (one : (token.map TokenRow.supply).getD 1 = 1) :
    Reads n.id token account
      (some (metadataUpserted n.metadataColumns
        (if n.metadata.ownershipType 1 = .token then mintReadBack n.id token asset
          else tokenAccountReadBack n.id account (mintReadBack n.id token asset))))
      (handleAccountUpdate db (n.update .metadata)).1 :=
  reads.saveV1Asset one n.metadataAccount.slot

omit [Programs] in
theorem columns_of_reads {row : AssetRow} (reads : Reads n.id token account (some row) db) :
    (db.assetOrDefault n.id).nftColumns = row.nftColumns := by
  rw [Db.assetOrDefault, reads.stored, Option.getD_some]

/-- The asset is owned when the mint is there before the token account, or when
the metadata finds the token account; only a mint that comes before the metadata
leaves the mint of the supply behind. -/
theorem finalColumns (order : List NftAccount) (all : order.Perm [.mint, .token, .metadata]) :
    ((deliver {} (order.map n.update)).assetOrDefault n.id).nftColumns =
      n.columns
        (order.idxOf .mint < order.idxOf .token ||
          order.idxOf .token < order.idxOf .metadata && n.metadata.ownershipType 1 ≠ .token)
        (order.idxOf .mint < order.idxOf .metadata) := by
  have orders : order ∈ [NftAccount.mint, .token, .metadata].permutations' := List.mem_permutations'.mpr all
  have six : [NftAccount.mint, .token, .metadata].permutations' =
      [[.mint, .token, .metadata], [.token, .mint, .metadata], [.token, .metadata, .mint],
        [.mint, .metadata, .token], [.metadata, .mint, .token], [.metadata, .token, .mint]] := by decide
  rw [six] at orders
  have start := Reads.start n.id
  simp only [List.mem_cons, List.not_mem_nil, or_false] at orders
  by_cases kind : n.metadata.ownershipType 1 = .token
  · have unowned : decide (n.metadata.ownershipType 1 ≠ .token) = false := by simpa using kind
    rw [unowned]
    rcases orders with rfl | rfl | rfl | rfl | rfl | rfl
    · refine (n.columns_of_reads (n.reads_metadata (n.reads_token_minted (n.reads_mint start)) rfl)).trans ?_
      rw [if_pos kind, mintReadBack, mintUpserted_again rfl]
      rfl
    · refine (n.columns_of_reads (n.reads_metadata (n.reads_mint (n.reads_token_unminted start)) rfl)).trans ?_
      rw [if_pos kind, mintReadBack, mintUpserted_again rfl]
      rfl
    · refine (n.columns_of_reads (n.reads_mint (n.reads_metadata (n.reads_token_unminted start) rfl))).trans ?_
      rw [if_pos kind]
      rfl
    · refine (n.columns_of_reads (n.reads_token_minted (n.reads_metadata (n.reads_mint start) rfl))).trans ?_
      rw [if_pos kind, mintReadBack, mintUpserted_again rfl]
      rfl
    · refine (n.columns_of_reads (n.reads_token_minted (n.reads_mint (n.reads_metadata start rfl)))).trans ?_
      rw [if_pos kind]
      rfl
    · refine (n.columns_of_reads (n.reads_mint (n.reads_token_unminted (n.reads_metadata start rfl)))).trans ?_
      rw [if_pos kind]
      rfl
  · rw [decide_eq_true kind]
    rcases orders with rfl | rfl | rfl | rfl | rfl | rfl
    · refine (n.columns_of_reads (n.reads_metadata (n.reads_token_minted (n.reads_mint start)) rfl)).trans ?_
      rw [if_neg kind, mintReadBack, mintUpserted_again rfl, tokenAccountReadBack, tokenAccountUpserted_again rfl rfl]
      rfl
    · refine (n.columns_of_reads (n.reads_metadata (n.reads_mint (n.reads_token_unminted start)) rfl)).trans ?_
      rw [if_neg kind, mintReadBack, mintUpserted_again rfl]
      rfl
    · refine (n.columns_of_reads (n.reads_mint (n.reads_metadata (n.reads_token_unminted start) rfl))).trans ?_
      rw [if_neg kind]
      rfl
    · refine (n.columns_of_reads (n.reads_token_minted (n.reads_metadata (n.reads_mint start) rfl))).trans ?_
      rw [if_neg kind, mintReadBack, mintUpserted_again rfl]
      rfl
    · refine (n.columns_of_reads (n.reads_token_minted (n.reads_mint (n.reads_metadata start rfl)))).trans ?_
      rw [if_neg kind]
      rfl
    · refine (n.columns_of_reads (n.reads_mint (n.reads_token_unminted (n.reads_metadata start rfl)))).trans ?_
      rw [if_neg kind]
      rfl

end Orders

/-- The asset of an NFT, whatever the order in which its accounts are processed. -/
def OrderIndependent [Programs] : Prop :=
  ∀ order order' : List NftAccount, order.Perm [.mint, .token, .metadata] → order'.Perm [.mint, .token, .metadata] →
    ((deliver {} (order.map n.update)).assetOrDefault n.id).nftColumns =
        ((deliver {} (order'.map n.update)).assetOrDefault n.id).nftColumns ∧
      ((deliver {} (order.map n.update)).assetOrDefault n.id).owner = some n.owner.bytes

theorem columns_eq_complete {owned minted : Bool} :
    n.columns owned minted = n.columns true true ↔ owned = true ∧ minted = true := by
  cases owned <;> cases minted <;> simp [columns]

theorem not_orderIndependent [Programs] : ¬ n.OrderIndependent := by
  intro independent
  have swapped : [NftAccount.metadata, .token, .mint].Perm [.mint, .token, .metadata] := by decide
  have same := (independent [.mint, .token, .metadata] [.metadata, .token, .mint] (List.Perm.refl _) swapped).1
  rw [n.finalColumns _ (List.Perm.refl _), n.finalColumns _ swapped] at same
  have minted := (n.columns_eq_complete.mp same.symm).2
  exact absurd minted (by decide)

end Nft

/-- The columns that say what kind of token an asset is. -/
def AssetRow.kindColumns (row : AssetRow) := (row.ownerType, row.specificationAssetClass)

section Kind
variable [Programs] {w : AccountInfo × SplMint} {metadata : TokenMetadata.Metadata}
  (ofMint : w.1.pubkey = metadata.mint) (slot : Nat)
include ofMint

theorem kind_mint_first :
    ((TokenMetadata.saveV1Asset (indexMint Token.tokensOnConflict none {} w.1 w.2) metadata slot).1.assetOrDefault
        metadata.mint).kindColumns =
      (metadata.ownershipType w.2.supply.toNat, some (metadata.assetClass w.2.supply.toNat)) := by
  have reads := ((Reads.start metadata.mint).indexMint w ofMint).saveV1Asset rfl slot
  rw [Db.assetOrDefault, reads.stored, Option.getD_some, tokenAccountReadBack, ite_self, mintReadBack,
    mintUpserted_again rfl]
  rfl

theorem kind_metadata_first :
    ((indexMint Token.tokensOnConflict none (TokenMetadata.saveV1Asset {} metadata slot).1 w.1 w.2).assetOrDefault
        metadata.mint).kindColumns = (metadata.ownershipType 1, some (metadata.assetClass 1)) := by
  have reads := ((Reads.start metadata.mint).saveV1Asset rfl slot).indexMint w ofMint
  rw [Db.assetOrDefault, reads.stored, Option.getD_some, tokenAccountReadBack, ite_self]
  rfl

end Kind

/-- Without a standard, a supply above 1 makes a fungible token, unless the
supply is not known yet. -/
theorem kind_of_supply_iff {metadata : TokenMetadata.Metadata} {supply : Nat} (unknown : metadata.tokenStandard = none)
    (many : 1 < supply) :
    metadata.ownershipType supply = metadata.ownershipType 1 ∧ metadata.assetClass supply = metadata.assetClass 1 ↔
      metadata.mint = wsolPubkey := by
  by_cases wrapped : metadata.mint = wsolPubkey
  · simp [TokenMetadata.Metadata.ownershipType, TokenMetadata.Metadata.assetClass, wrapped]
  · have several : supply ≠ 1 := by omega
    simp [TokenMetadata.Metadata.ownershipType, TokenMetadata.Metadata.assetClass, wrapped, unknown,
      TokenMetadata.classOfStandard, TokenMetadata.ownerTypeOfClass, many, several]

theorem kind_order_iff [Programs] (account metadataAccount : AccountInfo) (m : SplMint)
    {metadata : TokenMetadata.Metadata} (ofMint : account.pubkey = metadata.mint) (many : 1 < m.supply.toNat)
    (unknown : metadata.tokenStandard = none) :
    ((deliver {} [⟨account, .tokenProgramEntity (.mint m)⟩,
          ⟨metadataAccount, .tokenMetadata (.metadataV1 metadata)⟩]).assetOrDefault metadata.mint).kindColumns =
        ((deliver {} [⟨metadataAccount, .tokenMetadata (.metadataV1 metadata)⟩,
          ⟨account, .tokenProgramEntity (.mint m)⟩]).assetOrDefault metadata.mint).kindColumns ↔
      metadata.mint = wsolPubkey := by
  have mintFirst := kind_mint_first (w := (account, m)) ofMint metadataAccount.slot
  have metadataFirst := kind_metadata_first (w := (account, m)) ofMint metadataAccount.slot
  rw [show ((deliver {} [⟨account, .tokenProgramEntity (.mint m)⟩,
      ⟨metadataAccount, .tokenMetadata (.metadataV1 metadata)⟩]).assetOrDefault metadata.mint).kindColumns = _
      from mintFirst, show ((deliver {} [⟨metadataAccount, .tokenMetadata (.metadataV1 metadata)⟩,
      ⟨account, .tokenProgramEntity (.mint m)⟩]).assetOrDefault metadata.mint).kindColumns = _ from metadataFirst,
    Prod.mk.injEq, Option.some.injEq]
  exact kind_of_supply_iff unknown many

/-- An order of processing gives an NFT its owner and the mint of its supply
exactly when the mint comes before the metadata, and before the token account
as well when the metadata names a fungible standard; so no NFT looks the same
after all orders. A token of a larger supply without a standard does so only if
it is wrapped SOL. -/
theorem nft_order_iff [Programs] :
    (∀ (n : Nft) (order : List NftAccount), order.Perm [.mint, .token, .metadata] →
      (((deliver {} (order.map n.update)).assetOrDefault n.id).nftColumns = n.columns true true ↔
        order.idxOf .mint < order.idxOf .metadata ∧
          (order.idxOf .mint < order.idxOf .token ∨ n.metadata.ownershipType 1 ≠ .token))) ∧
    (∀ n : Nft, ¬ n.OrderIndependent) ∧
    (∀ (account metadataAccount : AccountInfo) (m : SplMint) (metadata : TokenMetadata.Metadata),
      account.pubkey = metadata.mint → 1 < m.supply.toNat → metadata.tokenStandard = none →
      (((deliver {} [⟨account, .tokenProgramEntity (.mint m)⟩,
            ⟨metadataAccount, .tokenMetadata (.metadataV1 metadata)⟩]).assetOrDefault metadata.mint).kindColumns =
          ((deliver {} [⟨metadataAccount, .tokenMetadata (.metadataV1 metadata)⟩,
            ⟨account, .tokenProgramEntity (.mint m)⟩]).assetOrDefault metadata.mint).kindColumns ↔
        metadata.mint = wsolPubkey)) := by
  refine ⟨fun n order all => ?_, fun n => n.not_orderIndependent,
    fun account metadataAccount m metadata ofMint many unknown => ?_⟩
  · rw [n.finalColumns order all, n.columns_eq_complete]
    simp only [Bool.or_eq_true, Bool.and_eq_true, decide_eq_true_eq]
    constructor
    · rintro ⟨owned, minted⟩
      exact ⟨minted, owned.imp_right (fun found => found.2)⟩
    · rintro ⟨minted, first | owned⟩
      · exact ⟨Or.inl first, minted⟩
      · by_cases first : order.idxOf .mint < order.idxOf .token
        · exact ⟨Or.inl first, minted⟩
        · exact ⟨Or.inr ⟨by omega, owned⟩, minted⟩
  · exact kind_order_iff account metadataAccount m ofMint many unknown

/-- An NFT, and the same metadata for a mint of supply 2, for concrete orders. -/
def Nft.sample (standard : Option TokenStandard) : Nft where
  metadata := TokenMetadata.Example.metadata 500 true standard none none
  metadataAccount := { slot := 10, pubkey := .fill 9, owner := .fill 6 }
  tokenProgram := .fill 6
  mintSlot := 10
  mintAuthority := none
  freezeAuthority := none
  tokenSlot := 10
  tokenKey := .fill 1
  owner := .fill 2
  delegate := none
  state := .initialized
  delegatedAmount := 0

theorem nft_mint_before_metadata :
    ((deliver {} ([NftAccount.token, .mint, .metadata].map (Nft.sample (some .nonFungible)).update)).assetOrDefault
        (Nft.sample (some .nonFungible)).id).nftColumns = (Nft.sample (some .nonFungible)).columns true true ∧
      ¬ (Nft.sample (some .nonFungible)).OrderIndependent := by
  refine ⟨(nft_order_iff.1 _ _ (by decide)).mpr ⟨by decide, Or.inr (by decide)⟩, nft_order_iff.2.1 _⟩

/-- When the metadata comes first and the mint last, the NFT has no owner; and
the kind of a token of supply 2 depends on the order as well. -/
theorem nft_metadata_before_mint :
    ((deliver {} ([NftAccount.metadata, .token, .mint].map (Nft.sample (some .nonFungible)).update)).assetOrDefault
        (Nft.sample (some .nonFungible)).id).owner = none ∧
    ¬ (Nft.sample (some .nonFungible)).OrderIndependent ∧
    ((deliver {} [AccountUpdate.Example.mint 2 10, (Nft.sample none).update .metadata]).assetOrDefault
        (Nft.sample none).id).kindColumns ≠
      ((deliver {} [(Nft.sample none).update .metadata, AccountUpdate.Example.mint 2 10]).assetOrDefault
        (Nft.sample none).id).kindColumns := by
  have final := (Nft.sample (some .nonFungible)).finalColumns [.metadata, .token, .mint] (by decide)
  refine ⟨congrArg Prod.fst final, Nft.not_orderIndependent _, ?_⟩
  intro same
  have wrapped := (kind_order_iff (AccountUpdate.Example.mint 2 10).account (Nft.sample none).metadataAccount _ rfl
    (by decide) rfl).mp same
  exact absurd wrapped (by decide)

end DasIndexer
