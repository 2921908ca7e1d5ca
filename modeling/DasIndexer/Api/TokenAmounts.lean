import DasIndexer.Accounts.Ownership
import DasIndexer.Accounts.Saves
import DasIndexer.Api.IgnoredCursors
import DasIndexer.Api.Pages

namespace DasIndexer
open Sql Latest

section Casts
variable {n : Nat}

theorem asI64_cases (fits : n < 2 ^ 64) :
    (n < 2 ^ 63 ∧ asI64 n = n) ∨ (2 ^ 63 ≤ n ∧ asI64 n = n - 2 ^ 64) := by
  rw [asI64, BitVec.toInt_eq_toNat_cond, BitVec.toNat_ofNat, Nat.mod_eq_of_lt fits]
  split
  · left
    omega
  · right
    omega

theorem asI64_nonneg_iff (fits : n < 2 ^ 64) : 0 ≤ asI64 n ↔ n < 2 ^ 63 := by
  have cases := asI64_cases fits
  omega

theorem asI64_pos_iff (fits : n < 2 ^ 64) : 0 < asI64 n ↔ n ≠ 0 ∧ n < 2 ^ 63 := by
  have cases := asI64_cases fits
  omega

/-- The casts to and from the signed column give back the amount. -/
theorem toU64_asI64 (fits : n < 2 ^ 64) : Rpc.toU64 (asI64 n) = n := by
  have cases := asI64_cases fits
  rw [Rpc.toU64]
  omega

end Casts

namespace AccountUpdate

/-- The state of a token account that an update of either token program carries. -/
def tokenState (key : Pubkey) (u : AccountUpdate) : Option (AccountInfo × SplAccount) :=
  match u.parsed with
  | .tokenProgramEntity (.tokenAccount ta) => if u.account.pubkey = key then some (u.account, ta) else none
  | .tokenExtensionsProgramEntity (.tokenAccount ta _) => if u.account.pubkey = key then some (u.account, ta) else none
  | _ => none

/-- The state of an account on the chain: that of its newest slot, the first one
among several of one slot. -/
def onChain (updates : List AccountUpdate) (key : Pubkey) : Option (AccountInfo × SplAccount) :=
  (updates.filterMap (tokenState key)).argmax (fun w => w.1.slot)

end AccountUpdate

/-- A row without its extensions. -/
def TokenAccountRow.bare (row : TokenAccountRow) : TokenAccountRow := { row with extensions := none }

/-- A clause that keeps the newest row, whatever it does with the extensions. -/
structure KeepsNewest (clause : OnConflict TokenAccountRow) : Prop where
  set : ∀ stored excluded, (clause.set stored excluded).bare = excluded.bare
  filter : ∀ stored excluded, (clause.filter stored excluded).holds = decide (stored.slotUpdated < excluded.slotUpdated)

theorem Token.tokenAccountsOnConflict_keepsNewest : KeepsNewest Token.tokenAccountsOnConflict :=
  ⟨fun _ _ => rfl, fun _ _ => by simp [Token.tokenAccountsOnConflict]⟩

theorem TokenExtensions.tokenAccountsOnConflict_keepsNewest : KeepsNewest TokenExtensions.tokenAccountsOnConflict :=
  ⟨fun _ _ => rfl, fun _ _ => by simp [TokenExtensions.tokenAccountsOnConflict]⟩

/-- Whatever its extensions, the row of an account holds the newer of two states. -/
theorem KeepsNewest.resolve {clause : OnConflict TokenAccountRow} (newest : KeepsNewest clause)
    {stored : Option TokenAccountRow} {c : Option (AccountInfo × SplAccount)} (w : AccountInfo × SplAccount)
    (json : Option Json)
    (held : stored.map TokenAccountRow.bare = c.map (fun w => tokenAccountRow w.1 w.2 none)) :
    (clause.resolve (tokenAccountRow w.1 w.2 json) stored).bare =
      (fun w : AccountInfo × SplAccount => tokenAccountRow w.1 w.2 none) (strictlyNewer (fun w => w.1.slot) c w) := by
  cases c with
  | none =>
    rw [Option.map_none, Option.map_eq_none_iff] at held
    rw [held]
    rfl
  | some x =>
    obtain ⟨row, isStored, bare⟩ := Option.map_eq_some_iff.mp held
    have slot : row.slotUpdated = x.1.slot := congrArg TokenAccountRow.slotUpdated bare
    have accepts : (clause.filter row (tokenAccountRow w.1 w.2 json)).holds = decide (x.1.slot < w.1.slot) := by
      rw [newest.filter, slot]
      rfl
    rw [isStored, OnConflict.resolve, accepts, strictlyNewer]
    by_cases later : x.1.slot < w.1.slot
    · rw [if_pos (decide_eq_true later), if_pos later]
      exact newest.set row _
    · rw [if_neg (by simpa using later), if_neg later]
      exact bare

section Indexing
variable [Programs]

theorem MplCore.saveV1Asset_tokenAccounts (db : Db) (id : Pubkey) (data : MplCore.MplCoreAccountData) (slot : Nat) :
    (MplCore.saveV1Asset db id data slot).1.tokenAccounts = db.tokenAccounts := by
  unfold MplCore.saveV1Asset
  cases data.indexable with
  | none => rfl
  | some asset =>
    dsimp only
    split
    · rw [MplCore.updateGroupAssetAuthorities_eq]
      rfl
    · rfl

/-- An update writes the row of the token account whose state it carries, and no
other. -/
theorem AccountUpdate.handle_tokenAccounts (u : AccountUpdate) :
    (∃ ta clause json, (∀ key, u.tokenState key = if u.account.pubkey = key then some (u.account, ta) else none) ∧
      KeepsNewest clause ∧ ∀ db, (handleAccountUpdate db u).1.tokenAccounts =
        Table.upsert db.tokenAccounts u.account.pubkey (tokenAccountRow u.account ta json) clause) ∨
    ((∀ key, u.tokenState key = none) ∧ ∀ db, (handleAccountUpdate db u).1.tokenAccounts = db.tokenAccounts) := by
  have indexed : ∀ clause json (ta : SplAccount) (db : Db),
      (indexTokenAccount clause json db u.account ta).tokenAccounts =
        Table.upsert db.tokenAccounts u.account.pubkey (tokenAccountRow u.account ta json) clause := by
    intro clause json ta db
    obtain ⟨asset, tables⟩ := indexTokenAccount_tables db u.account clause json ta
    rw [tables]
  obtain ⟨account, parsed⟩ := u
  cases parsed with
  | tokenMetadata data =>
    right
    cases data with
    | metadataV1 metadata =>
      exact ⟨fun _ => rfl, fun db => (TokenMetadata.saveV1Asset_tokens db metadata account.slot).2⟩
    | emptyAccount => exact ⟨fun _ => rfl, fun _ => rfl⟩
    | editionV1 | masterEditionV1 | masterEditionV2 => exact ⟨fun _ => rfl, fun _ => rfl⟩
    | editionMarker | useAuthorityRecord | collectionAuthorityRecord => exact ⟨fun _ => rfl, fun _ => rfl⟩
  | tokenProgramEntity entity =>
    cases entity with
    | mint m => exact Or.inr ⟨fun _ => rfl, fun _ => rfl⟩
    | tokenAccount ta =>
      exact Or.inl ⟨ta, _, none, fun _ => rfl, Token.tokenAccountsOnConflict_keepsNewest, indexed _ none ta⟩
    | closeIx key => exact Or.inr ⟨fun _ => rfl, fun _ => rfl⟩
  | tokenExtensionsProgramEntity entity =>
    cases entity with
    | tokenAccount ta extensions =>
      exact Or.inl ⟨ta, _, _, fun _ => rfl, TokenExtensions.tokenAccountsOnConflict_keepsNewest, indexed _ _ ta⟩
    | mintAccount m extensions =>
      refine Or.inr ⟨fun _ => rfl, fun db => ?_⟩
      dsimp only [handleAccountUpdate, TokenExtensions.handleTokenExtensionsProgramAccount]
      cases extensions.metadata with
      | none => rfl
      | some metadata => rfl
    | closeIx key => exact Or.inr ⟨fun _ => rfl, fun _ => rfl⟩
  | mplCore data =>
    right
    cases data with
    | asset a =>
      exact ⟨fun _ => rfl, fun db => MplCore.saveV1Asset_tokenAccounts db account.pubkey (.asset a) account.slot⟩
    | collection a =>
      exact ⟨fun _ => rfl, fun db => MplCore.saveV1Asset_tokenAccounts db account.pubkey (.collection a) account.slot⟩
    | emptyAccount => exact ⟨fun _ => rfl, fun _ => rfl⟩
    | hashedAsset => exact ⟨fun _ => rfl, fun _ => rfl⟩
  | other => exact Or.inr ⟨fun _ => rfl, fun _ => rfl⟩

/-- The table of token accounts holds the state of every account on the chain. -/
theorem deliver_onChain (updates : List AccountUpdate) (key : Pubkey) :
    ((deliver {} updates).tokenAccounts.lookup key).map TokenAccountRow.bare =
      (AccountUpdate.onChain updates key).map (fun w => tokenAccountRow w.1 w.2 none) := by
  have keep : ∀ (db : Db) (u : AccountUpdate), True → True → True := fun _ _ _ _ => trivial
  refine foldl_argmax (fun w : AccountInfo × SplAccount => w.1.slot)
    (fun db : Db => (db.tokenAccounts.lookup key).map TokenAccountRow.bare)
    (Option.map (fun w => tokenAccountRow w.1 w.2 none)) keep ?skip (fun _ _ => trivial) trivial ?fresh ?put
  case fresh => rfl
  case skip =>
    intro db u c _ _ nothing held
    rcases u.handle_tokenAccounts with ⟨ta, clause, json, state, -, run⟩ | ⟨-, run⟩
    · have other : key ≠ u.account.pubkey := by
        intro same
        rw [state, if_pos same.symm] at nothing
        cases nothing
      rw [run, Table.lookup_upsert_ne _ other]
      exact held
    · rw [run]
      exact held
  case put =>
    intro db u c w _ _ written _ held
    rcases u.handle_tokenAccounts with ⟨ta, clause, json, state, newest, run⟩ | ⟨none, -⟩
    · rw [state] at written
      obtain ⟨same, ⟨⟩⟩ := Option.ite_none_right_eq_some.mp written
      rw [run, ← same, Table.lookup_upsert_self, same]
      exact congrArg some (newest.resolve (u.account, ta) json held)
    · rw [none] at written
      cases written

theorem deliver_row {updates : List AccountUpdate} {key : Pubkey} {row : TokenAccountRow}
    (stored : (deliver {} updates).tokenAccounts.lookup key = some row) :
    ∃ w, AccountUpdate.onChain updates key = some w ∧ row.bare = tokenAccountRow w.1 w.2 none := by
  have indexed := deliver_onChain updates key
  rw [stored, Option.map_some] at indexed
  obtain ⟨w, known, same⟩ := Option.map_eq_some_iff.mp indexed.symm
  exact ⟨w, known, same.symm⟩

theorem deliver_known {updates : List AccountUpdate} {key : Pubkey} {w : AccountInfo × SplAccount}
    (known : AccountUpdate.onChain updates key = some w) :
    ∃ row, (deliver {} updates).tokenAccounts.lookup key = some row ∧ row.bare = tokenAccountRow w.1 w.2 none := by
  have indexed := deliver_onChain updates key
  rw [known, Option.map_some] at indexed
  exact Option.map_eq_some_iff.mp indexed

end Indexing

section Listing

/-- A listing by owner, by mint or by both that asks for an account. -/
structure Asks (owner mint : Option Pubkey) (ta : SplAccount) : Prop where
  given : owner.isSome = true ∨ mint.isSome = true
  owner : ∀ key, owner = some key → ta.owner = key
  mint : ∀ key, mint = some key → ta.mint = key

/-- Some page of the listing shows the account. -/
def Listed (db : Db) (owner mint : Option Pubkey) (limit : Nat) (options : Options) (key : Pubkey) : Prop :=
  ∃ page accounts, getTokenAccounts db owner mint (.page page) limit options = .ok accounts ∧
    ∃ shown ∈ (Rpc.tokenAccountListToRpc accounts options).1, shown.address = key.toBase58

/-- The amounts of the chain survive the columns they are stored in. -/
structure AmountsSurvive (db : Db) (onChain : Pubkey → Option (AccountInfo × SplAccount)) : Prop where
  reported : ∀ owner mint pagination limit options accounts,
    getTokenAccounts db owner mint pagination limit options = .ok accounts →
      ∀ shown ∈ (Rpc.tokenAccountListToRpc accounts options).1, ∃ key w, onChain key = some w ∧
        shown.address = key.toBase58 ∧ shown.amount = w.2.amount.toNat ∧
        shown.delegatedAmount = w.2.delegatedAmount.toNat
  nonzero : ∀ key w owner mint limit options, onChain key = some w → w.2.amount ≠ 0 → Asks owner mint w.2 →
    0 < limit → Listed db owner mint limit options key
  zeroBalance : ∀ key w owner mint limit options, onChain key = some w → Asks owner mint w.2 → 0 < limit →
    options.showZeroBalance = true → Listed db owner mint limit options key
  holder : ∀ mint, (∃ key w, onChain key = some w ∧ w.2.mint = mint ∧ w.2.amount ≠ 0) →
    ∃ key w row, onChain key = some w ∧ w.2.mint = mint ∧ w.2.amount ≠ 0 ∧
      TokenMetadata.findTokenAccount db mint = some row ∧ row.bare = tokenAccountRow w.1 w.2 none

/-- Every account of the chain holds an amount that the signed column holds too. -/
def Fitting (onChain : Pubkey → Option (AccountInfo × SplAccount)) : Prop :=
  ∀ key w, onChain key = some w → w.2.amount.toNat < 2 ^ 63

theorem mem_tokenAccountListToRpc {accounts : List (Pubkey × TokenAccountRow)} {options : Options}
    {shown : Rpc.TokenAccount} : shown ∈ (Rpc.tokenAccountListToRpc accounts options).1 ↔
      ∃ account ∈ accounts, Rpc.tokenAccountToRpc account options = .ok shown := by
  induction accounts using List.reverseRecOn with
  | nil => simp [Rpc.tokenAccountListToRpc]
  | append_singleton earlier last ih =>
    obtain ⟨item, isItem⟩ : ∃ item, Rpc.tokenAccountToRpc last options = .ok item := ⟨_, rfl⟩
    have added : (Rpc.tokenAccountListToRpc (earlier ++ [last]) options).1 =
        (Rpc.tokenAccountListToRpc earlier options).1 ++ [item] := by
      rw [Rpc.tokenAccountListToRpc, List.foldl_append, List.foldl_cons, List.foldl_nil, isItem]
      rfl
    rw [added, List.mem_append, ih, List.mem_singleton]
    constructor
    · rintro (⟨account, member, isShown⟩ | same)
      · exact ⟨account, List.mem_append_left _ member, isShown⟩
      · exact ⟨last, List.mem_append_right _ (List.mem_singleton_self last), by rw [isItem, same]⟩
    · rintro ⟨account, member, isShown⟩
      rcases List.mem_append.mp member with before | isLast
      · exact Or.inl ⟨account, before, isShown⟩
      · rw [List.mem_singleton.mp isLast, isItem] at isShown
        exact Or.inr (Except.ok.inj isShown).symm

theorem getTokenAccounts_page {db : Db} {owner mint : Option Pubkey} {limit : Nat} {options : Options}
    (given : owner.isSome = true ∨ mint.isSome = true) (page : Nat) :
    getTokenAccounts db owner mint (.page (page + 1)) limit options =
      .ok (Paging.pageOf limit (tokenAccountSelect db owner mint options).rows page) := by
  have someGiven : (owner.isNone && mint.isNone) = false := by
    rcases given with some | some
    · rw [Option.isNone_eq_false_iff.mpr some, Bool.false_and]
    · rw [Option.isNone_eq_false_iff.mpr some, Bool.and_false]
  rw [getTokenAccounts, someGiven, if_neg Bool.false_ne_true]
  rfl

theorem mem_tokenAccountSelect {db : Db} {owner mint : Option Pubkey} {options : Options}
    {account : Pubkey × TokenAccountRow} :
    account ∈ (tokenAccountSelect db owner mint options).source ↔ db.tokenAccounts.lookup account.1 = some account.2 := by
  refine Iff.trans ?_ Table.mem_entries_iff
  constructor
  · intro member
    obtain ⟨entry, inTable, same⟩ := List.mem_map.mp member
    cases same
    exact inTable
  · intro inTable
    exact List.mem_map.mpr ⟨_, inTable, rfl⟩

theorem mem_getTokenAccounts {db : Db} {owner mint : Option Pubkey} {pagination : Pagination} {limit : Nat}
    {options : Options} {accounts : List (Pubkey × TokenAccountRow)}
    (found : getTokenAccounts db owner mint pagination limit options = .ok accounts)
    {account : Pubkey × TokenAccountRow} (member : account ∈ accounts) :
    db.tokenAccounts.lookup account.1 = some account.2 ∧
      (tokenAccountCondition owner mint options account).holds = true := by
  rw [getTokenAccounts] at found
  split at found
  · cases found
  · obtain ⟨built, isBuilt, same⟩ := Loops.map_eq_ok.mp found
    subst same
    obtain ⟨source, filters⟩ := paginate_narrows isBuilt
    have inRows := built.rows_perm.mem_iff.mp (built.all_subset member)
    obtain ⟨inSource, kept⟩ := List.mem_filter.mp inRows
    rw [source] at inSource
    exact ⟨mem_tokenAccountSelect.mp inSource, List.all_eq_true.mp kept _ (filters (List.mem_singleton_self _))⟩

theorem tokenAccountCondition_holds {owner mint : Option Pubkey} {options : Options}
    {account : Pubkey × TokenAccountRow} : (tokenAccountCondition owner mint options account).holds = true ↔
      (if options.showZeroBalance then 0 ≤ account.2.amount else 0 < account.2.amount) ∧
      (∀ key, owner = some key → account.2.owner = key) ∧ ∀ key, mint = some key → account.2.mint = key := by
  have amount : (if options.showZeroBalance then Sql.ge (some account.2.amount) (some 0)
      else Sql.gt (some account.2.amount) (some 0)).holds = true ↔
      (if options.showZeroBalance then 0 ≤ account.2.amount else 0 < account.2.amount) := by
    split
    · simp
    · simp
  rw [tokenAccountCondition, Truth.holds_all, List.cons_append, List.all_cons, List.all_append, Bool.and_eq_true,
    Bool.and_eq_true, amount]
  refine and_congr_right fun _ => and_congr ?_ ?_
  · cases owner with
    | none => simp
    | some key => simp
  · cases mint with
    | none => simp
    | some key => simp

/-- The accounts that match are listed, and no others. -/
theorem listed_iff {db : Db} {owner mint : Option Pubkey} (given : owner.isSome = true ∨ mint.isSome = true)
    {limit : Nat} (positive : 0 < limit) {options : Options} {key : Pubkey} :
    Listed db owner mint limit options key ↔ ∃ row, db.tokenAccounts.lookup key = some row ∧
      (tokenAccountCondition owner mint options (key, row)).holds = true := by
  constructor
  · rintro ⟨page, accounts, found, shown, member, address⟩
    obtain ⟨account, inAccounts, isShown⟩ := mem_tokenAccountListToRpc.mp member
    cases isShown
    obtain ⟨stored, holds⟩ := mem_getTokenAccounts found inAccounts
    obtain ⟨other, row⟩ := account
    cases Bytes32.toBase58_injective address
    exact ⟨row, stored, holds⟩
  · rintro ⟨row, stored, holds⟩
    have inRows : (key, row) ∈ (tokenAccountSelect db owner mint options).rows := by
      refine (Select.rows_perm _).mem_iff.mpr (List.mem_filter.mpr ⟨mem_tokenAccountSelect.mpr stored, ?_⟩)
      simpa [Select.keeps, tokenAccountSelect] using holds
    obtain ⟨page, onPage⟩ := Paging.exists_pageOf positive inRows
    exact ⟨page + 1, _, getTokenAccounts_page given page, _, mem_tokenAccountListToRpc.mpr ⟨_, onPage, rfl⟩, rfl⟩

theorem listed_known [Programs] {updates : List AccountUpdate} {key : Pubkey} {w : AccountInfo × SplAccount}
    (known : AccountUpdate.onChain updates key = some w) {owner mint : Option Pubkey} (asks : Asks owner mint w.2)
    {limit : Nat} (positive : 0 < limit) {options : Options} :
    Listed (deliver {} updates) owner mint limit options key ↔
      (if options.showZeroBalance then 0 ≤ asI64 w.2.amount.toNat else 0 < asI64 w.2.amount.toNat) := by
  obtain ⟨row, stored, same⟩ := deliver_known known
  have amount : row.amount = asI64 w.2.amount.toNat := congrArg TokenAccountRow.amount same
  have ownerSame : row.owner = w.2.owner := congrArg TokenAccountRow.owner same
  have mintSame : row.mint = w.2.mint := congrArg TokenAccountRow.mint same
  rw [listed_iff asks.given positive]
  constructor
  · rintro ⟨other, isOther, holds⟩
    cases stored.symm.trans isOther
    have positive := (tokenAccountCondition_holds.mp holds).1
    rwa [amount] at positive
  · intro positive
    refine ⟨row, stored, tokenAccountCondition_holds.mpr ⟨?_, ?_, ?_⟩⟩
    · rwa [amount]
    · exact fun key asked => ownerSame.trans (asks.owner key asked)
    · exact fun key asked => mintSame.trans (asks.mint key asked)

/-- The holder is looked for among the positive amounts of the signed column. -/
theorem findTokenAccount_known [Programs] {updates : List AccountUpdate} {mint : Pubkey}
    (held : ∃ key w, AccountUpdate.onChain updates key = some w ∧ w.2.mint = mint ∧ 0 < asI64 w.2.amount.toNat) :
    ∃ key w row, AccountUpdate.onChain updates key = some w ∧ w.2.mint = mint ∧ 0 < asI64 w.2.amount.toNat ∧
      TokenMetadata.findTokenAccount (deliver {} updates) mint = some row ∧
      row.bare = tokenAccountRow w.1 w.2 none := by
  obtain ⟨key, w, known, ofMint, positive⟩ := held
  obtain ⟨row, stored, same⟩ := deliver_known known
  have amount : row.amount = asI64 w.2.amount.toNat := congrArg TokenAccountRow.amount same
  have mintSame : row.mint = w.2.mint := congrArg TokenAccountRow.mint same
  have candidate : row ∈ (((deliver {} updates).tokenAccounts.entries.map (fun entry => entry.2)).filter
      (fun ta => ta.mint = mint && 0 < ta.amount)) := by
    refine List.mem_filter.mpr ⟨List.mem_map.mpr ⟨_, Table.mem_entries_iff.mpr stored, rfl⟩, ?_⟩
    rw [Bool.and_eq_true, decide_eq_true_eq, decide_eq_true_eq, amount]
    exact ⟨mintSame.trans ofMint, positive⟩
  cases found : TokenMetadata.findTokenAccount (deliver {} updates) mint with
  | none =>
    rw [TokenMetadata.findTokenAccount, List.argmax_eq_none] at found
    rw [found] at candidate
    cases candidate
  | some newest =>
    obtain ⟨inTable, matching⟩ := List.mem_filter.mp (List.argmax_mem found)
    obtain ⟨entry, inEntries, isNewest⟩ := List.mem_map.mp inTable
    obtain ⟨other, state, sameState⟩ := deliver_row (Table.mem_entries_iff.mp inEntries)
    rw [isNewest] at sameState
    rw [Bool.and_eq_true, decide_eq_true_eq, decide_eq_true_eq] at matching
    have otherAmount : newest.amount = asI64 other.2.amount.toNat := congrArg TokenAccountRow.amount sameState
    have otherMint : newest.mint = other.2.mint := congrArg TokenAccountRow.mint sameState
    rw [otherAmount, otherMint] at matching
    exact ⟨entry.1, other, newest, state, matching.1, matching.2, rfl, sameState⟩

/-- Amounts survive exactly when they stay below `2^63`: what is reported is right
at any amount, but the queries compare the signed column with zero. -/
theorem amounts_survive_iff [Programs] (updates : List AccountUpdate) :
    AmountsSurvive (deliver {} updates) (AccountUpdate.onChain updates) ↔ Fitting (AccountUpdate.onChain updates) := by
  have fits : ∀ amount : UInt64, amount.toNat < 2 ^ 64 := fun amount => amount.toNat_lt
  have nonzero : ∀ amount : UInt64, amount ≠ 0 ↔ amount.toNat ≠ 0 := fun amount =>
    not_congr (UInt64.toNat_inj.symm.trans Iff.rfl)
  constructor
  · intro survive key w known
    by_contra large
    have positive : w.2.amount ≠ 0 := by
      rw [nonzero]
      omega
    have asks : Asks (some w.2.owner) none w.2 := ⟨Or.inl rfl, fun key same => Option.some.inj same, nofun⟩
    have listed := survive.nonzero key w _ _ 1 {} known positive asks Nat.one_pos
    have stored := (listed_known known asks Nat.one_pos).mp listed
    exact large ((asI64_pos_iff (fits _)).mp stored).2
  · intro fitting
    refine ⟨?_, ?_, ?_, ?_⟩
    · intro owner mint pagination limit options accounts found shown member
      obtain ⟨account, inAccounts, isShown⟩ := mem_tokenAccountListToRpc.mp member
      cases isShown
      obtain ⟨w, known, same⟩ := deliver_row (mem_getTokenAccounts found inAccounts).1
      have amount : account.2.amount = asI64 w.2.amount.toNat := congrArg TokenAccountRow.amount same
      have delegated : account.2.delegatedAmount = asI64 w.2.delegatedAmount.toNat :=
        congrArg TokenAccountRow.delegatedAmount same
      refine ⟨account.1, w, known, rfl, ?_, ?_⟩
      · show Rpc.toU64 account.2.amount = _
        rw [amount, toU64_asI64 (fits _)]
      · show Rpc.toU64 account.2.delegatedAmount = _
        rw [delegated, toU64_asI64 (fits _)]
    · intro key w owner mint limit options known positive asks some
      have small := fitting key w known
      rw [listed_known known asks some]
      have stored := (asI64_pos_iff (fits _)).mpr ⟨(nonzero _).mp positive, small⟩
      split
      · exact stored.le
      · exact stored
    · intro key w owner mint limit options known asks some shown
      rw [listed_known known asks some, if_pos shown]
      exact (asI64_nonneg_iff (fits _)).mpr (fitting key w known)
    · rintro mint ⟨key, w, known, ofMint, positive⟩
      have stored := (asI64_pos_iff (fits _)).mpr ⟨(nonzero _).mp positive, fitting key w known⟩
      obtain ⟨other, state, row, isState, sameMint, held, found, same⟩ :=
        findTokenAccount_known ⟨key, w, known, ofMint, stored⟩
      exact ⟨other, state, row, isState, sameMint,
        (nonzero _).mpr ((asI64_pos_iff (fits _)).mp held).1, found, same⟩

open AccountUpdate.Example in
/-- An account that holds `2^63`, half of what it can hold, is listed by no request,
and the holder of its mint is not found. -/
theorem large_amount_lost :
    ∃ w, AccountUpdate.onChain [tokenAccount (.fill 1) (.fill 2) 9223372036854775808 1] (.fill 1) = some w ∧
      w.2.owner = .fill 2 ∧ w.2.mint = .fill 7 ∧ w.2.amount = 9223372036854775808 ∧
      ¬ Listed (deliver {} [tokenAccount (.fill 1) (.fill 2) 9223372036854775808 1]) (some (.fill 2)) none 1000
        { showZeroBalance := true } (.fill 1) ∧
      TokenMetadata.findTokenAccount (deliver {} [tokenAccount (.fill 1) (.fill 2) 9223372036854775808 1]) (.fill 7) = none ∧
      ¬ AmountsSurvive (deliver {} [tokenAccount (.fill 1) (.fill 2) 9223372036854775808 1])
        (AccountUpdate.onChain [tokenAccount (.fill 1) (.fill 2) 9223372036854775808 1]) := by
  obtain ⟨w, known, owner, mint, amount⟩ : ∃ w : AccountInfo × SplAccount,
      AccountUpdate.onChain [tokenAccount (.fill 1) (.fill 2) 9223372036854775808 1] (.fill 1) = some w ∧
        w.2.owner = .fill 2 ∧ w.2.mint = .fill 7 ∧ w.2.amount = 9223372036854775808 := ⟨_, rfl, rfl, rfl, rfl⟩
  have asks : Asks (some (.fill 2)) none w.2 := ⟨Or.inl rfl, fun _ same => owner.trans (Option.some.inj same), nofun⟩
  have unlisted : ¬ Listed (deliver {} [tokenAccount (.fill 1) (.fill 2) 9223372036854775808 1]) (some (.fill 2)) none 1000
      { showZeroBalance := true } (.fill 1) := by
    rw [listed_known known asks (by decide), amount]
    decide
  exact ⟨w, known, owner, mint, amount, unlisted, rfl,
    fun survive => unlisted (survive.zeroBalance _ w _ _ _ _ known asks (by decide) rfl)⟩

end Listing

end DasIndexer
