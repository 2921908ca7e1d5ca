import DasIndexer.Accounts.Ownership

namespace DasIndexer
open Sql Latest

/-- `UPDATE asset SET burnt = true WHERE id = ..`, through the trigger. -/
def Db.setBurnt (db : Db) (id : Pubkey) : Db :=
  match db.asset.lookup id with
  | some row => { db with asset := db.asset.insert id { row with burnt := true }.updateSlotUpdated }
  | none => db

/-- A `CloseAccount` instruction, with no slot: an address that stands in `tokens`
is taken for a mint, and every other one for a token account. -/
def handleTokenProgramCloseIx (db : Db) (accToClose : Pubkey) : Db :=
  match db.tokens.lookup accToClose with
  | some _ => Db.setBurnt { db with tokens := db.tokens.erase accToClose } accToClose
  | none => { db with tokenAccounts := db.tokenAccounts.erase accToClose }

/-- `MintPurge::purge`: the mints are gone, and assets that are not burnt yet are
marked. -/
def purgeMints (db : Db) (keys : List Pubkey) : Db :=
  let db := { db with tokens := keys.foldl (fun tokens key => tokens.erase key) db.tokens }
  keys.foldl (fun db key => if (db.asset.lookup key).any (fun row => !row.burnt) then db.setBurnt key else db) db

/-- `TokenAccountPurge::purge`. -/
def purgeTokenAccounts (db : Db) (keys : List Pubkey) : Db :=
  { db with tokenAccounts := keys.foldl (fun accounts key => accounts.erase key) db.tokenAccounts }

theorem Db.setBurnt_lookup (db : Db) (id other : Pubkey) :
    (db.setBurnt id).asset.lookup other =
      if other = id then (db.asset.lookup other).map (fun row => { row with burnt := true }.updateSlotUpdated)
      else db.asset.lookup other := by
  unfold Db.setBurnt
  by_cases same : other = id
  · subst same
    rw [if_pos rfl]
    cases stored : db.asset.lookup other with
    | none => exact stored
    | some row => exact AList.lookup_insert _
  · rw [if_neg same]
    cases db.asset.lookup id with
    | none => rfl
    | some row => exact AList.lookup_insert_ne same

theorem Db.setBurnt_tables (db : Db) (id : Pubkey) : db.setBurnt id = { db with asset := (db.setBurnt id).asset } := by
  unfold Db.setBurnt
  cases db.asset.lookup id with
  | none => rfl
  | some row => rfl

/-- An update of a mint account, through the handler of either token program. -/
structure MintAccountUpdate where
  account : AccountInfo
  mint : SplMint
  extensions : Option MintAccountExtensions

def MintAccountUpdate.update (u : MintAccountUpdate) : AccountUpdate where
  account := u.account
  parsed := match u.extensions with
    | none => .tokenProgramEntity (.mint u.mint)
    | some extensions => .tokenExtensionsProgramEntity (.mintAccount u.mint extensions)

/-- What reaches the indexer about an account of a token program: the states of the
account, and the instructions that close it. -/
inductive TokenEvent where
  | update (u : AccountUpdate)
  | closeIx (key : Pubkey)

section Runs
variable [Programs]

def processTokenEvents (db : Db) (events : List TokenEvent) : Db :=
  events.foldl (fun db event => match event with
    | .update u => (handleAccountUpdate db u).1
    | .closeIx key => handleTokenProgramCloseIx db key) db

/-- One closing among the updates of an account. -/
def aroundClose (key : Pubkey) (before after : List AccountUpdate) : List TokenEvent :=
  before.map .update ++ .closeIx key :: after.map .update

theorem processTokenEvents_aroundClose (db : Db) (key : Pubkey) (before after : List AccountUpdate) :
    processTokenEvents db (aroundClose key before after) =
      deliver (handleTokenProgramCloseIx (deliver db before) key) after := by
  simp only [processTokenEvents, aroundClose, List.foldl_append, List.foldl_cons, List.foldl_map, deliver]

theorem TokenUpdate.deliver_tokens (db : Db) (updates : List TokenUpdate) :
    (deliver db (updates.map TokenUpdate.update)).tokens = db.tokens := by
  rw [deliver, List.foldl_map]
  have keep : ∀ (db' : Db) (u : TokenUpdate), True → db'.tokens = db.tokens →
      (handleAccountUpdate db' u.update).1.tokens = db.tokens := by
    intro db' u _ same
    obtain ⟨clause, json, run⟩ := u.handle_eq
    obtain ⟨asset, tables⟩ := indexTokenAccount_tables db' u.account clause json u.ta
    rw [run, tables]
    exact same
  exact foldl_invariant (fun db' : Db => db'.tokens = db.tokens) keep updates (fun _ _ => trivial) rfl

theorem TokenUpdate.handle_present (db : Db) (u : TokenUpdate) :
    ((handleAccountUpdate db u.update).1.tokenAccounts.lookup u.account.pubkey).isSome := by
  obtain ⟨clause, json, run⟩ := u.handle_eq
  obtain ⟨asset, tables⟩ := indexTokenAccount_tables db u.account clause json u.ta
  rw [run, tables, Table.lookup_upsert_self]
  rfl

/-- The row of an account stands once any of its states was processed. -/
theorem TokenUpdate.deliver_absent_iff {db : Db} {key : Pubkey} {updates : List TokenUpdate}
    (ofKey : ∀ u ∈ updates, u.account.pubkey = key) :
    (deliver db (updates.map TokenUpdate.update)).tokenAccounts.lookup key = none ↔
      updates = [] ∧ db.tokenAccounts.lookup key = none := by
  rcases List.eq_nil_or_concat' updates with rfl | ⟨earlier, last, rfl⟩
  · simp [deliver]
  · have address : last.account.pubkey = key := ofKey last (by simp)
    have present := last.handle_present (deliver db (earlier.map TokenUpdate.update))
    rw [address] at present
    rw [List.map_append, deliver, List.foldl_append]
    constructor
    · intro absent
      rw [List.map_singleton, List.foldl_cons, List.foldl_nil] at absent
      rw [deliver, absent] at present
      cases present
    · rintro ⟨empty, -⟩
      exact absurd empty (by simp)

omit [Programs] in
/-- What a closing leaves of a token account: nothing, unless the address stands in
`tokens`. -/
theorem handleTokenProgramCloseIx_tokenAccounts (db : Db) (key : Pubkey) :
    (handleTokenProgramCloseIx db key).tokenAccounts.lookup key =
      if (db.tokens.lookup key).isSome then db.tokenAccounts.lookup key else none := by
  unfold handleTokenProgramCloseIx
  cases db.tokens.lookup key with
  | none => exact AList.lookup_erase _ _
  | some token =>
    rw [Db.setBurnt_tables]
    rfl

theorem closed_tokenAccount_iff (db : Db) (key : Pubkey) (before after : List TokenUpdate)
    (ofKey : ∀ u ∈ before ++ after, u.account.pubkey = key) :
    (processTokenEvents db (aroundClose key (before.map TokenUpdate.update)
      (after.map TokenUpdate.update))).tokenAccounts.lookup
        key = none ↔
      after = [] ∧ (db.tokens.lookup key = none ∨ before = [] ∧ db.tokenAccounts.lookup key = none) := by
  have ofBefore : ∀ u ∈ before, u.account.pubkey = key := fun u member => ofKey u (List.mem_append_left _ member)
  have ofAfter : ∀ u ∈ after, u.account.pubkey = key := fun u member => ofKey u (List.mem_append_right _ member)
  rw [processTokenEvents_aroundClose, TokenUpdate.deliver_absent_iff ofAfter, handleTokenProgramCloseIx_tokenAccounts,
    TokenUpdate.deliver_tokens]
  refine and_congr_right (fun _ => ?_)
  cases db.tokens.lookup key with
  | none => simp
  | some token => simpa using TokenUpdate.deliver_absent_iff ofBefore

/-- The states of an account that is created again end with the newer one; the
closing of the old account takes the row away. -/
theorem recreated_tokenAccount_iff (db : Db) (key : Pubkey) (earlier : List TokenUpdate) (newer : TokenUpdate)
    (ofKey : ∀ u ∈ earlier ++ [newer], u.account.pubkey = key) :
    (processTokenEvents db (aroundClose key
      ((earlier ++ [newer]).map TokenUpdate.update) [])).tokenAccounts.lookup key =
        (deliver db ((earlier ++ [newer]).map TokenUpdate.update)).tokenAccounts.lookup key ↔
      (db.tokens.lookup key).isSome := by
  have present : (deliver db ((earlier ++ [newer]).map TokenUpdate.update)).tokenAccounts.lookup key ≠ none := by
    rw [Ne, TokenUpdate.deliver_absent_iff ofKey]
    simp
  rw [processTokenEvents_aroundClose, deliver, List.foldl_nil, handleTokenProgramCloseIx_tokenAccounts,
    TokenUpdate.deliver_tokens]
  cases db.tokens.lookup key with
  | none => simpa using present.symm
  | some token => simp

omit [Programs] in
theorem indexMint_present (clause : OnConflict TokenRow) (extensions : Option Json) (db : Db) (account : AccountInfo)
    (m : SplMint) :
    ((indexMint clause extensions db account m).tokens.lookup account.pubkey).isSome ∧
      ((indexMint clause extensions db account m).asset.lookup account.pubkey).isSome := by
  constructor
  · exact congrArg Option.isSome (Table.lookup_upsert_self db.tokens account.pubkey _ clause)
  · rw [indexMint, upsertAssetsMintAccountColumns, Db.upsertAsset_lookup, if_pos rfl]
    rfl

theorem MintAccountUpdate.handle_present (db : Db) (u : MintAccountUpdate) :
    ((handleAccountUpdate db u.update).1.tokens.lookup u.account.pubkey).isSome ∧
      ((handleAccountUpdate db u.update).1.asset.lookup u.account.pubkey).isSome := by
  obtain ⟨account, mint, extensions⟩ := u
  cases extensions with
  | none => exact indexMint_present Token.tokensOnConflict none db account mint
  | some extensions =>
    dsimp only [MintAccountUpdate.update, handleAccountUpdate, TokenExtensions.handleTokenExtensionsProgramAccount]
    cases extensions.metadata with
    | none => exact indexMint_present TokenExtensions.tokensOnConflict _ db account mint
    | some metadata =>
      refine ⟨(indexMint_present TokenExtensions.tokensOnConflict _ db account mint).1, ?_⟩
      dsimp only [TokenExtensions.upsertAssetData]
      rw [TokenExtensions.upsertAssetsMetadataCols, Db.upsertAsset_lookup, if_pos rfl]
      rfl

/-- The last state of a mint leaves a row of it and one of its asset. -/
theorem MintAccountUpdate.deliver_present {key : Pubkey} (db : Db) (earlier : List MintAccountUpdate)
    {last : MintAccountUpdate} (address : last.account.pubkey = key) :
    ((deliver db ((earlier ++ [last]).map MintAccountUpdate.update)).tokens.lookup key).isSome ∧
      ((deliver db ((earlier ++ [last]).map MintAccountUpdate.update)).asset.lookup key).isSome := by
  subst address
  rw [List.map_append, deliver, List.foldl_append]
  exact last.handle_present _

/-- The asset of a closed mint is burnt, and the mint is gone. -/
def ClosedMint (db : Db) (key : Pubkey) : Prop :=
  db.tokens.lookup key = none ∧ ∃ row, db.asset.lookup key = some row ∧ row.burnt = true

theorem closed_mint_iff (db : Db) (key : Pubkey) (unminted : db.tokens.lookup key = none)
    (unindexed : db.asset.lookup key = none) (before after : List MintAccountUpdate)
    (ofKey : ∀ u ∈ before ++ after, u.account.pubkey = key) :
    ClosedMint (processTokenEvents db
        (aroundClose key (before.map MintAccountUpdate.update) (after.map MintAccountUpdate.update))) key ↔
      before ≠ [] ∧ after = [] := by
  rw [processTokenEvents_aroundClose]
  rcases List.eq_nil_or_concat' after with rfl | ⟨rest, last, rfl⟩
  · rw [List.map_nil, deliver, List.foldl_nil]
    rcases List.eq_nil_or_concat' before with rfl | ⟨earlier, last, rfl⟩
    · have unknown : ¬ ClosedMint (handleTokenProgramCloseIx db key) key := by
        rintro ⟨-, row, stored, -⟩
        rw [handleTokenProgramCloseIx, unminted] at stored
        exact absurd (unindexed.symm.trans stored) (Option.some_ne_none row).symm
      simpa [deliver] using unknown
    · have present := MintAccountUpdate.deliver_present db earlier (ofKey last (by simp))
      obtain ⟨token, minted⟩ := Option.isSome_iff_exists.mp present.1
      obtain ⟨row, indexed⟩ := Option.isSome_iff_exists.mp present.2
      have closed : ClosedMint (handleTokenProgramCloseIx
          (deliver db ((earlier ++ [last]).map MintAccountUpdate.update)) key) key := by
        rw [handleTokenProgramCloseIx, minted]
        constructor
        · rw [Db.setBurnt_tables]
          exact AList.lookup_erase _ _
        · refine ⟨{ row with burnt := true }.updateSlotUpdated, ?_, rfl⟩
          rw [Db.setBurnt_lookup, if_pos rfl]
          exact congrArg (Option.map _) indexed
      simpa using closed
  · have present := (MintAccountUpdate.deliver_present
      (handleTokenProgramCloseIx (deliver db (before.map MintAccountUpdate.update)) key) rest
      (ofKey last (by simp))).1
    have reopened : ¬ ClosedMint (deliver (handleTokenProgramCloseIx
        (deliver db (before.map MintAccountUpdate.update)) key)
          ((rest ++ [last]).map MintAccountUpdate.update)) key := by
      rintro ⟨absent, -⟩
      rw [absent] at present
      cases present
    simpa using reopened

end Runs

/-- Closings and account updates converge exactly when the closing is processed
last, the mint was indexed before it, and no newer account is there to be lost. -/
theorem closes_converge_iff [Programs] :
    (∀ (db : Db) (key : Pubkey) (before after : List TokenUpdate), (∀ u ∈ before ++ after, u.account.pubkey = key) →
      ((processTokenEvents db (aroundClose key (before.map TokenUpdate.update)
          (after.map TokenUpdate.update))).tokenAccounts.lookup key = none ↔
        after = [] ∧ (db.tokens.lookup key = none ∨ before = [] ∧ db.tokenAccounts.lookup key = none))) ∧
    (∀ (db : Db) (key : Pubkey) (earlier : List TokenUpdate) (newer : TokenUpdate),
      (∀ u ∈ earlier ++ [newer], u.account.pubkey = key) →
      ((processTokenEvents db (aroundClose key
        ((earlier ++ [newer]).map TokenUpdate.update) [])).tokenAccounts.lookup key =
          (deliver db ((earlier ++ [newer]).map TokenUpdate.update)).tokenAccounts.lookup key ↔
        (db.tokens.lookup key).isSome)) ∧
    ∀ (db : Db) (key : Pubkey) (before after : List MintAccountUpdate), db.tokens.lookup key = none →
      db.asset.lookup key = none → (∀ u ∈ before ++ after, u.account.pubkey = key) →
      (ClosedMint (processTokenEvents db (aroundClose key (before.map MintAccountUpdate.update)
          (after.map MintAccountUpdate.update))) key ↔ before ≠ [] ∧ after = []) :=
  ⟨closed_tokenAccount_iff, recreated_tokenAccount_iff, fun db key before after unminted unindexed ofKey =>
    closed_mint_iff db key unminted unindexed before after ofKey⟩

namespace Transfer.Example

/-- A state of the token account with the address of the mint. -/
def held : TokenUpdate := account (.fill 7) (.fill 2) 1 none

def minted : MintAccountUpdate where
  account := { slot := 10, pubkey := .fill 7, owner := .fill 6 }
  mint := { mintAuthority := none, supply := 1, decimals := 0, freezeAuthority := none }
  extensions := some {}

end Transfer.Example

open Transfer.Example in
theorem closes_converge_when_last :
    (processTokenEvents {} (aroundClose (.fill 7) [held.update] [])).tokenAccounts.lookup (.fill 7) = none ∧
    (processTokenEvents db (aroundClose (.fill 7) [held.update] [])).tokenAccounts.lookup (.fill 7) =
      (deliver db [held.update]).tokenAccounts.lookup (.fill 7) ∧
    ClosedMint (processTokenEvents {} (aroundClose (.fill 7) [minted.update] [])) (.fill 7) := by
  refine ⟨?_, ?_, ?_⟩
  · exact (closes_converge_iff.1 {} (.fill 7) [held] [] (by simp [held, account])).mpr ⟨rfl, Or.inl rfl⟩
  · exact (closes_converge_iff.2.1 db (.fill 7) [] held (by simp [held, account])).mpr
      (congrArg Option.isSome db_indexed)
  · exact (closes_converge_iff.2.2 {} (.fill 7) [minted] [] rfl rfl (by simp [minted])).mpr ⟨by simp, rfl⟩

open Transfer.Example in
/-- A closing that is processed before the older state of its account, one that
comes after the account was created again, and one before the older state of its
mint. -/
theorem closes_diverge :
    (processTokenEvents {} (aroundClose (.fill 7) [] [held.update])).tokenAccounts.lookup (.fill 7) ≠ none ∧
    (processTokenEvents {} (aroundClose (.fill 7) [held.update] [])).tokenAccounts.lookup (.fill 7) ≠
      (deliver {} [held.update]).tokenAccounts.lookup (.fill 7) ∧
    ¬ ClosedMint (processTokenEvents {} (aroundClose (.fill 7) [] [minted.update])) (.fill 7) := by
  refine ⟨?_, ?_, ?_⟩
  · intro absent
    have last := (closed_tokenAccount_iff {} (.fill 7) [] [held] (by simp [held, account])).mp absent
    exact absurd last.1 (by simp)
  · intro same
    have known := (recreated_tokenAccount_iff {} (.fill 7) [] held (by simp [held, account])).mp same
    cases known
  · intro closed
    have last := (closed_mint_iff {} (.fill 7) rfl rfl [] [minted] (by simp [minted])).mp closed
    exact absurd last.2 (by simp)

end DasIndexer
