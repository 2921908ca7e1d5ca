import DasIndexer.Accounts.Convergence

namespace DasIndexer
open Sql

/-- A name under which JSON may stand. -/
abbrev JsonField := String × Option Json

/-- The JSON of a struct: a missing field is `null`. -/
def Json.ofFields (fields : List JsonField) : Json := .obj (fields.map (fun field => (field.1, field.2.getD .null)))

/-- What is stored keeps a set of extensions: it is NULL when there is none, and
otherwise an object with one entry for each. -/
structure KeepsAll (stored : Option Json) (extensions : List JsonField) : Prop where
  null : stored = none ↔ ∀ field ∈ extensions, field.2 = none
  object : ∀ json, stored = some json → ∃ entries, json = .obj entries ∧ (entries.map Prod.fst).Nodup ∧
    (∀ entry ∈ entries, entry.2.isNull = false) ∧
    ∀ name value, (name, value) ∈ entries ↔ (name, some value) ∈ extensions

section Fields
variable {fields structs markers : List JsonField}

/-- The entries of the fields that are present. -/
def present (fields : List JsonField) : List (String × Json) :=
  fields.filterMap (fun field => field.2.map (fun json => (field.1, json)))

theorem mem_present {name : String} {value : Json} : (name, value) ∈ present fields ↔ (name, some value) ∈ fields := by
  simp only [present, List.mem_filterMap, Option.map_eq_some_iff, Prod.mk.injEq]
  constructor
  · rintro ⟨⟨other, json⟩, member, value', rfl, rfl, rfl⟩
    exact member
  · intro member
    exact ⟨_, member, value, rfl, rfl, rfl⟩

theorem present_eq_nil_iff : present fields = [] ↔ ∀ field ∈ fields, field.2 = none := by
  simp [present, List.filterMap_eq_nil_iff]

theorem present_names (distinct : (fields.map Prod.fst).Nodup) : ((present fields).map Prod.fst).Nodup := by
  refine distinct.sublist ?_
  clear distinct
  induction fields with
  | nil => exact .slnil
  | cons field rest ih =>
    obtain ⟨name, json⟩ := field
    cases json with
    | none => exact ih.cons name
    | some value => exact ih.cons_cons name

/-- Stripping the nulls leaves what is present. -/
theorem filterNonNullFields_ofFields (notNull : ∀ field ∈ fields, ∀ json, field.2 = some json → json.isNull = false) :
    filterNonNullFields (.ofFields fields) = if present fields = [] then none else some (.obj (present fields)) := by
  have stripped : (fields.map (fun field => (field.1, field.2.getD .null))).filter (fun entry => !entry.2.isNull) =
      present fields := by
    induction fields with
    | nil => rfl
    | cons field rest ih =>
      obtain ⟨name, json⟩ := field
      have later := ih (fun other member => notNull other (List.mem_cons_of_mem _ member))
      cases json with
      | none => exact later
      | some value =>
        have here := notNull _ List.mem_cons_self value rfl
        rw [List.map_cons, List.filter_cons, Option.getD_some, here, later]
        rfl
  have nothing : (fields.map (fun field => (field.1, field.2.getD .null))).all (fun entry => entry.2.isNull) = true ↔
      present fields = [] := by
    rw [← stripped, List.filter_eq_nil_iff, List.all_eq_true]
    simp
  rw [Json.ofFields, filterNonNullFields, stripped]
  by_cases empty : present fields = []
  · rw [if_pos (nothing.mpr empty), if_pos empty]
  · rw [if_neg (fun all => empty (nothing.mp all)), if_neg empty]
    simp [empty]

/-- The extensions are asked for the structs among them, and stored with the
markers where there is one. -/
def storedExtensions (structs markers : List JsonField) : Option Json :=
  if structs.any (fun field => field.2.isSome) then filterNonNullFields (.ofFields (structs ++ markers)) else none

/-- All extensions are kept exactly when a struct is present or no marker is. -/
theorem storedExtensions_keepsAll_iff (distinct : ((structs ++ markers).map Prod.fst).Nodup)
    (notNull : ∀ field ∈ structs ++ markers, ∀ json, field.2 = some json → json.isNull = false) :
    KeepsAll (storedExtensions structs markers) (structs ++ markers) ↔
      (∃ field ∈ structs, field.2.isSome = true) ∨ ∀ field ∈ markers, field.2 = none := by
  have asked : structs.any (fun field => field.2.isSome) = true ↔ ∃ field ∈ structs, field.2.isSome = true :=
    List.any_eq_true
  rw [storedExtensions, ← asked]
  by_cases asks : structs.any (fun field => field.2.isSome) = true
  · rw [if_pos asks, filterNonNullFields_ofFields notNull]
    refine iff_of_true ?_ (.inl asks)
    obtain ⟨field, member, isSome⟩ := asked.mp asks
    have shown : present (structs ++ markers) ≠ [] := by
      intro empty
      rw [present_eq_nil_iff.mp empty field (List.mem_append_left _ member)] at isSome
      cases isSome
    rw [if_neg shown]
    refine ⟨iff_of_false nofun (fun absent => shown (present_eq_nil_iff.mpr absent)), fun json same => ?_⟩
    cases same
    refine ⟨_, rfl, present_names distinct, fun entry member => ?_, fun name value => mem_present⟩
    exact notNull _ (mem_present.mp member) _ rfl
  · rw [if_neg asks]
    have noStruct : ∀ field ∈ structs, field.2 = none := by
      intro field member
      by_contra isSome
      exact asks (asked.mpr ⟨field, member, Option.isSome_iff_ne_none.mpr isSome⟩)
    constructor
    · intro keeps
      exact .inr (fun field member => keeps.null.mp rfl field (List.mem_append_right _ member))
    · rintro (isSome | noMarker)
      · exact absurd isSome asks
      · refine ⟨iff_of_true rfl (fun field member => ?_), nofun⟩
        rcases List.mem_append.mp member with inStructs | inMarkers
        · exact noStruct field inStructs
        · exact noMarker field inMarkers

end Fields

namespace MintAccountExtensions

/-- The extensions that are asked for. -/
def structs (e : MintAccountExtensions) : List JsonField :=
  [("default_account_state", e.defaultAccountState),
    ("confidential_transfer_mint", e.confidentialTransferMint),
    ("confidential_transfer_fee_config", e.confidentialTransferFeeConfig),
    ("interest_bearing_config", e.interestBearingConfig),
    ("transfer_fee_config", e.transferFeeConfig),
    ("mint_close_authority", e.mintCloseAuthority),
    ("permanent_delegate", e.permanentDelegate),
    ("metadata_pointer", e.metadataPointer),
    ("metadata", e.metadata.map ShadowMetadata.toJson),
    ("transfer_hook", e.transferHook),
    ("group_pointer", e.groupPointer),
    ("token_group", e.tokenGroup),
    ("group_member_pointer", e.groupMemberPointer),
    ("token_group_member", e.tokenGroupMember)]

def markers (e : MintAccountExtensions) : List JsonField :=
  [("non_transferable", e.nonTransferable.map Json.bool), ("immutable_owner", e.immutableOwner.map Json.bool)]

theorem toJson_eq (e : MintAccountExtensions) : e.toJson = .ofFields (e.structs ++ e.markers) := rfl

theorem isSome_eq (e : MintAccountExtensions) : e.isSome = e.structs.any (fun field => field.2.isSome) := by
  simp [isSome, structs, Bool.or_assoc]

end MintAccountExtensions

namespace TokenAccountExtensions

/-- The extensions that are asked for. -/
def structs (e : TokenAccountExtensions) : List JsonField :=
  [("confidential_transfer", e.confidentialTransfer),
    ("cpi_guard", e.cpiGuard),
    ("memo_transfer", e.memoTransfer),
    ("transfer_fee_amount", e.transferFeeAmount)]

def markers (e : TokenAccountExtensions) : List JsonField :=
  [("immutable_owner", e.immutableOwner.map Json.bool),
    ("non_transferable_account", e.nonTransferableAccount.map Json.bool)]

theorem toJson_eq (e : TokenAccountExtensions) : e.toJson = .ofFields (e.structs ++ e.markers) := rfl

theorem isSome_eq (e : TokenAccountExtensions) : e.isSome = e.structs.any (fun field => field.2.isSome) := by
  simp [isSome, structs, Bool.or_assoc]

end TokenAccountExtensions

/-- Extensions as the parser hands them on: the JSON of a shadow type is an object. -/
def Parsed (structs : List JsonField) : Prop :=
  ∀ field ∈ structs, ∀ json, field.2 = some json → ∃ entries, json = .obj entries

structure ParsedMintExtensions where
  extensions : MintAccountExtensions
  parsed : Parsed extensions.structs

structure ParsedTokenAccountExtensions where
  extensions : TokenAccountExtensions
  parsed : Parsed extensions.structs

/-- A parsed extension is not stored as `null`. -/
theorem Parsed.notNull {structs markers : List JsonField} (parsed : Parsed structs)
    (bools : ∀ field ∈ markers, ∃ flag : Option Bool, field.2 = flag.map Json.bool) :
    ∀ field ∈ structs ++ markers, ∀ json, field.2 = some json → json.isNull = false := by
  intro field member json isJson
  rcases List.mem_append.mp member with inStructs | inMarkers
  · obtain ⟨entries, rfl⟩ := parsed field inStructs json isJson
    rfl
  · obtain ⟨flag, isFlag⟩ := bools field inMarkers
    obtain ⟨b, -, rfl⟩ := Option.map_eq_some_iff.mp (isFlag.symm.trans isJson)
    rfl

namespace ParsedMintExtensions

theorem stored (mint : ParsedMintExtensions) :
    KeepsAll (storedExtensions mint.extensions.structs mint.extensions.markers)
        (mint.extensions.structs ++ mint.extensions.markers) ↔
      (∃ field ∈ mint.extensions.structs, field.2.isSome = true) ∨
        (mint.extensions.nonTransferable = none ∧ mint.extensions.immutableOwner = none) := by
  have bools : ∀ field ∈ mint.extensions.markers, ∃ flag : Option Bool, field.2 = flag.map Json.bool := by
    intro field member
    simp only [MintAccountExtensions.markers, List.mem_cons, List.not_mem_nil, or_false] at member
    rcases member with rfl | rfl
    · exact ⟨_, rfl⟩
    · exact ⟨_, rfl⟩
  rw [storedExtensions_keepsAll_iff (by simp [MintAccountExtensions.structs, MintAccountExtensions.markers])
    (mint.parsed.notNull bools)]
  simp [MintAccountExtensions.markers]

end ParsedMintExtensions

namespace ParsedTokenAccountExtensions

theorem stored (token : ParsedTokenAccountExtensions) :
    KeepsAll (storedExtensions token.extensions.structs token.extensions.markers)
        (token.extensions.structs ++ token.extensions.markers) ↔
      (∃ field ∈ token.extensions.structs, field.2.isSome = true) ∨
        (token.extensions.immutableOwner = none ∧ token.extensions.nonTransferableAccount = none) := by
  have bools : ∀ field ∈ token.extensions.markers, ∃ flag : Option Bool, field.2 = flag.map Json.bool := by
    intro field member
    simp only [TokenAccountExtensions.markers, List.mem_cons, List.not_mem_nil, or_false] at member
    rcases member with rfl | rfl
    · exact ⟨_, rfl⟩
    · exact ⟨_, rfl⟩
  rw [storedExtensions_keepsAll_iff (by simp [TokenAccountExtensions.structs, TokenAccountExtensions.markers])
    (token.parsed.notNull bools)]
  simp [TokenAccountExtensions.markers]

end ParsedTokenAccountExtensions

/-- What is stored under the key of an account is older than its update. -/
structure Supersedes (db : Db) (account : AccountInfo) : Prop where
  token : ∀ row, db.tokens.lookup account.pubkey = some row → row.slotUpdated ≤ account.slot
  asset : ∀ row, db.asset.lookup account.pubkey = some row →
    ∀ slot, row.slotUpdatedMintAccount = some slot → slot ≤ account.slot
  tokenAccount : ∀ row, db.tokenAccounts.lookup account.pubkey = some row → row.slotUpdated < account.slot

/-- A column of a stored row keeps all extensions. -/
def Stores (column : Option (Option Json)) (extensions : List JsonField) : Prop :=
  ∃ stored, column = some stored ∧ KeepsAll stored extensions

section Handler
variable {db : Db} {account : AccountInfo}

theorem indexMint_tokens (newer : Supersedes db account) (m : SplMint) (json : Option Json) :
    ((indexMint TokenExtensions.tokensOnConflict json db account m).tokens.lookup account.pubkey).map
      TokenRow.extensions = some json := by
  have written : (indexMint TokenExtensions.tokensOnConflict json db account m).tokens.lookup account.pubkey =
      some (TokenExtensions.tokensOnConflict.resolve (tokenRow account m json) (db.tokens.lookup account.pubkey)) :=
    Table.lookup_upsert_self db.tokens account.pubkey _ _
  rw [written]
  cases stored : db.tokens.lookup account.pubkey with
  | none => rfl
  | some row =>
    have older := newer.token row stored
    simp [OnConflict.resolve, TokenExtensions.tokensOnConflict, tokenRow, older]

theorem indexMint_mintExtensions (newer : Supersedes db account) (m : SplMint) (json : Option Json) :
    ((indexMint TokenExtensions.tokensOnConflict json db account m).asset.lookup account.pubkey).map
      AssetRow.mintExtensions = some json := by
  rw [indexMint, upsertAssetsMintAccountColumns, Db.upsertAsset_lookup, if_pos rfl]
  cases stored : db.asset.lookup account.pubkey with
  | none => rfl
  | some row =>
    have older : row.slotUpdatedMintAccount.all (fun slot => slot ≤ account.slot) = true := by
      rw [Option.all_eq_true]
      intro slot isSlot
      exact decide_eq_true (newer.asset row stored slot isSlot)
    have accepted := (holds_ge_or_isNull account.slot row.slotUpdatedMintAccount).trans older
    rw [throughTrigger_resolve_some, Option.map_some, apply_ite AssetRow.mintExtensions]
    exact congrArg some (if_pos accepted)

theorem indexTokenAccount_extensions (newer : Supersedes db account) (ta : SplAccount) (json : Option Json) :
    ((indexTokenAccount TokenExtensions.tokenAccountsOnConflict json db account ta).tokenAccounts.lookup
      account.pubkey).map TokenAccountRow.extensions = some json := by
  obtain ⟨asset, tables⟩ := indexTokenAccount_tables db account TokenExtensions.tokenAccountsOnConflict json ta
  rw [tables, Table.lookup_upsert_self]
  cases stored : db.tokenAccounts.lookup account.pubkey with
  | none => rfl
  | some row =>
    have older := newer.tokenAccount row stored
    simp [OnConflict.resolve, TokenExtensions.tokenAccountsOnConflict, tokenAccountRow, older]

theorem mint_stored (newer : Supersedes db account) (m : SplMint) (e : MintAccountExtensions) :
    ((TokenExtensions.handleTokenExtensionsProgramAccount db account (.mintAccount m e)).1.tokens.lookup
        account.pubkey).map TokenRow.extensions = some (storedExtensions e.structs e.markers) ∧
      ((TokenExtensions.handleTokenExtensionsProgramAccount db account (.mintAccount m e)).1.asset.lookup
        account.pubkey).map AssetRow.mintExtensions = some (storedExtensions e.structs e.markers) := by
  have json : (if e.isSome then filterNonNullFields e.toJson else none) = storedExtensions e.structs e.markers := by
    rw [e.isSome_eq, e.toJson_eq]
    rfl
  have tokens := indexMint_tokens newer m (storedExtensions e.structs e.markers)
  have asset := indexMint_mintExtensions newer m (storedExtensions e.structs e.markers)
  dsimp only [TokenExtensions.handleTokenExtensionsProgramAccount]
  rw [json]
  cases e.metadata with
  | none => exact ⟨tokens, asset⟩
  | some metadata =>
    refine ⟨tokens, Eq.trans ?_ asset⟩
    obtain ⟨row, found, -⟩ := Option.map_eq_some_iff.mp asset
    rw [found]
    dsimp only [TokenExtensions.upsertAssetData]
    rw [TokenExtensions.upsertAssetsMetadataCols, Db.upsertAsset_lookup, if_pos rfl]
    change Option.map AssetRow.mintExtensions (some ((throughTrigger _).resolve _
      (AList.lookup account.pubkey (indexMint _ _ db account m).asset))) = _
    rw [found, throughTrigger_resolve_some, Option.map_some, apply_ite AssetRow.mintExtensions]
    exact congrArg some (ite_self _)

theorem tokenAccount_stored (newer : Supersedes db account) (ta : SplAccount) (e : TokenAccountExtensions) :
    ((TokenExtensions.handleTokenExtensionsProgramAccount db account (.tokenAccount ta e)).1.tokenAccounts.lookup
      account.pubkey).map TokenAccountRow.extensions = some (storedExtensions e.structs e.markers) := by
  have json : (if e.isSome then filterNonNullFields e.toJson else none) = storedExtensions e.structs e.markers := by
    rw [e.isSome_eq, e.toJson_eq]
    rfl
  dsimp only [TokenExtensions.handleTokenExtensionsProgramAccount]
  rw [json]
  exact indexTokenAccount_extensions newer ta _

theorem stores_iff {column : Option (Option Json)} {stored : Option Json} {extensions : List JsonField}
    (isStored : column = some stored) : Stores column extensions ↔ KeepsAll stored extensions := by
  subst isStored
  constructor
  · rintro ⟨other, same, keeps⟩
    cases same
    exact keeps
  · intro keeps
    exact ⟨stored, rfl, keeps⟩

end Handler

/-- All extensions of a mint and of a token account are kept exactly when one
besides the markers is present or no marker is. -/
theorem extensions_kept_iff (db : Db) (account : AccountInfo) (newer : Supersedes db account) (m : SplMint)
    (mint : ParsedMintExtensions) (ta : SplAccount) (token : ParsedTokenAccountExtensions) :
    ((Stores (((TokenExtensions.handleTokenExtensionsProgramAccount db account
            (.mintAccount m mint.extensions)).1.tokens.lookup account.pubkey).map TokenRow.extensions)
          (mint.extensions.structs ++ mint.extensions.markers) ∧
        Stores (((TokenExtensions.handleTokenExtensionsProgramAccount db account
            (.mintAccount m mint.extensions)).1.asset.lookup account.pubkey).map AssetRow.mintExtensions)
          (mint.extensions.structs ++ mint.extensions.markers)) ↔
      (∃ field ∈ mint.extensions.structs, field.2.isSome = true) ∨
        (mint.extensions.nonTransferable = none ∧ mint.extensions.immutableOwner = none)) ∧
    (Stores (((TokenExtensions.handleTokenExtensionsProgramAccount db account
            (.tokenAccount ta token.extensions)).1.tokenAccounts.lookup account.pubkey).map TokenAccountRow.extensions)
          (token.extensions.structs ++ token.extensions.markers) ↔
      (∃ field ∈ token.extensions.structs, field.2.isSome = true) ∨
        (token.extensions.immutableOwner = none ∧ token.extensions.nonTransferableAccount = none)) := by
  obtain ⟨tokens, asset⟩ := mint_stored newer m mint.extensions
  have tokenAccounts := tokenAccount_stored newer ta token.extensions
  rw [stores_iff tokens, stores_iff asset, stores_iff tokenAccounts, and_self]
  exact ⟨mint.stored, token.stored⟩

namespace ParsedMintExtensions.Example

def account : AccountInfo where
  slot := 5
  pubkey := .fill 7
  owner := .fill 6

def mint : SplMint where
  mintAuthority := none
  supply := 1
  decimals := 0
  freezeAuthority := none

def tokenAccount : SplAccount where
  mint := .fill 7
  owner := .fill 1
  amount := 1
  delegate := none
  state := .initialized
  delegatedAmount := 0

/-- A mint that cannot be transferred, and what else is present in it. -/
def soulbound (pointer : Option Json) (object : ∀ json, pointer = some json → ∃ entries, json = .obj entries) :
    ParsedMintExtensions where
  extensions := { metadataPointer := pointer, nonTransferable := some true }
  parsed := by simpa [Parsed, MintAccountExtensions.structs] using object

/-- An account that cannot change its owner, and what else is present in it. -/
def ownedForGood (cpiGuard : Option Json) (object : ∀ json, cpiGuard = some json → ∃ entries, json = .obj entries) :
    ParsedTokenAccountExtensions where
  extensions := { cpiGuard, immutableOwner := some true }
  parsed := by simpa [Parsed, TokenAccountExtensions.structs] using object

def pointed : ParsedMintExtensions := soulbound (some (.obj [("metadata_address", .null)])) (by simp)

def guarded : ParsedTokenAccountExtensions := ownedForGood (some (.obj [("lock_cpi", .bool true)])) (by simp)

end ParsedMintExtensions.Example

open ParsedMintExtensions.Example in
theorem extensions_kept_with_struct :
    (Stores (((TokenExtensions.handleTokenExtensionsProgramAccount {} account
            (.mintAccount mint pointed.extensions)).1.tokens.lookup account.pubkey).map TokenRow.extensions)
          (pointed.extensions.structs ++ pointed.extensions.markers) ∧
        Stores (((TokenExtensions.handleTokenExtensionsProgramAccount {} account
            (.mintAccount mint pointed.extensions)).1.asset.lookup account.pubkey).map AssetRow.mintExtensions)
          (pointed.extensions.structs ++ pointed.extensions.markers)) ∧
      Stores (((TokenExtensions.handleTokenExtensionsProgramAccount {} account
            (.tokenAccount tokenAccount guarded.extensions)).1.tokenAccounts.lookup account.pubkey).map
          TokenAccountRow.extensions)
        (guarded.extensions.structs ++ guarded.extensions.markers) := by
  have empty : Supersedes {} account := by
    refine ⟨fun row stored => ?_, fun row stored => ?_, fun row stored => ?_⟩
    · cases stored
    · cases stored
    · cases stored
  obtain ⟨ofMint, ofAccount⟩ := extensions_kept_iff {} account empty mint pointed tokenAccount guarded
  refine ⟨ofMint.mpr (.inl ?_), ofAccount.mpr (.inl ?_)⟩
  · exact ⟨("metadata_pointer", pointed.extensions.metadataPointer), by simp [MintAccountExtensions.structs], rfl⟩
  · exact ⟨("cpi_guard", guarded.extensions.cpiGuard), by simp [TokenAccountExtensions.structs], rfl⟩

open ParsedMintExtensions.Example in
/-- A mint whose only extension is a marker is stored without it, and so is such
an account. -/
theorem lone_marker_lost :
    ((TokenExtensions.handleTokenExtensionsProgramAccount {} account
        (.mintAccount mint (soulbound none (by simp)).extensions)).1.tokens.lookup account.pubkey).map
          TokenRow.extensions = some none ∧
      ((TokenExtensions.handleTokenExtensionsProgramAccount {} account
        (.mintAccount mint (soulbound none (by simp)).extensions)).1.asset.lookup account.pubkey).map
          AssetRow.mintExtensions = some none ∧
      ((TokenExtensions.handleTokenExtensionsProgramAccount {} account
        (.tokenAccount tokenAccount (ownedForGood none (by simp)).extensions)).1.tokenAccounts.lookup
          account.pubkey).map TokenAccountRow.extensions = some none ∧
      ¬ KeepsAll none ((soulbound none (by simp)).extensions.structs ++ (soulbound none (by simp)).extensions.markers) ∧
      ¬ KeepsAll none ((ownedForGood none (by simp)).extensions.structs ++
        (ownedForGood none (by simp)).extensions.markers) := by
  refine ⟨rfl, rfl, rfl, fun keeps => ?_, fun keeps => ?_⟩
  · have absent := keeps.null.mp rfl ("non_transferable", some (.bool true)) (by
      simp [soulbound, MintAccountExtensions.structs, MintAccountExtensions.markers])
    cases absent
  · have absent := keeps.null.mp rfl ("immutable_owner", some (.bool true)) (by
      simp [ownedForGood, TokenAccountExtensions.structs, TokenAccountExtensions.markers])
    cases absent

end DasIndexer
