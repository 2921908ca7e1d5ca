import DasIndexer.Api.KeyedListings
import DasIndexer.Lib.Paging

namespace DasIndexer
open Sql

section Requests
variable {limit : Nat}

/-- The order of the keys, which are compared as `bytea`. -/
def keyBefore (key other : Pubkey) : Prop := byteaKey key.bytes < byteaKey other.bytes

instance : Std.Irrefl keyBefore := ⟨fun _ => lt_irrefl _⟩

/-- Without a sorting, the cursor of a request is dropped unread. -/
theorem validatePagination_unsorted (accepted : limit ≤ 1000) (cursor : Option String) :
    validatePagination (some limit) none none none cursor none = .ok { limit } := by
  have small : ¬ 1000 < limit := Nat.not_lt.mpr accepted
  simp [validatePagination, validateKeyset, small]
  rfl

theorem validatePagination_exceeded (refused : ¬ limit ≤ 1000) (cursor : Option String) :
    validatePagination (some limit) none none none cursor none = .error .paginationExceededError := by
  simp [validatePagination, Nat.not_le.mp refused]
  rfl

theorem createPagination_unsorted : createPagination { limit } = .ok (.keyset none none) := rfl

/-- Without bounds, the page is the first one. -/
theorem paginate_unbounded {R : Type} {stmt : Select R} (start : stmt.offset = 0) (order : Order)
    (column : Column R) :
    (paginate (.keyset none none) limit stmt order column).map Select.all = .ok (stmt.rows.take limit) := by
  have page : (paginate (.keyset none none) limit stmt order column).map Select.all =
      .ok ((stmt.rows.drop stmt.offset).take limit) := rfl
  rw [page, start, List.drop_zero]

/-- The keys are read back from the addresses. -/
theorem filterMap_ofBase58 {A R : Type} {items : List A} {address : A → String} {rows : List (Pubkey × R)}
    (shown : items.map address = rows.map (fun row => row.1.toBase58)) :
    items.filterMap (fun item => Bytes32.ofBase58? (address item)) = rows.map Prod.fst := by
  have read : items.filterMap (fun item => Bytes32.ofBase58? (address item)) =
      (items.map address).filterMap Bytes32.ofBase58? := by
    rw [List.filterMap_map]
    rfl
  rw [read, shown, List.filterMap_map]
  have decoded : (Bytes32.ofBase58? ∘ fun row : Pubkey × R => row.1.toBase58) = some ∘ Prod.fst := by
    funext row
    exact Bytes32.ofBase58?_toBase58 row.1
  rw [decoded, List.filterMap_eq_map]

end Requests

section TokenAccounts
variable (db : Db) (ownerAddress mintAddress : Option Address) (limit : Nat) (options : Options)

/-- A request for token accounts, from a cursor on. -/
def tokenAccountsFrom (cursor : Option String) : GetTokenAccounts :=
  { ownerAddress := ownerAddress.map Address.text
    mintAddress := mintAddress.map Address.text
    limit := some limit
    options := some options
    cursor }

def Rpc.TokenAccountList.keys (answer : Rpc.TokenAccountList) : List Pubkey :=
  answer.tokenAccounts.filterMap (fun account => Bytes32.ofBase58? account.address)

/-- The token accounts that match. -/
def matchingTokenAccounts : List Pubkey :=
  (tokenAccountSelect db (ownerAddress.map Address.key) (mintAddress.map Address.key) options).rows.map Prod.fst

theorem tokenAccountListToRpc_eq (accounts : List (Pubkey × TokenAccountRow)) :
    (Rpc.tokenAccountListToRpc accounts options).1.map Rpc.TokenAccount.address =
      accounts.map (fun account => account.1.toBase58) := by
  induction accounts using List.reverseRecOn with
  | nil => rfl
  | append_singleton earlier last ih =>
    rw [List.map_append, ← ih, Rpc.tokenAccountListToRpc, List.foldl_append]
    exact List.map_append

theorem tokenAccountList_keys (accounts : List (Pubkey × TokenAccountRow)) (pagination : Pagination) :
    (Rpc.buildTokenListResponse accounts limit pagination options).keys = accounts.map Prod.fst :=
  filterMap_ofBase58 (tokenAccountListToRpc_eq options accounts)

variable {limit}

theorem requestTokenAccounts_from (accepted : limit ≤ 1000) (cursor : Option String) :
    requestTokenAccounts db (tokenAccountsFrom ownerAddress mintAddress limit options cursor) =
      ((getTokenAccounts db (ownerAddress.map Address.key) (mintAddress.map Address.key) (.keyset none none) limit
        options).mapError .databaseError).map (fun accounts =>
          Rpc.buildTokenListResponse accounts limit (.keyset none none) options) := by
  rw [requestTokenAccounts, tokenAccountsFrom, validateOptPubkey_address, validateOptPubkey_address]
  simp only [bind, Except.bind, validatePagination_unsorted accepted, createPagination_unsorted, Option.getD_some]
  rfl

variable {ownerAddress mintAddress}

/-- Whatever the cursor, the answer is the first page. -/
theorem requestTokenAccounts_given (accepted : limit ≤ 1000)
    (given : ownerAddress.isSome = true ∨ mintAddress.isSome = true) (cursor : Option String) :
    requestTokenAccounts db (tokenAccountsFrom ownerAddress mintAddress limit options cursor) =
      .ok (Rpc.buildTokenListResponse ((tokenAccountSelect db (ownerAddress.map Address.key)
        (mintAddress.map Address.key) options).rows.take limit) limit (.keyset none none) options) := by
  have someGiven : ((ownerAddress.map Address.key).isNone && (mintAddress.map Address.key).isNone) = false := by
    rcases given with owner | mint
    · obtain ⟨address, rfl⟩ := Option.isSome_iff_exists.mp owner
      rfl
    · obtain ⟨address, rfl⟩ := Option.isSome_iff_exists.mp mint
      exact Bool.and_false _
  rw [requestTokenAccounts_from db _ _ options accepted, getTokenAccounts, someGiven, if_neg Bool.false_ne_true,
    paginate_unbounded rfl]
  rfl

/-- The endpoint honours a cursor only where it has nothing to list. -/
theorem tokenAccounts_honours_iff :
    Paging.Honours keyBefore Bytes32.toBase58
        (fun cursor => requestTokenAccounts db (tokenAccountsFrom ownerAddress mintAddress limit options cursor))
        Rpc.TokenAccountList.keys (matchingTokenAccounts db ownerAddress mintAddress options) ↔
      limit ≤ 1000 ∧ (ownerAddress.isSome = true ∨ mintAddress.isSome = true) ∧
        matchingTokenAccounts db ownerAddress mintAddress options = [] := by
  by_cases accepted : limit ≤ 1000
  · by_cases given : ownerAddress.isSome = true ∨ mintAddress.isSome = true
    · have page := tokenAccountList_keys limit options ((tokenAccountSelect db (ownerAddress.map Address.key)
        (mintAddress.map Address.key) options).rows.take limit) (.keyset none none)
      rw [List.map_take] at page
      refine (Paging.honours_ignored_iff (requestTokenAccounts_given db options accepted given) page).trans ?_
      exact ⟨fun empty => ⟨accepted, given, empty⟩, fun all => all.2.2⟩
    · have failed : requestTokenAccounts db (tokenAccountsFrom ownerAddress mintAddress limit options none) =
          .error (.databaseError (.custom "Either 'ownerAddress' or 'mintAddress' must be provided")) := by
        obtain ⟨noOwner, noMint⟩ := not_or.mp given
        rw [Option.not_isSome_iff_eq_none] at noOwner noMint
        rw [requestTokenAccounts_from db _ _ options accepted, noOwner, noMint]
        rfl
      exact ⟨fun honours => absurd honours (Paging.not_honours_of_error failed), fun all => absurd all.2.1 given⟩
  · have failed : requestTokenAccounts db (tokenAccountsFrom ownerAddress mintAddress limit options none) =
        .error .paginationExceededError := by
      rw [requestTokenAccounts, tokenAccountsFrom, validateOptPubkey_address, validateOptPubkey_address]
      simp only [bind, Except.bind, validatePagination_exceeded accepted]
    exact ⟨fun honours => absurd honours (Paging.not_honours_of_error failed), fun all => absurd all.1 accepted⟩

end TokenAccounts

section NftEditions
variable [Programs] [EditionCrate] (db : Db) (mintAddress : Address) (limit : Nat)

/-- A request for the editions of a mint, from a cursor on. -/
def editionsFrom (mintAddress : Address) (limit : Nat) (cursor : Option String) : GetNftEditions :=
  { mintAddress := mintAddress.text, limit := some limit, cursor }

def NftEditions.keys (answer : NftEditions) : List Pubkey :=
  answer.editions.filterMap (fun edition => Bytes32.ofBase58? edition.editionAddress)

/-- The editions printed from the master edition of the mint. -/
def matchingEditions : List Pubkey :=
  (editionSelect db (Programs.findMasterEdition mintAddress.key)).rows.map Prod.fst

/-- The master edition is stored and can be read. -/
def hasMasterEdition : Bool :=
  ((db.attachments.lookup (Programs.findMasterEdition mintAddress.key)).bind AttachmentRow.data).any (fun data =>
    (EditionCrate.readMasterEdition data).isOk)

omit [Programs] in
theorem attachmentToNftEdition_address {attachment : Pubkey × AttachmentRow} {edition : NftEdition}
    (read : attachmentToNftEdition attachment = .ok edition) : edition.editionAddress = attachment.1.toBase58 := by
  unfold attachmentToNftEdition at read
  cases stored : attachment.2.data with
  | none =>
    rw [stored] at read
    cases read
  | some data =>
    rw [stored] at read
    cases decoded : EditionCrate.readEdition data with
    | error text =>
      simp only [decoded] at read
      cases read
    | ok decodedEdition =>
      simp only [decoded] at read
      cases read
      rfl

omit [Programs] in
theorem mapM_editions {attachments : List (Pubkey × AttachmentRow)} {editions : List NftEdition}
    (read : attachments.mapM attachmentToNftEdition = .ok editions) :
    editions.map NftEdition.editionAddress = attachments.map (fun attachment => attachment.1.toBase58) := by
  induction attachments generalizing editions with
  | nil =>
    cases read
    rfl
  | cons attachment rest ih =>
    rw [List.mapM_cons] at read
    cases first : attachmentToNftEdition attachment with
    | error problem =>
      rw [first] at read
      cases read
    | ok edition =>
      rw [first] at read
      cases later : rest.mapM attachmentToNftEdition with
      | error problem =>
        simp only [bind, Except.bind, later] at read
        cases read
      | ok others =>
        simp only [bind, Except.bind, later] at read
        cases read
        rw [List.map_cons, List.map_cons, ih later, attachmentToNftEdition_address first]

theorem getNftEditions_missing (missing : hasMasterEdition db mintAddress = false) :
    ∃ problem, getNftEditions db mintAddress.key (.keyset none none) limit = .error problem := by
  unfold hasMasterEdition at missing
  unfold getNftEditions
  dsimp only
  cases stored : db.attachments.lookup (Programs.findMasterEdition mintAddress.key) with
  | none => exact ⟨_, rfl⟩
  | some masterEdition =>
    rw [stored, Option.bind_some] at missing
    dsimp only
    cases hasData : masterEdition.data with
    | none => exact ⟨_, rfl⟩
    | some data =>
      rw [hasData, Option.any_some] at missing
      dsimp only
      cases decoded : EditionCrate.readMasterEdition data with
      | error text => exact ⟨_, rfl⟩
      | ok edition =>
        rw [decoded] at missing
        cases missing

/-- With the master edition stored, the answer is the first page of editions,
and fails with the first one that cannot be read. -/
theorem getNftEditions_stored (isStored : hasMasterEdition db mintAddress = true) :
    ∃ respond : List NftEdition → NftEditions, (∀ editions, (respond editions).editions = editions) ∧
      getNftEditions db mintAddress.key (.keyset none none) limit =
        (((editionSelect db (Programs.findMasterEdition mintAddress.key)).rows.take limit).mapM
          attachmentToNftEdition).map respond := by
  unfold hasMasterEdition at isStored
  unfold getNftEditions
  dsimp only
  cases stored : db.attachments.lookup (Programs.findMasterEdition mintAddress.key) with
  | none =>
    rw [stored] at isStored
    cases isStored
  | some masterEdition =>
    rw [stored, Option.bind_some] at isStored
    dsimp only
    cases hasData : masterEdition.data with
    | none =>
      rw [hasData] at isStored
      cases isStored
    | some data =>
      rw [hasData, Option.any_some] at isStored
      dsimp only
      cases decoded : EditionCrate.readMasterEdition data with
      | error text =>
        rw [decoded] at isStored
        cases isStored
      | ok edition =>
        refine ⟨fun editions =>
          { total := editions.length
            limit
            masterEditionAddress := (Programs.findMasterEdition mintAddress.key).toBase58
            supply := edition.supply
            maxSupply := edition.maxSupply
            editions
            page := none
            before := none
            after := none
            cursor := none }, fun _ => rfl, ?_⟩
        rfl

theorem requestNftEditions_from {limit : Nat} (accepted : limit ≤ 1000) (cursor : Option String) :
    requestNftEditions db (editionsFrom mintAddress limit cursor) =
      (getNftEditions db mintAddress.key (.keyset none none) limit).mapError .databaseError := by
  rw [requestNftEditions, editionsFrom, validatePubkey_address]
  simp only [bind, Except.bind, validatePagination_unsorted accepted, createPagination_unsorted]
  rfl

/-- The endpoint honours a cursor only where it has nothing to list. -/
theorem editions_honours_iff :
    Paging.Honours keyBefore Bytes32.toBase58
        (fun cursor => requestNftEditions db (editionsFrom mintAddress limit cursor)) NftEditions.keys
        (matchingEditions db mintAddress) ↔
      limit ≤ 1000 ∧ hasMasterEdition db mintAddress = true ∧ matchingEditions db mintAddress = [] := by
  by_cases accepted : limit ≤ 1000
  · cases isStored : hasMasterEdition db mintAddress with
    | false =>
      obtain ⟨problem, failed⟩ := getNftEditions_missing db mintAddress limit isStored
      have refused := requestNftEditions_from db mintAddress accepted none
      rw [failed] at refused
      refine ⟨fun honours => absurd honours (Paging.not_honours_of_error refused), fun all => ?_⟩
      cases all.2.1
    | true =>
      obtain ⟨respond, shows, eq⟩ := getNftEditions_stored db mintAddress limit isStored
      cases read : ((editionSelect db (Programs.findMasterEdition mintAddress.key)).rows.take limit).mapM
          attachmentToNftEdition with
      | error problem =>
        have refused := requestNftEditions_from db mintAddress accepted none
        rw [eq, read] at refused
        refine ⟨fun honours => absurd honours (Paging.not_honours_of_error refused), fun all => ?_⟩
        have nothing : (editionSelect db (Programs.findMasterEdition mintAddress.key)).rows = [] :=
          List.map_eq_nil_iff.mp all.2.2
        rw [nothing, List.take_nil] at read
        cases read
      | ok editions =>
        have answered : ∀ cursor, requestNftEditions db (editionsFrom mintAddress limit cursor) =
            .ok (respond editions) := by
          intro cursor
          rw [requestNftEditions_from db mintAddress accepted, eq, read]
          rfl
        have page : (respond editions).keys = (matchingEditions db mintAddress).take limit := by
          rw [NftEditions.keys, shows, matchingEditions, ← List.map_take]
          exact filterMap_ofBase58 (mapM_editions read)
        refine (Paging.honours_ignored_iff answered page).trans ?_
        exact ⟨fun empty => ⟨accepted, rfl, empty⟩, fun all => all.2.2⟩
  · have failed : requestNftEditions db (editionsFrom mintAddress limit none) =
        .error .paginationExceededError := by
      rw [requestNftEditions, editionsFrom]
      simp only [bind, Except.bind, validatePagination_exceeded accepted]
    exact ⟨fun honours => absurd honours (Paging.not_honours_of_error failed), fun all => absurd all.1 accepted⟩

end NftEditions

/-- Whose signatures are asked for. -/
inductive SignatureTarget where
  | ofAsset (id : Address)
  | ofLeaf (tree : Address) (leafIndex : Int)

namespace SignatureTarget
variable (db : Db) (target : SignatureTarget) (limit : Nat) (sortDirection : Option AssetSortDirection)

/-- A request for signatures, from a cursor on. -/
def payload (limit : Nat) (sortDirection : Option AssetSortDirection) (cursor : Option String) :
    SignatureTarget → GetAssetSignatures
  | ofAsset id => { id := some id.text, limit := some limit, cursor, sortDirection }
  | ofLeaf tree leafIndex =>
    { tree := some tree.text, leafIndex := some leafIndex, limit := some limit, cursor, sortDirection }

/-- The leaf in question; an asset that is not stored has none. -/
def leaf : SignatureTarget → Except DbErr (Option (Pubkey × Int))
  | ofLeaf tree leafIndex => .ok (some (tree.key, leafIndex))
  | ofAsset id => match db.asset.lookup id.key with
    | none => .ok none
    | some asset => match asset.treeId with
      | none => .error (.recordNotFound "Tree not found")
      | some tree => match asset.nonce with
        | none => .error (.recordNotFound "Leaf ID does not exist")
        | some nonce => .ok (some (tree, nonce))

/-- The changes of the leaf, in the order asked for. -/
def audits : List Audit :=
  match target.leaf db with
  | .ok (some (tree, leafIndex)) => (auditSelect db tree leafIndex (signatureOrder sortDirection)).rows
  | _ => []

/-- The order of the sequence numbers. -/
def seqBefore (sortDirection : Option AssetSortDirection) (seq other : Nat) : Prop :=
  match signatureOrder sortDirection with
  | .asc => seq < other
  | .desc => other < seq

instance : Std.Irrefl (seqBefore sortDirection) where
  irrefl seq := by
    unfold seqBefore
    split
    · exact Nat.lt_irrefl seq
    · exact Nat.lt_irrefl seq

/-- The rows behind the answer of the endpoint. -/
def answered (cursor : Option String) : Except DasApiError (List Audit) := do
  let pageOptions ← validatePagination (some limit) none none none cursor none
  let pagination ← (createPagination pageOptions).mapError .databaseError
  let leaf ← (target.leaf db).mapError .databaseError
  match leaf with
  | none => return []
  | some (tree, leafIndex) =>
    (findAudits db tree leafIndex pagination limit sortDirection).mapError .databaseError

theorem answered_exceeded {limit : Nat} (refused : ¬ limit ≤ 1000) (cursor : Option String) :
    target.answered db limit sortDirection cursor = .error .paginationExceededError := by
  rw [answered]
  simp only [bind, Except.bind, validatePagination_exceeded refused]

/-- Whatever the cursor, the answer is the first page. -/
theorem answered_eq {limit : Nat} (accepted : limit ≤ 1000) (cursor : Option String) :
    target.answered db limit sortDirection cursor =
      ((target.leaf db).mapError .databaseError).map (fun _ => (target.audits db sortDirection).take limit) := by
  rw [answered, audits]
  simp only [bind, Except.bind, validatePagination_unsorted accepted, createPagination_unsorted]
  cases target.leaf db with
  | error problem => rfl
  | ok leaf =>
    cases leaf with
    | none => exact congrArg Except.ok List.take_nil.symm
    | some leaf =>
      have page := @paginate_unbounded limit _ (auditSelect db leaf.1 leaf.2 (signatureOrder sortDirection)) rfl
        (signatureOrder sortDirection) (.bigint (fun audit => (audit.seq : Int)))
      show (findAudits db leaf.1 leaf.2 (.keyset none none) limit sortDirection).mapError _ = _
      rw [findAudits, page]
      rfl

/-- The endpoint shows the rows without their sequence numbers. -/
theorem requestAssetSignatures_eq (cursor : Option String) :
    requestAssetSignatures db (target.payload limit sortDirection cursor) =
      (target.answered db limit sortDirection cursor).map (fun audits =>
        buildTransactionSignaturesResponse (audits.map Audit.transaction) limit (.keyset none none)) := by
  have validated : ∀ address : Address, validateOptPubkey (some address.text) = .ok (some address.key) :=
    fun address => validateOptPubkey_address (some address)
  have absent : validateOptPubkey none = .ok none := rfl
  by_cases accepted : limit ≤ 1000
  · have valid := validatePagination_unsorted accepted cursor
    have shown : ∀ tree leafIndex,
        ((fetchTransactions db tree leafIndex (.keyset none none) limit sortDirection).mapError
          DasApiError.databaseError).map (fun items =>
            buildTransactionSignaturesResponse items limit (.keyset none none)) =
        ((findAudits db tree leafIndex (.keyset none none) limit sortDirection).mapError
          DasApiError.databaseError).map (fun audits =>
            buildTransactionSignaturesResponse (audits.map Audit.transaction) limit (.keyset none none)) := by
      intro tree leafIndex
      rw [fetchTransactions]
      cases findAudits db tree leafIndex (.keyset none none) limit sortDirection with
      | error problem => rfl
      | ok audits => rfl
    cases target with
    | ofLeaf tree leafIndex =>
      unfold requestAssetSignatures answered
      simp only [payload, validated, absent, valid, createPagination_unsorted, leaf, bind, Except.bind]
      rw [if_neg (by simp)]
      exact shown tree.key leafIndex
    | ofAsset id =>
      unfold requestAssetSignatures answered
      simp only [payload, validated, absent, valid, createPagination_unsorted, leaf, bind, Except.bind]
      rw [if_neg (by simp)]
      show ((getAssetSignatures db (some id.key) none none (.keyset none none) limit sortDirection).mapError
        DasApiError.databaseError).map (fun items =>
          buildTransactionSignaturesResponse items limit (.keyset none none)) = _
      unfold getAssetSignatures
      dsimp only
      cases db.asset.lookup id.key with
      | none => rfl
      | some asset =>
        dsimp only
        cases asset.treeId with
        | none => rfl
        | some tree =>
          dsimp only
          cases asset.nonce with
          | none => rfl
          | some nonce => exact shown tree nonce
  · have exceeded := validatePagination_exceeded accepted cursor
    rw [answered_exceeded db target sortDirection accepted]
    cases target with
    | ofLeaf tree leafIndex =>
      unfold requestAssetSignatures
      simp only [payload, validated, absent, exceeded, bind, Except.bind]
      rw [if_neg (by simp)]
      rfl
    | ofAsset id =>
      unfold requestAssetSignatures
      simp only [payload, validated, absent, exceeded, bind, Except.bind]
      rw [if_neg (by simp)]
      rfl

/-- The endpoint honours a cursor, however it encodes a sequence number, only
where it has nothing to list. -/
theorem signatures_honours_iff (encode : Nat → String) :
    Paging.Honours (seqBefore sortDirection) encode (target.answered db limit sortDirection)
        (fun audits => audits.map Audit.seq) ((target.audits db sortDirection).map Audit.seq) ↔
      limit ≤ 1000 ∧ (target.leaf db).isOk = true ∧ (target.audits db sortDirection).map Audit.seq = [] := by
  by_cases accepted : limit ≤ 1000
  · cases found : target.leaf db with
    | error problem =>
      have failed := answered_eq db target sortDirection accepted none
      rw [found] at failed
      refine ⟨fun honours => absurd honours (Paging.not_honours_of_error failed), fun all => ?_⟩
      cases all.2.1
    | ok leaf =>
      have answers : ∀ cursor, target.answered db limit sortDirection cursor =
          .ok ((target.audits db sortDirection).take limit) := by
        intro cursor
        rw [answered_eq db target sortDirection accepted, found]
        rfl
      refine (Paging.honours_ignored_iff answers List.map_take).trans ?_
      exact ⟨fun empty => ⟨accepted, rfl, empty⟩, fun all => all.2.2⟩
  · have failed := answered_exceeded db target sortDirection accepted none
    exact ⟨fun honours => absurd honours (Paging.not_honours_of_error failed), fun all => absurd all.1 accepted⟩

end SignatureTarget

/-- Token accounts, editions and signatures are listed without regard to the
cursor, so that it is honoured only where nothing is listed. -/
theorem cursor_honoured_iff_nothing_listed [Programs] [EditionCrate] (db : Db) (limit : Nat) :
    (∀ ownerAddress mintAddress options,
      Paging.Honours keyBefore Bytes32.toBase58
          (fun cursor => requestTokenAccounts db (tokenAccountsFrom ownerAddress mintAddress limit options cursor))
          Rpc.TokenAccountList.keys (matchingTokenAccounts db ownerAddress mintAddress options) ↔
        limit ≤ 1000 ∧ (ownerAddress.isSome = true ∨ mintAddress.isSome = true) ∧
          matchingTokenAccounts db ownerAddress mintAddress options = []) ∧
    (∀ mintAddress,
      Paging.Honours keyBefore Bytes32.toBase58
          (fun cursor => requestNftEditions db (editionsFrom mintAddress limit cursor)) NftEditions.keys
          (matchingEditions db mintAddress) ↔
        limit ≤ 1000 ∧ hasMasterEdition db mintAddress = true ∧ matchingEditions db mintAddress = []) ∧
    ∀ (target : SignatureTarget) (sortDirection : Option AssetSortDirection) (encode : Nat → String),
      (∀ cursor, requestAssetSignatures db (target.payload limit sortDirection cursor) =
        (target.answered db limit sortDirection cursor).map (fun audits =>
          buildTransactionSignaturesResponse (audits.map Audit.transaction) limit (.keyset none none))) ∧
      (Paging.Honours (SignatureTarget.seqBefore sortDirection) encode (target.answered db limit sortDirection)
          (fun audits => audits.map Audit.seq) ((target.audits db sortDirection).map Audit.seq) ↔
        limit ≤ 1000 ∧ (target.leaf db).isOk = true ∧ (target.audits db sortDirection).map Audit.seq = []) := by
  refine ⟨fun ownerAddress mintAddress options => ?_, fun mintAddress => ?_, fun target sortDirection encode => ?_⟩
  · exact tokenAccounts_honours_iff db options
  · exact editions_honours_iff db mintAddress limit
  · exact ⟨target.requestAssetSignatures_eq db limit sortDirection,
      target.signatures_honours_iff db limit sortDirection encode⟩

namespace KeyedListings.Example

/-- An owner with one token account. -/
def db : Db where
  tokenAccounts := AList.insert (.fill 4)
    { mint := .fill 2, amount := 1, owner := .fill 7, frozen := false, closeAuthority := none, delegate := none,
      delegatedAmount := 0, slotUpdated := 5, tokenProgram := .fill 9, extensions := none } ∅

/-- The account is answered again when its own key is the cursor. -/
theorem token_account_after_itself :
    ¬ Paging.Honours keyBefore Bytes32.toBase58
      (fun cursor => requestTokenAccounts db (tokenAccountsFrom (some (.ofKey (.fill 7))) none 10 {} cursor))
      Rpc.TokenAccountList.keys (matchingTokenAccounts db (some (.ofKey (.fill 7))) none {}) := by
  rw [tokenAccounts_honours_iff]
  rintro ⟨-, -, empty⟩
  revert empty
  decide

end KeyedListings.Example

end DasIndexer
