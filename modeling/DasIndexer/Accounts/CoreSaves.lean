import DasIndexer.Accounts.Saves
import DasIndexer.Lib.Transactions
import DasIndexer.Mainnet

namespace DasIndexer.MplCore
open Sql Transactions

/-- The statements of `save_v1_asset`. Those of `asset_upserts` keep the error of
the database, as the queries do. -/
inductive SaveStatement where
  | findModel
  | begin
  | execute (write : Db → Db)
  | upsertAssets (write : Db → Db)
  | queryEntries
  | queryUncompressed
  | updateMany (ids : List Pubkey)
  | commit

def SaveStatement.error (failure : String) : SaveStatement → ProgramTransformerError
  | .execute _ | .updateMany _ => .assetIndexError failure
  | _ => .storageWriteError failure

/-- The filters of `update_many`. -/
def isStale (db : Db) (authority : Bytes) (slot : Nat) (id : Pubkey) : Bool :=
  (db.assetAuthority.lookup id).any (fun row => row.authority ≠ authority ∧ row.slotUpdated < slot)

/-- The transaction has locked the row of `own` by the time of the first
`update_many`, which waits for it if it is to write it. -/
def SaveStatement.act (own : Pubkey) (authority : Bytes) (slot : Nat) : SaveStatement → Act Db
  | .findModel | .begin | .queryEntries | .queryUncompressed => .nothing
  | .execute write | .upsertAssets write => .inside write
  | .updateMany ids =>
    .outside (fun db => decide (own ∈ ids) && isStale db authority slot own)
      (fun db => updateAuthorities db ids authority slot)
  | .commit => .commit

def retryIntervals : List Nat := [0, 5, 10]

/-- `find_model_with_retry` of the collection's authority. -/
def findStatements (db : Db) : UpdateAuthority → List SaveStatement
  | .collection address =>
    List.replicate (if (db.assetAuthority.lookup address).isSome then 1 else retryIntervals.length) .findModel
  | _ => []

/-- The statements of the loop of `update_group_asset_authorities`, page by page. -/
def groupStatements (groupValue : String) (authority : Bytes) (slot : Nat) :
    Nat → Option Pubkey → Db → List SaveStatement
  | 0, _, _ => []
  | fuel + 1, after, db =>
    let entries := ((groupMembers db groupValue).filter (fun id =>
      after.all (fun last => last.bytes < id.bytes))).take 1000
    match entries.getLast? with
    | none => [.queryEntries]
    | some last =>
      let uncompressed := entries.filter (fun id => (db.asset.lookup id).any (fun row => !row.compressed))
      [.queryEntries, .queryUncompressed] ++ (if uncompressed.isEmpty then [] else [.updateMany uncompressed]) ++
        groupStatements groupValue authority slot fuel (some last) (updateAuthorities db uncompressed authority slot)

section Save
variable [Programs]

/-- The statements of `save_v1_asset` before the commit, in their order. -/
def saveStatements (db : Db) (id : Pubkey) (asset : IndexableAsset) (isCollection : Bool) (slot : Nat) :
    List SaveStatement :=
  let updateAuthority := updateAuthorityOf db asset.updateAuthority
  let owner := if isCollection then some updateAuthority else asset.owner.map Bytes32.bytes
  let assetClass := if isCollection then .mplCoreCollection else .mplCoreAsset
  findStatements db asset.updateAuthority ++
  [.begin, .execute (fun db => V1Asset.saveAuthority db id updateAuthority slot)] ++
  (if isCollection then
    groupStatements id.toBase58 updateAuthority slot ((groupMembers db id.toBase58).length + 1) none db
  else []) ++
  [.execute (fun db => V1Asset.saveAssetData db id (asset.assetDataRow slot)),
    .upsertAssets (fun db => upsertAssetsMetadataAccountColumns db (asset.columns id assetClass slot)),
    .upsertAssets (fun db => upsertAssetsMintAccountColumns db
      { mint := id, supply := 1, slotUpdatedMintAccount := slot, extensions := none }),
    .upsertAssets (fun db => upsertAssetsTokenAccountColumns db
      { mint := id
        owner
        frozen := asset.frozen
        delegate := asset.transferDelegate owner updateAuthority
        slotUpdatedTokenAccount := some slot })] ++
  (if asset.collection.isSome then
    [.execute (fun db => V1Asset.saveGrouping ge db id asset.collection slot)]
  else []) ++
  (if asset.creatorList.entries.isEmpty then []
  else [.execute (fun db => V1Asset.saveCreators db id asset.creatorList slot)])

/-- `save_v1_asset` on a database that may fail: `fault i` is the error of the
statement at position `i`. No result: the call waits for ever. -/
def saveV1AssetOn (fault : Nat → Option String) (db : Db) (id : Pubkey) (accountData : MplCoreAccountData)
    (slot : Nat) : Option (Db × Except ProgramTransformerError (Option DownloadMetadataInfo)) :=
  match accountData.indexable with
  | none => some (db, .error .notImplemented)
  | some asset =>
    (run (SaveStatement.act id (updateAuthorityOf db asset.updateAuthority) slot) fault { committed := db, pending := fun db => db }
      (saveStatements db id asset accountData.isCollection slot ++ [.commit])).map (fun (db, failed) =>
        match failed with
        | some (statement, failure) => (db, .error (statement.error failure))
        | none => (db, .ok (if asset.cleanUri = "" then none else some (.new id asset.cleanUri))))

end Save

/-- The rows that the statements ask `update_many` for. -/
def updatedIds (statements : List SaveStatement) : List Pubkey :=
  statements.flatMap (fun statement => match statement with
    | .updateMany ids => ids
    | _ => [])

section Updated
variable {own : Pubkey} {authority : Bytes} {slot : Nat}

theorem isStale_updateAuthorities (db : Db) (ids : List Pubkey) (id : Pubkey) :
    isStale (updateAuthorities db ids authority slot) authority slot id =
      if id ∈ ids then false else isStale db authority slot id := by
  rw [isStale, updateAuthorities_lookup]
  split
  · cases db.assetAuthority.lookup id with
    | none => rfl
    | some row =>
      rw [Option.map_some, Option.any_some, decide_eq_false_iff_not, followed]
      rintro ⟨different, older⟩
      split at different
      · exact different rfl
      · rename_i settled
        rw [if_neg settled] at older
        exact settled ⟨different, older⟩
  · rfl

theorem updateAuthority_fresh {db : Db} {id : Pubkey} (fresh : isStale db authority slot id = false) :
    updateAuthority authority slot db.assetAuthority id = db.assetAuthority := by
  unfold updateAuthority
  cases stored : db.assetAuthority.lookup id with
  | none => rfl
  | some row =>
    rw [isStale, stored, Option.any_some, decide_eq_false_iff_not] at fresh
    exact if_neg fresh

/-- A bulk update that finds no stale row changes nothing, and one that does
changes that row. -/
theorem updateAuthorities_eq_self_iff {db : Db} {ids : List Pubkey} :
    updateAuthorities db ids authority slot = db ↔ ∀ id ∈ ids, isStale db authority slot id = false := by
  constructor
  · intro unchanged id member
    have fresh := @isStale_updateAuthorities authority slot db ids id
    rw [unchanged, if_pos member] at fresh
    exact fresh
  · intro fresh
    have table : ids.foldl (updateAuthority authority slot) db.assetAuthority = db.assetAuthority := by
      induction ids with
      | nil => rfl
      | cons id rest ih =>
        rw [List.foldl_cons, updateAuthority_fresh (fresh id List.mem_cons_self)]
        exact ih (fun other member => fresh other (List.mem_cons_of_mem _ member))
    rw [updateAuthorities, table]

theorem outside_updated (db : Db) (statements : List SaveStatement) :
    outside (SaveStatement.act own authority slot) db statements =
      updateAuthorities db (updatedIds statements) authority slot := by
  induction statements generalizing db with
  | nil => rfl
  | cons statement rest ih =>
    rw [outside_cons, ih]
    cases statement with
    | updateMany ids => exact updateAuthorities_append db ids (updatedIds rest)
    | _ => rfl

theorem unblocked_iff {db : Db} {statements : List SaveStatement} :
    Unblocked (SaveStatement.act own authority slot) db statements ↔
      ¬ (own ∈ updatedIds statements ∧ isStale db authority slot own) := by
  induction statements generalizing db with
  | nil => exact ⟨fun _ member => absurd member.1 List.not_mem_nil, fun _ => trivial⟩
  | cons statement rest ih =>
    rw [Unblocked, ih, outside_updated]
    cases statement with
    | updateMany ids =>
      have first : updatedIds [.updateMany ids] = ids := List.append_nil ids
      have all : updatedIds (.updateMany ids :: rest) = ids ++ updatedIds rest := rfl
      rw [first, all, isStale_updateAuthorities, List.mem_append, SaveStatement.act, Act.waits]
      by_cases member : own ∈ ids
      · simp [member]
      · simp [member]
    | _ => exact and_iff_right rfl

end Updated

theorem updatedIds_append (first second : List SaveStatement) :
    updatedIds (first ++ second) = updatedIds first ++ updatedIds second := List.flatMap_append

section Group
variable {groupValue : String} {authority : Bytes} {slot fuel : Nat} {after : Option Pubkey} {db : Db}

theorem groupStatements_end (empty : ((remaining db groupValue after).take 1000).getLast? = none) :
    groupStatements groupValue authority slot (fuel + 1) after db = [.queryEntries] := by
  rw [remaining] at empty
  simp only [groupStatements, empty]

theorem groupStatements_page {last : Pubkey}
    (isLast : ((remaining db groupValue after).take 1000).getLast? = some last) :
    groupStatements groupValue authority slot (fuel + 1) after db =
      [.queryEntries, .queryUncompressed] ++
        (if (((remaining db groupValue after).take 1000).filter (isUncompressed db)).isEmpty then []
          else [.updateMany (((remaining db groupValue after).take 1000).filter (isUncompressed db))]) ++
        groupStatements groupValue authority slot fuel (some last)
          (updateAuthorities db (((remaining db groupValue after).take 1000).filter (isUncompressed db))
            authority slot) := by
  rw [remaining] at isLast
  simp only [groupStatements, isLast]
  rfl

/-- The statements of the loop do not depend on the bound for its pages. -/
theorem groupStatements_enough (enough : (remaining db groupValue after).length < fuel) :
    groupStatements groupValue authority slot (fuel + 1) after db =
      groupStatements groupValue authority slot fuel after db := by
  induction fuel generalizing after db with
  | zero => omega
  | succ fuel ih =>
    cases isLast : ((remaining db groupValue after).take 1000).getLast? with
    | none => rw [groupStatements_end isLast, groupStatements_end isLast]
    | some last =>
      have shrinks := remaining_shrinks isLast
      rw [groupStatements_page isLast, groupStatements_page isLast, ih]
      show (remaining db groupValue (some last)).length < fuel
      omega

theorem updatedIds_groupStatements (enough : (remaining db groupValue after).length < fuel) :
    updatedIds (groupStatements groupValue authority slot fuel after db) =
      (remaining db groupValue after).filter (isUncompressed db) := by
  induction fuel generalizing after db with
  | zero => omega
  | succ fuel ih =>
    cases isLast : ((remaining db groupValue after).take 1000).getLast? with
    | none =>
      have nothing : remaining db groupValue after = [] := by simpa using List.getLast?_eq_none_iff.mp isLast
      rw [groupStatements_end isLast, nothing]
      rfl
    | some last =>
      have shrinks := remaining_shrinks isLast
      have later := @ih (some last)
        (updateAuthorities db (((remaining db groupValue after).take 1000).filter (isUncompressed db)) authority slot)
        (show (remaining db groupValue (some last)).length < fuel by omega)
      have page : ∀ ids : List Pubkey,
          updatedIds (if ids.isEmpty then [] else [SaveStatement.updateMany ids]) = ids := by
        intro ids
        cases ids with
        | nil => rfl
        | cons first others => exact List.append_nil _
      rw [groupStatements_page isLast, updatedIds_append, updatedIds_append, later, page]
      show [] ++ _ ++ (remaining db groupValue (some last)).filter (isUncompressed db) = _
      rw [List.nil_append, ← List.filter_append, ← remaining_next isLast]

/-- No statement of the loop belongs to the transaction. -/
theorem groupStatements_outside {statement : SaveStatement}
    (member : statement ∈ groupStatements groupValue authority slot fuel after db) :
    statement = .queryEntries ∨ statement = .queryUncompressed ∨ ∃ ids, statement = .updateMany ids := by
  induction fuel generalizing after db with
  | zero => exact absurd member List.not_mem_nil
  | succ fuel ih =>
    cases isLast : ((remaining db groupValue after).take 1000).getLast? with
    | none =>
      rw [groupStatements_end isLast, List.mem_singleton] at member
      exact Or.inl member
    | some last =>
      rw [groupStatements_page isLast, List.mem_append, List.mem_append] at member
      rcases member with (query | update) | later
      · rcases List.mem_pair.mp query with first | second
        · exact Or.inl first
        · exact Or.inr (Or.inl second)
      · split at update
        · exact absurd update List.not_mem_nil
        · exact Or.inr (Or.inr ⟨_, List.mem_singleton.mp update⟩)
      · exact ih later

end Group

section Call
variable [Programs] {db : Db} {id : Pubkey} {slot : Nat}

theorem saveStatements_noCommit (asset : IndexableAsset) (isCollection : Bool) (own : Pubkey) (authority : Bytes) :
    ∀ statement ∈ saveStatements db id asset isCollection slot, statement.act own authority slot ≠ .commit := by
  have noCommit : .commit ∉ saveStatements db id asset isCollection slot := by
    intro member
    have found : SaveStatement.commit ∉ findStatements db asset.updateAuthority := by
      cases asset.updateAuthority with
      | collection address =>
        intro member
        cases List.eq_of_mem_replicate member
      | _ => exact List.not_mem_nil
    simp only [saveStatements, List.mem_append] at member
    rcases member with (((((find | first) | group) | columns) | grouping) | creators)
    · exact found find
    · simp at first
    · split at group
      · rcases groupStatements_outside group with query | query | ⟨ids, update⟩
        · cases query
        · cases query
        · cases update
      · cases group
    · simp at columns
    · split at grouping
      · simp at grouping
      · cases grouping
    · split at creators
      · cases creators
      · simp at creators
  intro statement member commits
  cases statement with
  | commit => exact noCommit member
  | _ => cases commits

/-- The rows asked for by the bulk updates that come before a statement. -/
def updatedBefore (db : Db) (id : Pubkey) (asset : IndexableAsset) (isCollection : Bool) (slot : Nat)
    (position : Nat) : List Pubkey :=
  updatedIds ((saveStatements db id asset isCollection slot ++ [SaveStatement.commit]).take position)

/-- The call does not get to a statement: an earlier bulk update finds the row of
the collection itself, grouped under its own address, and waits for it. -/
def WaitsBefore (db : Db) (id : Pubkey) (asset : IndexableAsset) (isCollection : Bool) (slot : Nat)
    (position : Nat) : Prop :=
  id ∈ updatedBefore db id asset isCollection slot position ∧
    isStale db (updateAuthorityOf db asset.updateAuthority) slot id

/-- No bulk update before a statement finds a row to change. -/
def UnchangedBefore (db : Db) (id : Pubkey) (asset : IndexableAsset) (isCollection : Bool) (slot : Nat)
    (position : Nat) : Prop :=
  ∀ member ∈ updatedBefore db id asset isCollection slot position,
    isStale db (updateAuthorityOf db asset.updateAuthority) slot member = false

/-- A call that fails leaves the bulk updates before the failure behind, and
nothing of the account itself. -/
theorem saveV1AssetOn_error_iff {fault : Nat → Option String} {accountData : MplCoreAccountData}
    {asset : IndexableAsset} {after : Db} {error : ProgramTransformerError}
    (indexable : accountData.indexable = some asset) :
    saveV1AssetOn fault db id accountData slot = some (after, .error error) ↔
      ∃ position statement failure,
        FailsAt fault (saveStatements db id asset accountData.isCollection slot ++ [.commit]) position statement
          failure ∧
        ¬ WaitsBefore db id asset accountData.isCollection slot position ∧
        after = updateAuthorities db (updatedBefore db id asset accountData.isCollection slot position)
          (updateAuthorityOf db asset.updateAuthority) slot ∧
        error = statement.error failure := by
  have failed := @run_failed_iff _ _ _ (SaveStatement.act id (updateAuthorityOf db asset.updateAuthority) slot) fault
    (saveStatements db id asset accountData.isCollection slot) SaveStatement.commit
    (saveStatements_noCommit asset accountData.isCollection id (updateAuthorityOf db asset.updateAuthority))
    { committed := db, pending := fun db => db }
  unfold saveV1AssetOn
  rw [indexable]
  simp only [Option.map_eq_some_iff]
  constructor
  · rintro ⟨⟨left, outcome⟩, ran, result⟩
    cases outcome with
    | none => cases result
    | some problem =>
      obtain ⟨statement, failure⟩ := problem
      cases result
      obtain ⟨position, fails, unblocked, same⟩ := failed.mp ran
      exact ⟨position, statement, failure, fails, unblocked_iff.mp unblocked, same.trans (outside_updated _ _), rfl⟩
  · rintro ⟨position, statement, failure, fails, ready, same, sameError⟩
    refine ⟨(after, some (statement, failure)), failed.mpr ⟨position, fails, unblocked_iff.mpr ready, ?_⟩, ?_⟩
    · exact same.trans (outside_updated _ _).symm
    · rw [sameError]

/-- Saving a Core account is all-or-nothing as long as no bulk update that comes
before the failure finds a row to change. -/
theorem saveV1Asset_allOrNothing_iff (fault : Nat → Option String) (db : Db) (id : Pubkey)
    (accountData : MplCoreAccountData) (slot : Nat) :
    (∀ after error, saveV1AssetOn fault db id accountData slot = some (after, .error error) → after = db) ↔
      ∀ asset position statement failure, accountData.indexable = some asset →
        FailsAt fault (saveStatements db id asset accountData.isCollection slot ++ [.commit]) position statement
          failure →
        WaitsBefore db id asset accountData.isCollection slot position ∨
          UnchangedBefore db id asset accountData.isCollection slot position := by
  constructor
  · intro allOrNothing asset position statement failure indexable fails
    refine or_iff_not_imp_left.mpr (fun ready => ?_)
    have left := allOrNothing _ _ ((saveV1AssetOn_error_iff indexable).mpr
      ⟨position, statement, failure, fails, ready, rfl, rfl⟩)
    exact updateAuthorities_eq_self_iff.mp left
  · intro spared after error ran
    cases indexable : accountData.indexable with
    | none =>
      unfold saveV1AssetOn at ran
      rw [indexable] at ran
      cases ran
      rfl
    | some asset =>
      obtain ⟨position, statement, failure, fails, ready, same, -⟩ := (saveV1AssetOn_error_iff indexable).mp ran
      have unchanged := (spared asset position statement failure indexable fails).resolve_left ready
      exact same.trans (updateAuthorities_eq_self_iff.mpr unchanged)

/-- The row of the collection itself is left alone by its own bulk update. -/
def Separate (db : Db) (id : Pubkey) (asset : IndexableAsset) (isCollection : Bool) (slot : Nat) : Prop :=
  ¬ (isCollection ∧ id ∈ groupMembers db id.toBase58 ∧ isUncompressed db id ∧
    isStale db (updateAuthorityOf db asset.updateAuthority) slot id)

theorem updatedIds_saveStatements (db : Db) (id : Pubkey) (asset : IndexableAsset) (isCollection : Bool)
    (slot : Nat) :
    updatedIds (saveStatements db id asset isCollection slot) =
      if isCollection then (groupMembers db id.toBase58).filter (isUncompressed db) else [] := by
  have find : updatedIds (findStatements db asset.updateAuthority) = [] := by
    cases asset.updateAuthority with
    | collection address =>
      refine List.flatMap_eq_nil_iff.mpr (fun statement member => ?_)
      rw [List.eq_of_mem_replicate member]
    | _ => rfl
  have group := @updatedIds_groupStatements id.toBase58 (updateAuthorityOf db asset.updateAuthority) slot
    ((groupMembers db id.toBase58).length + 1) none db (by rw [remaining_none]; exact Nat.lt_succ_self _)
  rw [remaining_none] at group
  simp only [saveStatements, updatedIds_append, find]
  cases isCollection with
  | true =>
    simp only [if_true, group]
    cases asset.collection.isSome <;> cases asset.creatorList.entries.isEmpty <;> simp [updatedIds]
  | false => cases asset.collection.isSome <;> cases asset.creatorList.entries.isEmpty <;> rfl

/-- What the transaction writes after the authority. -/
def saveColumns (db : Db) (id : Pubkey) (asset : IndexableAsset) (isCollection : Bool) (updateAuthority : Bytes)
    (slot : Nat) : Db :=
  let owner := if isCollection then some updateAuthority else asset.owner.map Bytes32.bytes
  let assetClass := if isCollection then .mplCoreCollection else .mplCoreAsset
  let db := V1Asset.saveAssetData db id (asset.assetDataRow slot)
  let db := upsertAssetsMetadataAccountColumns db (asset.columns id assetClass slot)
  let db := upsertAssetsMintAccountColumns db
    { mint := id, supply := 1, slotUpdatedMintAccount := slot, extensions := none }
  let db := upsertAssetsTokenAccountColumns db
    { mint := id
      owner
      frozen := asset.frozen
      delegate := asset.transferDelegate owner updateAuthority
      slotUpdatedTokenAccount := some slot }
  V1Asset.saveCreators (V1Asset.saveGrouping ge db id asset.collection slot) id asset.creatorList slot

theorem inside_saveStatements (db before : Db) (asset : IndexableAsset) (isCollection : Bool) :
    inside (SaveStatement.act id (updateAuthorityOf db asset.updateAuthority) slot) before
      (saveStatements db id asset isCollection slot) =
        saveColumns (V1Asset.saveAuthority before id (updateAuthorityOf db asset.updateAuthority) slot) id asset
          isCollection (updateAuthorityOf db asset.updateAuthority) slot := by
  have find : ∀ before, inside (SaveStatement.act id (updateAuthorityOf db asset.updateAuthority) slot) before
      (findStatements db asset.updateAuthority) = before := by
    refine inside_eq_self (fun statement member s => ?_)
    cases of : asset.updateAuthority with
    | collection address =>
      rw [of] at member
      rw [List.eq_of_mem_replicate member]
      rfl
    | _ =>
      rw [of] at member
      cases member
  have group : ∀ before, inside (SaveStatement.act id (updateAuthorityOf db asset.updateAuthority) slot) before
      (if isCollection then groupStatements id.toBase58 (updateAuthorityOf db asset.updateAuthority) slot
        ((groupMembers db id.toBase58).length + 1) none db else []) = before := by
    refine inside_eq_self (fun statement member s => ?_)
    split at member
    · rcases groupStatements_outside member with query | query | ⟨ids, update⟩
      · rw [query]
        rfl
      · rw [query]
        rfl
      · rw [update]
        rfl
    · cases member
  simp only [saveStatements, inside_append, find, group]
  have grouping : ∀ before, inside (SaveStatement.act id (updateAuthorityOf db asset.updateAuthority) slot) before
      (if asset.collection.isSome then
        [.execute (fun db => V1Asset.saveGrouping ge db id asset.collection slot)] else []) =
      V1Asset.saveGrouping ge before id asset.collection slot := by
    intro before
    cases asset.collection with
    | none => rfl
    | some collection => rfl
  have creators : ∀ before, inside (SaveStatement.act id (updateAuthorityOf db asset.updateAuthority) slot) before
      (if asset.creatorList.entries.isEmpty then []
        else [.execute (fun db => V1Asset.saveCreators db id asset.creatorList slot)]) =
      V1Asset.saveCreators before id asset.creatorList slot := by
    intro before
    cases none : asset.creatorList.entries.isEmpty with
    | true =>
      rw [V1Asset.saveCreators, none]
      rfl
    | false => rfl
  rw [grouping, creators]
  rfl

theorem saveV1Asset_saveColumns {accountData : MplCoreAccountData} {asset : IndexableAsset}
    (indexable : accountData.indexable = some asset) :
    saveV1Asset db id accountData slot =
      (saveColumns (updateAuthorities (V1Asset.saveAuthority db id (updateAuthorityOf db asset.updateAuthority) slot)
        (updatedIds (saveStatements db id asset accountData.isCollection slot))
        (updateAuthorityOf db asset.updateAuthority) slot) id asset accountData.isCollection
        (updateAuthorityOf db asset.updateAuthority) slot,
      .ok (if asset.cleanUri = "" then none else some (.new id asset.cleanUri))) := by
  unfold saveV1Asset
  rw [indexable, updatedIds_saveStatements]
  cases accountData.isCollection with
  | true =>
    simp only [if_true, updateGroupAssetAuthorities_bulk, bulkUpdate, remaining_none]
    rfl
  | false => rfl

omit [Programs] in
theorem followed_resolved (authority : Bytes) (slot : Nat) (stored : Option AssetAuthorityRow) :
    followed authority slot (V1Asset.authorityOnConflict.resolve (V1Asset.authorityRow authority slot) stored) =
      V1Asset.authorityOnConflict.resolve (V1Asset.authorityRow authority slot) stored := by
  refine if_neg ?_
  rintro ⟨different, older⟩
  cases stored with
  | none => exact different rfl
  | some row =>
    rw [OnConflict.resolve] at different older
    split at different
    · exact different rfl
    · rename_i refused
      rw [if_neg refused] at older
      simp only [V1Asset.authorityOnConflict, V1Asset.authorityRow, holds_gt, Option.any_some,
        decide_eq_true_eq] at refused
      exact refused older

omit [Programs] in
/-- The transaction and the bulk updates write different rows. -/
theorem saveAuthority_updateAuthorities {authority : Bytes} {ids : List Pubkey}
    (separate : ¬ (id ∈ ids ∧ isStale db authority slot id)) (key : Pubkey) :
    (V1Asset.saveAuthority (updateAuthorities db ids authority slot) id authority slot).assetAuthority.lookup key =
      (updateAuthorities (V1Asset.saveAuthority db id authority slot) ids authority slot).assetAuthority.lookup key := by
  have saved : ∀ db : Db, (V1Asset.saveAuthority db id authority slot).assetAuthority =
      Table.upsert db.assetAuthority id (V1Asset.authorityRow authority slot) V1Asset.authorityOnConflict :=
    fun _ => rfl
  rw [saved, updateAuthorities_lookup, saved, Table.lookup_upsert, Table.lookup_upsert, updateAuthorities_lookup]
  by_cases own : key = id
  · subst own
    have untouched : (if key ∈ ids then (db.assetAuthority.lookup key).map (followed authority slot)
        else db.assetAuthority.lookup key) = db.assetAuthority.lookup key := by
      split
      · rename_i member
        have fresh : isStale db authority slot key = false := by
          rw [← Bool.not_eq_true]
          exact fun stale => separate ⟨member, stale⟩
        rw [isStale] at fresh
        cases stored : db.assetAuthority.lookup key with
        | none => rfl
        | some row =>
          rw [stored, Option.any_some, decide_eq_false_iff_not] at fresh
          rw [Option.map_some, followed, if_neg fresh]
      · rfl
    rw [if_pos rfl, if_pos rfl, untouched, Option.map_some, followed_resolved, ite_self]
  · rw [if_neg own, if_neg own]

/-- On a database that works the statements do what the save does in one. -/
theorem saveV1AssetOn_works {accountData : MplCoreAccountData} {asset : IndexableAsset}
    (indexable : accountData.indexable = some asset)
    (ready : ¬ WaitsBefore db id asset accountData.isCollection slot
      (saveStatements db id asset accountData.isCollection slot).length) :
    ∃ after, saveV1AssetOn (fun _ => none) db id accountData slot =
        some (after, (saveV1Asset db id accountData slot).2) ∧
      after = { (saveV1Asset db id accountData slot).1 with assetAuthority := after.assetAuthority } ∧
      ∀ key, after.assetAuthority.lookup key = (saveV1Asset db id accountData slot).1.assetAuthority.lookup key := by
  have updated : updatedBefore db id asset accountData.isCollection slot
      (saveStatements db id asset accountData.isCollection slot).length =
      updatedIds (saveStatements db id asset accountData.isCollection slot) := by
    rw [updatedBefore, List.take_left']
    rfl
  rw [WaitsBefore, updated] at ready
  have completed := @run_completed _ _ String (SaveStatement.act id (updateAuthorityOf db asset.updateAuthority) slot)
    (fun _ => none) (saveStatements db id asset accountData.isCollection slot) SaveStatement.commit
    (saveStatements_noCommit asset accountData.isCollection id (updateAuthorityOf db asset.updateAuthority)) rfl
    (fun _ => rfl) { committed := db, pending := fun db => db } (unblocked_iff.mpr ready)
  rw [outside_updated, inside_saveStatements] at completed
  have whole := @saveV1Asset_saveColumns _ db id slot accountData asset indexable
  refine ⟨saveColumns (V1Asset.saveAuthority (updateAuthorities db
    (updatedIds (saveStatements db id asset accountData.isCollection slot))
    (updateAuthorityOf db asset.updateAuthority) slot) id (updateAuthorityOf db asset.updateAuthority) slot) id asset
    accountData.isCollection (updateAuthorityOf db asset.updateAuthority) slot, ?_, ?_, ?_⟩
  · unfold saveV1AssetOn
    rw [indexable, whole]
    simp only [completed, Option.map_some]
  · rw [whole]
    rfl
  · rw [whole]
    exact saveAuthority_updateAuthorities ready

end Call

namespace Example

def group : Pubkey := .fill 9

/-- One member of a collection is indexed. -/
def indexed : Db where
  asset := AList.singleton (.fill 1) {}
  assetGrouping := AList.singleton (.fill 1, "collection")
    { groupValue := some group.toBase58, verified := true, groupInfoSeq := some 0, slotUpdated := some 10 }
  assetAuthority := AList.singleton (.fill 1) (V1Asset.authorityRow (.fill 3 : Pubkey).bytes 10)

/-- The collection with a new authority. -/
def moved : MplCoreAccountData :=
  .collection { owner := none, updateAuthority := .address (.fill 4), name := "", uri := "" }

/-- The insertion into `asset_data` fails. -/
def dataLost (position : Nat) : Option String := if position = 6 then some "connection closed" else none

/-- The member has the new authority of a collection that is not saved. -/
theorem saveV1Asset_half :
    ∃ after, saveV1AssetOn dataLost indexed group moved 20 =
        some (after, .error (.assetIndexError "connection closed")) ∧
      after ≠ indexed ∧
      (indexed.assetAuthority.lookup (.fill 1)).map AssetAuthorityRow.authority = some (.fill 3 : Pubkey).bytes ∧
      (after.assetAuthority.lookup (.fill 1)).map AssetAuthorityRow.authority = some (.fill 4 : Pubkey).bytes ∧
      after.assetAuthority.lookup group = none ∧ after.assetData.lookup group = none ∧
      after.asset.lookup group = none := by
  have before : (indexed.assetAuthority.lookup (.fill 1)).map AssetAuthorityRow.authority =
      some (.fill 3 : Pubkey).bytes := by decide
  refine ⟨_, rfl, ?_, before, ?_, ?_, ?_, ?_⟩
  · intro unchanged
    have member := congrArg (fun db : Db => (db.assetAuthority.lookup (.fill 1)).map AssetAuthorityRow.slotUpdated)
      unchanged
    revert member
    decide
  · decide
  · decide
  · rfl
  · decide

end Example

end DasIndexer.MplCore
