import DasIndexer.Accounts.CoreSaves
import DasIndexer.Bubblegum.Events
import DasIndexer.Lib.Runs
import DasIndexer.Versions

namespace DasIndexer
open Sql MplCore

/-- When something happened: its slot, and its sequence number in Bubblegum, which
is 0 for an account. -/
@[ext]
structure Origin where
  slot : Nat
  seq : Nat
  deriving DecidableEq

def Operation.origin : Operation → Option Origin
  | .bubblegum event => some { slot := event.bundle.slot, seq := event.seq }
  | .account update => some { slot := update.account.slot, seq := 0 }
  | .closeIx _ | .purgeMints _ => none

/-- An account that is saved with its update authority. -/
structure AuthoritySave where
  id : Pubkey
  authority : Bytes
  slot : Nat
  isCollection : Bool

def AccountUpdate.authoritySave (update : AccountUpdate) (db : Db) : Option AuthoritySave :=
  match update.parsed with
  | .tokenMetadata (.metadataV1 m) =>
    some { id := m.mint, authority := m.updateAuthority.bytes, slot := update.account.slot, isCollection := false }
  | .mplCore data => data.indexable.map (fun asset =>
      { id := update.account.pubkey
        authority := updateAuthorityOf db asset.updateAuthority
        slot := update.account.slot
        isCollection := data.isCollection })
  | _ => none

namespace AuthoritySave
variable (save : AuthoritySave) (db : Db)

/-- Another asset that the collection-wide update is about. -/
def Member (id : Pubkey) : Prop :=
  save.isCollection ∧ id ≠ save.id ∧ id ∈ groupMembers db save.id.toBase58 ∧ isUncompressed db id

/-- The row of an asset after the save. -/
structure Saves (after : Db) : Prop where
  own : after.assetAuthority.lookup save.id =
    some (V1Asset.authorityOnConflict.resolve (V1Asset.authorityRow save.authority save.slot)
      (db.assetAuthority.lookup save.id))
  member : ∀ id, save.Member db id →
    after.assetAuthority.lookup id = (db.assetAuthority.lookup id).map (followed save.authority save.slot)
  other : ∀ id, id ≠ save.id → ¬ save.Member db id →
    after.assetAuthority.lookup id = db.assetAuthority.lookup id

end AuthoritySave

section Accounts
variable [Programs] {db : Db} {update : AccountUpdate} {save : AuthoritySave}

theorem handleAccountUpdate_saves (saved : update.authoritySave db = some save) :
    save.Saves db (handleAccountUpdate db update).1 := by
  obtain ⟨account, parsed⟩ := update
  cases parsed with
  | tokenMetadata data =>
    cases data with
    | metadataV1 metadata =>
      cases saved
      obtain ⟨attachments, same⟩ := TokenMetadata.saveV1Asset_eq db metadata account.slot
      have table : (handleAccountUpdate db ⟨account, .tokenMetadata (.metadataV1 metadata)⟩).1.assetAuthority =
          (V1Asset.saveAuthority db metadata.mint metadata.updateAuthority.bytes account.slot).assetAuthority := by
        show (TokenMetadata.saveV1Asset db metadata account.slot).1.assetAuthority = _
        rw [same, TokenMetadata.readBack_eq]
        rfl
      refine ⟨?_, fun id member => ?_, fun id different _ => ?_⟩
      · rw [table]
        exact Table.lookup_upsert_self _ _ _ _
      · cases member.1
      · rw [table]
        exact Table.lookup_upsert_ne _ different _ _
    | _ => cases saved
  | mplCore data =>
    obtain ⟨asset, indexable, same⟩ := Option.map_eq_some_iff.mp saved
    cases same
    have whole := @saveV1Asset_saveColumns _ db account.pubkey account.slot data asset indexable
    have handled : (handleAccountUpdate db ⟨account, .mplCore data⟩).1 =
        (saveV1Asset db account.pubkey data account.slot).1 := by
      cases data with
      | asset | collection => rfl
      | hashedAsset | emptyAccount => cases indexable
    have table : ∀ id, (handleAccountUpdate db ⟨account, .mplCore data⟩).1.assetAuthority.lookup id =
        if data.isCollection ∧ id ∈ groupMembers db account.pubkey.toBase58 ∧ isUncompressed db id then
          ((V1Asset.saveAuthority db account.pubkey (updateAuthorityOf db asset.updateAuthority)
            account.slot).assetAuthority.lookup id).map
              (followed (updateAuthorityOf db asset.updateAuthority) account.slot)
        else (V1Asset.saveAuthority db account.pubkey (updateAuthorityOf db asset.updateAuthority)
            account.slot).assetAuthority.lookup id := by
      intro id
      rw [handled, whole]
      refine (updateAuthorities_lookup _ _ id).trans (if_congr ?_ rfl rfl)
      rw [updatedIds_saveStatements]
      cases data.isCollection with
      | true => simp [List.mem_filter]
      | false => simp
    refine ⟨?_, fun id member => ?_, fun id different notMember => ?_⟩
    · have own : (V1Asset.saveAuthority db account.pubkey (updateAuthorityOf db asset.updateAuthority)
          account.slot).assetAuthority.lookup account.pubkey = _ := Table.lookup_upsert_self _ _ _ _
      rw [table, own, Option.map_some, followed_resolved, ite_self]
    · obtain ⟨isCollection, different, grouped, uncompressed⟩ := member
      have kept : (V1Asset.saveAuthority db account.pubkey (updateAuthorityOf db asset.updateAuthority)
          account.slot).assetAuthority.lookup id = _ := Table.lookup_upsert_ne _ different _ _
      rw [table, if_pos ⟨isCollection, grouped, uncompressed⟩, kept]
    · have kept : (V1Asset.saveAuthority db account.pubkey (updateAuthorityOf db asset.updateAuthority)
          account.slot).assetAuthority.lookup id = _ := Table.lookup_upsert_ne _ different _ _
      rw [table, if_neg (fun both => notMember ⟨both.1, different, both.2⟩), kept]
  | _ => cases saved

theorem handleAccountUpdate_other (unsaved : update.authoritySave db = none) :
    (handleAccountUpdate db update).1.assetAuthority = db.assetAuthority := by
  obtain ⟨account, parsed⟩ := update
  cases parsed with
  | tokenMetadata data =>
    cases data with
    | metadataV1 metadata => cases unsaved
    | _ => rfl
  | tokenProgramEntity entity =>
    cases entity with
    | tokenAccount ta =>
      dsimp only [handleAccountUpdate, Token.handleTokenProgramAccount, indexTokenAccount]
      split
      · rfl
      · rfl
    | _ => rfl
  | tokenExtensionsProgramEntity entity =>
    cases entity with
    | tokenAccount ta extensions =>
      dsimp only [handleAccountUpdate, TokenExtensions.handleTokenExtensionsProgramAccount, indexTokenAccount]
      split
      · rfl
      · rfl
    | mintAccount m extensions =>
      dsimp only [handleAccountUpdate, TokenExtensions.handleTokenExtensionsProgramAccount]
      cases extensions.metadata with
      | none => rfl
      | some metadata => rfl
    | closeIx key => rfl
  | mplCore data =>
    cases data with
    | asset | collection => cases unsaved
    | hashedAsset | emptyAccount => rfl
  | other => rfl

end Accounts

section Events
open Bubblegum
variable [Programs]

/-- The statements of an event insert the authority of an asset that has none. -/
theorem exec_assetAuthority_run (db : Db) (id : Pubkey) (statements : List Statement) :
    (statements.foldl Statement.exec db).assetAuthority.lookup id =
      (db.assetAuthority.lookup id).or
        ((statements.findSome? (Statement.authorityWrite id)).map AuthorityInfo.model) := by
  induction statements generalizing db with
  | nil => exact (Option.or_none).symm
  | cons s rest ih =>
    rw [List.foldl_cons, ih, List.findSome?_cons]
    cases written : s.authorityWrite id with
    | none => rw [Statement.exec_assetAuthority_skip db written]
    | some info =>
      rw [Statement.authorityWrite_eq written, Statement.exec_assetAuthority_put]
      cases db.assetAuthority.lookup id with
      | none => rfl
      | some row => rfl

/-- A mint stores its sequence number as the slot and its slot as the sequence
number. -/
theorem authority_ofEvent {event : Event} {id : Pubkey} {info : AuthorityInfo}
    (member : .authority id info ∈ event.statements) :
    info.slotUpdated = event.seq ∧ info.seq = event.bundle.slot := by
  obtain ⟨cl, indexes, inLog | inBody⟩ := event.mem_statements member
  · simp [saveChangelogEvent, insertChangeLog] at inLog
  · have isMint : event.handler = some .mint := indexes.ofEvent _ inBody
    rw [Event.plan, isMint] at inBody
    dsimp only [mint] at inBody
    split at inBody
    · rename_i le log metadata authority treeId leafUpdate treeUpdate payload
      simp only [Plan.body, List.mem_cons, List.not_mem_nil, or_false, reduceCtorEq, false_or,
        Statement.authority.injEq] at inBody
      rw [inBody.2, Event.seq_of_treeUpdate treeUpdate]
      exact ⟨rfl, rfl⟩
    · cases inBody

end Events

def AssetAuthorityRow.origin (row : AssetAuthorityRow) : Origin := { slot := row.slotUpdated, seq := row.seq }

/-- A database together with the origins of its authorities. -/
structure Tracked where
  db : Db
  origin : Pubkey → Option Origin

section Runs
variable [Programs]

/-- An operation has written an authority if the row is another than before: the
upserts replace a row by one of a later slot only. -/
def Tracked.step (t : Tracked) (operation : Operation) : Tracked where
  db := operation.run t.db
  origin id := if (operation.run t.db).assetAuthority.lookup id = t.db.assetAuthority.lookup id then t.origin id
    else operation.origin

def track (operations : List Operation) : Tracked := operations.foldl Tracked.step { db := {}, origin := fun _ => none }

/-- Every row has the slot and the sequence number of what wrote its authority. -/
def Tracked.Truthful (t : Tracked) : Prop :=
  ∀ id, (t.db.assetAuthority.lookup id).map AssetAuthorityRow.origin = t.origin id

/-- A save that is newer than the authority of an asset replaces it. -/
def Tracked.Replaces (t : Tracked) (operation : Operation) : Prop :=
  ∀ update save, operation = .account update → update.authoritySave t.db = some save →
    ∀ id, (id = save.id ∨ save.Member t.db id) → ∀ origin, t.origin id = some origin → origin.slot < save.slot →
      ((operation.run t.db).assetAuthority.lookup id).map AssetAuthorityRow.authority = some save.authority

/-- A mint that inserts an authority has its slot as its sequence number, and a
collection-wide update only meets rows of the sequence number 0. -/
def Operation.KeepsOrigins (db : Db) : Operation → Prop
  | .bubblegum event => ∀ id info, .authority id info ∈ event.statements → db.assetAuthority.lookup id = none →
      event.seq = event.bundle.slot
  | .account update => ∀ save, update.authoritySave db = some save → ∀ id row, save.Member db id →
      db.assetAuthority.lookup id = some row → row.authority ≠ save.authority → row.slotUpdated < save.slot →
      row.seq = 0
  | .closeIx _ | .purgeMints _ => True

theorem truthful_step_iff {t : Tracked} {operation : Operation} (truthful : t.Truthful) :
    (t.step operation).Truthful ↔
      ∀ id, (operation.run t.db).assetAuthority.lookup id ≠ t.db.assetAuthority.lookup id →
        ((operation.run t.db).assetAuthority.lookup id).map AssetAuthorityRow.origin = operation.origin := by
  refine forall_congr' (fun id => ?_)
  dsimp only [Tracked.step]
  by_cases unchanged : (operation.run t.db).assetAuthority.lookup id = t.db.assetAuthority.lookup id
  · rw [if_pos unchanged, unchanged]
    exact ⟨fun _ changed => absurd rfl changed, fun _ => truthful id⟩
  · rw [if_neg unchanged]
    exact ⟨fun same _ => same, fun same => same unchanged⟩

theorem bubblegum_origins (db : Db) (event : Bubblegum.Event) :
    (∀ id, ((Operation.bubblegum event).run db).assetAuthority.lookup id ≠ db.assetAuthority.lookup id →
      (((Operation.bubblegum event).run db).assetAuthority.lookup id).map AssetAuthorityRow.origin =
        (Operation.bubblegum event).origin) ↔
      (Operation.bubblegum event).KeepsOrigins db := by
  have ran : ∀ id, ((Operation.bubblegum event).run db).assetAuthority.lookup id = _ :=
    fun id => exec_assetAuthority_run db id event.statements
  constructor
  · intro told id info member absent
    have isSome : (event.statements.findSome? (Bubblegum.Statement.authorityWrite id)).isSome :=
      List.findSome?_isSome_iff.mpr ⟨_, member, by simp [Bubblegum.Statement.authorityWrite]⟩
    obtain ⟨written, first⟩ := Option.isSome_iff_exists.mp isSome
    obtain ⟨s, inEvent, writes⟩ := List.exists_of_findSome?_eq_some first
    rw [Bubblegum.Statement.authorityWrite_eq writes] at inEvent
    obtain ⟨slot, seq⟩ := authority_ofEvent inEvent
    have inserted := told id
    rw [ran, absent, first] at inserted
    have same := Option.some.inj (inserted (by simp))
    exact slot.symm.trans (congrArg Origin.slot same)
  · intro keeps id changed
    rw [ran] at changed ⊢
    cases stored : db.assetAuthority.lookup id with
    | some row => exact absurd (by rw [stored]; rfl) changed
    | none =>
      cases first : event.statements.findSome? (Bubblegum.Statement.authorityWrite id) with
      | none => exact absurd (by rw [stored, first]; rfl) changed
      | some info =>
        obtain ⟨s, inEvent, writes⟩ := List.exists_of_findSome?_eq_some first
        rw [Bubblegum.Statement.authorityWrite_eq writes] at inEvent
        obtain ⟨slot, seq⟩ := authority_ofEvent inEvent
        have same := keeps id info inEvent stored
        show some (AssetAuthorityRow.origin info.model) = some _
        exact congrArg some (Origin.ext (slot.trans same) (seq.trans same.symm))

omit [Programs] in
theorem authoritySave_slot {update : AccountUpdate} {db : Db} {save : AuthoritySave}
    (saved : update.authoritySave db = some save) : save.slot = update.account.slot := by
  obtain ⟨account, parsed⟩ := update
  cases parsed with
  | tokenMetadata data =>
    cases data with
    | metadataV1 metadata =>
      cases saved
      rfl
    | _ => cases saved
  | mplCore data =>
    obtain ⟨asset, -, same⟩ := Option.map_eq_some_iff.mp saved
    cases same
    rfl
  | _ => cases saved

omit [Programs] in
/-- A save replaces the row of its own asset by one with its slot, or leaves it. -/
theorem resolve_authority (authority : Bytes) (slot : Nat) (stored : Option AssetAuthorityRow) :
    (some (V1Asset.authorityOnConflict.resolve (V1Asset.authorityRow authority slot) stored) = stored ∧
        ∃ row, stored = some row ∧ slot ≤ row.slotUpdated) ∨
      V1Asset.authorityOnConflict.resolve (V1Asset.authorityRow authority slot) stored =
        V1Asset.authorityRow authority slot := by
  cases stored with
  | none => exact Or.inr rfl
  | some row =>
    rw [OnConflict.resolve]
    split
    · exact Or.inr rfl
    · rename_i refused
      simp only [V1Asset.authorityOnConflict, V1Asset.authorityRow, holds_gt, Option.any_some,
        decide_eq_true_eq, not_lt] at refused
      exact Or.inl ⟨rfl, row, rfl, refused⟩

theorem account_origins (db : Db) (update : AccountUpdate) :
    (∀ id, ((Operation.account update).run db).assetAuthority.lookup id ≠ db.assetAuthority.lookup id →
      (((Operation.account update).run db).assetAuthority.lookup id).map AssetAuthorityRow.origin =
        (Operation.account update).origin) ↔
      (Operation.account update).KeepsOrigins db := by
  dsimp only [Operation.run, Operation.origin, Operation.KeepsOrigins]
  cases saved : update.authoritySave db with
  | none =>
    rw [handleAccountUpdate_other saved]
    exact ⟨nofun, fun _ id changed => absurd rfl changed⟩
  | some save =>
    have saves := handleAccountUpdate_saves saved
    rw [← authoritySave_slot saved]
    constructor
    · intro told _ same id row member stored different older
      cases same
      have after := saves.member id member
      rw [stored, Option.map_some, followed, if_pos ⟨different, older⟩] at after
      have inserted := told id
      rw [after, stored] at inserted
      have changed : some { row with authority := save.authority, slotUpdated := save.slot } ≠ some row := by
        intro same
        have sameAuthority := congrArg AssetAuthorityRow.authority (Option.some.inj same)
        exact different sameAuthority.symm
      exact congrArg Origin.seq (Option.some.inj (inserted changed))
    · intro keeps id changed
      by_cases own : id = save.id
      · subst own
        rw [saves.own] at changed ⊢
        rcases resolve_authority save.authority save.slot (db.assetAuthority.lookup save.id) with
          ⟨unchanged, -⟩ | replaced
        · exact absurd unchanged changed
        · rw [replaced]
          rfl
      · by_cases member : save.Member db id
        · rw [saves.member id member] at changed ⊢
          cases stored : db.assetAuthority.lookup id with
          | none => exact absurd (by rw [stored]; rfl) changed
          | some row =>
            by_cases stale : row.authority ≠ save.authority ∧ row.slotUpdated < save.slot
            · have zero := keeps save rfl id row member stored stale.1 stale.2
              rw [Option.map_some, followed, if_pos stale]
              exact congrArg some (Origin.ext rfl zero)
            · rw [stored, Option.map_some, followed, if_neg stale] at changed
              exact absurd rfl changed
        · exact absurd (saves.other id own member) changed

theorem replaces_of_truthful {t : Tracked} (truthful : t.Truthful) (operation : Operation) :
    t.Replaces operation := by
  intro update save isAccount saved id about origin written older
  subst isAccount
  have saves := handleAccountUpdate_saves saved
  have origins := truthful id
  rw [written] at origins
  obtain ⟨row, stored, same⟩ := Option.map_eq_some_iff.mp origins
  have slot : row.slotUpdated = origin.slot := congrArg Origin.slot same
  dsimp only [Operation.run]
  by_cases own : id = save.id
  · subst own
    rw [saves.own]
    rcases resolve_authority save.authority save.slot (t.db.assetAuthority.lookup save.id) with
      ⟨-, kept, isStored, late⟩ | replaced
    · cases stored.symm.trans isStored
      omega
    · rw [replaced]
      rfl
  · have member := about.resolve_left own
    rw [saves.member id member, stored, Option.map_some, followed]
    by_cases different : row.authority ≠ save.authority
    · rw [if_pos ⟨different, by omega⟩]
      rfl
    · rw [if_neg (fun both => different both.1)]
      exact congrArg some (not_not.mp different)

omit [Programs] in
theorem setBurnt_assetAuthority (db : Db) (id : Pubkey) : (db.setBurnt id).assetAuthority = db.assetAuthority := by
  unfold Db.setBurnt
  split
  · rfl
  · rfl

omit [Programs] in
theorem purgeMints_assetAuthority (db : Db) (keys : List Pubkey) :
    (purgeMints db keys).assetAuthority = db.assetAuthority := by
  have marked : ∀ (later : List Pubkey) (db : Db), (later.foldl (fun db key =>
      if (db.asset.lookup key).any (fun row => !row.burnt) then db.setBurnt key else db) db).assetAuthority =
        db.assetAuthority := by
    intro later
    induction later with
    | nil => exact fun _ => rfl
    | cons key rest ih =>
      intro db
      rw [List.foldl_cons, ih]
      split
      · exact setBurnt_assetAuthority db key
      · rfl
  exact marked keys _

theorem truthful_step {t : Tracked} (truthful : t.Truthful) (operation : Operation) :
    (t.step operation).Truthful ↔ operation.KeepsOrigins t.db := by
  rw [truthful_step_iff truthful]
  cases operation with
  | bubblegum event => exact bubblegum_origins t.db event
  | account update => exact account_origins t.db update
  | closeIx key =>
    have kept : ((Operation.closeIx key).run t.db).assetAuthority = t.db.assetAuthority := by
      dsimp only [Operation.run, handleTokenProgramCloseIx]
      cases t.db.tokens.lookup key with
      | none => rfl
      | some token => exact setBurnt_assetAuthority _ key
    rw [kept]
    exact ⟨fun _ => trivial, fun _ id changed => absurd rfl changed⟩
  | purgeMints keys =>
    have kept : ((Operation.purgeMints keys).run t.db).assetAuthority = t.db.assetAuthority :=
      purgeMints_assetAuthority t.db keys
    rw [kept]
    exact ⟨fun _ => trivial, fun _ id changed => absurd rfl changed⟩

theorem track_db (operations : List Operation) : (track operations).db = operations.foldl Operation.run {} := by
  induction operations using List.reverseRecOn with
  | nil => rfl
  | append_singleton earlier operation ih =>
    rw [List.foldl_concat, ← ih, track, List.foldl_concat]
    rfl

/-- Authorities tell the truth about their origin all along a run, and newer saves
replace them, exactly as long as mints have their slot as sequence number and
collection-wide updates meet no sequence number of a mint. -/
theorem authority_origins_iff (operations : List Operation) :
    (∀ earlier, earlier <+: operations → (track earlier).Truthful ∧
        ∀ operation, earlier ++ [operation] <+: operations → (track earlier).Replaces operation) ↔
      ∀ earlier operation, earlier ++ [operation] <+: operations →
        operation.KeepsOrigins (earlier.foldl Operation.run {}) := by
  have start : Tracked.Truthful { db := {}, origin := fun _ => none } := fun _ => rfl
  have kept : ∀ (earlier : List Operation) (operation : Operation), earlier ++ [operation] <+: operations →
      (track earlier).Truthful →
      ((track (earlier ++ [operation])).Truthful ↔ operation.KeepsOrigins (track earlier).db) := by
    intro earlier operation _ truthful
    rw [track, List.foldl_concat]
    exact truthful_step truthful operation
  have all := @Runs.holds_iff_allowed _ _ Tracked.step (fun earlier _ => (track earlier).Truthful)
    (fun t operation => operation.KeepsOrigins t.db) { db := {}, origin := fun _ => none } operations start kept
  constructor
  · intro holds earlier operation begins
    have allowed := all.mp (fun earlier begins => (holds earlier begins).1) earlier operation begins
    rw [← track_db]
    exact allowed
  · intro allowed
    have truthful := all.mpr (fun earlier operation begins => by
      have kept := allowed earlier operation begins
      rwa [← track_db] at kept)
    exact fun earlier begins => ⟨truthful earlier begins, fun operation _ =>
      replaces_of_truthful (truthful earlier begins) operation⟩

end Runs

namespace Example

/-- A mint in slot 10, the 500th change of its tree. -/
def minted : Operation := .bubblegum (Bubblegum.Example.mint 500 10 (.fill 2) Bubblegum.Example.oneCreator none)

/-- The metadata account of the decompressed asset in slot 20. -/
def decompressed : Operation :=
  .account
    { account := { slot := 20, pubkey := .fill 6, owner := .fill 5 }
      parsed := .tokenMetadata (.metadataV1 (TokenMetadata.Example.metadata 0 true none none none)) }

/-- The row of a mint has its columns the wrong way round, and keeps its authority
when the asset is saved later. -/
theorem mint_swaps_origin :
    (track [minted]).origin (.fill 7) = some { slot := 10, seq := 500 } ∧
      (((track [minted]).db.assetAuthority.lookup (.fill 7)).map AssetAuthorityRow.origin =
        some { slot := 500, seq := 10 }) ∧
      ¬ (track [minted]).Truthful ∧ ¬ (track [minted]).Replaces decompressed := by
  have written : (track [minted]).origin (.fill 7) = some { slot := 10, seq := 500 } := by decide
  have stored : ((track [minted]).db.assetAuthority.lookup (.fill 7)).map AssetAuthorityRow.origin =
      some { slot := 500, seq := 10 } := by decide
  refine ⟨written, stored, fun truthful => ?_, fun replaces => ?_⟩
  · have same := (truthful (.fill 7)).symm.trans stored
    rw [written] at same
    revert same
    decide
  · have replaced := replaces _ _ rfl rfl (.fill 7) (Or.inl rfl) _ written (by decide)
    revert replaced
    decide

end Example

end DasIndexer
