import DasIndexer.Bubblegum.Failures
import DasIndexer.Lib.Runs
import DasIndexer.Mainnet
import DasIndexer.Versions

namespace DasIndexer
open Sql

section Statements
open Bubblegum
variable [Programs]

/-- The asset is the only one that an event writes a row for. -/
theorem Bubblegum.Event.assetKey_of_mem {event : Event} {s : Statement} {id : Pubkey} (member : s ∈ event.statements)
    (key : s.assetKey = some id) : event.assetId = some id := by
  obtain ⟨cl, indexes, inLog | inBody⟩ := event.mem_statements member
  · have notLogged : s.assetKey = none := by
      simp only [saveChangelogEvent, insertChangeLog, List.mem_append, List.mem_map, List.mem_cons, List.not_mem_nil,
        or_false] at inLog
      obtain ⟨node, -, same⟩ | same | same := inLog
      · rw [← same, Statement.assetKey]
      · rw [same, Statement.assetKey]
      · rw [same, Statement.assetKey]
    rw [notLogged] at key
    cases key
  · rcases event.plan_asset with idle | ⟨-, other, -, asset, keys, -⟩
    · exact absurd idle indexes.connected
    · rw [keys id (List.mem_filterMap.mpr ⟨s, inBody, key⟩)]
      exact asset

end Statements

/-- The asset that an account is about: its mint, or the Core account itself. -/
def AccountUpdate.assetId (update : AccountUpdate) : Option Pubkey :=
  match update.parsed with
  | .tokenMetadata (.metadataV1 metadata) => some metadata.mint
  | .tokenProgramEntity (.mint _) | .tokenExtensionsProgramEntity (.mintAccount ..) => some update.account.pubkey
  | .tokenProgramEntity (.tokenAccount ta) | .tokenExtensionsProgramEntity (.tokenAccount ta _) => some ta.mint
  | .mplCore (.asset _) | .mplCore (.collection _) | .mplCore .emptyAccount => some update.account.pubkey
  | _ => none

def Operation.assetId [Programs] : Operation → Option Pubkey
  | .bubblegum event => event.assetId
  | .account update => update.assetId
  | .closeIx _ | .purgeMints _ => none

/-- The slot of an operation that is about an asset. -/
def Operation.slot : Operation → Nat
  | .bubblegum event => event.bundle.slot
  | .account update => update.account.slot
  | .closeIx _ | .purgeMints _ => 0

/-- A Token Metadata account that was closed. -/
def emptied (account : AccountInfo) : Operation :=
  .account { account := account, parsed := .tokenMetadata .emptyAccount }

/-- Every row of `asset` has an id with the property. -/
def Db.Within (db : Db) (P : Pubkey → Prop) : Prop := ∀ id, (db.asset.lookup id).isSome → P id

section Writers
variable {db : Db} {P : Pubkey → Prop}

theorem Db.Within.of_asset {later : Db} (same : later.asset = db.asset) (within : db.Within P) : later.Within P := by
  rw [Db.Within, same]
  exact within

theorem Db.Within.upsert {key : Pubkey} (excluded : AssetRow) (clause : OnConflict AssetRow) (own : P key)
    (within : db.Within P) : (db.upsertAsset key excluded clause).Within P := by
  intro id stored
  by_cases same : id = key
  · rwa [same]
  · rw [db.upsertAsset_other key id excluded clause same] at stored
    exact within id stored

theorem Db.Within.setBurnt (key : Pubkey) (within : db.Within P) : (db.setBurnt key).Within P := by
  intro id stored
  rw [Db.setBurnt_lookup] at stored
  split at stored
  · rw [Option.isSome_map] at stored
    exact within id stored
  · exact within id stored

variable [Programs]

theorem Db.Within.statement {s : Bubblegum.Statement} (own : ∀ id, s.assetKey = some id → P id)
    (within : db.Within P) : (s.exec db).Within P := by
  cases s with
  | clItem | clAudit | backfillItem | collectionInfo | assetData | creators | authority => exact within.of_asset rfl
  | leafInfo key | ownerInfo key | compressionInfo key | assetSeq key | baseInfo key | burnt key =>
    exact within.upsert _ _ (own key rfl)

theorem Db.Within.write {w : AssetWrite} (own : ∀ id, w.key = some id → P id) (within : db.Within P) :
    (w.exec db).Within P := by
  cases w with
  | tokenAccount columns | mintAccount columns | metadataAccount columns =>
    exact within.upsert _ _ (own columns.mint rfl)
  | metadataCols key | burnV1Asset key => exact within.upsert _ _ (own key rfl)
  | setBurnt key => exact within.setBurnt key
  | bubblegum s => exact within.statement own

omit [Programs] in
theorem AccountUpdate.writtenId_cases {update : AccountUpdate} {id : Pubkey} (written : update.writtenId = some id) :
    update.assetId = some id ∨ update.parsed = .tokenMetadata .emptyAccount ∧ update.account.pubkey = id := by
  obtain ⟨account, parsed⟩ := update
  cases parsed with
  | tokenMetadata data =>
    cases data with
    | emptyAccount => exact Or.inr ⟨rfl, Option.some.inj written⟩
    | _ => exact Or.inl written
  | tokenProgramEntity entity => cases entity <;> exact Or.inl written
  | tokenExtensionsProgramEntity entity => cases entity <;> exact Or.inl written
  | mplCore data => cases data <;> exact Or.inl written
  | other => exact Or.inl written

/-- An operation writes rows of its asset only, and a closed metadata account the row
of its own address. -/
theorem Db.Within.operation {operation : Operation} (own : ∀ id, operation.assetId = some id → P id)
    (closed : ∀ account, operation = emptied account → P account.pubkey) (within : db.Within P) :
    (operation.run db).Within P := by
  refine (operation.run_written db).invariant (fun db => Db.Within db P) (fun _ _ same held => held.of_asset same)
    (fun _ w allowed held => held.write (fun id key => ?_)) within
  cases operation with
  | bubblegum event =>
    obtain ⟨s, member, isWrite⟩ := allowed
    rw [isWrite] at key
    exact own id (event.assetKey_of_mem member key)
  | account update =>
    have written : update.writtenId = some id := Eq.trans (Eq.symm allowed) key
    rcases AccountUpdate.writtenId_cases written with ofAsset | ⟨isClosed, address⟩
    · exact own id ofAsset
    · rw [← address]
      refine closed update.account ?_
      rw [emptied, ← isClosed]
  | closeIx | purgeMints =>
    have marks : w.key = none := allowed
    rw [marks] at key
    cases key

end Writers

section Closing
variable [Programs] (metadataAddress : Pubkey → Pubkey) (earlier : List Operation) (account : AccountInfo)

/-- The ids of all assets were processed. -/
def OnlyProcessed : Prop :=
  (earlier.foldl Operation.run {}).Within (fun id => ∃ operation ∈ earlier, operation.assetId = some id)

/-- The account is the metadata account of an indexed mint, and everything that was
processed of the mint is older. -/
structure ClosesMetadata (mint : Pubkey) : Prop where
  address : account.pubkey = metadataAddress mint
  indexed : ((earlier.foldl Operation.run {}).asset.lookup mint).isSome
  newest : ∀ operation ∈ earlier, operation.assetId = some mint → operation.slot < account.slot

/-- Closing a metadata account burns its asset, and no asset that has another
metadata account. -/
structure BurnsOwn : Prop where
  own : ∀ mint, ClosesMetadata metadataAddress earlier account mint →
    (((earlier ++ [emptied account]).foldl Operation.run {}).assetOrDefault mint).burnt = true
  others : ∀ id, account.pubkey ≠ metadataAddress id →
    (((earlier ++ [emptied account]).foldl Operation.run {}).assetOrDefault id).burnt =
      ((earlier.foldl Operation.run {}).assetOrDefault id).burnt

/-- The mint of the metadata account is burnt already, and so is the asset with the
address of the account, unless it is not older than the account. -/
structure ClosesBurnt : Prop where
  own : ∀ mint, ClosesMetadata metadataAddress earlier account mint →
    ((earlier.foldl Operation.run {}).assetOrDefault mint).burnt = true
  address : ∃ row, (earlier.foldl Operation.run {}).asset.lookup account.pubkey = some row ∧
    (row.burnt = true ∨ (gt (some account.slot) row.slotUpdated).holds = false)

variable {metadataAddress earlier account}

/-- The flag of the asset that has the address of the closed account. -/
theorem emptied_burnt (db : Db) : (((emptied account).run db).assetOrDefault account.pubkey).burnt =
    (db.asset.lookup account.pubkey).all (fun row => row.burnt || (gt (some account.slot) row.slotUpdated).holds) := by
  show ((burnV1Asset db account.pubkey account.slot).assetOrDefault account.pubkey).burnt = _
  rw [Db.assetOrDefault, burnV1Asset, Db.upsertAsset_lookup, if_pos rfl, Option.getD_some]
  cases db.asset.lookup account.pubkey with
  | none => rfl
  | some row =>
    rw [throughTrigger_resolve_some, Option.all_some, apply_ite AssetRow.burnt]
    show (if (gt (some account.slot) row.slotUpdated).holds then true else row.burnt) = _
    cases (gt (some account.slot) row.slotUpdated).holds with
    | true => exact (Bool.or_true _).symm
    | false => exact (Bool.or_false _).symm

theorem emptied_other (db : Db) {id : Pubkey} (different : id ≠ account.pubkey) :
    ((emptied account).run db).assetOrDefault id = db.assetOrDefault id := by
  have same : ((emptied account).run db).asset.lookup id = db.asset.lookup id :=
    db.upsertAsset_other account.pubkey id _ _ different
  rw [Db.assetOrDefault, same, Db.assetOrDefault]

theorem burnsOwn_iff (distinct : ∀ mint, metadataAddress mint ≠ mint) :
    BurnsOwn metadataAddress earlier account ↔ ClosesBurnt metadataAddress earlier account := by
  have notMint : ∀ mint, ClosesMetadata metadataAddress earlier account mint → mint ≠ account.pubkey :=
    fun mint closes same => distinct mint (closes.address.symm.trans same.symm)
  have ran := List.foldl_concat Operation.run {} (emptied account) earlier
  constructor
  · intro burns
    refine ⟨fun mint closes => ?_, ?_⟩
    · have burnt := burns.own mint closes
      rwa [ran, emptied_other _ (notMint mint closes)] at burnt
    · have kept := burns.others account.pubkey (distinct account.pubkey).symm
      rw [ran, emptied_burnt, Db.assetOrDefault] at kept
      cases stored : (earlier.foldl Operation.run {}).asset.lookup account.pubkey with
      | none =>
        rw [stored] at kept
        cases kept
      | some row =>
        rw [stored, Option.all_some, Option.getD_some] at kept
        refine ⟨row, rfl, ?_⟩
        cases marked : row.burnt with
        | true => exact Or.inl rfl
        | false =>
          rw [marked, Bool.false_or] at kept
          exact Or.inr kept
  · intro burnt
    refine ⟨fun mint closes => ?_, fun id different => ?_⟩
    · rw [ran, emptied_other _ (notMint mint closes)]
      exact burnt.own mint closes
    · rw [ran]
      by_cases same : id = account.pubkey
      · obtain ⟨row, stored, settled⟩ := burnt.address
        rw [same, emptied_burnt, Db.assetOrDefault, stored, Option.all_some, Option.getD_some]
        rcases settled with marked | refused
        · rw [marked, Bool.true_or]
        · rw [refused, Bool.or_false]
      · rw [emptied_other _ same]

theorem onlyProcessed_concat {operation : Operation} (processed : OnlyProcessed earlier) :
    OnlyProcessed (earlier ++ [operation]) ↔
      ∀ account, operation = emptied account → ∃ other ∈ earlier, other.assetId = some account.pubkey := by
  have ran := List.foldl_concat Operation.run {} operation earlier
  constructor
  · intro after account closed
    have stored : ((operation.run (earlier.foldl Operation.run {})).asset.lookup account.pubkey).isSome := by
      have written := (earlier.foldl Operation.run {}).upsertAsset_lookup account.pubkey account.pubkey
        { slotUpdated := some account.slot, burnt := true } burnV1AssetOnConflict
      rw [closed]
      show ((burnV1Asset _ account.pubkey account.slot).asset.lookup account.pubkey).isSome
      rw [burnV1Asset, written, if_pos rfl]
      rfl
    rw [← ran] at stored
    obtain ⟨other, member, same⟩ := after account.pubkey stored
    rcases List.mem_append.mp member with before | last
    · exact ⟨other, before, same⟩
    · rw [List.mem_singleton.mp last, closed] at same
      cases same
  · intro known
    rw [OnlyProcessed, ran]
    have widened : ∀ id, (∃ other ∈ earlier, other.assetId = some id) →
        ∃ other ∈ earlier ++ [operation], other.assetId = some id := by
      intro id found
      obtain ⟨other, member, same⟩ := found
      exact ⟨other, List.mem_append_left _ member, same⟩
    have before : Db.Within (earlier.foldl Operation.run {})
        (fun id => ∃ other ∈ earlier ++ [operation], other.assetId = some id) :=
      fun id stored => widened id (processed id stored)
    exact before.operation (fun id own => ⟨operation, List.mem_append_right _ List.mem_cons_self, own⟩)
      (fun account closed => widened account.pubkey (known account closed))

/-- The ids of the assets were processed all along a run exactly if metadata accounts
are closed at such ids only. -/
theorem onlyProcessed_iff (operations : List Operation) :
    (∀ earlier, earlier <+: operations → OnlyProcessed earlier) ↔
      ∀ earlier operation, earlier ++ [operation] <+: operations → ∀ account, operation = emptied account →
        ∃ other ∈ earlier, other.assetId = some account.pubkey := by
  refine Runs.prefixes_iff operations ?_ (fun earlier operation _ => onlyProcessed_concat)
  intro id stored
  cases stored

/-- Closing metadata accounts burns their assets and leaves no other row behind
exactly as long as it changes nothing: the asset is burnt already, and the address of
the account has a row that is burnt or not older. -/
theorem closed_metadata_iff (distinct : ∀ mint, metadataAddress mint ≠ mint) (operations : List Operation) :
    (∀ earlier, earlier <+: operations → OnlyProcessed earlier ∧
        ∀ account, earlier ++ [emptied account] <+: operations → BurnsOwn metadataAddress earlier account) ↔
      ∀ earlier account, earlier ++ [emptied account] <+: operations →
        ClosesBurnt metadataAddress earlier account := by
  constructor
  · intro holds earlier account begins
    have before := (List.prefix_append earlier [emptied account]).trans begins
    exact (burnsOwn_iff distinct).mp ((holds earlier before).2 account begins)
  · intro burnt
    have processed : ∀ earlier, earlier <+: operations → OnlyProcessed earlier := by
      intro earlier
      induction earlier using List.reverseRecOn with
      | nil =>
        intro _ id stored
        cases stored
      | append_singleton earlier operation ih =>
        intro begins
        have held := ih ((List.prefix_append earlier [operation]).trans begins)
        refine (onlyProcessed_concat held).mpr (fun account closed => ?_)
        rw [closed] at begins
        obtain ⟨row, stored, -⟩ := (burnt earlier account begins).address
        exact held account.pubkey (by rw [stored]; rfl)
    exact fun earlier begins => ⟨processed earlier begins, fun account closes =>
      (burnsOwn_iff distinct).mpr (burnt earlier account closes)⟩

end Closing

namespace ClosedMetadata.Example
open Mainnet

/-- `Metadata::find_pda`. -/
def findMetadata (mint : Pubkey) : Pubkey :=
  findProgramAddress [utf8 "metadata", tokenMetadataId.bytes, mint.bytes] tokenMetadataId

/-- The address of the metadata account of the mint below. -/
def metadataKey : Pubkey where
  bytes := [13, 130, 168, 112, 197, 107, 179, 32, 182, 35, 51, 58, 179, 210, 231, 163,
    250, 243, 99, 63, 216, 165, 52, 36, 61, 1, 169, 32, 93, 100, 21, 127]
  size := rfl

theorem findMetadata_fill : findMetadata (.fill 7) = metadataKey := by decide +kernel

def metadataAccount (slot : Nat) : AccountInfo := { slot, pubkey := metadataKey, owner := tokenMetadataId }

/-- The metadata account of a mint is saved. -/
def saved : Operation :=
  .account
    { account := metadataAccount 20
      parsed := .tokenMetadata (.metadataV1 (TokenMetadata.Example.metadata 0 true none none none)) }

/-- Closing the metadata account leaves the asset unburnt, and burns an asset with
the address of the account that nothing else knows. -/
theorem closed_account_burnt_instead :
    ClosesMetadata findMetadata [saved] (metadataAccount 30) (.fill 7) ∧
      ¬ BurnsOwn findMetadata [saved] (metadataAccount 30) ∧
      ¬ OnlyProcessed [saved, emptied (metadataAccount 30)] := by
  have closes : ClosesMetadata findMetadata [saved] (metadataAccount 30) (.fill 7) := by
    refine ⟨findMetadata_fill.symm, by decide, fun operation member _ => ?_⟩
    rw [List.mem_singleton.mp member]
    decide
  refine ⟨closes, fun burns => ?_, fun processed => ?_⟩
  · have unburnt : (([saved, emptied (metadataAccount 30)].foldl Operation.run {}).assetOrDefault
        (.fill 7)).burnt = false := by decide
    exact Bool.noConfusion (unburnt.symm.trans (burns.own (.fill 7) closes))
  · have stored : (([saved, emptied (metadataAccount 30)].foldl Operation.run {}).asset.lookup
        metadataKey).isSome := by decide
    obtain ⟨operation, member, same⟩ := processed _ stored
    have unknown : ∀ operation ∈ [saved, emptied (metadataAccount 30)],
        operation.assetId ≠ some metadataKey := by decide
    exact unknown operation member same

/-- The metadata account of one mint, and other accounts for the other mints. -/
def metadataAddress (mint : Pubkey) : Pubkey :=
  if mint = .fill 7 then metadataKey else if mint = .fill 0 then .fill 1 else .fill 0

theorem metadataAddress_ne (mint : Pubkey) : metadataAddress mint ≠ mint := by
  unfold metadataAddress
  split
  · rename_i same
    rw [same]
    decide
  · split
    · rename_i same
      rw [same]
      decide
    · rename_i different
      exact fun same => different same.symm

theorem metadataAddress_eq {mint : Pubkey} (same : metadataAddress mint = metadataKey) : mint = .fill 7 := by
  unfold metadataAddress at same
  split at same
  · rename_i fill
    exact fill
  · split at same
    · exact absurd same (by decide)
    · exact absurd same (by decide)

/-- An emptied Core account with the address of the metadata account. -/
def removed : Operation :=
  .account { account := metadataAccount 40, parsed := .mplCore .emptyAccount }

def burntBefore : List Operation := [saved, .purgeMints [.fill 7], removed]

theorem emptied_inj {first second : AccountInfo} (same : emptied first = emptied second) : first = second := by
  injection same with update
  injection update

theorem burntBefore_closesBurnt (earlier : List Operation) (account : AccountInfo)
    (begins : earlier ++ [emptied account] <+: burntBefore ++ [emptied (metadataAccount 50)]) :
    ClosesBurnt metadataAddress earlier account := by
  have whole : earlier = burntBefore ∧ account = metadataAccount 50 := by
    rcases List.prefix_concat_iff.mp begins with all | before
    · obtain ⟨same, last⟩ := List.append_inj' all rfl
      exact ⟨same, emptied_inj (List.singleton_inj.mp last)⟩
    · have member : emptied account ∈ burntBefore := before.subset (List.mem_append_right _ List.mem_cons_self)
      simp [burntBefore, emptied, saved, removed] at member
  rw [whole.1, whole.2]
  refine ⟨fun mint closes => ?_, ?_⟩
  · rw [metadataAddress_eq closes.address.symm]
    decide
  · have marked : ((burntBefore.foldl Operation.run {}).asset.lookup (metadataAccount 50).pubkey).any
        AssetRow.burnt = true := by decide
    obtain ⟨row, stored, burnt⟩ := (Option.any_eq_true _ _).mp marked
    exact ⟨row, stored, Or.inl burnt⟩

/-- A metadata account that is closed when its asset is burnt already. -/
theorem closed_after_burn :
    OnlyProcessed burntBefore ∧ BurnsOwn metadataAddress burntBefore (metadataAccount 50) := by
  have all := (closed_metadata_iff metadataAddress_ne
    (burntBefore ++ [emptied (metadataAccount 50)])).mpr burntBefore_closesBurnt
  have upTo := all burntBefore (List.prefix_append _ _)
  exact ⟨upTo.1, upTo.2 _ List.prefix_rfl⟩

end ClosedMetadata.Example

end DasIndexer
