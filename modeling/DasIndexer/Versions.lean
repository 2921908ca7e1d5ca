import DasIndexer.AssetWrites

namespace DasIndexer
open Sql Latest

/-- A version that was set stays set and does not decrease. -/
def NotBack (before after : Option Nat) : Prop := ∀ v, before = some v → ∃ w, after = some w ∧ v ≤ w

/-- The sequence number of an asset may also become 0, and is 0 from then on. -/
def SeqNotBack (before after : Option Nat) : Prop :=
  ∀ v, before = some v → ∃ w, after = some w ∧ (w = 0 ∨ v ≠ 0 ∧ v ≤ w)

section Order
variable {x y z : Option Nat}

theorem NotBack.refl (x : Option Nat) : NotBack x x := fun v set => ⟨v, set, le_rfl⟩

theorem NotBack.trans (first : NotBack x y) (second : NotBack y z) : NotBack x z := by
  intro v set
  obtain ⟨w, later, grown⟩ := first v set
  obtain ⟨u, last, grown'⟩ := second w later
  exact ⟨u, last, grown.trans grown'⟩

theorem SeqNotBack.refl (x : Option Nat) : SeqNotBack x x := by
  intro v set
  refine ⟨v, set, ?_⟩
  by_cases zero : v = 0
  · exact Or.inl zero
  · exact Or.inr ⟨zero, le_rfl⟩

theorem SeqNotBack.trans (first : SeqNotBack x y) (second : SeqNotBack y z) : SeqNotBack x z := by
  intro v set
  obtain ⟨w, later, zero | ⟨positive, grown⟩⟩ := first v set
  · obtain ⟨u, last, change⟩ := second w later
    exact ⟨u, last, Or.inl (by omega)⟩
  · obtain ⟨u, last, change⟩ := second w later
    exact ⟨u, last, by omega⟩

/-- What the guard of a version column lets through. -/
theorem NotBack.of_guard (accepted : (ge y x ||| isNull x).holds = true) : NotBack x y := by
  rintro v rfl
  cases y with
  | none => cases accepted
  | some w =>
    refine ⟨w, rfl, ?_⟩
    simpa using accepted

theorem SeqNotBack.of_guard (accepted : ((ne x (some 0) &&& ge y x) ||| isNull x).holds = true) : SeqNotBack x y := by
  rintro v rfl
  cases y with
  | none =>
    have unset : (ge (none : Option Nat) (some v)).holds = false := rfl
    simp [unset] at accepted
  | some w =>
    refine ⟨w, rfl, Or.inr ?_⟩
    simpa using accepted

theorem SeqNotBack.zero (x : Option Nat) : SeqNotBack x (some 0) := fun _ _ => ⟨0, rfl, Or.inl rfl⟩

end Order

/-- The version columns of a row of `asset`. -/
structure AssetRow.Forward (before after : AssetRow) : Prop where
  token : NotBack before.slotUpdatedTokenAccount after.slotUpdatedTokenAccount
  mint : NotBack before.slotUpdatedMintAccount after.slotUpdatedMintAccount
  metadata : NotBack before.slotUpdatedMetadataAccount after.slotUpdatedMetadataAccount
  leaf : NotBack before.leafSeq after.leafSeq
  owner : NotBack before.ownerDelegateSeq after.ownerDelegateSeq
  base : NotBack before.baseInfoSeq after.baseInfoSeq
  seq : SeqNotBack before.seq after.seq

namespace AssetRow.Forward

theorem refl (row : AssetRow) : row.Forward row :=
  ⟨.refl _, .refl _, .refl _, .refl _, .refl _, .refl _, .refl _⟩

theorem trans {x y z : AssetRow} (first : x.Forward y) (second : y.Forward z) : x.Forward z where
  token := first.token.trans second.token
  mint := first.mint.trans second.mint
  metadata := first.metadata.trans second.metadata
  leaf := first.leaf.trans second.leaf
  owner := first.owner.trans second.owner
  base := first.base.trans second.base
  seq := first.seq.trans second.seq

/-- A row that was not there has no versions. -/
theorem of_default (row : AssetRow) : Forward {} row where
  token _ unset := absurd unset (Option.some_ne_none _).symm
  mint _ unset := absurd unset (Option.some_ne_none _).symm
  metadata _ unset := absurd unset (Option.some_ne_none _).symm
  leaf _ unset := absurd unset (Option.some_ne_none _).symm
  owner _ unset := absurd unset (Option.some_ne_none _).symm
  base _ unset := absurd unset (Option.some_ne_none _).symm
  seq _ unset := absurd unset (Option.some_ne_none _).symm

end AssetRow.Forward

section Statements
variable (db : Db) (id : Pubkey)

/-- The version columns of one row over a piece of a run. -/
def Db.Forward (db later : Db) (id : Pubkey) : Prop := (db.assetOrDefault id).Forward (later.assetOrDefault id)

theorem Db.Forward.of_asset {db later : Db} {id : Pubkey} (same : later.asset = db.asset) : db.Forward later id := by
  rw [Db.Forward, Db.assetOrDefault_congr same]
  exact .refl _

theorem Db.upsertAsset_forward (key : Pubkey) {excluded : AssetRow} {clause : OnConflict AssetRow}
    (update : ∀ row, (clause.filter row excluded).holds = true →
      row.Forward (clause.set row excluded).updateSlotUpdated) :
    db.Forward (db.upsertAsset key excluded clause) id := by
  unfold Db.Forward Db.assetOrDefault
  rw [Db.upsertAsset_lookup]
  by_cases same : id = key
  · rw [if_pos same]
    cases db.asset.lookup id with
    | none => exact .of_default _
    | some row =>
      rw [throughTrigger_resolve_some, Option.getD_some, Option.getD_some]
      split
      · rename_i accepted
        exact update row accepted
      · exact .refl row
  · rw [if_neg same]
    exact .refl _

theorem Db.setBurnt_forward (key : Pubkey) : db.Forward (db.setBurnt key) id := by
  unfold Db.Forward Db.assetOrDefault
  rw [Db.setBurnt_lookup]
  by_cases same : id = key
  · rw [if_pos same]
    cases db.asset.lookup id with
    | none => exact .refl _
    | some row => exact ⟨.refl _, .refl _, .refl _, .refl _, .refl _, .refl _, .refl _⟩
  · rw [if_neg same]
    exact .refl _

theorem tokenAccountUpsert_forward (columns : AssetTokenAccountColumns) :
    db.Forward (upsertAssetsTokenAccountColumns db columns) id :=
  db.upsertAsset_forward id columns.mint (fun _ accepted =>
    ⟨.of_guard accepted, .refl _, .refl _, .refl _, .refl _, .refl _, .refl _⟩)

theorem mintAccountUpsert_forward (columns : AssetMintAccountColumns) :
    db.Forward (upsertAssetsMintAccountColumns db columns) id :=
  db.upsertAsset_forward id columns.mint (fun _ accepted =>
    ⟨.refl _, .of_guard accepted, .refl _, .refl _, .refl _, .refl _, .refl _⟩)

/-- The metadata account is the one writer that sets the sequence number to 0. -/
theorem metadataAccountUpsert_forward (columns : AssetMetadataAccountColumns) :
    db.Forward (upsertAssetsMetadataAccountColumns db columns) id :=
  db.upsertAsset_forward id columns.mint (fun _ accepted =>
    ⟨.refl _, .refl _, .of_guard accepted, .refl _, .refl _, .refl _, .zero _⟩)

theorem burnV1Asset_forward (key : Pubkey) (slot : Nat) : db.Forward (burnV1Asset db key slot) id :=
  db.upsertAsset_forward id key (fun _ _ => ⟨.refl _, .refl _, .refl _, .refl _, .refl _, .refl _, .refl _⟩)

theorem upsertAssetsMetadataCols_forward (key : Pubkey) (slot : Nat) :
    db.Forward (TokenExtensions.upsertAssetsMetadataCols db key slot) id :=
  db.upsertAsset_forward id key (fun _ accepted =>
    ⟨.refl _, .refl _, .of_guard accepted, .refl _, .refl _, .refl _, .refl _⟩)

/-- The second half of the guard of the Bubblegum columns. -/
theorem NotBack.of_guards {first : Truth} {x y : Option Nat}
    (accepted : (first &&& (ge y x ||| isNull x)).holds = true) :
    NotBack x y := by
  rw [Truth.holds_and, Bool.and_eq_true] at accepted
  exact .of_guard accepted.2

theorem Bubblegum.exec_forward [Programs] (s : Bubblegum.Statement) : db.Forward (s.exec db) id := by
  cases s with
  | clItem | clAudit | backfillItem | collectionInfo | assetData | creators | authority => exact .of_asset rfl
  | leafInfo key info =>
    exact db.upsertAsset_forward id key (fun _ accepted =>
      ⟨.refl _, .refl _, .refl _, .of_guards accepted, .refl _, .refl _, .refl _⟩)
  | ownerInfo key info =>
    exact db.upsertAsset_forward id key (fun _ accepted =>
      ⟨.refl _, .refl _, .refl _, .refl _, .of_guards accepted, .refl _, .refl _⟩)
  | compressionInfo key info =>
    exact db.upsertAsset_forward id key (fun _ _ => ⟨.refl _, .refl _, .refl _, .refl _, .refl _, .refl _, .refl _⟩)
  | assetSeq key seq =>
    exact db.upsertAsset_forward id key (fun _ accepted =>
      ⟨.refl _, .refl _, .refl _, .refl _, .refl _, .refl _, .of_guard accepted⟩)
  | baseInfo key info =>
    exact db.upsertAsset_forward id key (fun _ accepted =>
      ⟨.refl _, .refl _, .refl _, .refl _, .refl _, .of_guards accepted, .refl _⟩)
  | burnt key =>
    exact db.upsertAsset_forward id key (fun _ _ => ⟨.refl _, .refl _, .refl _, .refl _, .refl _, .refl _, .refl _⟩)

theorem Db.Forward.trans {db later last : Db} {id : Pubkey} (first : db.Forward later id)
    (second : later.Forward last id) : db.Forward last id :=
  AssetRow.Forward.trans first second

/-- A run goes forward when each of its steps does. -/
theorem Db.Forward.foldl {E : Type} {step : Db → E → Db} {id : Pubkey}
    (forward : ∀ (db : Db) (e : E), db.Forward (step db e) id) (db : Db) (events : List E) :
    db.Forward (events.foldl step db) id := by
  induction events generalizing db with
  | nil => exact .refl _
  | cons e rest ih => exact (forward db e).trans (ih _)

end Statements

section Writes
variable [Programs] {db after : Db} (id : Pubkey)

theorem AssetWrite.exec_forward (db : Db) (w : AssetWrite) : db.Forward (w.exec db) id := by
  cases w with
  | tokenAccount columns => exact tokenAccountUpsert_forward db id columns
  | mintAccount columns => exact mintAccountUpsert_forward db id columns
  | metadataAccount columns own => exact metadataAccountUpsert_forward db id columns
  | metadataCols key slot => exact upsertAssetsMetadataCols_forward db id key slot
  | burnV1Asset key slot => exact burnV1Asset_forward db id key slot
  | setBurnt key => exact db.setBurnt_forward id key
  | bubblegum s => exact Bubblegum.exec_forward db id s

theorem Db.Written.forward {Allowed : AssetWrite → Prop} (written : Db.Written Allowed db after) :
    db.Forward after id := by
  refine written.invariant (fun later => db.Forward later id) ?_ ?_ (.of_asset rfl)
  · exact fun _ _ same held => held.trans (.of_asset same)
  · exact fun middle w _ held => held.trans (w.exec_forward id middle)

end Writes

/-- What writes rows of `asset`. -/
inductive Operation where
  | bubblegum (event : Bubblegum.Event)
  | account (update : AccountUpdate)
  | closeIx (key : Pubkey)
  | purgeMints (keys : List Pubkey)

def Operation.run [Programs] (db : Db) : Operation → Db
  | .bubblegum event => (Bubblegum.handleBubblegumInstruction db event).1
  | .account update => (handleAccountUpdate db update).1
  | .closeIx key => handleTokenProgramCloseIx db key
  | .purgeMints keys => DasIndexer.purgeMints db keys

/-- The writes of `asset` that an operation may consist of. -/
def Operation.Writes [Programs] (operation : Operation) (w : AssetWrite) : Prop :=
  match operation with
  | .bubblegum event => ∃ s ∈ event.statements, w = .bubblegum s
  | .account update => w.key = update.writtenId
  | .closeIx _ | .purgeMints _ => w.key = none

theorem Operation.run_written [Programs] (db : Db) (operation : Operation) :
    Db.Written operation.Writes db (operation.run db) := by
  cases operation with
  | bubblegum event => exact handleBubblegumInstruction_written db event (fun s member => ⟨s, member, rfl⟩)
  | account update => exact handleAccountUpdate_written db update (fun _ key => key)
  | closeIx key => exact handleTokenProgramCloseIx_written db key (fun _ marks => marks)
  | purgeMints keys => exact purgeMints_written db keys (fun _ marks => marks)

theorem Operation.run_forward [Programs] (id : Pubkey) (db : Db) (operation : Operation) :
    db.Forward (operation.run db) id :=
  (operation.run_written db).forward id

/-- From any state of a run on, no version column of an asset goes back. -/
theorem versions_never_go_back [Programs] (db : Db) (id : Pubkey) (before after : List Operation) :
    ((before.foldl Operation.run db).assetOrDefault id).Forward
      (((before ++ after).foldl Operation.run db).assetOrDefault id) := by
  rw [List.foldl_append]
  exact Db.Forward.foldl (Operation.run_forward id) _ after

end DasIndexer
