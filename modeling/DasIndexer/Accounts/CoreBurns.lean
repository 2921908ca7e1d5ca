import DasIndexer.Accounts.Saves
import DasIndexer.Mainnet

namespace DasIndexer.MplCore
open Sql Latest

/-- An update of a Core account: the account was emptied, or it holds an asset
or a collection. -/
inductive Delivery where
  | emptied (slot : Nat)
  | indexed (update : Update)

namespace Delivery

def slot : Delivery → Nat
  | .emptied slot => slot
  | .indexed update => update.slot

def data : Delivery → MplCoreAccountData
  | .emptied _ => .emptyAccount
  | .indexed update => update.data

def isEmptied : Delivery → Bool
  | .emptied _ => true
  | .indexed _ => false

def saved : Delivery → Option Update
  | .emptied _ => none
  | .indexed update => some update

theorem mem_saved {deliveries : List Delivery} {u : Update} :
    u ∈ deliveries.filterMap saved ↔ .indexed u ∈ deliveries := by
  rw [List.mem_filterMap]
  constructor
  · rintro ⟨d, member, same⟩
    cases d with
    | emptied slot => cases same
    | indexed v =>
      cases same
      exact member
  · exact fun member => ⟨.indexed u, member, rfl⟩

theorem newest_saved {deliveries : List Delivery} {u : Update} (member : .indexed u ∈ deliveries) :
    ∃ newest, .indexed newest ∈ deliveries ∧ ∀ v, .indexed v ∈ deliveries → v.slot ≤ newest.slot := by
  obtain ⟨newest, isNewest⟩ := latest_exists Update.slot (List.ne_nil_of_mem (mem_saved.mpr member))
  exact ⟨newest, mem_saved.mp (latest_mem _ isNewest), fun v other => le_latest _ isNewest (mem_saved.mpr other)⟩

end Delivery

def deliverCore [Programs] (account : AccountInfo) (db : Db) (deliveries : List Delivery) : Db :=
  deliveries.foldl (fun db d => (handleMplCoreAccount db { account with slot := d.slot } d.data).1) db

/-- What a row of `asset` keeps of the updates of its Core account: the slot of
the newest state that was saved, and the flag. -/
structure Kept where
  newest : Option Nat := none
  burnt : Bool := false

/-- A save counts unless a newer one was seen, an emptied account only when it
is newer than every save. -/
def Kept.step (kept : Kept) : Delivery → Kept
  | .emptied slot => { kept with burnt := kept.burnt || kept.newest.all (fun v => v < slot) }
  | .indexed update => if kept.newest.all (fun v => v ≤ update.slot) then ⟨some update.slot, false⟩ else kept

/-- The columns that the two guards read. Until something is saved, the row was
inserted by an emptied account. -/
structure Kept.Row (kept : Kept) (row : AssetRow) : Prop where
  token : row.slotUpdatedTokenAccount = kept.newest
  mint : row.slotUpdatedMintAccount = kept.newest
  metadata : row.slotUpdatedMetadataAccount = kept.newest
  transaction : row.slotUpdatedCnftTransaction = none
  updated : kept.newest.isSome → row.slotUpdated = kept.newest
  unsaved : kept.newest = none → row.burnt = true
  burnt : row.burnt = kept.burnt

def Kept.Stored (kept : Kept) : Option AssetRow → Prop
  | none => kept = {}
  | some row => kept.Row row

theorem updateSlotUpdated_same {row : AssetRow} {newest : Option Nat} (token : row.slotUpdatedTokenAccount = newest)
    (mint : row.slotUpdatedMintAccount = newest) (metadata : row.slotUpdatedMetadataAccount = newest)
    (transaction : row.slotUpdatedCnftTransaction = none) : row.updateSlotUpdated.slotUpdated = newest := by
  unfold AssetRow.updateSlotUpdated
  rw [token, mint, metadata, transaction]
  cases newest with
  | none => rfl
  | some v => simp [greatest]

section Steps
variable [Programs] {db : Db} {id : Pubkey} {kept : Kept}

omit [Programs] in
theorem burnV1Asset_stored (slot : Nat) (held : kept.Stored (db.asset.lookup id)) :
    (kept.step (.emptied slot)).Stored ((burnV1Asset db id slot).asset.lookup id) := by
  rw [burnV1Asset, Db.upsertAsset_lookup, if_pos rfl]
  cases stored : db.asset.lookup id with
  | none =>
    rw [stored] at held
    cases held
    exact ⟨rfl, rfl, rfl, rfl, fun some => absurd some (by simp [Kept.step]), fun _ => rfl, rfl⟩
  | some row =>
    rw [stored] at held
    have row_held : kept.Row row := held
    rw [throughTrigger_resolve_some]
    cases newest : kept.newest with
    | none =>
      have burnt := row_held.unsaved newest
      have flag : (kept.step (.emptied slot)).burnt = true := by simp [Kept.step, newest]
      have none : (kept.step (.emptied slot)).newest = none := newest
      split
      · exact ⟨row_held.token, row_held.mint, row_held.metadata, row_held.transaction,
          fun some => absurd some (by simp [none]), fun _ => rfl, flag.symm⟩
      · exact ⟨row_held.token, row_held.mint, row_held.metadata, row_held.transaction,
          fun some => absurd some (by simp [none]), fun _ => burnt, burnt.trans flag.symm⟩
    | some v =>
      have updated := row_held.updated (by simp [newest])
      have same : (kept.step (.emptied slot)).newest = kept.newest := rfl
      have present : (kept.step (.emptied slot)).newest ≠ none := by simp [same, newest]
      have filter : (burnV1AssetOnConflict.filter row { slotUpdated := some slot, burnt := true }).holds =
          decide (v < slot) := by
        simp [burnV1AssetOnConflict, updated, newest]
      rw [filter]
      by_cases later : v < slot
      · rw [if_pos (by simpa using later)]
        refine ⟨row_held.token, row_held.mint, row_held.metadata, row_held.transaction, fun _ => ?_,
          fun none => absurd none present, ?_⟩
        · exact updateSlotUpdated_same row_held.token row_held.mint row_held.metadata row_held.transaction
        · simp [Kept.step, newest, later, AssetRow.updateSlotUpdated, burnV1AssetOnConflict]
      · rw [if_neg (by simpa using later)]
        refine ⟨row_held.token, row_held.mint, row_held.metadata, row_held.transaction, fun _ => updated,
          fun none => absurd none present, ?_⟩
        simp [Kept.step, newest, later, row_held.burnt]

omit [Programs] in
/-- The mint and token columns follow a row whose metadata columns were written. -/
theorem savedRow {row : AssetRow} {columns : AssetMintAccountColumns} {account : AssetTokenAccountColumns} {slot : Nat}
    (minted : columns.slotUpdatedMintAccount = slot) (held : account.slotUpdatedTokenAccount = some slot)
    (metadata : row.slotUpdatedMetadataAccount = some slot) (unburnt : row.burnt = false)
    (transaction : row.slotUpdatedCnftTransaction = none)
    (mint : row.slotUpdatedMintAccount.all (fun v => v ≤ slot))
    (token : row.slotUpdatedTokenAccount.all (fun v => v ≤ slot)) :
    Kept.Row ⟨some slot, false⟩ ((throughTrigger AssetTokenAccountColumns.onConflict).resolve account.model
      (some ((throughTrigger AssetMintAccountColumns.onConflict).resolve columns.model (some row)))) := by
  subst minted
  have mintAccepts : (AssetMintAccountColumns.onConflict.filter row columns.model).holds = true :=
    (holds_ge_or_isNull _ _).trans mint
  rw [throughTrigger_resolve_some _ _ row, if_pos mintAccepts]
  have tokenAccepts : (AssetTokenAccountColumns.onConflict.filter
      (AssetMintAccountColumns.onConflict.set row columns.model).updateSlotUpdated account.model).holds = true :=
    (holds_ge_or_isNull_of held _).trans token
  rw [throughTrigger_resolve_some, if_pos tokenAccepts]
  refine ⟨held, rfl, metadata, transaction, fun _ => ?_, fun none => absurd none (Option.some_ne_none _), unburnt⟩
  exact updateSlotUpdated_same held rfl metadata transaction

omit [Programs] in
theorem refusedRow {row : AssetRow} {columns : AssetMintAccountColumns}
    {account : AssetTokenAccountColumns} {slot : Nat}
    (minted : columns.slotUpdatedMintAccount = slot) (held : account.slotUpdatedTokenAccount = some slot)
    (mint : ¬ row.slotUpdatedMintAccount.all (fun v => v ≤ slot))
    (token : ¬ row.slotUpdatedTokenAccount.all (fun v => v ≤ slot)) :
    (throughTrigger AssetTokenAccountColumns.onConflict).resolve account.model
      (some ((throughTrigger AssetMintAccountColumns.onConflict).resolve columns.model (some row))) = row := by
  subst minted
  have mintRefuses : ¬ (AssetMintAccountColumns.onConflict.filter row columns.model).holds = true := by
    rwa [show (AssetMintAccountColumns.onConflict.filter row columns.model).holds = _ from holds_ge_or_isNull _ _]
  have tokenRefuses : ¬ (AssetTokenAccountColumns.onConflict.filter row account.model).holds = true := by
    rwa [show (AssetTokenAccountColumns.onConflict.filter row account.model).holds = _ from
      holds_ge_or_isNull_of held _]
  rw [throughTrigger_resolve_some _ _ row, if_neg mintRefuses, throughTrigger_resolve_some, if_neg tokenRefuses]

/-- All three statements of a save accept the row, or none does. -/
theorem saveV1Asset_stored (u : Update) (held : kept.Stored (db.asset.lookup id)) :
    (kept.step (.indexed u)).Stored ((saveV1Asset db id u.data u.slot).1.asset.lookup id) := by
  obtain ⟨owner, delegate, same⟩ := saveV1Asset_asset db id u.slot u.indexable
  rw [same, ← Update.columns, upsertAssetsTokenAccountColumns, Db.upsertAsset_lookup, if_pos rfl,
    upsertAssetsMintAccountColumns, Db.upsertAsset_lookup, if_pos rfl, upsertAssetsMetadataAccountColumns,
    show (u.columns id).mint = id from rfl, Db.upsertAsset_lookup, if_pos rfl]
  cases stored : db.asset.lookup id with
  | none =>
    rw [stored] at held
    cases held
    exact savedRow rfl rfl rfl rfl rfl rfl rfl
  | some row =>
    rw [stored] at held
    have row_held : kept.Row row := held
    have filter : (AssetMetadataAccountColumns.onConflict.filter row
        (u.columns id).model).holds = kept.newest.all (fun v => v ≤ u.slot) := by
      rw [← row_held.metadata]
      exact holds_ge_or_isNull _ _
    rw [throughTrigger_resolve_some AssetMetadataAccountColumns.onConflict]
    by_cases accepted : kept.newest.all (fun v => v ≤ u.slot) = true
    · rw [if_pos (filter.trans accepted), Kept.step, if_pos accepted]
      refine savedRow rfl rfl rfl rfl row_held.transaction ?_ ?_
      · exact (congrArg _ row_held.mint).trans accepted
      · exact (congrArg _ row_held.token).trans accepted
    · rw [if_neg (fun holds => accepted (filter.symm.trans holds)), Kept.step, if_neg accepted]
      rw [refusedRow rfl rfl (by rwa [row_held.mint]) (by rwa [row_held.token])]
      exact row_held

theorem deliverCore_stored (account : AccountInfo) (deliveries : List Delivery)
    (held : kept.Stored (db.asset.lookup account.pubkey)) :
    (deliveries.foldl Kept.step kept).Stored ((deliverCore account db deliveries).asset.lookup account.pubkey) := by
  induction deliveries generalizing db kept with
  | nil => exact held
  | cons d rest ih =>
    refine ih ?_
    cases d with
    | emptied slot => exact burnV1Asset_stored slot held
    | indexed u =>
      have saved := saveV1Asset_stored u held
      obtain ⟨data, asset, indexable, slot⟩ := u
      cases data with
      | asset a => exact saved
      | collection a => exact saved
      | hashedAsset => cases indexable
      | emptyAccount => cases indexable

end Steps

/-- The newest saved state is processed before an update that empties the account
in a later slot. -/
def EmptiedAfterSaves (deliveries : List Delivery) : Prop :=
  ∀ u, .indexed u ∈ deliveries → (∀ v, .indexed v ∈ deliveries → v.slot ≤ u.slot) →
    ∃ before after slot, deliveries = before ++ .indexed u :: after ∧ .emptied slot ∈ after ∧ u.slot < slot

theorem Kept.newest_le {bound : Nat} {deliveries : List Delivery}
    (saves : ∀ v, .indexed v ∈ deliveries → v.slot ≤ bound)
    {kept : Kept} (start : kept.newest.all (fun v => v ≤ bound) = true) :
    (deliveries.foldl Kept.step kept).newest.all (fun v => v ≤ bound) = true := by
  induction deliveries generalizing kept with
  | nil => exact start
  | cons d rest ih =>
    refine ih (fun v member => saves v (List.mem_cons_of_mem _ member)) ?_
    cases d with
    | emptied slot => exact start
    | indexed u =>
      have bounded : u.slot ≤ bound := saves u List.mem_cons_self
      rw [Kept.step]
      split
      · simpa using bounded
      · exact start

/-- Behind the newest save, only emptied accounts of later slots count. -/
theorem Kept.after_newest {newest : Nat} {deliveries : List Delivery}
    (saves : ∀ v, .indexed v ∈ deliveries → v.slot < newest) (burnt : Bool) :
    (deliveries.foldl Kept.step ⟨some newest, burnt⟩).burnt = true ↔
      burnt = true ∨ ∃ slot, .emptied slot ∈ deliveries ∧ newest < slot := by
  induction deliveries generalizing burnt with
  | nil => simp
  | cons d rest ih =>
    have later : ∀ v, .indexed v ∈ rest → v.slot < newest := fun v member => saves v (List.mem_cons_of_mem _ member)
    rw [List.foldl_cons]
    cases d with
    | emptied slot =>
      have stepped : Kept.step ⟨some newest, burnt⟩ (.emptied slot) =
          ⟨some newest, burnt || decide (newest < slot)⟩ := rfl
      rw [stepped, ih later]
      simp only [Bool.or_eq_true, decide_eq_true_eq, List.mem_cons, Delivery.emptied.injEq]
      constructor
      · rintro ((old | first) | ⟨b, member, newer⟩)
        · exact Or.inl old
        · exact Or.inr ⟨slot, Or.inl rfl, first⟩
        · exact Or.inr ⟨b, Or.inr member, newer⟩
      · rintro (old | ⟨b, same | member, newer⟩)
        · exact Or.inl (Or.inl old)
        · exact Or.inl (Or.inr (same ▸ newer))
        · exact Or.inr ⟨b, member, newer⟩
    | indexed u =>
      have older : ¬ newest ≤ u.slot := not_le.mpr (saves u List.mem_cons_self)
      have stepped : Kept.step ⟨some newest, burnt⟩ (.indexed u) = ⟨some newest, burnt⟩ := by simp [Kept.step, older]
      rw [stepped, ih later]
      simp

theorem Kept.unsaved {deliveries : List Delivery} (saves : ∀ v, .indexed v ∉ deliveries) (kept : Kept)
    (start : kept.newest = none) :
    (deliveries.foldl Kept.step kept).burnt = (kept.burnt || !deliveries.isEmpty) := by
  induction deliveries generalizing kept with
  | nil => simp
  | cons d rest ih =>
    cases d with
    | emptied slot =>
      rw [List.foldl_cons, ih (fun v member => saves v (List.mem_cons_of_mem _ member))
        (kept.step (.emptied slot)) start]
      simp [Kept.step, start]
    | indexed u => exact absurd List.mem_cons_self (saves u)

/-- The flag of an asset without a row is the column default. -/
theorem deliverCore_burnt [Programs] {account : AccountInfo} {db : Db} (fresh : db.asset.lookup account.pubkey = none)
    (deliveries : List Delivery) :
    ((deliverCore account db deliveries).assetOrDefault account.pubkey).burnt =
      (deliveries.foldl Kept.step {}).burnt := by
  have start : Kept.Stored {} (db.asset.lookup account.pubkey) := by
    rw [fresh]
    rfl
  have final := deliverCore_stored account deliveries start
  rw [Db.assetOrDefault]
  cases stored : (deliverCore account db deliveries).asset.lookup account.pubkey with
  | none =>
    rw [stored] at final
    have unseen : deliveries.foldl Kept.step {} = {} := final
    rw [unseen]
    rfl
  | some row =>
    rw [stored] at final
    exact Kept.Row.burnt final

theorem Kept.around_newest {before after : List Delivery} {u : Update}
    (distinct : ((before ++ .indexed u :: after).map Delivery.slot).Nodup)
    (newest : ∀ v, .indexed v ∈ before ++ .indexed u :: after → v.slot ≤ u.slot) :
    ((before ++ .indexed u :: after).foldl Kept.step {}).burnt = true ↔
      ∃ slot, .emptied slot ∈ after ∧ u.slot < slot := by
  have earlier : (before.foldl Kept.step {}).newest.all (fun v => v ≤ u.slot) = true :=
    Kept.newest_le (fun v member => newest v (List.mem_append_left _ member)) rfl
  have later : ∀ v, .indexed v ∈ after → v.slot < u.slot := by
    intro v member
    refine lt_of_le_of_ne (newest v (by simp [member])) (fun same => ?_)
    rw [List.map_append, List.map_cons] at distinct
    have apart := (List.nodup_cons.mp (List.nodup_append.mp distinct).2.1).1
    exact apart (List.mem_map.mpr ⟨_, member, same⟩)
  have accepted : (before.foldl Kept.step {}).step (.indexed u) = ⟨some u.slot, false⟩ := by
    rw [Kept.step, if_pos earlier]
  rw [List.foldl_append, List.foldl_cons, accepted, Kept.after_newest later]
  simp

/-- The flag follows the newest update exactly when this is a save, or when the
newest save is followed by an update of a later slot that empties the account. -/
theorem burnt_follows_newest_iff [Programs] (account : AccountInfo) (db : Db)
    (fresh : db.asset.lookup account.pubkey = none)
    (deliveries : List Delivery) (distinct : (deliveries.map Delivery.slot).Nodup) (newest : Delivery)
    (member : newest ∈ deliveries) (greatest : ∀ d ∈ deliveries, d.slot ≤ newest.slot) :
    (((deliverCore account db deliveries).assetOrDefault account.pubkey).burnt = true ↔ newest.isEmptied = true) ↔
      (newest.isEmptied = true → EmptiedAfterSaves deliveries) := by
  rw [deliverCore_burnt fresh]
  by_cases saved : ∃ u, .indexed u ∈ deliveries
  · obtain ⟨_, save⟩ := saved
    obtain ⟨u, inList, isNewest⟩ := Delivery.newest_saved save
    obtain ⟨before, after, split⟩ := List.append_of_mem inList
    have flag := Kept.around_newest (split ▸ distinct) (split ▸ isNewest)
    rw [← split] at flag
    cases newest with
    | emptied last =>
      have ordered : EmptiedAfterSaves deliveries ↔ (deliveries.foldl Kept.step {}).burnt = true := by
        constructor
        · intro emptied
          obtain ⟨before', after', slot, split', later, newer⟩ := emptied u inList isNewest
          have flag' := Kept.around_newest (split' ▸ distinct) (split' ▸ isNewest)
          rw [← split'] at flag'
          exact flag'.mpr ⟨slot, later, newer⟩
        · intro burnt v inList' isNewest'
          have same : Delivery.indexed v = .indexed u := List.inj_on_of_nodup_map distinct inList' inList
            (le_antisymm (isNewest v inList') (isNewest' u inList))
          cases same
          obtain ⟨slot, later, newer⟩ := flag.mp burnt
          exact ⟨before, after, slot, split, later, newer⟩
      simp [ordered, Delivery.isEmptied]
    | indexed w =>
      have unburnt : ¬ (deliveries.foldl Kept.step {}).burnt = true := by
        rw [flag]
        rintro ⟨slot, later, newer⟩
        have bound : slot ≤ w.slot := greatest (.emptied slot) (by simp [split, later])
        have saved : w.slot ≤ u.slot := isNewest w member
        omega
      simp [unburnt, Delivery.isEmptied]
  · have unsaved : ∀ v, .indexed v ∉ deliveries := fun v inList => saved ⟨v, inList⟩
    have nonempty : deliveries.isEmpty = false := by
      cases deliveries with
      | nil => cases member
      | cons d rest => rfl
    have ordered : EmptiedAfterSaves deliveries := fun u inList => absurd inList (unsaved u)
    cases newest with
    | emptied last => simp [Kept.unsaved unsaved {} rfl, nonempty, ordered, Delivery.isEmptied]
    | indexed w => exact absurd member (unsaved w)

def Example.account : AccountInfo := { slot := 0, pubkey := .fill 7, owner := .fill 9 }

/-- A Core asset as it is saved in a slot. -/
def Example.save (slot : Nat) : Delivery := .indexed (update "core" (.address (.fill 1)) [] slot)

theorem burnt_when_emptied_last :
    ((deliverCore Example.account {} [Example.save 10, .emptied 20]).assetOrDefault (.fill 7)).burnt = true := by
  refine ((burnt_follows_newest_iff Example.account {} rfl _ (by decide) (.emptied 20) (by simp) ?_).mpr ?_).mpr rfl
  · simp [Example.save, Delivery.slot, Example.update]
  · intro _ u member _
    have same : u = Example.update "core" (.address (.fill 1)) [] 10 := by simpa [Example.save] using member
    subst same
    exact ⟨[], [.emptied 20], 20, rfl, by simp, by decide⟩

/-- An older save is taken although the account was emptied: before the first
save nothing is compared, and later the emptied account leaves no slot behind. -/
theorem burnt_lost_to_older_save :
    (¬ (((deliverCore Example.account {} [.emptied 20, Example.save 10]).assetOrDefault (.fill 7)).burnt = true ↔
      (Delivery.emptied 20).isEmptied = true)) ∧
    ¬ (((deliverCore Example.account {}
        [Example.save 10, .emptied 30, Example.save 20]).assetOrDefault (.fill 7)).burnt =
      true ↔ (Delivery.emptied 30).isEmptied = true) := by
  have flag : ∀ deliveries, ((deliverCore Example.account {} deliveries).assetOrDefault (.fill 7)).burnt =
      (deliveries.foldl Kept.step {}).burnt := fun deliveries => @deliverCore_burnt _ Example.account {} rfl deliveries
  rw [flag, flag]
  decide

end DasIndexer.MplCore
