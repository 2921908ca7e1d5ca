import DasIndexer.Accounts.Saves
import DasIndexer.Mainnet

namespace DasIndexer.TokenMetadata
open Sql Latest

/-- The accounts that stand at the edition address of a mint. -/
inductive EditionData where
  | masterEditionV1 (m : MasterEdition)
  | masterEditionV2 (m : MasterEdition)
  | editionV1 (e : Edition)

namespace EditionData

def accountData : EditionData → TokenMetadataAccountData
  | .masterEditionV1 m => .masterEditionV1 m
  | .masterEditionV2 m => .masterEditionV2 m
  | .editionV1 e => .editionV1 e

def attachmentType : EditionData → V1AccountAttachments
  | .masterEditionV1 _ => .masterEditionV1
  | .masterEditionV2 _ => .masterEditionV2
  | .editionV1 _ => .edition

def toJson : EditionData → Json
  | .masterEditionV1 m => m.toJson "MasterEditionV1"
  | .masterEditionV2 m => m.toJson "MasterEditionV2"
  | .editionV1 e => e.toJson

end EditionData

/-- An update of the metadata account of a non-fungible mint, or of the account
at its edition address. -/
inductive MintUpdate [Programs] (mint : Pubkey) where
  | metadata (account : AccountInfo) (m : Metadata) (ofMint : m.mint = mint)
      (nonFungible : m.tokenStandard.map TokenStandard.isNonFungible = some true)
  | edition (account : AccountInfo) (data : EditionData) (address : account.pubkey = Programs.findMasterEdition mint)

/-- What an account leaves in its attachment row: the type, the data, the slot. -/
abbrev Attached := V1AccountAttachments × Option Json × Nat

def attached (row : AttachmentRow) : Attached := (row.attachmentType, row.data, row.slotUpdated)

def Attached.slot (content : Attached) : Nat := content.2.2

section Deliveries
variable [Programs] {mint : Pubkey}

def MintUpdate.account : MintUpdate mint → AccountInfo
  | .metadata account .. => account
  | .edition account .. => account

def MintUpdate.data : MintUpdate mint → TokenMetadataAccountData
  | .metadata _ m .. => .metadataV1 m
  | .edition _ data _ => data.accountData

def deliverMint (db : Db) (deliveries : List (MintUpdate mint)) : Db :=
  deliveries.foldl (fun db u => (handleTokenMetadataAccount db u.account u.data).1) db

/-- What an edition account says; the metadata account says nothing about it. -/
def MintUpdate.edition? : MintUpdate mint → Option Attached
  | .metadata .. => none
  | .edition account data _ => some (data.attachmentType, some data.toJson, account.slot)

/-- What an update leaves when it is the first to arrive. -/
def MintUpdate.first : MintUpdate mint → Attached
  | .metadata account .. => (.masterEditionV2, none, account.slot)
  | .edition account data _ => (data.attachmentType, some data.toJson, account.slot)

theorem saveV1Asset_attachments (db : Db) {m : Metadata} (slot : Nat)
    (nonFungible : m.tokenStandard.map TokenStandard.isNonFungible = some true) :
    (saveV1Asset db m slot).1.attachments =
      (upsertAssetV1AccountAttachments (insertMasterEdition db m.mint slot) m.mint slot).attachments := by
  dsimp only [saveV1Asset]
  rw [if_pos nonFungible]
  have read : ∀ supply, (if m.ownershipType supply = .single ∨ m.ownershipType supply = .unknown then
      indexTokenAccountData (indexAndFetchMintData db m.mint).1 m.mint
        else (indexAndFetchMintData db m.mint).1).attachments = db.attachments := by
    intro supply
    split
    · rw [indexTokenAccountData_eq, indexAndFetchMintData_eq]
    · rw [indexAndFetchMintData_eq]
  exact congrArg (fun attachments => (upsertAssetV1AccountAttachments (insertMasterEdition { attachments } m.mint slot)
    m.mint slot).attachments) (read _)

/-- The metadata account names the mint and leaves the rest of a row alone. -/
theorem handle_metadata (db : Db) (account : AccountInfo) {m : Metadata} (ofMint : m.mint = mint)
    (nonFungible : m.tokenStandard.map TokenStandard.isNonFungible = some true) :
    (handleTokenMetadataAccount db account (.metadataV1 m)).1.attachments.lookup (Programs.findMasterEdition mint) =
      some { ((db.attachments.lookup (Programs.findMasterEdition mint)).getD
        { attachmentType := .masterEditionV2, slotUpdated := account.slot }) with assetId := some mint } := by
  subst ofMint
  have saved : (handleTokenMetadataAccount db account (.metadataV1 m)).1 = (saveV1Asset db m account.slot).1 := rfl
  rw [saved, saveV1Asset_attachments db account.slot nonFungible, upsertAssetV1AccountAttachments,
    Table.lookup_upsert_self, insertMasterEdition, Table.lookup_upsert_self]
  cases db.attachments.lookup (Programs.findMasterEdition m.mint) with
  | none => rfl
  | some row => rfl

theorem handle_edition (db : Db) {account : AccountInfo} (data : EditionData)
    (address : account.pubkey = Programs.findMasterEdition mint) :
    (handleTokenMetadataAccount db account data.accountData).1.attachments.lookup (Programs.findMasterEdition mint) =
      some (attachmentDataOnConflict.resolve
        { attachmentType := data.attachmentType, data := some data.toJson, slotUpdated := account.slot }
        (db.attachments.lookup (Programs.findMasterEdition mint))) := by
  rw [← address]
  cases data with
  | masterEditionV1 m => exact Table.lookup_upsert_self _ _ _ _
  | masterEditionV2 m => exact Table.lookup_upsert_self _ _ _ _
  | editionV1 e => exact Table.lookup_upsert_self _ _ _ _

/-- A row keeps its content against metadata, and takes that of every edition
account that is not older. -/
theorem handle_attached (u : MintUpdate mint) {db : Db} {row : AttachmentRow}
    (stored : db.attachments.lookup (Programs.findMasterEdition mint) = some row) :
    ((handleTokenMetadataAccount db u.account u.data).1.attachments.lookup
      (Programs.findMasterEdition mint)).map attached =
      some ((u.edition?.map (newer Attached.slot (some (attached row)))).getD (attached row)) := by
  cases u with
  | metadata account m ofMint nonFungible =>
    rw [MintUpdate.data, MintUpdate.account, handle_metadata db account ofMint nonFungible, stored]
    rfl
  | edition account data address =>
    rw [MintUpdate.data, MintUpdate.account, handle_edition db data address, stored, OnConflict.resolve]
    by_cases older : row.slotUpdated ≤ account.slot
    · rw [if_pos (by simpa [attachmentDataOnConflict] using older)]
      simp [MintUpdate.edition?, newer, Attached.slot, attached, attachmentDataOnConflict, not_lt.mpr older]
    · rw [if_neg (by simpa [attachmentDataOnConflict] using older)]
      simp [MintUpdate.edition?, newer, Attached.slot, attached, not_le.mp older]

theorem deliverMint_attached {db : Db} {row : AttachmentRow} (deliveries : List (MintUpdate mint))
    (stored : db.attachments.lookup (Programs.findMasterEdition mint) = some row) :
    ((deliverMint db deliveries).attachments.lookup (Programs.findMasterEdition mint)).map attached =
      (deliveries.filterMap MintUpdate.edition?).foldl (fun c w => some (newer Attached.slot c w))
        (some (attached row)) := by
  induction deliveries generalizing db row with
  | nil => exact congrArg (Option.map attached) stored
  | cons u rest ih =>
    have first := handle_attached u stored
    obtain ⟨next, found, content⟩ := Option.map_eq_some_iff.mp first
    have later := ih found
    rw [content] at later
    rw [deliverMint, List.foldl_cons]
    cases said : u.edition? with
    | none =>
      rw [said] at later
      rw [List.filterMap_cons_none said]
      exact later
    | some w =>
      rw [said] at later
      rw [List.filterMap_cons_some said, List.foldl_cons]
      exact later

/-- The content of the row is the newest of what the first update left and what
the edition accounts after it say. -/
theorem deliverMint_content {db : Db} (fresh : db.attachments.lookup (Programs.findMasterEdition mint) = none)
    (u : MintUpdate mint) (rest : List (MintUpdate mint)) :
    ((deliverMint db (u :: rest)).attachments.lookup (Programs.findMasterEdition mint)).map attached =
      latest Attached.slot (u.first :: rest.filterMap MintUpdate.edition?) := by
  have first : ∃ row, (handleTokenMetadataAccount db u.account u.data).1.attachments.lookup
      (Programs.findMasterEdition mint) = some row ∧ attached row = u.first := by
    cases u with
    | metadata account m ofMint nonFungible =>
      rw [MintUpdate.data, MintUpdate.account, handle_metadata db _ ofMint nonFungible, fresh]
      exact ⟨_, rfl, rfl⟩
    | edition account data address =>
      rw [MintUpdate.data, MintUpdate.account, handle_edition db data address, fresh]
      exact ⟨_, rfl, rfl⟩
  obtain ⟨row, stored, content⟩ := first
  have later := deliverMint_attached rest stored
  rw [content] at later
  rw [← foldl_newer, List.foldl_cons]
  exact later

/-- One update of the metadata account is enough to name the mint. -/
theorem deliverMint_assetId {db : Db} {deliveries : List (MintUpdate mint)} {account : AccountInfo} {m : Metadata}
    {ofMint : m.mint = mint} {nonFungible : m.tokenStandard.map TokenStandard.isNonFungible = some true}
    (member : .metadata account m ofMint nonFungible ∈ deliveries) :
    ((deliverMint db deliveries).attachments.lookup (Programs.findMasterEdition mint)).map AttachmentRow.assetId =
      some (some mint) := by
  obtain ⟨before, after, rfl⟩ := List.append_of_mem member
  rw [deliverMint, List.foldl_append, List.foldl_cons]
  have keep : ∀ (db : Db) (u : MintUpdate mint), True →
      (db.attachments.lookup (Programs.findMasterEdition mint)).map AttachmentRow.assetId = some (some mint) →
      ((handleTokenMetadataAccount db u.account u.data).1.attachments.lookup (Programs.findMasterEdition mint)).map
        AttachmentRow.assetId = some (some mint) := by
    intro db u _ named
    obtain ⟨row, stored, asset⟩ := Option.map_eq_some_iff.mp named
    cases u with
    | metadata account m ofMint nonFungible =>
      rw [MintUpdate.data, MintUpdate.account, handle_metadata db _ ofMint nonFungible]
      rfl
    | edition account data address =>
      rw [MintUpdate.data, MintUpdate.account, handle_edition db data address, stored, OnConflict.resolve]
      split
      · exact congrArg some asset
      · exact congrArg some asset
  refine foldl_invariant _ keep after (fun _ _ => trivial) ?_
  rw [MintUpdate.data, MintUpdate.account, handle_metadata _ _ ofMint nonFungible]
  rfl

omit [Programs] in
/-- A placeholder in front of the edition accounts loses against the newest of
them unless it is newer. -/
theorem latest_placeholder_iff {placeholder newest : Attached} {editions : List Attached}
    (isNewest : latest Attached.slot editions = some newest) :
    latest Attached.slot (placeholder :: editions) = some newest ↔ placeholder.slot ≤ newest.slot := by
  constructor
  · intro last
    exact le_latest Attached.slot last List.mem_cons_self
  · intro older
    obtain ⟨before, after, split, notNewer, strictlyOlder⟩ := (latest_eq_some_iff Attached.slot).mp isNewest
    refine (latest_eq_some_iff Attached.slot).mpr ⟨placeholder :: before, after, by rw [split]; rfl, ?_, strictlyOlder⟩
    intro x member
    rcases List.mem_cons.mp member with rfl | earlier
    · exact older
    · exact notNewer x earlier

/-- The row of the edition address ends with what the newest edition account says,
and with the mint, exactly when the updates do not start with the metadata of a
later slot. -/
theorem edition_shown_iff (db : Db) (fresh : db.attachments.lookup (Programs.findMasterEdition mint) = none)
    (deliveries : List (MintUpdate mint)) (described : ∃ u ∈ deliveries, u.edition? = none) (newest : Attached)
    (isNewest : latest Attached.slot (deliveries.filterMap MintUpdate.edition?) = some newest) :
    (∃ row, (deliverMint db deliveries).attachments.lookup (Programs.findMasterEdition mint) = some row ∧
        attached row = newest ∧ row.assetId = some mint) ↔
      ∀ first ∈ deliveries.head?, first.edition? = none → first.account.slot ≤ newest.slot := by
  have named : ((deliverMint db deliveries).attachments.lookup (Programs.findMasterEdition mint)).map
      AttachmentRow.assetId = some (some mint) := by
    obtain ⟨u, member, silent⟩ := described
    cases u with
    | metadata account m ofMint nonFungible => exact deliverMint_assetId member
    | edition account data address => cases silent
  obtain ⟨row, stored, asset⟩ := Option.map_eq_some_iff.mp named
  have shown : (∃ row, (deliverMint db deliveries).attachments.lookup (Programs.findMasterEdition mint) = some row ∧
      attached row = newest ∧ row.assetId = some mint) ↔
        ((deliverMint db deliveries).attachments.lookup (Programs.findMasterEdition mint)).map attached =
          some newest := by
    rw [stored]
    constructor
    · rintro ⟨other, same, content, -⟩
      cases same
      exact congrArg some content
    · intro content
      exact ⟨row, rfl, Option.some.inj content, asset⟩
  rw [shown]
  cases deliveries with
  | nil => cases isNewest
  | cons u rest =>
    rw [deliverMint_content fresh]
    cases u with
    | metadata account m ofMint nonFungible =>
      have editions : latest Attached.slot (rest.filterMap MintUpdate.edition?) = some newest := isNewest
      rw [latest_placeholder_iff editions]
      simp [MintUpdate.edition?, MintUpdate.account, MintUpdate.first, Attached.slot]
    | edition account data address =>
      have editions : latest Attached.slot ((MintUpdate.edition account data address).first ::
          rest.filterMap MintUpdate.edition?) = some newest := isNewest
      simp [editions, MintUpdate.edition?]

end Deliveries

namespace Example

/-- The metadata account of a non-fungible mint, in a slot. -/
def described (slot : Nat) : MintUpdate (.fill 7) :=
  .metadata { slot, pubkey := .fill 8, owner := .fill 9 } (metadata 500 true (some .nonFungible) none none) rfl rfl

/-- Its master edition, in a slot. -/
def editioned (slot supply : Nat) : MintUpdate (.fill 7) :=
  .edition { slot, pubkey := Programs.findMasterEdition (.fill 7), owner := .fill 9 }
    (.masterEditionV2 { supply, maxSupply := none }) rfl

end Example

theorem edition_shown_after_older_metadata :
    ∃ row, (deliverMint {} [Example.described 10, Example.editioned 20 1, Example.described 30]).attachments.lookup
        (Programs.findMasterEdition (.fill 7)) = some row ∧
      attached row = (.masterEditionV2, some (MasterEdition.toJson ⟨1, none⟩ "MasterEditionV2"), 20) ∧
      row.assetId = some (.fill 7) := by
  refine (edition_shown_iff {} rfl _ ⟨Example.described 10, by simp, rfl⟩ _ rfl).mpr ?_
  simp [Example.described, MintUpdate.edition?, MintUpdate.account, Attached.slot]

/-- The placeholder of a later slot refuses the edition account. -/
theorem edition_masked_by_newer_metadata :
    ¬ ∃ row, (deliverMint {} [Example.described 20, Example.editioned 10 1]).attachments.lookup
        (Programs.findMasterEdition (.fill 7)) = some row ∧
      attached row = (.masterEditionV2, some (MasterEdition.toJson ⟨1, none⟩ "MasterEditionV2"), 10) ∧
      row.assetId = some (.fill 7) := by
  rintro ⟨row, stored, content, -⟩
  have final := @deliverMint_content _ (.fill 7) {} rfl (Example.described 20) [Example.editioned 10 1]
  rw [stored, Option.map_some, content] at final
  exact absurd (congrArg (Option.map Attached.slot) final) (by decide)

end DasIndexer.TokenMetadata
