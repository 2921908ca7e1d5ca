import DasIndexer.Accounts.Convergence
import Mathlib.Data.List.Chain

namespace DasIndexer
open Sql Latest

/-- An update of a token account, through the handler of either token program. -/
structure TokenUpdate where
  account : AccountInfo
  ta : SplAccount
  extensions : Option TokenAccountExtensions

namespace TokenUpdate

def slot (u : TokenUpdate) : Nat := u.account.slot

def update (u : TokenUpdate) : AccountUpdate where
  account := u.account
  parsed := match u.extensions with
    | none => .tokenProgramEntity (.tokenAccount u.ta)
    | some extensions => .tokenExtensionsProgramEntity (.tokenAccount u.ta extensions)

/-- What an account says about the owner of its token. -/
def holding (u : TokenUpdate) : Option Bytes × Option Bytes × Bool :=
  (some u.ta.owner.bytes, u.ta.delegate.map Bytes32.bytes, u.ta.isFrozen)

theorem handle_eq [Programs] (u : TokenUpdate) :
    ∃ clause json, ∀ db, (handleAccountUpdate db u.update).1 = indexTokenAccount clause json db u.account u.ta := by
  obtain ⟨account, ta, extensions⟩ := u
  cases extensions with
  | none => exact ⟨_, _, fun _ => rfl⟩
  | some extensions => exact ⟨_, _, fun _ => rfl⟩

end TokenUpdate

/-- A transfer of the single token of a mint: in one slot, the source account is
emptied and the destination account is filled. -/
structure Transfer (mint : Pubkey) where
  source : TokenUpdate
  destination : TokenUpdate
  oneSlot : source.slot = destination.slot
  emptied : source.ta.amount = 0
  filled : destination.ta.amount = 1
  sourceMint : source.ta.mint = mint
  destinationMint : destination.ta.mint = mint

def Transfer.updates {mint : Pubkey} (t : Transfer mint) : List TokenUpdate := [t.source, t.destination]

/-- A history of transfers: each starts from the account that the one before it
filled, and not before it. -/
structure TransferHistory (mint : Pubkey) where
  earlier : List (Transfer mint)
  last : Transfer mint
  chained : (earlier ++ [last]).IsChain (fun t t' =>
    t.destination.account.pubkey = t'.source.account.pubkey ∧ t.destination.slot ≤ t'.source.slot)

namespace TransferHistory
variable {mint : Pubkey} (history : TransferHistory mint)

def updates : List TokenUpdate := (history.earlier ++ [history.last]).flatMap Transfer.updates

/-- The account that holds the token after the last transfer. -/
def holder : TokenUpdate := history.last.destination

theorem ofMint {u : TokenUpdate} (member : u ∈ history.updates) : u.ta.mint = mint := by
  obtain ⟨t, -, inTransfer⟩ := List.mem_flatMap.mp member
  simp only [Transfer.updates, List.mem_cons, List.not_mem_nil, or_false] at inTransfer
  rcases inTransfer with rfl | rfl
  · exact t.sourceMint
  · exact t.destinationMint

/-- No update is newer than those of the last transfer. -/
theorem slot_le {u : TokenUpdate} (member : u ∈ history.updates) : u.slot ≤ history.holder.slot := by
  have ordered : ((history.earlier ++ [history.last]).map (fun t => t.destination.slot)).IsChain (· ≤ ·) :=
    List.isChain_map_of_isChain (fun t => t.destination.slot)
      (fun t t' follows => follows.2.trans_eq t'.oneSlot) history.chained
  obtain ⟨t, inHistory, inTransfer⟩ := List.mem_flatMap.mp member
  have last : t.destination.slot ≤ history.last.destination.slot := by
    rcases List.mem_append.mp inHistory with inEarlier | isLast
    · have sorted := ordered.pairwise
      rw [List.map_append, List.pairwise_append] at sorted
      exact sorted.2.2 _ (List.mem_map_of_mem inEarlier) _ (by simp)
    · rw [List.mem_singleton.mp isLast]
  simp only [Transfer.updates, List.mem_cons, List.not_mem_nil, or_false] at inTransfer
  rcases inTransfer with rfl | rfl
  · exact t.oneSlot.trans_le last
  · exact last

theorem holder_mem : history.holder ∈ history.updates :=
  List.mem_flatMap.mpr ⟨history.last, by simp, by simp [Transfer.updates, holder]⟩

end TransferHistory

/-- The owner of an asset and what goes with it. -/
def AssetRow.holding (row : AssetRow) : Option Bytes × Option Bytes × Bool := (row.owner, row.delegate, row.frozen)

section Runs
variable [Programs] {mint : Pubkey} {db : Db} {token : TokenRow}

/-- The token handlers leave the owner of the newest update, the last processed
one in its slot, whether or not that account still holds the token. -/
theorem deliver_holding (indexed : db.tokens.lookup mint = some token) (nonFungible : token.isNonFungible = true)
    {deliveries : List TokenUpdate} (ofMint : ∀ u ∈ deliveries, u.ta.mint = mint)
    (older : ∀ u ∈ deliveries, ∀ v, (db.assetOrDefault mint).slotUpdatedTokenAccount = some v → v ≤ u.slot)
    {newest : TokenUpdate} (isNewest : latest TokenUpdate.slot deliveries = some newest) :
    ((deliver db (deliveries.map TokenUpdate.update)).assetOrDefault mint).holding = newest.holding := by
  have keep : ∀ (db : Db) (u : TokenUpdate), u ∈ deliveries → db.tokens.lookup mint = some token →
      (handleAccountUpdate db u.update).1.tokens.lookup mint = some token := by
    intro db u _ held
    obtain ⟨clause, json, run⟩ := u.handle_eq
    obtain ⟨asset, tables⟩ := indexTokenAccount_tables db u.account clause json u.ta
    rw [run, tables]
    exact held
  have run : tokenAccountColumns ((deliveries.foldl (fun db u => (handleAccountUpdate db u.update).1) db).assetOrDefault
      mint) = ((latest TokenUpdate.slot (deliveries.filterMap some)).map (fun u =>
        tokenAccountColumns (tokenAccountColumnsOf u.account u.ta).model)).getD
          (tokenAccountColumns (db.assetOrDefault mint)) := by
    refine foldl_latest TokenUpdate.slot (fun db : Db => tokenAccountColumns (db.assetOrDefault mint))
      (fun c => (c.map (fun u => tokenAccountColumns (tokenAccountColumnsOf u.account u.ta).model)).getD
        (tokenAccountColumns (db.assetOrDefault mint))) keep ?skip (fun _ member => member) indexed rfl ?put
    case skip =>
      intro db' u c _ _ nothing
      cases nothing
    case put =>
      intro db' u c w member known written _ held
      cases written
      obtain ⟨clause, json, run⟩ := u.handle_eq
      have ofKey := ofMint u member
      rw [run]
      dsimp only [indexTokenAccount]
      rw [ofKey, known, Option.map_some, Option.getD_some, if_pos nonFungible]
      exact tokenAccountUpsert_newer _ mint (fun _ => rfl) ofKey (tokenAccountColumns (db.assetOrDefault mint))
        (fun _ v first => older u member v first) held
  rw [List.filterMap_some, isNewest] at run
  rw [deliver, List.foldl_map]
  exact congrArg (fun columns => (columns.2.1, columns.2.2.2, columns.2.2.1)) run

end Runs

/-- After any processing of the updates of a history of transfers, the asset
shows the account that holds the token exactly when the update that is processed
last in the slot of the last transfer says the same as that account. -/
theorem transfers_owner_iff [Programs] (mint : Pubkey) (history : TransferHistory mint) (db : Db) (token : TokenRow)
    (indexed : db.tokens.lookup mint = some token) (nonFungible : token.isNonFungible = true)
    (older : ∀ u ∈ history.updates, ∀ v, (db.assetOrDefault mint).slotUpdatedTokenAccount = some v → v ≤ u.slot)
    (deliveries : List TokenUpdate) (all : deliveries.Perm history.updates) :
    ((deliver db (deliveries.map TokenUpdate.update)).assetOrDefault mint).holding = history.holder.holding ↔
      ∃ before last after, deliveries = before ++ last :: after ∧ last.slot = history.holder.slot ∧
        (∀ u ∈ after, u.slot ≠ history.holder.slot) ∧ last.holding = history.holder.holding := by
  have ofMint : ∀ u ∈ deliveries, u.ta.mint = mint := fun u member => history.ofMint (all.mem_iff.mp member)
  have bound : ∀ u ∈ deliveries, u.slot ≤ history.holder.slot := fun u member =>
    history.slot_le (all.mem_iff.mp member)
  have earlier := fun u (member : u ∈ deliveries) => older u (all.mem_iff.mp member)
  have holderIn : history.holder ∈ deliveries := all.mem_iff.mpr history.holder_mem
  constructor
  · intro shown
    obtain ⟨newest, isNewest⟩ := latest_exists TokenUpdate.slot (List.ne_nil_of_mem holderIn)
    have greatest : newest.slot = history.holder.slot :=
      le_antisymm (bound newest (latest_mem _ isNewest)) (le_latest _ isNewest holderIn)
    rw [deliver_holding indexed nonFungible ofMint earlier isNewest] at shown
    obtain ⟨before, after, split, -, strictlyOlder⟩ := (latest_eq_some_iff _).mp isNewest
    exact ⟨before, newest, after, split, greatest, fun u member => greatest ▸ (strictlyOlder u member).ne, shown⟩
  · rintro ⟨before, last, after, split, greatest, others, same⟩
    have isNewest : latest TokenUpdate.slot deliveries = some last := by
      refine (latest_eq_some_iff _).mpr ⟨before, after, split, fun u member => ?_, fun u member => ?_⟩
      · rw [greatest]
        exact bound u (by simp [split, member])
      · rw [greatest]
        exact lt_of_le_of_ne (bound u (by simp [split, member])) (others u member)
    rw [deliver_holding indexed nonFungible ofMint earlier isNewest, same]

namespace Transfer.Example

def account (key owner : Pubkey) (amount : UInt64) (extensions : Option TokenAccountExtensions) : TokenUpdate where
  account := { slot := 10, pubkey := key, owner := .fill 6 }
  ta := { mint := .fill 7, owner, amount, delegate := none, state := .initialized, delegatedAmount := 0 }
  extensions := extensions

/-- One transfer, under either token program. -/
def history (extensions : Option TokenAccountExtensions) : TransferHistory (.fill 7) where
  earlier := []
  last :=
    { source := account (.fill 1) (.fill 2) 0 extensions
      destination := account (.fill 3) (.fill 4) 1 extensions
      oneSlot := rfl
      emptied := rfl
      filled := rfl
      sourceMint := rfl
      destinationMint := rfl }
  chained := by simp

def token : TokenRow :=
  { supply := 1, decimals := 0, tokenProgram := .fill 6, mintAuthority := none, freezeAuthority := none
    closeAuthority := none, extensionData := none, slotUpdated := 5, extensions := none }

/-- The mint is indexed and nothing else is. -/
def db : Db := { tokens := AList.insert (.fill 7) token ∅ }

theorem db_indexed : db.tokens.lookup (.fill 7) = some token := AList.lookup_insert _

theorem db_unset (bound v : Nat) (stored : (db.assetOrDefault (.fill 7)).slotUpdatedTokenAccount = some v) :
    v ≤ bound := by
  have unset : (db.assetOrDefault (.fill 7)).slotUpdatedTokenAccount = none := rfl
  rw [unset] at stored
  cases stored

/-- When the emptied account is processed last, its owner stays the owner. -/
theorem holding_source_last (extensions : Option TokenAccountExtensions) :
    ((deliver db ([(history extensions).last.destination, (history extensions).last.source].map
        TokenUpdate.update)).assetOrDefault (.fill 7)).holding = (some (Bytes32.fill 2).bytes, none, false) :=
  deliver_holding db_indexed rfl (by simp [history, account]) (fun _ _ v => db_unset _ v)
    (show latest TokenUpdate.slot [_, (history extensions).last.source] =
      some (history extensions).last.source from rfl)

end Transfer.Example

open Transfer.Example in
theorem transfers_owner_destination_last :
    ((deliver db ((history none).updates.map TokenUpdate.update)).assetOrDefault (.fill 7)).holding =
        (history none).holder.holding ∧
      ((deliver db ((history (some {})).updates.map TokenUpdate.update)).assetOrDefault (.fill 7)).holding =
        (history (some {})).holder.holding := by
  constructor
  · exact (transfers_owner_iff (.fill 7) (history none) db token db_indexed rfl (fun _ _ v => db_unset _ v)
      (history none).updates (List.Perm.refl _)).mpr
        ⟨[(history none).last.source], (history none).holder, [], rfl, rfl, by simp, rfl⟩
  · exact (transfers_owner_iff (.fill 7) (history (some {})) db token db_indexed rfl (fun _ _ v => db_unset _ v)
      (history (some {})).updates (List.Perm.refl _)).mpr
        ⟨[(history (some {})).last.source], (history (some {})).holder, [], rfl, rfl, by simp, rfl⟩

open Transfer.Example in
/-- The order in which the emptied account comes last, under both token programs. -/
theorem transfers_owner_source_last :
    ([(history none).last.destination, (history none).last.source].Perm (history none).updates ∧
      ((deliver db ([(history none).last.destination, (history none).last.source].map
          TokenUpdate.update)).assetOrDefault (.fill 7)).holding ≠ (history none).holder.holding) ∧
    [(history (some {})).last.destination, (history (some {})).last.source].Perm (history (some {})).updates ∧
      ((deliver db ([(history (some {})).last.destination, (history (some {})).last.source].map
          TokenUpdate.update)).assetOrDefault (.fill 7)).holding ≠ (history (some {})).holder.holding := by
  refine ⟨⟨List.Perm.swap _ _ _, ?_⟩, List.Perm.swap _ _ _, ?_⟩
  · rw [holding_source_last]
    decide
  · rw [holding_source_last]
    decide

end DasIndexer
