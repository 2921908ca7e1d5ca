import DasIndexer.Accounts.Removals
import DasIndexer.Lib.Runs

namespace DasIndexer.Ops
open Sql

def tokenProgramId : Pubkey where
  bytes := [6, 221, 246, 225, 215, 101, 161, 147, 217, 203, 225, 70, 206, 235, 121, 172,
    28, 180, 133, 237, 95, 91, 55, 145, 58, 140, 245, 133, 126, 255, 0, 169]
  size := rfl

def token2022ProgramId : Pubkey where
  bytes := [6, 221, 246, 225, 238, 117, 143, 222, 24, 66, 93, 188, 228, 108, 205, 218,
    182, 26, 252, 77, 131, 185, 13, 39, 254, 189, 249, 40, 216, 161, 139, 252]
  size := rfl

/-- The two purges: `start_ta_purge` and `start_mint_purge`. -/
inductive PurgeKind where
  | tokenAccounts
  | mints
  deriving DecidableEq

/-- The keys of the table, in the order in which it is read without an
`ORDER BY`. Deleting rows leaves the order of the others as it is. -/
def PurgeKind.rows (kind : PurgeKind) (db : Db) : List Pubkey :=
  match kind with
  | .tokenAccounts => db.tokenAccounts.keys
  | .mints => db.tokens.keys

def PurgeKind.purge (kind : PurgeKind) (db : Db) (keys : List Pubkey) : Db :=
  match kind with
  | .tokenAccounts => purgeTokenAccounts db keys
  | .mints => purgeMints db keys

/-- What the node reports of an account: its owner, when it exists. -/
abbrev AccountOwners := Pubkey → Option Pubkey

/-- The test of `MarkDeletion`. -/
def isStale (accounts : AccountOwners) (key : Pubkey) : Bool :=
  match accounts key with
  | some owner => owner ≠ tokenProgramId && owner ≠ token2022ProgramId
  | none => true

/-- The number of accounts asked for in one call. -/
def maxGetMultipleAccounts : Nat := 100

/-- The state of the three pools: the paginator, the marking tasks with the keys
they have left, and the deleting tasks, with the channels between them. -/
structure Purger where
  db : Db
  page : Nat := 0
  paginated : Bool := false
  pages : List (List Pubkey) := []
  marking : List (List Pubkey) := []
  marked : List (List Pubkey) := []
  purging : List (List Pubkey) := []

inductive PurgeEvent where
  | fetch
  | receivePage
  | mark (task : Nat)
  | receiveMarked
  | purge (task : Nat)
  deriving DecidableEq

section Step
variable (kind : PurgeKind) (accounts : AccountOwners) (batch : Nat)

/-- `fetch_and_next`: the next page, or the end of the loop when it is empty. A
batch size of zero ends the paginator as well, by a panic. -/
def Purger.fetch (s : Purger) : Purger :=
  if s.paginated then s
  else
    let keys := ((kind.rows s.db).drop (s.page * batch)).take batch
    if keys = [] then { s with paginated := true }
    else { s with page := s.page + 1, pages := s.pages ++ [keys] }

/-- The marking loop receives a page and spawns its task. -/
def Purger.receivePage (s : Purger) : Purger :=
  match s.pages with
  | [] => s
  | keys :: rest => { s with pages := rest, marking := s.marking ++ [keys] }

/-- A marking task works on its next chunk. -/
def Purger.mark (s : Purger) (task : Nat) : Purger :=
  match s.marking[task]? with
  | none => s
  | some keys =>
    let remove := (keys.take maxGetMultipleAccounts).filter (isStale accounts)
    let left := keys.drop maxGetMultipleAccounts
    { s with
      marking := if left = [] then s.marking.eraseIdx task else s.marking.set task left
      marked := if remove = [] then s.marked else s.marked ++ [remove] }

/-- The deleting loop receives marked keys and spawns their task. -/
def Purger.receiveMarked (s : Purger) : Purger :=
  match s.marked with
  | [] => s
  | keys :: rest => { s with marked := rest, purging := s.purging ++ [keys] }

/-- A deleting task runs its statement. -/
def Purger.purge (s : Purger) (task : Nat) : Purger :=
  match s.purging[task]? with
  | none => s
  | some keys => { s with db := kind.purge s.db keys, purging := s.purging.eraseIdx task }

def Purger.step (s : Purger) : PurgeEvent → Purger
  | .fetch => s.fetch kind batch
  | .receivePage => s.receivePage
  | .mark task => s.mark accounts task
  | .receiveMarked => s.receiveMarked
  | .purge task => s.purge kind task

/-- All three handles have been joined. -/
structure Purger.Finished (s : Purger) : Prop where
  paginated : s.paginated = true
  pages : s.pages = []
  marking : s.marking = []
  marked : s.marked = []
  purging : s.purging = []

/-- A step is allowed unless a deletion moves a stale row that has not been read
below the offset of the paginator, or the batch size of zero ends the reading. -/
def Purger.Allowed (s : Purger) : PurgeEvent → Prop
  | .fetch => s.paginated = true ∨ 0 < batch ∨ ∀ key ∈ kind.rows s.db, isStale accounts key = false
  | .purge task => ∀ key ∈ ((kind.rows s.db).drop (s.page * batch)).take
      ((kind.rows s.db).countP (fun key => key ∈ s.purging.getD task [])), isStale accounts key = false
  | _ => True

end Step

section Rows

theorem keys_eraseAll {R : Type} (keys : List Pubkey) (table : Table Pubkey R) :
    (keys.foldl (fun rows key => rows.erase key) table).keys = table.keys.filter (fun key => key ∉ keys) := by
  induction keys generalizing table with
  | nil => simp
  | cons first rest ih =>
    rw [List.foldl_cons, ih, AList.keys_erase, table.keys_nodup.erase_eq_filter, List.filter_filter]
    refine List.filter_congr (fun key _ => ?_)
    rw [Bool.eq_iff_iff]
    simp [and_comm]

theorem tokens_markBurnt (keys : List Pubkey) (db : Db) :
    (keys.foldl (fun db key => if (db.asset.lookup key).any (fun row => !row.burnt) then db.setBurnt key else db)
      db).tokens = db.tokens := by
  induction keys generalizing db with
  | nil => rfl
  | cons key rest ih =>
    rw [List.foldl_cons, ih]
    split
    · unfold Db.setBurnt
      split <;> rfl
    · rfl

theorem purge_rows (kind : PurgeKind) (db : Db) (keys : List Pubkey) :
    kind.rows (kind.purge db keys) = (kind.rows db).filter (fun key => key ∉ keys) := by
  cases kind with
  | tokenAccounts => exact keys_eraseAll keys db.tokenAccounts
  | mints =>
    have same := tokens_markBurnt keys
      { db with tokens := keys.foldl (fun tokens key => tokens.erase key) db.tokens }
    exact (congrArg AList.keys same).trans (keys_eraseAll keys db.tokens)

theorem rows_nodup (kind : PurgeKind) (db : Db) : (kind.rows db).Nodup := by
  cases kind with
  | tokenAccounts => exact db.tokenAccounts.keys_nodup
  | mints => exact db.tokens.keys_nodup

/-- Rows below an offset are deleted: as many rows move below it as were
deleted. -/
theorem filter_split {α : Type} {p : α → Bool} {rows : List α} {offset : Nat}
    (unread : ∀ x ∈ rows.drop offset, p x = true) :
    (rows.filter p).take offset =
        (rows.take offset).filter p ++ (rows.drop offset).take (rows.countP (fun x => !p x)) ∧
      (rows.filter p).drop offset = (rows.drop offset).drop (rows.countP (fun x => !p x)) := by
  have parts : rows.filter p = (rows.take offset).filter p ++ rows.drop offset := by
    conv_lhs => rw [← List.take_append_drop offset rows]
    rw [List.filter_append, List.filter_eq_self.mpr unread]
  have deleted : rows.countP (fun x => !p x) = (rows.take offset).countP (fun x => !p x) := by
    conv_lhs => rw [← List.take_append_drop offset rows]
    rw [List.countP_append, Nat.add_eq_left, List.countP_eq_zero]
    intro x member
    simp [unread x member]
  have total : (rows.take offset).countP (fun x => !p x) + ((rows.take offset).filter p).length =
      (rows.take offset).length := by
    rw [← List.countP_eq_length_filter, Nat.add_comm]
    simpa using (List.length_eq_countP_add_countP p (l := rows.take offset)).symm
  rw [parts, deleted]
  cases rest : rows.drop offset with
  | nil =>
    have short : ((rows.take offset).filter p).length ≤ offset :=
      (List.length_filter_le _ _).trans (List.length_take_le _ _)
    simp [List.take_of_length_le short, List.drop_eq_nil_of_le short]
  | cons x later =>
    have long : offset < rows.length := by
      rw [← List.drop_eq_nil_iff.not.trans (Nat.not_le)]
      rw [rest]
      exact List.cons_ne_nil x later
    have full : (rows.take offset).length = offset := List.length_take_of_le (Nat.le_of_lt long)
    have shift : offset - ((rows.take offset).filter p).length = (rows.take offset).countP (fun x => !p x) := by
      omega
    have short : ((rows.take offset).filter p).length ≤ offset := by omega
    constructor
    · rw [List.take_append, List.take_of_length_le short, shift]
    · rw [List.drop_append, List.drop_eq_nil_of_le short, shift, List.nil_append]

/-- Deleting rows moves no row above the offset. -/
theorem mem_take_filter {α : Type} {p : α → Bool} {rows : List α} {offset : Nat} {x : α}
    (member : x ∈ rows.take offset) (kept : p x = true) : x ∈ (rows.filter p).take offset := by
  have parts : rows.filter p = (rows.take offset).filter p ++ (rows.drop offset).filter p := by
    rw [← List.filter_append, List.take_append_drop]
  have short : ((rows.take offset).filter p).length ≤ offset :=
    (List.length_filter_le _ _).trans (List.length_take_le _ _)
  rw [parts, List.take_append, List.take_of_length_le short]
  exact List.mem_append_left _ (List.mem_filter.mpr ⟨member, kept⟩)

end Rows

section Completeness
variable {kind : PurgeKind} {accounts : AccountOwners} {batch : Nat} {s : Purger}

/-- The key was read and has not been dealt with yet. -/
def Purger.Pending (s : Purger) (key : Pubkey) : Prop :=
  key ∈ s.pages.flatten ∨ key ∈ s.marking.flatten ∨ key ∈ s.marked.flatten ∨ key ∈ s.purging.flatten

/-- Rows from the offset on are unread, and a stale row before it is on its way
to be deleted. -/
structure Purger.Sound (kind : PurgeKind) (accounts : AccountOwners) (batch : Nat) (s : Purger) : Prop where
  unread : ∀ key ∈ (kind.rows s.db).drop (s.page * batch), ¬ s.Pending key
  read : ∀ key ∈ (kind.rows s.db).take (s.page * batch), isStale accounts key = true → s.Pending key
  ended : s.paginated = true → ∀ key ∈ (kind.rows s.db).drop (s.page * batch), isStale accounts key = false

/-- A stale row that no task will delete and that the paginator has passed. -/
structure Purger.Lost (kind : PurgeKind) (accounts : AccountOwners) (batch : Nat) (s : Purger) (key : Pubkey) :
    Prop where
  passed : key ∈ (kind.rows s.db).take (s.page * batch) ∨ (batch = 0 ∧ key ∈ kind.rows s.db)
  stale : isStale accounts key = true
  idle : ¬ s.Pending key

theorem mem_flatten_set {tasks : List (List Pubkey)} {task : Nat} {keys left : List Pubkey} {key : Pubkey}
    (found : tasks[task]? = some keys) :
    key ∈ (tasks.set task left).flatten ↔ key ∈ (tasks.eraseIdx task).flatten ∨ key ∈ left := by
  obtain ⟨inBounds, isTask⟩ := List.getElem?_eq_some_iff.mp found
  rw [List.set_eq_take_append_cons_drop, if_pos inBounds, List.eraseIdx_eq_take_drop_succ]
  simp only [List.flatten_append, List.flatten_cons, List.mem_append]
  tauto

theorem mem_flatten_eraseIdx {tasks : List (List Pubkey)} {task : Nat} {keys : List Pubkey} {key : Pubkey}
    (found : tasks[task]? = some keys) :
    key ∈ tasks.flatten ↔ key ∈ (tasks.eraseIdx task).flatten ∨ key ∈ keys := by
  obtain ⟨inBounds, isTask⟩ := List.getElem?_eq_some_iff.mp found
  conv_lhs => rw [← List.set_getElem_self inBounds, isTask]
  exact mem_flatten_set found

theorem pending_receivePage (key : Pubkey) : s.receivePage.Pending key ↔ s.Pending key := by
  unfold Purger.receivePage Purger.Pending
  split
  · rfl
  · rename_i keys rest isPages
    rw [isPages]
    simp only [List.flatten_cons, List.flatten_append, List.flatten_nil, List.mem_append, List.append_nil]
    tauto

theorem pending_receiveMarked (key : Pubkey) : s.receiveMarked.Pending key ↔ s.Pending key := by
  unfold Purger.receiveMarked Purger.Pending
  split
  · rfl
  · rename_i keys rest isMarked
    rw [isMarked]
    simp only [List.flatten_cons, List.flatten_append, List.flatten_nil, List.mem_append, List.append_nil]
    tauto

theorem flatten_unlessEmpty (lists : List (List Pubkey)) (more : List Pubkey) (key : Pubkey) :
    key ∈ (if more = [] then lists else lists ++ [more]).flatten ↔ key ∈ lists.flatten ∨ key ∈ more := by
  split
  · rename_i empty
    simp [empty]
  · simp

theorem flatten_left (tasks : List (List Pubkey)) (task : Nat) {keys left : List Pubkey} (key : Pubkey)
    (found : tasks[task]? = some keys) :
    key ∈ (if left = [] then tasks.eraseIdx task else tasks.set task left).flatten ↔
      key ∈ (tasks.eraseIdx task).flatten ∨ key ∈ left := by
  split
  · rename_i empty
    simp [empty]
  · exact mem_flatten_set found

/-- Marking drops keys of live accounts only, and adds none. -/
theorem pending_mark (task : Nat) (key : Pubkey) :
    ((s.mark accounts task).Pending key → s.Pending key) ∧
      (isStale accounts key = true → s.Pending key → (s.mark accounts task).Pending key) := by
  unfold Purger.mark Purger.Pending
  split
  · exact ⟨id, fun _ => id⟩
  · rename_i keys found
    have parts : key ∈ keys ↔ key ∈ keys.take maxGetMultipleAccounts ∨ key ∈ keys.drop maxGetMultipleAccounts := by
      rw [← List.mem_append, List.take_append_drop]
    simp only [flatten_left _ _ _ found, flatten_unlessEmpty, mem_flatten_eraseIdx found, parts, List.mem_filter]
    tauto

theorem pending_purge {task : Nat} {keys : List Pubkey} (found : s.purging[task]? = some keys) (key : Pubkey) :
    s.Pending key ↔ (s.purge kind task).Pending key ∨ key ∈ keys := by
  unfold Purger.purge Purger.Pending
  rw [found]
  simp only [mem_flatten_eraseIdx found]
  tauto

/-- A step that only passes keys on: stale keys stay pending, and no key becomes
pending. -/
structure Purger.PassesOn (accounts : AccountOwners) (s t : Purger) : Prop where
  db : t.db = s.db
  page : t.page = s.page
  paginated : t.paginated = s.paginated
  fewer : ∀ key, t.Pending key → s.Pending key
  kept : ∀ key, isStale accounts key = true → s.Pending key → t.Pending key

theorem receivePage_passesOn (s : Purger) : s.PassesOn accounts s.receivePage := by
  have pending := fun key => @pending_receivePage s key
  unfold Purger.receivePage at pending ⊢
  split
  · exact ⟨rfl, rfl, rfl, fun _ => id, fun _ _ => id⟩
  · rename_i keys rest isPages
    rw [isPages] at pending
    exact ⟨rfl, rfl, rfl, fun key => (pending key).mp, fun key _ => (pending key).mpr⟩

theorem receiveMarked_passesOn (s : Purger) : s.PassesOn accounts s.receiveMarked := by
  have pending := fun key => @pending_receiveMarked s key
  unfold Purger.receiveMarked at pending ⊢
  split
  · exact ⟨rfl, rfl, rfl, fun _ => id, fun _ _ => id⟩
  · rename_i keys rest isMarked
    rw [isMarked] at pending
    exact ⟨rfl, rfl, rfl, fun key => (pending key).mp, fun key _ => (pending key).mpr⟩

theorem mark_passesOn (s : Purger) (task : Nat) : s.PassesOn accounts (s.mark accounts task) := by
  have pending := fun key => @pending_mark accounts s task key
  unfold Purger.mark at pending ⊢
  split
  · exact ⟨rfl, rfl, rfl, fun _ => id, fun _ _ => id⟩
  · rename_i keys found
    rw [found] at pending
    exact ⟨rfl, rfl, rfl, fun key => (pending key).1, fun key => (pending key).2⟩

theorem Purger.PassesOn.sound {t : Purger} (passes : s.PassesOn accounts t) (sound : s.Sound kind accounts batch) :
    t.Sound kind accounts batch where
  unread key member pending := by
    rw [passes.db, passes.page] at member
    exact sound.unread key member (passes.fewer key pending)
  read key member stale := by
    rw [passes.db, passes.page] at member
    exact passes.kept key stale (sound.read key member stale)
  ended paginated key member := by
    rw [passes.db, passes.page] at member
    exact sound.ended (passes.paginated.symm.trans paginated) key member

theorem Purger.PassesOn.lost {t : Purger} (passes : s.PassesOn accounts t) {key : Pubkey}
    (lost : s.Lost kind accounts batch key) : t.Lost kind accounts batch key where
  passed := by
    rw [passes.db, passes.page]
    exact lost.passed
  stale := lost.stale
  idle pending := lost.idle (passes.fewer key pending)

/-- What a fetch does: it ends the reading, or puts a page into the channel. -/
theorem fetch_cases (s : Purger) :
    s.fetch kind batch = s ∨
    (s.paginated = false ∧ ((kind.rows s.db).drop (s.page * batch)).take batch = [] ∧
      s.fetch kind batch = { s with paginated := true }) ∨
    (s.paginated = false ∧ s.fetch kind batch =
      { s with page := s.page + 1, pages := s.pages ++ [((kind.rows s.db).drop (s.page * batch)).take batch] }) := by
  unfold Purger.fetch
  by_cases paginated : s.paginated = true
  · rw [if_pos paginated]
    exact .inl rfl
  · rw [if_neg paginated]
    dsimp only
    split
    · exact .inr (.inl ⟨by simpa using paginated, by assumption, rfl⟩)
    · exact .inr (.inr ⟨by simpa using paginated, rfl⟩)

theorem pending_fetched (keys : List Pubkey) (key : Pubkey) :
    Purger.Pending { s with page := s.page + 1, pages := s.pages ++ [keys] } key ↔ key ∈ keys ∨ s.Pending key := by
  unfold Purger.Pending
  simp only [List.flatten_append, List.flatten_cons, List.flatten_nil, List.append_nil, List.mem_append]
  tauto

theorem fetch_sound (sound : s.Sound kind accounts batch) (allowed : s.Allowed kind accounts batch .fetch) :
    (s.fetch kind batch).Sound kind accounts batch := by
  rcases fetch_cases s with same | ⟨reading, empty, ended⟩ | ⟨reading, fetched⟩
  · rw [same]
    exact sound
  · rw [ended]
    refine ⟨sound.unread, sound.read, fun _ key member => ?_⟩
    rcases allowed with paginated | positive | live
    · rw [reading] at paginated
      cases paginated
    · rcases List.take_eq_nil_iff.mp empty with zero | none
      · omega
      · rw [none] at member
        cases member
    · exact live key (List.mem_of_mem_drop member)
  · rw [fetched]
    have nodup := rows_nodup kind s.db
    refine ⟨fun key member pending => ?_, fun key member stale => ?_, fun paginated => ?_⟩
    · rw [Nat.succ_mul, ← List.drop_drop] at member
      rcases (pending_fetched _ key).mp pending with inPage | old
      · exact List.disjoint_take_drop (nodup.sublist (List.drop_sublist _ _)) (Nat.le_refl batch) inPage member
      · exact sound.unread key (List.mem_of_mem_drop member) old
    · rw [Nat.succ_mul, List.take_add] at member
      refine (pending_fetched _ key).mpr ?_
      rcases List.mem_append.mp member with old | new
      · exact .inr (sound.read key old stale)
      · exact .inl new
    · rw [reading] at paginated
      cases paginated

theorem fetch_lost {key : Pubkey} (lost : s.Lost kind accounts batch key) :
    (s.fetch kind batch).Lost kind accounts batch key := by
  rcases fetch_cases s with same | ⟨reading, empty, ended⟩ | ⟨reading, fetched⟩
  · rw [same]
    exact lost
  · rw [ended]
    exact ⟨lost.passed, lost.stale, lost.idle⟩
  · rw [fetched]
    have nodup := rows_nodup kind s.db
    refine ⟨?_, lost.stale, fun pending => ?_⟩
    · rcases lost.passed with passed | zero
      · left
        rw [Nat.succ_mul, List.take_add]
        exact List.mem_append_left _ passed
      · exact .inr zero
    · rcases (pending_fetched _ key).mp pending with inPage | old
      · rcases lost.passed with passed | zero
        · exact List.disjoint_take_drop nodup (Nat.le_refl _) passed (List.mem_of_mem_take inPage)
        · rw [zero.1, List.take_zero] at inPage
          cases inPage
      · exact lost.idle old

/-- What a deletion does to the rows on both sides of the offset. -/
theorem purge_rows_split (sound : s.Sound kind accounts batch) {task : Nat} {keys : List Pubkey}
    (found : s.purging[task]? = some keys) :
    (kind.rows (kind.purge s.db keys)).take (s.page * batch) =
        ((kind.rows s.db).take (s.page * batch)).filter (fun key => key ∉ keys) ++
          ((kind.rows s.db).drop (s.page * batch)).take ((kind.rows s.db).countP (fun key => key ∈ keys)) ∧
      (kind.rows (kind.purge s.db keys)).drop (s.page * batch) =
        ((kind.rows s.db).drop (s.page * batch)).drop ((kind.rows s.db).countP (fun key => key ∈ keys)) := by
  have unread : ∀ key ∈ (kind.rows s.db).drop (s.page * batch), decide (key ∉ keys) = true := by
    intro key member
    refine decide_eq_true (fun inKeys => sound.unread key member ?_)
    exact .inr (.inr (.inr ((mem_flatten_eraseIdx found).mpr (.inr inKeys))))
  have counts : (kind.rows s.db).countP (fun key => !decide (key ∉ keys)) =
      (kind.rows s.db).countP (fun key => key ∈ keys) := by
    refine List.countP_congr (fun key _ => ?_)
    simp
  rw [purge_rows, ← counts]
  exact filter_split unread

theorem purge_sound {task : Nat} (sound : s.Sound kind accounts batch)
    (allowed : s.Allowed kind accounts batch (.purge task)) : (s.purge kind task).Sound kind accounts batch := by
  cases found : s.purging[task]? with
  | none =>
    unfold Purger.purge
    rw [found]
    exact sound
  | some keys =>
    obtain ⟨below, above⟩ := purge_rows_split sound found
    have after : s.purge kind task = { s with db := kind.purge s.db keys, purging := s.purging.eraseIdx task } := by
      unfold Purger.purge
      rw [found]
    have pending := fun key => @pending_purge kind s task keys found key
    have live : ∀ key ∈ ((kind.rows s.db).drop (s.page * batch)).take
        ((kind.rows s.db).countP (fun key => key ∈ keys)), isStale accounts key = false := by
      have isKeys : s.purging.getD task [] = keys := by rw [List.getD_eq_getElem?_getD, found, Option.getD_some]
      rw [← isKeys]
      exact allowed
    refine ⟨fun key member inTasks => ?_, fun key member stale => ?_, fun paginated key member => ?_⟩
    · rw [after] at member
      dsimp only at member
      rw [above] at member
      exact sound.unread key (List.mem_of_mem_drop member) ((pending key).mpr (.inl inTasks))
    · rw [after] at member
      dsimp only at member
      rw [below] at member
      rcases List.mem_append.mp member with old | moved
      · obtain ⟨inTake, notKey⟩ := List.mem_filter.mp old
        rcases (pending key).mp (sound.read key inTake stale) with still | inKeys
        · exact still
        · exact absurd inKeys (of_decide_eq_true notKey)
      · rw [live key moved] at stale
        cases stale
    · rw [after] at member paginated
      dsimp only at member paginated
      rw [above] at member
      exact sound.ended paginated key (List.mem_of_mem_drop member)

theorem purge_lost {task : Nat} {key : Pubkey} (lost : s.Lost kind accounts batch key) :
    (s.purge kind task).Lost kind accounts batch key := by
  cases found : s.purging[task]? with
  | none =>
    unfold Purger.purge
    rw [found]
    exact lost
  | some keys =>
    have pending := @pending_purge kind s task keys found key
    have kept : decide (key ∉ keys) = true := decide_eq_true (fun inKeys => lost.idle (pending.mpr (.inr inKeys)))
    have after : s.purge kind task = { s with db := kind.purge s.db keys, purging := s.purging.eraseIdx task } := by
      unfold Purger.purge
      rw [found]
    refine ⟨?_, lost.stale, fun still => lost.idle (pending.mpr (.inl still))⟩
    rw [after]
    dsimp only
    rw [purge_rows]
    rcases lost.passed with passed | zero
    · exact .inl (mem_take_filter passed kept)
    · exact .inr ⟨zero.1, List.mem_filter.mpr ⟨zero.2, kept⟩⟩

theorem step_sound (s : Purger) (event : PurgeEvent) (sound : s.Sound kind accounts batch)
    (allowed : s.Allowed kind accounts batch event) : (s.step kind accounts batch event).Sound kind accounts batch := by
  cases event with
  | fetch => exact fetch_sound sound allowed
  | receivePage => exact (receivePage_passesOn s).sound sound
  | mark task => exact (mark_passesOn s task).sound sound
  | receiveMarked => exact (receiveMarked_passesOn s).sound sound
  | purge task => exact purge_sound sound allowed

theorem step_lost (s : Purger) (event : PurgeEvent) (lost : ∃ key, s.Lost kind accounts batch key) :
    ∃ key, (s.step kind accounts batch event).Lost kind accounts batch key := by
  obtain ⟨key, lost⟩ := lost
  refine ⟨key, ?_⟩
  cases event with
  | fetch => exact fetch_lost lost
  | receivePage => exact (receivePage_passesOn s).lost lost
  | mark task => exact (mark_passesOn s task).lost lost
  | receiveMarked => exact (receiveMarked_passesOn s).lost lost
  | purge task => exact purge_lost lost

/-- A step that is not allowed loses a row. -/
theorem step_loses (s : Purger) (event : PurgeEvent) (sound : s.Sound kind accounts batch)
    (refused : ¬ s.Allowed kind accounts batch event) :
    ∃ key, (s.step kind accounts batch event).Lost kind accounts batch key := by
  cases event with
  | receivePage => exact absurd trivial refused
  | mark task => exact absurd trivial refused
  | receiveMarked => exact absurd trivial refused
  | fetch =>
    have stale : ¬ ∀ key ∈ kind.rows s.db, isStale accounts key = false := fun live => refused (.inr (.inr live))
    have zero : batch = 0 := by
      by_contra positive
      exact refused (.inr (.inl (Nat.pos_of_ne_zero positive)))
    push Not at stale
    obtain ⟨key, member, isStale⟩ := stale
    have lost : s.Lost kind accounts batch key := by
      refine ⟨.inr ⟨zero, member⟩, by simpa using isStale, sound.unread key ?_⟩
      rw [zero, Nat.mul_zero]
      exact member
    exact ⟨key, fetch_lost lost⟩
  | purge task =>
    unfold Purger.Allowed at refused
    push Not at refused
    obtain ⟨key, moved, isStale⟩ := refused
    cases found : s.purging[task]? with
    | none =>
      rw [List.getD_eq_getElem?_getD, found, Option.getD_none] at moved
      simp at moved
    | some keys =>
      rw [List.getD_eq_getElem?_getD, found, Option.getD_some] at moved
      have pending := @pending_purge kind s task keys found key
      have after : s.purge kind task = { s with db := kind.purge s.db keys, purging := s.purging.eraseIdx task } := by
        unfold Purger.purge
        rw [found]
      refine ⟨key, .inl ?_, by simpa using isStale, fun still => ?_⟩
      · show key ∈ (kind.rows (s.purge kind task).db).take ((s.purge kind task).page * batch)
        rw [after]
        dsimp only
        rw [(purge_rows_split sound found).1]
        exact List.mem_append_right _ moved
      · exact sound.unread key (List.mem_of_mem_take moved) (pending.mpr (.inl still))

theorem start_sound (db : Db) : Purger.Sound kind accounts batch { db } where
  unread key _ pending := by
    rcases pending with inTasks | inTasks | inTasks | inTasks <;> cases inTasks
  read key member := by
    rw [Nat.zero_mul, List.take_zero] at member
    cases member
  ended paginated := by cases paginated

theorem Purger.Finished.idle (finished : s.Finished) (key : Pubkey) : ¬ s.Pending key := by
  unfold Purger.Pending
  rw [finished.pages, finished.marking, finished.marked, finished.purging]
  simp

/-- When a purge has finished, every stale row is deleted exactly when no
deletion of the run moved a stale row that was still to be read below the
offset of the paginator. -/
theorem purge_complete_iff (kind : PurgeKind) (accounts : AccountOwners) (batch : Nat) (db : Db)
    (events : List PurgeEvent) (finished : (events.foldl (Purger.step kind accounts batch) { db }).Finished) :
    (∀ key ∈ kind.rows (events.foldl (Purger.step kind accounts batch) { db }).db, isStale accounts key = false) ↔
      Runs.Along (Purger.step kind accounts batch) (Purger.Allowed kind accounts batch) { db } events := by
  have start : Purger.Sound kind accounts batch { db } := start_sound db
  rcases @Runs.Along.or_broken _ _ _ _ _ _ _ events step_sound step_loses step_lost start with
    ⟨along, sound⟩ | ⟨notAlong, lost⟩
  · refine ⟨fun _ => along, fun _ key member => ?_⟩
    rw [← List.take_append_drop ((events.foldl (Purger.step kind accounts batch) { db }).page * batch)
      (kind.rows _)] at member
    rcases List.mem_append.mp member with read | unread
    · by_contra stale
      exact finished.idle key (sound.read key read (by simpa using stale))
    · exact sound.ended finished.paginated key unread
  · refine ⟨fun live => ?_, fun along => absurd along notAlong⟩
    obtain ⟨key, passed, stale, -⟩ := lost
    have member : key ∈ kind.rows (events.foldl (Purger.step kind accounts batch) { db }).db := by
      rcases passed with inTake | zero
      · exact List.mem_of_mem_take inTake
      · exact zero.2
    rw [live key member] at stale
    cases stale

end Completeness

section Example

instance Purger.Allowed.decidable (kind : PurgeKind) (accounts : AccountOwners) (batch : Nat) (s : Purger) :
    ∀ event, Decidable (s.Allowed kind accounts batch event)
  | .fetch => inferInstanceAs (Decidable (_ ∨ _))
  | .receivePage => inferInstanceAs (Decidable True)
  | .mark _ => inferInstanceAs (Decidable True)
  | .receiveMarked => inferInstanceAs (Decidable True)
  | .purge _ => inferInstanceAs (Decidable (∀ key ∈ _, _))

def closedAccount : TokenAccountRow where
  mint := .zero
  amount := 0
  owner := .zero
  frozen := false
  closeAuthority := none
  delegate := none
  delegatedAmount := 0
  slotUpdated := 0
  tokenProgram := tokenProgramId
  extensions := none

/-- Two rows of accounts that no longer exist. -/
def twoClosed : Db :=
  { tokenAccounts := (AList.insert (.fill 1) closedAccount (AList.singleton (.fill 2) closedAccount)) }

/-- The first row is deleted before the second page is read. -/
def hastyPurge : List PurgeEvent := [.fetch, .receivePage, .mark 0, .receiveMarked, .purge 0, .fetch]

/-- All pages are read before the first deletion. -/
def patientPurge : List PurgeEvent :=
  [.fetch, .fetch, .fetch, .receivePage, .mark 0, .receivePage, .mark 0,
    .receiveMarked, .purge 0, .receiveMarked, .purge 0]

theorem hasty_purge_skips :
    (hastyPurge.foldl (Purger.step .tokenAccounts (fun _ => none) 1) { db := twoClosed }).Finished ∧
      PurgeKind.rows .tokenAccounts
        (hastyPurge.foldl (Purger.step .tokenAccounts (fun _ => none) 1) { db := twoClosed }).db = [.fill 2] ∧
      isStale (fun _ => none) (.fill 2) = true :=
  ⟨⟨rfl, rfl, rfl, rfl, rfl⟩, rfl, rfl⟩

theorem patient_purge_complete :
    (patientPurge.foldl (Purger.step .tokenAccounts (fun _ => none) 1) { db := twoClosed }).Finished ∧
      ∀ key ∈ PurgeKind.rows .tokenAccounts
        (patientPurge.foldl (Purger.step .tokenAccounts (fun _ => none) 1) { db := twoClosed }).db,
        isStale (fun _ => none) key = false := by
  have finished :
      (patientPurge.foldl (Purger.step .tokenAccounts (fun _ => none) 1) { db := twoClosed }).Finished :=
    ⟨rfl, rfl, rfl, rfl, rfl⟩
  refine ⟨finished, (purge_complete_iff .tokenAccounts (fun _ => none) 1 twoClosed patientPurge finished).mpr ?_⟩
  decide

end Example
end DasIndexer.Ops
