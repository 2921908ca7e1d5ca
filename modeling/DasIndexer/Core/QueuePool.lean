import DasIndexer.Bytes
import DasIndexer.Lib.Loops
import DasIndexer.Lib.Runs

namespace DasIndexer.Core

inductive StreamKey where
  | account
  | accountBackfill
  | slot
  | transaction
  | transactionBackfill
  | block
  deriving DecidableEq, Repr

structure QueueArgs where
  messengerRedisUrl : String
  messengerRedisBatchSize : String
  messengerQueueConnections : UInt64

structure MessengerConfig where
  connectionConfig : List (String × String)

def QueueArgs.toConfig (args : QueueArgs) : MessengerConfig where
  connectionConfig := [("batch_size", args.messengerRedisBatchSize), ("pipeline_size_bytes", "1"),
    ("redis_connection_str", args.messengerRedisUrl)]

/-- The messengers of the crate `plerkle_messenger`, and the errors of their
connections. The attempts to connect are numbered. -/
class MessengerCrate where
  Messenger : Type
  MessengerError : Type
  selectMessenger : Nat → MessengerConfig → Except MessengerError Messenger
  addStream : Messenger → StreamKey → Except MessengerError Messenger
  setBufferSize : Messenger → StreamKey → Nat → Messenger

export MessengerCrate (Messenger MessengerError)

section Pool
variable [MessengerCrate]

inductive QueuePoolError where
  | messenger (error : MessengerError)
  | trySendMessengerChannel (messenger : Messenger)
  | recvMessengerConnection
  | sendMessengerChannel (messenger : Messenger)

/-- How far a call of `push` has come. From `receiving` to `returning` it holds the
lock of the receiver. -/
inductive Progress where
  | locking (streamKey : StreamKey) (bytes : Bytes)
  | receiving (streamKey : StreamKey) (bytes : Bytes)
  | sending (messenger : Messenger) (streamKey : StreamKey) (bytes : Bytes)
  | returning (messenger : Messenger)
  | done (result : Except QueuePoolError Unit)

namespace Progress

def holdsLock : Progress → Bool
  | receiving .. | sending .. | returning .. => true
  | locking .. | done .. => false

def messengers : Progress → Nat
  | sending .. | returning .. => 1
  | locking .. | receiving .. | done .. => 0

def running : Progress → Bool
  | done .. => false
  | _ => true

end Progress

/-- A pool with the clones that share it and all calls of `push` so far. Every
clone has a sender of the channel and a share of its receiver. -/
structure QueuePool (Push : Type) where
  clones : Nat
  capacity : Nat
  channel : List Messenger
  lock : Option Push
  pushes : Push → Option Progress

namespace QueuePool
variable {Push : Type}

/-- `usize::MAX >> 3`, the greatest buffer of a channel. -/
def maxPermits : Nat := 2 ^ 61 - 1

/-- A pool with an empty channel. A channel without a buffer, or with one that is
too large, panics. -/
def empty (buffer : Nat) : Option (QueuePool Push) :=
  if 0 < buffer ∧ buffer ≤ maxPermits then
    some { clones := 1, capacity := buffer, channel := [], lock := none, pushes := fun _ => none }
  else none

def trySend (pool : QueuePool Push) (messenger : Messenger) : Except QueuePoolError (QueuePool Push) :=
  if pool.channel.length < pool.capacity then .ok { pool with channel := pool.channel ++ [messenger] }
  else .error (.trySendMessengerChannel messenger)

def streams : List (StreamKey × Nat) :=
  [(.account, 100000000), (.accountBackfill, 100000000), (.slot, 100000), (.transaction, 10000000),
    (.transactionBackfill, 10000000), (.block, 100000)]

def addStreams (messenger : Messenger) : Except MessengerError Messenger :=
  streams.foldlM (fun messenger stream => do
    let added ← MessengerCrate.addStream messenger stream.1
    return MessengerCrate.setBufferSize added stream.1 stream.2) messenger

/-- One turn of the loop over the connections. -/
def connect (config : QueueArgs) (pool : QueuePool Push) (attempt : Nat) : Except QueuePoolError (QueuePool Push) :=
  match MessengerCrate.selectMessenger attempt config.toConfig >>= addStreams with
  | .error problem => .error (.messenger problem)
  | .ok messenger => pool.trySend messenger

def tryFromConfig (config : QueueArgs) : Option (Except QueuePoolError (QueuePool Push)) := do
  let pool ← empty config.messengerQueueConnections.toNat
  return (List.range config.messengerQueueConnections.toNat).foldlM (connect config) pool

variable [DecidableEq Push]

/-- A step of one call of `push`, or a pool handle that is cloned or dropped. -/
inductive Action (Push : Type) where
  | start (push : Push) (streamKey : StreamKey) (bytes : Bytes)
  | takeLock (push : Push)
  | recv (push : Push)
  | send (push : Push) (sent : Except MessengerError Messenger)
  | giveBack (push : Push)
  | clone
  | drop

/-- The number of failed sends in an action. -/
def Action.failed : Action Push → Nat
  | send _ (.error _) => 1
  | _ => 0

def advance (pool : QueuePool Push) (push : Push) (progress : Progress) : QueuePool Push :=
  { pool with pushes := Function.update pool.pushes push (some progress) }

/-- A call returns and drops the guard of the lock. -/
def finish (pool : QueuePool Push) (push : Push) (result : Except QueuePoolError Unit) : QueuePool Push :=
  { pool.advance push (.done result) with lock := none }

/-- What an action does, unless it has to wait. A call borrows a handle, so the
last one is not dropped before it returns. -/
def step (pool : QueuePool Push) : Action Push → Option (QueuePool Push)
  | .start push streamKey bytes =>
    if pool.clones ≠ 0 ∧ (pool.pushes push).isNone then some (pool.advance push (.locking streamKey bytes)) else none
  | .takeLock push => match pool.pushes push, pool.lock with
    | some (.locking streamKey bytes), none =>
      some { pool.advance push (.receiving streamKey bytes) with lock := some push }
    | _, _ => none
  | .recv push => match pool.pushes push with
    | some (.receiving streamKey bytes) => match pool.channel with
      | messenger :: rest => some { pool.advance push (.sending messenger streamKey bytes) with channel := rest }
      | [] => if pool.clones = 0 then some (pool.finish push (.error .recvMessengerConnection)) else none
    | _ => none
  | .send push sent => match pool.pushes push with
    | some (.sending _ _ _) => match sent with
      | .ok messenger => some (pool.advance push (.returning messenger))
      | .error problem => some (pool.finish push (.error (.messenger problem)))
    | _ => none
  | .giveBack push => match pool.pushes push with
    | some (.returning messenger) =>
      if pool.clones = 0 then some (pool.finish push (.error (.sendMessengerChannel messenger)))
      else if pool.channel.length < pool.capacity then
        some { pool.finish push (.ok ()) with channel := pool.channel ++ [messenger] }
      else none
    | _ => none
  | .clone => if pool.clones ≠ 0 then some { pool with clones := pool.clones + 1 } else none
  | .drop => if 1 < pool.clones then some { pool with clones := pool.clones - 1 } else none

/-- The failed sends of a run. -/
def failures (actions : List (Action Push)) : Nat := (actions.map Action.failed).sum

def Idle (pool : QueuePool Push) : Prop :=
  ∀ push, ∀ progress ∈ pool.pushes push, progress.running = false

def InProgress (pool : QueuePool Push) (push : Push) : Prop :=
  ∃ progress, pool.pushes push = some progress ∧ progress.running = true

/-- The call need not wait for ever: it returns in some continuation. -/
def CanFinish (pool : QueuePool Push) (push : Push) : Prop :=
  ∃ actions later result, Runs.Reaches step pool actions later ∧ later.pushes push = some (.done result)

section Conservation
variable {total failed : Nat} {pool later : QueuePool Push} {push : Push}

/-- The messengers that calls have taken out of the channel. -/
def held (pool : QueuePool Push) : Nat :=
  ((pool.lock.bind pool.pushes).map Progress.messengers).getD 0

/-- The holder of the lock is the call that is between `receiving` and `returning`,
and a messenger is in the channel, with the holder, or lost to a failed send. -/
structure Conserved (total failed : Nat) (pool : QueuePool Push) : Prop where
  capacity : pool.capacity = total
  shared : pool.clones ≠ 0
  holder : ∀ push, pool.lock = some push ↔ ∃ progress, pool.pushes push = some progress ∧ progress.holdsLock = true
  counted : pool.channel.length + pool.held + failed = total

omit [DecidableEq Push] in
theorem held_holder {progress : Progress} (locked : pool.lock = some push)
    (found : pool.pushes push = some progress) : pool.held = progress.messengers := by
  simp only [held, locked, Option.bind_some, found, Option.map_some, Option.getD_some]

omit [DecidableEq Push] in
theorem held_unlocked (unlocked : pool.lock = none) : pool.held = 0 := by
  simp only [held, unlocked, Option.bind_none, Option.map_none, Option.getD_none]

theorem advance_self (pool : QueuePool Push) (push : Push) (progress : Progress) : (pool.advance push progress).pushes push = some progress :=
  Function.update_self ..

theorem advance_other (pool : QueuePool Push) {other : Push} (different : other ≠ push) (progress : Progress) :
    (pool.advance push progress).pushes other = pool.pushes other :=
  Function.update_of_ne different ..

theorem Conserved.advance {old new : Progress} {channel : List Messenger} (conserved : Conserved total failed pool)
    (found : pool.pushes push = some old) (holds : old.holdsLock = true) (still : new.holdsLock = true)
    (balance : channel.length + new.messengers = pool.channel.length + old.messengers) :
    Conserved total failed { pool.advance push new with channel := channel } where
  capacity := conserved.capacity
  shared := conserved.shared
  holder other := by
    by_cases isPush : other = push
    · subst isPush
      have locked := (conserved.holder other).mpr ⟨old, found, holds⟩
      exact ⟨fun _ => ⟨new, advance_self pool _ new, still⟩, fun _ => locked⟩
    · have same := advance_other pool isPush new
      show pool.lock = some other ↔ ∃ progress, (pool.advance push new).pushes other = some progress ∧ _
      rw [same]
      exact conserved.holder other
  counted := by
    have locked := (conserved.holder push).mpr ⟨old, found, holds⟩
    have before := held_holder locked found
    have after : QueuePool.held { pool.advance push new with channel := channel } = new.messengers :=
      @held_holder _ _ _ push _ locked (advance_self pool _ new)
    have counted := conserved.counted
    show channel.length + _ + failed = total
    omega

theorem Conserved.finish {old : Progress} {result : Except QueuePoolError Unit} {channel : List Messenger} {lost : Nat}
    (conserved : Conserved total failed pool) (found : pool.pushes push = some old) (holds : old.holdsLock = true)
    (balance : channel.length + lost = pool.channel.length + old.messengers) :
    Conserved total (failed + lost) { pool.finish push result with channel := channel } where
  capacity := conserved.capacity
  shared := conserved.shared
  holder other := by
    have locked := (conserved.holder push).mpr ⟨old, found, holds⟩
    constructor
    · intro none
      cases none
    · rintro ⟨progress, atOther, isHolder⟩
      by_cases isPush : other = push
      · subst isPush
        have atPush : (pool.finish other result).pushes other = some (.done result) := advance_self pool _ (.done result)
        cases atPush.symm.trans atOther
        cases isHolder
      · have before := (advance_other pool isPush (.done result)).symm.trans atOther
        have same := (conserved.holder other).mpr ⟨progress, before, isHolder⟩
        rw [locked] at same
        cases same
        exact absurd rfl isPush
  counted := by
    have locked := (conserved.holder push).mpr ⟨old, found, holds⟩
    have before := held_holder locked found
    have after : QueuePool.held { pool.finish push result with channel := channel } = 0 := held_unlocked rfl
    have counted := conserved.counted
    show channel.length + _ + (failed + lost) = total
    omega

theorem Conserved.start {progress : Progress} (conserved : Conserved total failed pool)
    (fresh : pool.pushes push = none) (unlocked : progress.holdsLock = false) :
    Conserved total failed (pool.advance push progress) := by
  have notHolder : pool.lock ≠ some push := by
    intro locked
    obtain ⟨progress, found, _⟩ := (conserved.holder push).mp locked
    rw [fresh] at found
    cases found
  refine ⟨conserved.capacity, conserved.shared, fun other => ?_, ?_⟩
  · by_cases isPush : other = push
    · subst isPush
      constructor
      · intro locked
        exact absurd locked notHolder
      · rintro ⟨new, found, isHolder⟩
        cases (advance_self pool other progress).symm.trans found
        rw [unlocked] at isHolder
        cases isHolder
    · rw [advance_other pool isPush progress]
      exact conserved.holder other
  · have same : (pool.advance push progress).held = pool.held := by
      cases locked : pool.lock with
      | none =>
        have after : (pool.advance push progress).lock = none := locked
        rw [held_unlocked after, held_unlocked locked]
      | some holder =>
        obtain ⟨old, found, _⟩ := (conserved.holder holder).mp locked
        have different : holder ≠ push := by
          intro isPush
          rw [locked, isPush] at notHolder
          exact notHolder rfl
        have after : (pool.advance push progress).lock = some holder := locked
        rw [held_holder after ((advance_other pool different progress).trans found), held_holder locked found]
    rw [same]
    exact conserved.counted

theorem Conserved.takeLock {new : Progress} (conserved : Conserved total failed pool) (unlocked : pool.lock = none)
    (holds : new.holdsLock = true) (empty : new.messengers = 0) :
    Conserved total failed { pool.advance push new with lock := some push } := by
  have free : ∀ other progress, pool.pushes other = some progress → progress.holdsLock ≠ true := by
    intro other progress found isHolder
    have locked := (conserved.holder other).mpr ⟨progress, found, isHolder⟩
    rw [unlocked] at locked
    cases locked
  refine ⟨conserved.capacity, conserved.shared, fun other => ?_, ?_⟩
  · by_cases isPush : other = push
    · subst isPush
      exact ⟨fun _ => ⟨new, advance_self pool _ new, holds⟩, fun _ => rfl⟩
    · constructor
      · intro locked
        cases locked
        exact absurd rfl isPush
      · rintro ⟨progress, found, isHolder⟩
        exact absurd isHolder (free other progress ((advance_other pool isPush new).symm.trans found))
  · have counted := conserved.counted
    have before := held_unlocked unlocked
    have after : QueuePool.held { pool.advance push new with lock := some push } = new.messengers :=
      @held_holder _ _ _ push _ rfl (advance_self pool _ new)
    show pool.channel.length + _ + failed = total
    omega

/-- The actions of a pool that still has a handle. -/
inductive Moves (pool : QueuePool Push) : Action Push → QueuePool Push → Prop where
  | start {push streamKey bytes} (fresh : pool.pushes push = none) :
    Moves pool (.start push streamKey bytes) (pool.advance push (.locking streamKey bytes))
  | takeLock {push streamKey bytes} (found : pool.pushes push = some (.locking streamKey bytes))
    (unlocked : pool.lock = none) :
    Moves pool (.takeLock push) { pool.advance push (.receiving streamKey bytes) with lock := some push }
  | recv {push streamKey bytes messenger rest} (found : pool.pushes push = some (.receiving streamKey bytes))
    (waiting : pool.channel = messenger :: rest) :
    Moves pool (.recv push) { pool.advance push (.sending messenger streamKey bytes) with channel := rest }
  | sent {push streamKey bytes messenger after} (found : pool.pushes push = some (.sending messenger streamKey bytes)) :
    Moves pool (.send push (.ok after)) (pool.advance push (.returning after))
  | failed {push streamKey bytes messenger problem}
    (found : pool.pushes push = some (.sending messenger streamKey bytes)) :
    Moves pool (.send push (.error problem)) (pool.finish push (.error (.messenger problem)))
  | giveBack {push messenger} (found : pool.pushes push = some (.returning messenger))
    (room : pool.channel.length < pool.capacity) :
    Moves pool (.giveBack push) { pool.finish push (.ok ()) with channel := pool.channel ++ [messenger] }
  | clone : Moves pool .clone { pool with clones := pool.clones + 1 }
  | drop (others : 1 < pool.clones) : Moves pool .drop { pool with clones := pool.clones - 1 }

theorem step_iff {action : Action Push} (shared : pool.clones ≠ 0) :
    pool.step action = some later ↔ Moves pool action later := by
  constructor
  · intro happened
    cases action with
    | start push streamKey bytes =>
      obtain ⟨⟨_, isNew⟩, same⟩ := Option.ite_none_right_eq_some.mp happened
      cases same
      exact .start (Option.isNone_iff_eq_none.mp isNew)
    | takeLock push =>
      simp only [step] at happened
      split at happened
      · rename_i streamKey bytes found unlocked
        cases happened
        exact .takeLock found unlocked
      · cases happened
    | recv push =>
      simp only [step] at happened
      split at happened
      · rename_i streamKey bytes found
        split at happened
        · rename_i messenger rest waiting
          cases happened
          exact .recv found waiting
        · rw [if_neg shared] at happened
          cases happened
      · cases happened
    | send push sent =>
      simp only [step] at happened
      split at happened
      · rename_i messenger streamKey bytes found
        cases sent with
        | ok after =>
          cases happened
          exact .sent found
        | error problem =>
          cases happened
          exact .failed found
      · cases happened
    | giveBack push =>
      simp only [step] at happened
      split at happened
      · rename_i messenger found
        rw [if_neg shared] at happened
        obtain ⟨room, same⟩ := Option.ite_none_right_eq_some.mp happened
        cases same
        exact .giveBack found room
      · cases happened
    | clone =>
      obtain ⟨_, same⟩ := Option.ite_none_right_eq_some.mp happened
      cases same
      exact .clone
    | drop =>
      obtain ⟨others, same⟩ := Option.ite_none_right_eq_some.mp happened
      cases same
      exact .drop others
  · intro moves
    cases moves with
    | start fresh => simp [step, shared, fresh]
    | takeLock found unlocked => simp [step, found, unlocked]
    | recv found waiting => simp [step, found, waiting]
    | sent found => simp [step, found]
    | failed found => simp [step, found]
    | giveBack found room => simp [step, found, shared, room]
    | clone => simp [step, shared]
    | drop others => simp [step, others]

/-- One action keeps account of every messenger. -/
theorem Conserved.step {action : Action Push} (conserved : Conserved total failed pool)
    (happened : pool.step action = some later) : Conserved total (failed + action.failed) later := by
  cases (step_iff conserved.shared).mp happened with
  | start fresh => exact conserved.start fresh rfl
  | takeLock found unlocked => exact conserved.takeLock unlocked rfl rfl
  | recv found waiting =>
    refine conserved.advance found rfl rfl ?_
    rw [waiting]
    rfl
  | sent found => exact conserved.advance found rfl rfl rfl
  | failed found => exact conserved.finish found rfl rfl
  | giveBack found room =>
    refine conserved.finish found rfl ?_
    rw [List.length_append]
    rfl
  | clone => exact ⟨conserved.capacity, Nat.succ_ne_zero _, conserved.holder, conserved.counted⟩
  | drop others => exact ⟨conserved.capacity, Nat.sub_ne_zero_of_lt others, conserved.holder, conserved.counted⟩

theorem Conserved.run {actions : List (Action Push)} (conserved : Conserved total failed pool)
    (run : Runs.Reaches QueuePool.step pool actions later) : Conserved total (failed + failures actions) later :=
  run.counted (fun _ _ _ _ => Conserved.step) conserved

omit [DecidableEq Push] in
theorem Conserved.idle (conserved : Conserved total failed pool) (idle : pool.Idle) :
    pool.channel.length + failed = total := by
  have unlocked : pool.lock = none := by
    cases locked : pool.lock with
    | none => rfl
    | some push =>
      obtain ⟨progress, found, holds⟩ := (conserved.holder push).mp locked
      have stopped := idle push progress found
      cases progress <;> simp_all [Progress.holdsLock, Progress.running]
  have counted := conserved.counted
  rw [held_unlocked unlocked] at counted
  omega

/-- In some continuation without failed sends the call returns and leaves the lock
free, while no other call moves. -/
def Frees (pool : QueuePool Push) (push : Push) : Prop :=
  ∃ actions later, Runs.Reaches step pool actions later ∧ failures actions = 0 ∧ later.lock = none ∧
    later.pushes push = some (.done (.ok ())) ∧ ∀ other, other ≠ push → later.pushes other = pool.pushes other

theorem Frees.after {action : Action Push} (happened : pool.step action = some later) (sound : action.failed = 0)
    (others : ∀ other, other ≠ push → later.pushes other = pool.pushes other) (frees : later.Frees push) :
    pool.Frees push := by
  obtain ⟨actions, freed, run, noneFailed, unlocked, returned, still⟩ := frees
  refine ⟨action :: actions, freed, ⟨later, happened, run⟩, ?_, unlocked, returned, ?_⟩
  · rw [failures, List.map_cons, List.sum_cons, sound]
    exact (Nat.zero_add _).trans noneFailed
  · intro other different
    exact (still other different).trans (others other different)

theorem Conserved.frees_returning {messenger : Messenger} (conserved : Conserved total failed pool)
    (found : pool.pushes push = some (.returning messenger)) : pool.Frees push := by
  have locked := (conserved.holder push).mpr ⟨_, found, rfl⟩
  have counted := conserved.counted
  rw [held_holder locked found, ← conserved.capacity] at counted
  have room : pool.channel.length < pool.capacity := by
    simp only [Progress.messengers] at counted
    omega
  have happened := (step_iff conserved.shared).mpr (.giveBack found room)
  exact ⟨[.giveBack push], _, ⟨_, happened, rfl⟩, rfl, rfl, advance_self pool push _,
    fun other different => advance_other pool different _⟩

theorem Conserved.frees_sending {messenger : Messenger} {streamKey : StreamKey} {bytes : Bytes}
    (conserved : Conserved total failed pool)
    (found : pool.pushes push = some (.sending messenger streamKey bytes)) : pool.Frees push := by
  have moves : Moves pool (.send push (.ok messenger)) (pool.advance push (.returning messenger)) := .sent found
  have happened := (step_iff conserved.shared).mpr moves
  refine .after happened rfl (fun other different => advance_other pool different _) ?_
  exact (conserved.step happened).frees_returning (advance_self pool push _)

/-- A call that waits for a messenger gets one as long as not all are lost. -/
theorem Conserved.frees_receiving {streamKey : StreamKey} {bytes : Bytes} (conserved : Conserved total failed pool)
    (left : failed < total) (found : pool.pushes push = some (.receiving streamKey bytes)) : pool.Frees push := by
  have locked := (conserved.holder push).mpr ⟨_, found, rfl⟩
  have counted := conserved.counted
  rw [held_holder locked found] at counted
  cases waiting : pool.channel with
  | nil =>
    rw [waiting] at counted
    simp only [Progress.messengers, List.length_nil] at counted
    omega
  | cons messenger rest =>
    have happened := (step_iff conserved.shared).mpr (.recv found waiting)
    refine .after happened rfl (fun other different => advance_other pool different _) ?_
    exact (conserved.step happened).frees_sending (advance_self pool push _)

theorem Conserved.frees_locking {streamKey : StreamKey} {bytes : Bytes} (conserved : Conserved total failed pool)
    (left : failed < total) (unlocked : pool.lock = none)
    (found : pool.pushes push = some (.locking streamKey bytes)) : pool.Frees push := by
  have happened := (step_iff conserved.shared).mpr (.takeLock found unlocked)
  refine .after happened rfl (fun other different => advance_other pool different _) ?_
  exact (conserved.step happened).frees_receiving left (advance_self pool push _)

theorem Conserved.frees_holder (conserved : Conserved total failed pool) (left : failed < total)
    (locked : pool.lock = some push) : pool.Frees push := by
  obtain ⟨progress, found, holds⟩ := (conserved.holder push).mp locked
  cases progress with
  | locking streamKey bytes => cases holds
  | receiving streamKey bytes => exact conserved.frees_receiving left found
  | sending messenger streamKey bytes => exact conserved.frees_sending found
  | returning messenger => exact conserved.frees_returning found
  | done result => cases holds

/-- As long as not all messengers are lost, every call can return: first the
holder of the lock, then the call itself. -/
theorem Conserved.canFinish (conserved : Conserved total failed pool) (left : failed < total)
    (inProgress : pool.InProgress push) : pool.CanFinish push := by
  have finished : pool.Frees push → pool.CanFinish push := by
    rintro ⟨actions, later, run, _, _, returned, _⟩
    exact ⟨actions, later, _, run, returned⟩
  cases locked : pool.lock with
  | none =>
    obtain ⟨progress, found, running⟩ := inProgress
    cases progress with
    | locking streamKey bytes => exact finished (conserved.frees_locking left locked found)
    | done result => cases running
    | receiving streamKey bytes | sending messenger streamKey bytes | returning messenger =>
      have holder := (conserved.holder push).mpr ⟨_, found, rfl⟩
      rw [locked] at holder
      cases holder
  | some holder =>
    by_cases isPush : push = holder
    · subst isPush
      exact finished (conserved.frees_holder left locked)
    · obtain ⟨progress, found, running⟩ := inProgress
      cases progress with
      | locking streamKey bytes =>
        obtain ⟨actions, freed, run, noneFailed, unlocked, _, still⟩ := conserved.frees_holder left locked
        have after := conserved.run run
        rw [noneFailed] at after
        obtain ⟨more, later, rest, _, _, returned, _⟩ :=
          after.frees_locking left unlocked ((still push isPush).trans found)
        exact ⟨actions ++ more, later, _, run.append rest, returned⟩
      | done result => cases running
      | receiving streamKey bytes | sending messenger streamKey bytes | returning messenger =>
        have isHolder := (conserved.holder push).mpr ⟨_, found, rfl⟩
        rw [locked] at isHolder
        cases isHolder
        exact absurd rfl isPush

/-- When all messengers are lost, a call that has not returned waits. -/
theorem Conserved.waits {action : Action Push} (drained : Conserved total total pool)
    (inProgress : pool.InProgress push) (happened : pool.step action = some later) : later.InProgress push := by
  have counted := drained.counted
  have noneHeld : ∀ other progress, pool.pushes other = some progress → progress.holdsLock = true →
      progress.messengers = 0 := by
    intro other progress found holds
    have locked := (drained.holder other).mpr ⟨progress, found, holds⟩
    rw [held_holder locked found] at counted
    omega
  obtain ⟨progress, found, running⟩ := inProgress
  cases (step_iff drained.shared).mp happened with
  | @start starting streamKey bytes fresh =>
    have different : push ≠ starting := by
      intro isPush
      subst isPush
      rw [fresh] at found
      cases found
    exact ⟨progress, (advance_other pool different _).trans found, running⟩
  | @takeLock taking streamKey bytes atTaking unlocked =>
    by_cases isPush : push = taking
    · subst isPush
      exact ⟨_, advance_self pool push _, rfl⟩
    · exact ⟨progress, (advance_other pool isPush _).trans found, running⟩
  | recv atOther waiting =>
    rw [waiting, List.length_cons] at counted
    omega
  | sent atOther => cases noneHeld _ _ atOther rfl
  | failed atOther => cases noneHeld _ _ atOther rfl
  | giveBack atOther room => cases noneHeld _ _ atOther rfl
  | clone => exact ⟨progress, found, running⟩
  | drop others => exact ⟨progress, found, running⟩

theorem Conserved.blocked (drained : Conserved total total pool) (inProgress : pool.InProgress push) :
    ¬ pool.CanFinish push := by
  rintro ⟨actions, later, result, run, returned⟩
  have kept : ∀ (pool : QueuePool Push) action later, Conserved total total pool ∧ pool.InProgress push →
      pool.step action = some later → Conserved total total later ∧ later.InProgress push := by
    rintro pool action later ⟨drained, inProgress⟩ happened
    have after := drained.step happened
    have sound : action.failed = 0 := by
      have counted := after.counted
      omega
    rw [sound] at after
    exact ⟨after, drained.waits inProgress happened⟩
  obtain ⟨_, progress, found, running⟩ := run.invariant kept ⟨drained, inProgress⟩
  rw [returned] at found
  cases found
  cases running

theorem Conserved.canFinish_iff (conserved : Conserved total failed pool) (inProgress : pool.InProgress push) :
    pool.CanFinish push ↔ failed < total := by
  constructor
  · intro canFinish
    have counted := conserved.counted
    rcases Nat.lt_or_ge failed total with left | drained
    · exact left
    · have all : failed = total := by omega
      rw [all] at conserved
      exact absurd canFinish (conserved.blocked inProgress)
  · intro left
    exact conserved.canFinish left inProgress

end Conservation

section Construction
variable {config : QueueArgs} {pool built : QueuePool Push}

omit [DecidableEq Push] in
theorem connect_ok {attempt : Nat} (connected : connect config pool attempt = .ok built) :
    ∃ messenger, built = { pool with channel := pool.channel ++ [messenger] } := by
  simp only [connect] at connected
  split at connected
  · cases connected
  · rename_i messenger _
    simp only [trySend] at connected
    split at connected
    · cases connected
      exact ⟨messenger, rfl⟩
    · cases connected

omit [DecidableEq Push] in
theorem connects_ok {attempts : List Nat} (connected : attempts.foldlM (connect config) pool = .ok built) :
    ∃ messengers, messengers.length = attempts.length ∧
      built = { pool with channel := pool.channel ++ messengers } := by
  induction attempts generalizing pool with
  | nil =>
    cases connected
    exact ⟨[], rfl, by rw [List.append_nil]⟩
  | cons attempt rest ih =>
    rw [List.foldlM_cons] at connected
    obtain ⟨next, first, later⟩ := Loops.bind_eq_ok.mp connected
    obtain ⟨messenger, isNext⟩ := connect_ok first
    obtain ⟨messengers, length, isBuilt⟩ := ih later
    refine ⟨messenger :: messengers, congrArg Nat.succ length, ?_⟩
    rw [isBuilt, isNext, List.append_assoc]
    rfl

omit [DecidableEq Push] in
/-- A pool that was built has a messenger for every connection. -/
theorem tryFromConfig_conserved (isBuilt : tryFromConfig config = some (.ok built)) :
    0 < config.messengerQueueConnections.toNat ∧ Conserved config.messengerQueueConnections.toNat 0 built := by
  simp only [tryFromConfig, Option.bind_eq_bind, Option.bind_eq_some_iff] at isBuilt
  obtain ⟨pool, isEmpty, filled⟩ := isBuilt
  obtain ⟨⟨positive, _⟩, same⟩ := Option.ite_none_right_eq_some.mp isEmpty
  cases same
  obtain ⟨messengers, length, isBuilt⟩ := connects_ok (Option.some.inj filled)
  rw [List.length_range] at length
  subst isBuilt
  refine ⟨positive, rfl, Nat.one_ne_zero, fun push => ?_, length⟩
  constructor
  · intro locked
    cases locked
  · rintro ⟨progress, found, _⟩
    cases found

/-- In any interleaving of calls, a pool without calls in progress holds all its
messengers exactly if no send has failed, and a call waits for ever only if as
many sends have failed as there are connections. -/
theorem messengers_returned_iff {actions : List (Action Push)} {later : QueuePool Push}
    (isBuilt : tryFromConfig config = some (.ok built)) (run : Runs.Reaches step built actions later) :
    (later.Idle → (later.channel.length = config.messengerQueueConnections.toNat ↔ failures actions = 0)) ∧
      ∀ push, later.InProgress push →
        (later.CanFinish push ↔ failures actions < config.messengerQueueConnections.toNat) := by
  obtain ⟨positive, start⟩ := tryFromConfig_conserved isBuilt
  have conserved := start.run run
  rw [Nat.zero_add] at conserved
  constructor
  · intro idle
    have counted := conserved.idle idle
    omega
  · intro push inProgress
    exact conserved.canFinish_iff inProgress

end Construction

end QueuePool

end Pool

namespace QueuePool.Example

/-- Messengers that keep the streams they know. -/
local instance redis : MessengerCrate where
  Messenger := List StreamKey
  MessengerError := String
  selectMessenger _ _ := .ok []
  addStream known streamKey := .ok (known ++ [streamKey])
  setBufferSize known _ _ := known

def connections (n : UInt64) : QueueArgs where
  messengerRedisUrl := "redis://localhost:6379"
  messengerRedisBatchSize := "100"
  messengerQueueConnections := n

/-- A call that gets as far as sending. -/
def sends (push : Nat) (sent : Except String (List StreamKey)) : List (Action Nat) :=
  [.start push .account [1], .takeLock push, .recv push, .send push sent]

def built (connections : Nat) : QueuePool Nat where
  clones := 1
  capacity := connections
  channel := List.replicate connections (streams.map Prod.fst)
  lock := none
  pushes _ := none

def after (connections : Nat) (actions : List (Action Nat)) : QueuePool Nat :=
  actions.foldl (fun pool action => (pool.step action).getD pool) (built connections)

def pushed : List (Action Nat) := sends 0 (.ok []) ++ [.giveBack 0]

def failing : List (Action Nat) := sends 0 (.error "connection reset")

theorem idle_of_first {pool : QueuePool Nat} {result : Except QueuePoolError Unit}
    (first : pool.pushes 0 = some (.done result)) (others : ∀ push, push ≠ 0 → pool.pushes push = none) :
    pool.Idle := by
  intro push progress found
  by_cases isFirst : push = 0
  · rw [isFirst, first] at found
    cases found
    rfl
  · rw [others push isFirst] at found
    cases found

theorem returned_after_push : (after 2 pushed).channel.length = 2 := by
  have isBuilt : tryFromConfig (connections 2) = some (.ok (built 2)) := rfl
  have run : Runs.Reaches step (built 2) pushed (after 2 pushed) :=
    ⟨_, rfl, _, rfl, _, rfl, _, rfl, _, rfl, rfl⟩
  have idle : (after 2 pushed).Idle := idle_of_first rfl (fun push isOther => by
    simp [after, pushed, sends, built, step, advance, finish, isOther, streams])
  exact ((messengers_returned_iff isBuilt run).1 idle).mpr rfl

/-- After one failed send on the only connection, the next call waits for ever. -/
theorem blocked_after_failure : tryFromConfig (connections 1) = some (.ok (built 1)) ∧
    Runs.Reaches step (built 1) failing (after 1 failing) ∧ (after 1 failing).Idle ∧
    (after 1 failing).channel.length = 0 ∧
    ∃ next, (after 1 failing).step (.start 1 .account [2]) = some next ∧ ¬ next.CanFinish 1 := by
  have run : Runs.Reaches step (built 1) failing (after 1 failing) := ⟨_, rfl, _, rfl, _, rfl, _, rfl, rfl⟩
  have idle : (after 1 failing).Idle := idle_of_first rfl (fun push isOther => by
    simp [after, failing, sends, built, step, advance, finish, isOther, streams])
  have start : Conserved 1 0 (built 1) := (@tryFromConfig_conserved redis Nat (connections 1) (built 1) rfl).2
  have happened : (after 1 failing).step (.start 1 .account [2]) =
      some ((after 1 failing).advance 1 (.locking .account [2])) := rfl
  have drained := (start.run run).step happened
  refine ⟨rfl, run, idle, rfl, _, happened, drained.blocked ⟨_, advance_self _ 1 _, rfl⟩⟩

end QueuePool.Example

end DasIndexer.Core
