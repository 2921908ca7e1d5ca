import DasIndexer.Tasks.Runners

namespace DasIndexer.Tasks
open Sql

section Executions
variable (config : TaskConfig) (w : World)

/-- The lock of a row is saved, after which its body is executed. -/
def World.starts (id : String) : Event → Bool
  | .job index .lock => (w.jobs[index]?).any (fun job => job.id = id && !job.isExecuting) && (w.tasks.lookup id).isSome
  | _ => false

/-- A success or an unrecoverable failure. -/
def isFinal : Except TaskError Unit → Bool
  | .ok _ => true
  | .error (.unrecoverable _) => true
  | .error (.other _) => false

/-- The final result of a row is saved. -/
def World.settles (id : String) : Event → Bool
  | .job index .save => (w.jobs[index]?).any (fun job => job.id = id && (match job.phase with
    | .finished result => isFinal result
    | _ => false))
  | _ => false

/-- How often a run executes the body of a row. -/
def executions (id : String) (events : List Event) : Nat :=
  Runs.count (World.step config) (fun w event => (w.starts id event).toNat) w events

/-- The runner selects after all the tasks that it has spawned are over and their
locks released. -/
def World.SelectsIdle : Event → Prop
  | .select _ => w.jobs = []
  | _ => True

/-- What the attempts of a task are meant to bound. -/
structure AttemptsBounded (events : List Event) : Prop where
  tries : ∀ id, executions config w id events ≤ config.maxAttempts
  final : ∀ id before event after, events = before ++ event :: after →
    (before.foldl (World.step config) w).settles id event = true →
      executions config ((before ++ [event]).foldl (World.step config) w) id after = 0
  stored : ∀ earlier, earlier <+: events → ∀ id row,
    (earlier.foldl (World.step config) w).tasks.lookup id = some row → row.attempts ≤ config.maxAttempts + 1

/-- No body is executed for a row whose attempts are used up. -/
def World.StartsBelow (event : Event) : Prop :=
  ∀ id row, w.starts id event = true → w.tasks.lookup id = some row → row.attempts < config.maxAttempts

end Executions

variable {config : TaskConfig} {w : World} {id : String}

theorem executions_append (earlier later : List Event) :
    executions config w id (earlier ++ later) =
      executions config w id earlier + executions config (earlier.foldl (World.step config) w) id later :=
  Runs.count_append earlier later

theorem executions_concat (earlier : List Event) (event : Event) :
    executions config w id (earlier ++ [event]) =
      executions config w id earlier + ((earlier.foldl (World.step config) w).starts id event).toNat :=
  Runs.count_concat earlier event

theorem starts_present {event : Event} (starts : w.starts id event = true) :
    ∃ row, w.tasks.lookup id = some row := by
  unfold World.starts at starts
  split at starts
  · exact Option.isSome_iff_exists.mp (Bool.and_eq_true_iff.mp starts).2
  · cases starts

/-- A row that is not selected any more. -/
def TaskRow.Exhausted (config : TaskConfig) (row : TaskRow) : Prop :=
  row.status = .success ∨ row.attempts = config.maxAttempts + 1

/-- What the row of a task and the spawned tasks that hold a copy of it say about
the number of its executions. -/
structure World.Tally (config : TaskConfig) (w : World) (id : String) (n : Nat) : Prop where
  unborn : w.tasks.lookup id = none → n = 0
  bounds : ∀ row, w.tasks.lookup id = some row →
    row.maxAttempts = config.maxAttempts ∧ row.attempts ≤ config.maxAttempts + 1
  idle : ∀ row, w.tasks.lookup id = some row → (∀ job ∈ w.jobs, job.id = id → job.isExecuting = false) →
    row.Exhausted config ∨ row.attempts = n
  selected : ∀ job ∈ w.jobs, job.id = id → job.isExecuting = false → ∀ row, w.tasks.lookup id = some row →
    ¬ row.Exhausted config
  executing : ∀ job ∈ w.jobs, job.id = id → job.isExecuting = true →
    job.attempts ≤ config.maxAttempts ∧ job.attempts + 1 = n

section Steps
variable {n index : Nat} {job : Job}

/-- The row and the spawned tasks of an id are as they were. -/
theorem World.Tally.of_same (tally : w.Tally config id n) {after : World}
    (sameRow : after.tasks.lookup id = w.tasks.lookup id)
    (sameJobs : ∀ job, job.id = id → (job ∈ after.jobs ↔ job ∈ w.jobs)) : after.Tally config id n := by
  refine ⟨?_, ?_, ?_, ?_, ?_⟩
  · rw [sameRow]
    exact tally.unborn
  · rw [sameRow]
    exact tally.bounds
  · rw [sameRow]
    exact fun row stored idle =>
      tally.idle row stored (fun job member ofId => idle job ((sameJobs job ofId).mpr member) ofId)
  · rw [sameRow]
    exact fun job member ofId => tally.selected job ((sameJobs job ofId).mp member) ofId
  · exact fun job member ofId => tally.executing job ((sameJobs job ofId).mp member) ofId

theorem mem_jobs_eraseIdx (one : w.OneCopy) (found : w.jobs[index]? = some job) {other : Job} :
    other ∈ w.jobs.eraseIdx index ↔ other ∈ w.jobs ∧ other.id ≠ job.id := by
  obtain ⟨inBounds, isJob⟩ := List.getElem?_eq_some_iff.mp found
  refine ⟨fun member => ⟨List.mem_of_mem_eraseIdx member, id_ne_of_mem_eraseIdx one.distinct found member⟩, ?_⟩
  rintro ⟨member, different⟩
  rw [List.mem_eraseIdx_iff_getElem]
  obtain ⟨i, bound, isOther⟩ := List.mem_iff_getElem.mp member
  refine ⟨i, bound, fun same => different ?_, isOther⟩
  subst same
  rw [← isOther, isJob]

theorem mem_jobs_set (one : w.OneCopy) (found : w.jobs[index]? = some job) {replaced other : Job} :
    other ∈ w.jobs.set index replaced ↔ other = replaced ∨ (other ∈ w.jobs ∧ other.id ≠ job.id) := by
  obtain ⟨inBounds, -⟩ := List.getElem?_eq_some_iff.mp found
  rw [← mem_jobs_eraseIdx one found, List.set_eq_take_append_cons_drop, if_pos inBounds, List.eraseIdx_eq_take_drop_succ]
  simp only [List.mem_append, List.mem_cons]
  tauto

/-- A step within an executed task leaves the count alone. -/
theorem World.Tally.setPhase (tally : w.Tally config id n) (one : w.OneCopy) (found : w.jobs[index]? = some job)
    (executing : job.isExecuting = true) {phase : Phase} (begun : phase ≠ .selected) :
    (w.setPhase index job phase).Tally config id n := by
  have still : ({ job with phase } : Job).isExecuting = true := isExecuting_of_phase rfl begun
  have members : ∀ other, other ∈ (w.setPhase index job phase).jobs ↔
      other = { job with phase } ∨ (other ∈ w.jobs ∧ other.id ≠ job.id) := fun other => mem_jobs_set one found
  by_cases own : job.id = id
  · have inJobs := List.mem_of_getElem? found
    refine ⟨tally.unborn, tally.bounds, fun row stored idle => ?_, fun other member ofId waits => ?_,
      fun other member ofId _ => ?_⟩
    · have waits := idle _ ((members _).mpr (Or.inl rfl)) own
      rw [still] at waits
      cases waits
    · rcases (members other).mp member with same | ⟨-, different⟩
      · rw [same, still] at waits
        cases waits
      · exact absurd (ofId.trans own.symm) different
    · rcases (members other).mp member with same | ⟨-, different⟩
      · rw [same]
        exact tally.executing job inJobs own executing
      · exact absurd (ofId.trans own.symm) different
  · refine tally.of_same rfl (fun other ofId => ?_)
    rw [members]
    constructor
    · rintro (same | ⟨member, -⟩)
      · rw [same] at ofId
        exact absurd ofId own
      · exact member
    · exact fun member => Or.inr ⟨member, fun same => own (same.symm.trans ofId)⟩

theorem World.Tally.lockJob (tally : w.Tally config id n) (one : w.OneCopy) (found : w.jobs[index]? = some job)
    (waits : job.isExecuting = false) :
    (w.lockJob config index job).Tally config id (n + if job.id = id then 1 else 0) := by
  have inJobs := List.mem_of_getElem? found
  obtain ⟨row, stored⟩ := one.present job inJobs
  have after : w.lockJob config index job =
      { w with
        tasks := w.tasks.insert job.id (row.lock config w.now job.runner)
        jobs := w.jobs.set index { job with attempts := row.attempts, phase := .locked } } := by
    rw [World.lockJob, stored]
  have members : ∀ other, other ∈ (w.lockJob config index job).jobs ↔
      other = { job with attempts := row.attempts, phase := .locked } ∨ (other ∈ w.jobs ∧ other.id ≠ job.id) := by
    intro other
    rw [after]
    exact mem_jobs_set one found
  by_cases own : job.id = id
  · have only : ∀ other ∈ (w.lockJob config index job).jobs, other.id = id →
        other = { job with attempts := row.attempts, phase := .locked } := by
      intro other member ofId
      rcases (members other).mp member with same | ⟨-, different⟩
      · exact same
      · exact absurd (ofId.trans own.symm) different
    have isRow : w.tasks.lookup id = some row := by rw [← own, stored]
    have locked : (w.lockJob config index job).tasks.lookup id = some (row.lock config w.now job.runner) := by
      rw [after, ← own]
      exact AList.lookup_insert _
    have unexhausted := tally.selected job inJobs own waits row isRow
    have alone : ∀ other ∈ w.jobs, other.id = id → other.isExecuting = false := by
      intro other member ofId
      rw [List.inj_on_of_nodup_map one.distinct member inJobs (ofId.trans own.symm)]
      exact waits
    have counted := (tally.idle row isRow alone).resolve_left unexhausted
    obtain ⟨sameMax, bound⟩ := tally.bounds row isRow
    have notMax : row.attempts ≠ config.maxAttempts + 1 := fun full => unexhausted (Or.inr full)
    rw [if_pos own]
    refine ⟨fun absent => ?_, fun other isOther => ?_, fun other isOther idle => ?_, fun other member ofId idle => ?_,
      fun other member ofId _ => ?_⟩
    · rw [locked] at absent
      cases absent
    · rw [locked] at isOther
      cases isOther
      exact ⟨sameMax, bound⟩
    · have first := idle _ ((members _).mpr (Or.inl rfl)) own
      cases first
    · rw [only other member ofId] at idle
      cases idle
    · rw [only other member ofId]
      exact ⟨by show row.attempts ≤ _; omega, by show row.attempts + 1 = _; omega⟩
  · rw [if_neg own, Nat.add_zero]
    refine tally.of_same ?_ (fun other ofId => ?_)
    · rw [after]
      exact AList.lookup_insert_ne (fun same => own same.symm)
    · rw [members]
      constructor
      · rintro (same | ⟨member, -⟩)
        · rw [same] at ofId
          exact absurd ofId own
        · exact member
      · exact fun member => Or.inr ⟨member, fun same => own (same.symm.trans ofId)⟩

theorem TaskRow.finish_maxAttempts (row : TaskRow) (attempts : Nat) (result : Except TaskError Unit) :
    (row.finish config attempts result).maxAttempts = row.maxAttempts := by
  rcases result with (_ | _) | _ <;> rfl

/-- A result is final, or it is one more attempt. -/
theorem TaskRow.finish_cases (row : TaskRow) (attempts : Nat) (result : Except TaskError Unit) :
    (isFinal result = true ∧ (row.finish config attempts result).Exhausted config) ∨
      (isFinal result = false ∧ (row.finish config attempts result).attempts = attempts + 1) := by
  rcases result with (_ | _) | _
  · exact Or.inl ⟨rfl, Or.inr rfl⟩
  · exact Or.inr ⟨rfl, rfl⟩
  · exact Or.inl ⟨rfl, Or.inl rfl⟩

theorem TaskRow.finish_attempts_le (row : TaskRow) {attempts : Nat} (bound : attempts ≤ config.maxAttempts)
    (result : Except TaskError Unit) : (row.finish config attempts result).attempts ≤ config.maxAttempts + 1 := by
  rcases result with (_ | _) | _
  · exact Nat.le_refl _
  · exact Nat.succ_le_succ bound
  · exact Nat.succ_le_succ bound

theorem World.Tally.saveJob (tally : w.Tally config id n) (one : w.OneCopy) (found : w.jobs[index]? = some job)
    (executing : job.isExecuting = true) (result : Except TaskError Unit) :
    (w.saveJob config index job result).Tally config id n := by
  have inJobs := List.mem_of_getElem? found
  obtain ⟨row, stored⟩ := one.present job inJobs
  have after : w.saveJob config index job result =
      { w with
        tasks := w.tasks.insert job.id (row.finish config job.attempts result)
        jobs := w.jobs.eraseIdx index } := by
    rw [World.saveJob, stored]
  have members : ∀ other, other ∈ (w.saveJob config index job result).jobs ↔ other ∈ w.jobs ∧ other.id ≠ job.id := by
    intro other
    rw [after]
    exact mem_jobs_eraseIdx one found
  by_cases own : job.id = id
  · have none : ∀ other ∈ (w.saveJob config index job result).jobs, other.id ≠ id :=
      fun other member ofId => ((members other).mp member).2 (ofId.trans own.symm)
    have saved : (w.saveJob config index job result).tasks.lookup id =
        some (row.finish config job.attempts result) := by
      rw [after, ← own]
      exact AList.lookup_insert _
    obtain ⟨sameMax, -⟩ := tally.bounds row (by rw [← own, stored])
    obtain ⟨bound, counted⟩ := tally.executing job inJobs own executing
    refine ⟨fun absent => ?_, fun other isOther => ?_, fun other isOther _ => ?_,
      fun other member ofId => absurd ofId (none other member), fun other member ofId => absurd ofId (none other member)⟩
    · rw [saved] at absent
      cases absent
    · rw [saved] at isOther
      cases isOther
      exact ⟨by rw [TaskRow.finish_maxAttempts, sameMax], row.finish_attempts_le bound result⟩
    · rw [saved] at isOther
      cases isOther
      rcases row.finish_cases job.attempts result with ⟨-, exhausted⟩ | ⟨-, attempts⟩
      · exact Or.inl exhausted
      · exact Or.inr (attempts.trans counted)
  · refine tally.of_same ?_ (fun other ofId => ?_)
    · rw [after]
      exact AList.lookup_insert_ne (fun same => own same.symm)
    · rw [members]
      exact ⟨And.left, fun member => ⟨member, fun same => own (same.symm.trans ofId)⟩⟩

theorem starts_lock (found : w.jobs[index]? = some job) (waits : job.isExecuting = false) (one : w.OneCopy) :
    (w.starts id (.job index .lock)).toNat = if job.id = id then 1 else 0 := by
  obtain ⟨row, stored⟩ := one.present job (List.mem_of_getElem? found)
  rw [World.starts, found, Option.any_some, waits]
  by_cases own : job.id = id
  · rw [if_pos own, ← own, stored]
    simp
  · rw [if_neg own]
    simp [own]

/-- Only the saving of a lock starts an execution. -/
theorem World.Tally.stepUnlocked (tally : w.Tally config id n) (one : w.OneCopy) {event : JobEvent}
    (notLock : event ≠ .lock) : (w.stepJob config index event).Tally config id n := by
  have taken := @stepJob_cases config w index event
  generalize w.stepJob config index event = after at taken ⊢
  cases taken with
  | idle => exact tally
  | lock => exact absurd rfl notLock
  | download found phase content =>
    exact tally.setPhase one found (isExecuting_of_phase phase (by simp)) (by simp)
  | check found phase =>
    have executing := isExecuting_of_phase phase (by simp)
    unfold World.checkJob
    split
    · exact tally.setPhase one found executing (by simp)
    · split
      · exact tally.setPhase one found executing (by simp)
      · exact tally.setPhase one found executing (by simp)
  | update found phase =>
    have executing := isExecuting_of_phase phase (by simp)
    unfold World.updateJob
    split
    · exact tally.setPhase one found executing (by simp)
    · split
      · refine (tally.setPhase one found executing ?_).of_same rfl (fun _ _ => Iff.rfl)
        simp
      · exact tally.setPhase one found executing (by simp)
  | fail found phase error =>
    refine tally.setPhase one found ?_ (by simp)
    rcases phase with locked | ⟨body, downloaded⟩ | ⟨body, checked⟩
    · exact isExecuting_of_phase locked (by simp)
    · exact isExecuting_of_phase downloaded (by simp)
    · exact isExecuting_of_phase checked (by simp)
  | save found phase => exact tally.saveJob one found (isExecuting_of_phase phase (by simp)) _

theorem World.Tally.stepJob (tally : w.Tally config id n) (one : w.OneCopy) (event : JobEvent) :
    (w.stepJob config index event).Tally config id (n + (w.starts id (.job index event)).toNat) := by
  cases event with
  | lock =>
    unfold World.stepJob
    cases found : w.jobs[index]? with
    | none =>
      have still : w.starts id (.job index .lock) = false := by simp [World.starts, found]
      rw [still]
      exact tally
    | some job =>
      dsimp only
      cases phase : job.phase with
      | selected =>
        have waits : job.isExecuting = false := by simp [Job.isExecuting, phase]
        rw [starts_lock found waits one]
        exact tally.lockJob one found waits
      | locked | downloaded | checked | finished =>
        have executing : job.isExecuting = true := isExecuting_of_phase phase (by simp)
        have still : w.starts id (.job index .lock) = false := by simp [World.starts, found, executing]
        rw [still]
        exact tally
  | download | check | update | fail | save => exact tally.stepUnlocked one (by simp)

theorem World.Tally.insert (tally : w.Tally config id n) (one : w.OneCopy) (message : Nat) :
    (w.insert config message).Tally config id n := by
  unfold World.insert
  cases w.inserting[message]? with
  | none => exact tally
  | some task =>
    dsimp only
    split
    · exact tally.of_same rfl (fun _ _ => Iff.rfl)
    · rename_i absent
      rw [Bool.not_eq_true, Option.isSome_eq_false_iff, Option.isNone_iff_eq_none] at absent
      by_cases own : config.hash task = id
      · have unborn := tally.unborn (by rw [← own, absent])
        have stored : (AList.insert (config.hash task) (newTask config w.now task) w.tasks).lookup id =
            some (newTask config w.now task) := by
          rw [← own]
          exact AList.lookup_insert _
        have fresh : (newTask config w.now task).attempts = 0 ∧
            (newTask config w.now task).maxAttempts = config.maxAttempts := by
          unfold newTask
          split <;> exact ⟨rfl, rfl⟩
        have none : ∀ job ∈ w.jobs, job.id ≠ id := by
          intro job member ofId
          obtain ⟨row, isRow⟩ := one.present job member
          rw [ofId, ← own, absent] at isRow
          cases isRow
        refine ⟨fun missing => ?_, fun row isRow => ?_, fun row isRow _ => ?_,
          fun job member ofId => absurd ofId (none job member), fun job member ofId => absurd ofId (none job member)⟩
        · rw [stored] at missing
          cases missing
        · rw [stored] at isRow
          cases isRow
          exact ⟨fresh.2, by rw [fresh.1]; exact Nat.zero_le _⟩
        · rw [stored] at isRow
          cases isRow
          exact Or.inr (fresh.1.trans unborn.symm)
      · exact tally.of_same (AList.lookup_insert_ne (fun same => own same.symm)) (fun _ _ => Iff.rfl)

theorem World.Tally.select (tally : w.Tally config id n) (idle : w.jobs = []) (runner : String) :
    (w.select config runner).Tally config id n := by
  have chosen : ∀ job ∈ (w.select config runner).jobs, job.isExecuting = false ∧
      ∃ entry ∈ getPendingTasks w.tasks w.now config.batchSize, job.id = entry.1 := by
    intro job member
    rw [World.select, idle, List.nil_append] at member
    obtain ⟨entry, inPending, isJob⟩ := List.mem_map.mp member
    rw [← isJob]
    exact ⟨rfl, entry, inPending, rfl⟩
  refine ⟨tally.unborn, tally.bounds, fun row stored _ => ?_, fun job member ofId _ row stored => ?_,
    fun job member _ executing => ?_⟩
  · refine tally.idle row stored (fun job member => ?_)
    rw [idle] at member
    cases member
  · obtain ⟨-, entry, inPending, isId⟩ := chosen job member
    obtain ⟨isEntry, pending⟩ := mem_getPendingTasks inPending
    rw [← isId, ofId] at isEntry
    cases isEntry.symm.trans stored
    simp only [TaskRow.isPending, Bool.and_eq_true, decide_eq_true_eq] at pending
    have sameMax := (tally.bounds _ stored).1
    rintro (success | full)
    · exact pending.1.1 success
    · omega
  · rw [(chosen job member).1] at executing
    cases executing

theorem selectsNew_of_idle {event : Event} (idle : w.SelectsIdle event) : w.SelectsNew config event := by
  cases event with
  | select runner =>
    intro entry _ job inJobs
    have none : w.jobs = [] := idle
    rw [none] at inJobs
    cases inJobs
  | tick | write | notify | listen | insert | job => trivial

/-- One step of the run of a single runner. -/
theorem World.Tally.step (tally : w.Tally config id n) (one : w.OneCopy) {event : Event} (idle : w.SelectsIdle event) :
    (w.step config event).Tally config id (n + (w.starts id event).toNat) := by
  have applied : (w.apply config event).Tally config id (n + (w.starts id event).toNat) := by
    cases event with
    | tick duration => exact tally.of_same rfl (fun _ _ => Iff.rfl)
    | write asset uri => exact tally.of_same rfl (fun _ _ => Iff.rfl)
    | notify message =>
      simp only [World.apply, World.notify]
      split
      · exact tally
      · exact tally.of_same rfl (fun _ _ => Iff.rfl)
    | listen message =>
      simp only [World.apply, World.listen]
      split
      · exact tally
      · split
        · exact tally.of_same rfl (fun _ _ => Iff.rfl)
        · exact tally.of_same rfl (fun _ _ => Iff.rfl)
    | insert message => exact tally.insert one message
    | select runner => exact tally.select idle runner
    | job index event => exact tally.stepJob one event
  exact applied.of_same rfl (fun _ _ => Iff.rfl)

end Steps

section Final
variable {n index : Nat}

/-- A row that is exhausted, and of which no spawned task holds a copy. -/
structure World.Done (config : TaskConfig) (w : World) (id : String) : Prop where
  exhausted : ∃ row, w.tasks.lookup id = some row ∧ row.Exhausted config ∧ row.maxAttempts = config.maxAttempts
  unheld : ∀ job ∈ w.jobs, job.id ≠ id

theorem World.Done.of_same (done : w.Done config id) {after : World}
    (sameRow : after.tasks.lookup id = w.tasks.lookup id) (sameJobs : ∀ job ∈ after.jobs, ∃ old ∈ w.jobs, old.id = job.id) :
    after.Done config id := by
  refine ⟨by rw [sameRow]; exact done.exhausted, fun job member ofId => ?_⟩
  obtain ⟨old, inJobs, sameId⟩ := sameJobs job member
  exact done.unheld old inJobs (sameId.trans ofId)

theorem World.Done.never_starts (done : w.Done config id) (event : Event) : w.starts id event = false := by
  unfold World.starts
  split
  · rename_i index
    cases found : w.jobs[index]? with
    | none => rfl
    | some job =>
      have other := done.unheld job (List.mem_of_getElem? found)
      simp [other]
  · rfl

theorem World.Done.setPhase (done : w.Done config id) {job : Job} (found : w.jobs[index]? = some job) (phase : Phase) :
    (w.setPhase index job phase).Done config id := by
  refine done.of_same rfl (fun other member => ?_)
  rcases List.mem_or_eq_of_mem_set member with inJobs | replaced
  · exact ⟨other, inJobs, rfl⟩
  · exact ⟨job, List.mem_of_getElem? found, by rw [replaced]⟩

theorem World.Done.stepJob (done : w.Done config id) (event : JobEvent) :
    (w.stepJob config index event).Done config id := by
  have taken := @stepJob_cases config w index event
  generalize w.stepJob config index event = after at taken ⊢
  have other : ∀ {job : Job}, w.jobs[index]? = some job → id ≠ job.id :=
    fun found same => done.unheld _ (List.mem_of_getElem? found) same.symm
  have erased : ∀ job ∈ w.jobs.eraseIdx index, ∃ old ∈ w.jobs, old.id = job.id :=
    fun job member => ⟨job, List.mem_of_mem_eraseIdx member, rfl⟩
  cases taken with
  | idle => exact done
  | @lock job found phase =>
    unfold World.lockJob
    split
    · exact done.of_same rfl erased
    · refine done.of_same (AList.lookup_insert_ne (other found)) (fun job' member => ?_)
      rcases List.mem_or_eq_of_mem_set member with inJobs | replaced
      · exact ⟨job', inJobs, rfl⟩
      · exact ⟨job, List.mem_of_getElem? found, by rw [replaced]⟩
  | download found phase content => exact done.setPhase found _
  | check found phase =>
    unfold World.checkJob
    split
    · exact done.setPhase found _
    · split
      · exact done.setPhase found _
      · exact done.setPhase found _
  | update found phase =>
    unfold World.updateJob
    split
    · exact done.setPhase found _
    · split
      · exact (done.setPhase found _).of_same rfl (fun job member => ⟨job, member, rfl⟩)
      · exact done.setPhase found _
  | fail found phase error => exact done.setPhase found _
  | save found phase =>
    unfold World.saveJob
    split
    · exact done.of_same rfl erased
    · exact done.of_same (AList.lookup_insert_ne (other found)) erased

theorem World.Done.step (done : w.Done config id) (event : Event) : (w.step config event).Done config id := by
  have kept : ∀ job ∈ w.jobs, ∃ old ∈ w.jobs, old.id = job.id := fun job member => ⟨job, member, rfl⟩
  have applied : (w.apply config event).Done config id := by
    cases event with
    | tick duration => exact done.of_same rfl kept
    | write asset uri => exact done.of_same rfl kept
    | notify message =>
      simp only [World.apply, World.notify]
      split
      · exact done
      · exact done.of_same rfl kept
    | listen message =>
      simp only [World.apply, World.listen]
      split
      · exact done
      · split
        · exact done.of_same rfl kept
        · exact done.of_same rfl kept
    | insert message =>
      simp only [World.apply, World.insert]
      split
      · exact done
      · split
        · exact done.of_same rfl kept
        · rename_i task _ absent
          obtain ⟨row, stored, -⟩ := done.exhausted
          have different : id ≠ config.hash task := by
            intro same
            rw [← same, stored] at absent
            exact absent rfl
          exact done.of_same (AList.lookup_insert_ne different) kept
    | select runner =>
      refine ⟨done.exhausted, fun job member ofId => ?_⟩
      rcases List.mem_append.mp member with old | new
      · exact done.unheld job old ofId
      · obtain ⟨entry, inPending, isJob⟩ := List.mem_map.mp new
        obtain ⟨isEntry, pending⟩ := mem_getPendingTasks inPending
        obtain ⟨row, stored, exhausted, sameMax⟩ := done.exhausted
        have sameId : entry.1 = id := by rw [← ofId, ← isJob]
        rw [sameId, stored] at isEntry
        cases isEntry
        simp only [TaskRow.isPending, Bool.and_eq_true, decide_eq_true_eq] at pending
        rcases exhausted with success | full
        · exact pending.1.1 success
        · omega
    | job index event => exact done.stepJob event
  exact applied.of_same rfl (fun job member => ⟨job, member, rfl⟩)

/-- An exhausted row is executed no more. -/
theorem World.Done.executions_eq_zero (done : w.Done config id) (events : List Event) :
    executions config w id events = 0 := by
  induction events generalizing w with
  | nil => rfl
  | cons event rest ih =>
    have later := ih (done.step event)
    have first : executions config w id (event :: rest) =
        (w.starts id event).toNat + executions config (w.step config event) id rest := rfl
    rw [first, later, done.never_starts event]
    rfl

/-- A final result leaves the row exhausted. -/
theorem World.Tally.settled (tally : w.Tally config id n) (one : w.OneCopy) {event : Event}
    (settles : w.settles id event = true) : (w.step config event).Done config id := by
  unfold World.settles at settles
  split at settles
  · rename_i index
    cases found : w.jobs[index]? with
    | none =>
      rw [found] at settles
      cases settles
    | some job =>
      rw [found, Option.any_some, Bool.and_eq_true, decide_eq_true_eq] at settles
      obtain ⟨own, isLast⟩ := settles
      cases phase : job.phase with
      | selected | locked | downloaded | checked =>
        rw [phase] at isLast
        cases isLast
      | finished result =>
        rw [phase] at isLast
        obtain ⟨row, stored⟩ := one.present job (List.mem_of_getElem? found)
        have after : w.stepJob config index .save =
            { w with
              tasks := w.tasks.insert job.id (row.finish config job.attempts result)
              jobs := w.jobs.eraseIdx index } := by
          unfold World.stepJob
          rw [found]
          dsimp only
          rw [phase]
          dsimp only
          rw [World.saveJob, stored]
        have sameMax := (tally.bounds row (by rw [← own, stored])).1
        have done : (w.stepJob config index .save).Done config id := by
          rw [after]
          refine ⟨⟨_, by rw [← own]; exact AList.lookup_insert _, ?_, ?_⟩, fun other member ofId => ?_⟩
          · rcases row.finish_cases job.attempts result with ⟨-, exhausted⟩ | ⟨notLast, -⟩
            · exact exhausted
            · cases notLast.symm.trans isLast
          · rw [TaskRow.finish_maxAttempts, sameMax]
          · exact ((mem_jobs_eraseIdx one found).mp member).2 (ofId.trans own.symm)
        exact done.of_same rfl (fun job member => ⟨job, member, rfl⟩)
  · cases settles

/-- The attempts of a row that is about to be executed count its executions. -/
theorem World.Tally.starting (tally : w.Tally config id n) (one : w.OneCopy) {event : Event}
    (starts : w.starts id event = true) {row : TaskRow} (stored : w.tasks.lookup id = some row) :
    row.attempts = n ∧ row.attempts ≤ config.maxAttempts := by
  unfold World.starts at starts
  split at starts
  · rename_i index
    cases found : w.jobs[index]? with
    | none =>
      rw [found] at starts
      cases starts
    | some job =>
      rw [found, Option.any_some, Bool.and_eq_true, Bool.and_eq_true, decide_eq_true_eq, Bool.not_eq_true'] at starts
      obtain ⟨⟨own, waits⟩, -⟩ := starts
      have inJobs := List.mem_of_getElem? found
      have unexhausted := tally.selected job inJobs own waits row stored
      have alone : ∀ other ∈ w.jobs, other.id = id → other.isExecuting = false := by
        intro other member ofId
        rw [List.inj_on_of_nodup_map one.distinct member inJobs (ofId.trans own.symm)]
        exact waits
      have bound := (tally.bounds row stored).2
      have notMax : row.attempts ≠ config.maxAttempts + 1 := fun full => unexhausted (Or.inr full)
      exact ⟨(tally.idle row stored alone).resolve_left unexhausted, by omega⟩
  · cases starts

end Final

section Run
variable {events : List Event}

theorem tally_along (idle : w.jobs = []) (unborn : w.tasks = ∅)
    (single : Runs.Along (World.step config) World.SelectsIdle w events) (id : String) :
    ∀ earlier, earlier <+: events → (earlier.foldl (World.step config) w).OneCopy ∧
      (earlier.foldl (World.step config) w).Tally config id (executions config w id earlier) := by
  have one : w.OneCopy := by
    refine ⟨?_, ?_, ?_, ?_⟩ <;> simp [idle]
  have tally : w.Tally config id 0 := by
    have absent : w.tasks.lookup id = none := by rw [unborn]; rfl
    refine ⟨fun _ => rfl, ?_, ?_, ?_, ?_⟩ <;> simp [idle, absent]
  have kept : ∀ n (w : World) event, w.OneCopy ∧ w.Tally config id n → w.SelectsIdle event →
      (w.step config event).OneCopy ∧ (w.step config event).Tally config id (n + (w.starts id event).toNat) :=
    fun n w event held idle => ⟨held.1.step (selectsNew_of_idle idle), held.2.step held.1 idle⟩
  exact Runs.Along.counted kept ⟨one, tally⟩ single

end Run

section Example

instance (w : World) : ∀ event, Decidable (w.SelectsIdle event)
  | .select _ => decidable_of_iff (w.jobs.isEmpty = true) List.isEmpty_iff
  | .tick _ | .write _ _ | .notify _ | .listen _ | .insert _ | .job _ _ => inferInstanceAs (Decidable True)

/-- One download is asked for. -/
def asked : List Event := [.write .zero "a", .notify 0, .listen 0, .insert 0]

/-- A runner takes the task up, and its body fails. -/
def failure : List Event := [.select "runner", .job 0 .lock, .job 0 (.fail (.other "timeout")), .job 0 .save]

end Example

end DasIndexer.Tasks
