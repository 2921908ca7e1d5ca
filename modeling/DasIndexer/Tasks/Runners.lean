import DasIndexer.Tasks.Manager

namespace DasIndexer.Tasks
open Sql

variable {config : TaskConfig} {w : World}

/-- The lock of the task is saved and its result is not. -/
def Job.isExecuting (job : Job) : Bool :=
  match job.phase with
  | .selected => false
  | _ => true

/-- No lock has expired. -/
def World.LocksHold (w : World) : Prop :=
  ∀ entry ∈ w.tasks.entries, entry.2.lockedUntil.all (fun time => w.now < time) = true

/-- A runner selects no row of which an earlier selection holds a copy without
its lock being saved. -/
def World.SelectsFresh (config : TaskConfig) (w : World) : Event → Prop
  | .select _ => ∀ entry ∈ getPendingTasks w.tasks w.now config.batchSize, ∀ job ∈ w.jobs,
      job.id = entry.1 → job.isExecuting = true
  | _ => True

/-- A runner selects no row of which a spawned task holds a copy. -/
def World.SelectsNew (config : TaskConfig) (w : World) : Event → Prop
  | .select _ => ∀ entry ∈ getPendingTasks w.tasks w.now config.batchSize, ∀ job ∈ w.jobs, job.id ≠ entry.1
  | _ => True

/-- At most one copy of a row is in flight, the row is locked while it is
executed, and it has not succeeded. -/
structure World.OneCopy (w : World) : Prop where
  distinct : (w.jobs.map Job.id).Nodup
  present : ∀ job ∈ w.jobs, ∃ row, w.tasks.lookup job.id = some row
  unsettled : ∀ job ∈ w.jobs, ∀ row, w.tasks.lookup job.id = some row → row.status ≠ .success
  locked : ∀ job ∈ w.jobs, job.isExecuting = true → ∀ row, w.tasks.lookup job.id = some row →
    row.lockedUntil.isSome = true

section Steps
variable {index : Nat} {job : Job}

theorem map_id_set {jobs : List Job} {replaced : Job} (found : jobs[index]? = some job)
    (sameId : replaced.id = job.id) : (jobs.set index replaced).map Job.id = jobs.map Job.id := by
  obtain ⟨inBounds, isJob⟩ := List.getElem?_eq_some_iff.mp found
  have inIds : index < (jobs.map Job.id).length := by rwa [List.length_map]
  have isId : (jobs.map Job.id)[index] = job.id := by rw [List.getElem_map, isJob]
  rw [List.map_set, sameId, ← isId, List.set_getElem_self]

theorem id_ne_of_mem_eraseIdx {jobs : List Job} {other : Job} (distinct : (jobs.map Job.id).Nodup)
    (found : jobs[index]? = some job) (member : other ∈ jobs.eraseIdx index) : other.id ≠ job.id := by
  obtain ⟨inBounds, isJob⟩ := List.getElem?_eq_some_iff.mp found
  have parts : jobs = jobs.take index ++ job :: jobs.drop (index + 1) := by
    rw [← isJob, List.getElem_cons_drop, List.take_append_drop]
  rw [List.eraseIdx_eq_take_drop_succ] at member
  rw [parts, List.map_append, List.map_cons, List.nodup_middle, List.nodup_cons] at distinct
  intro same
  refine distinct.1 ?_
  rw [← List.map_append, ← same]
  exact List.mem_map.mpr ⟨other, member, rfl⟩

/-- A step within an executed task that changes no row. -/
theorem World.OneCopy.setPhase (one : w.OneCopy) (found : w.jobs[index]? = some job)
    (executing : job.isExecuting = true) (phase : Phase) : (w.setPhase index job phase).OneCopy := by
  have old : ∀ other ∈ (w.setPhase index job phase).jobs, ∃ same ∈ w.jobs, other.id = same.id ∧
      (other.isExecuting = true → same.isExecuting = true) := by
    intro other member
    rcases List.mem_or_eq_of_mem_set member with inJobs | replaced
    · exact ⟨other, inJobs, rfl, id⟩
    · exact ⟨job, List.mem_of_getElem? found, by rw [replaced], fun _ => executing⟩
  refine ⟨?_, ?_, ?_, ?_⟩
  · have ids : (w.setPhase index job phase).jobs.map Job.id = w.jobs.map Job.id := map_id_set found rfl
    rw [ids]
    exact one.distinct
  · intro other member
    obtain ⟨same, inJobs, sameId, -⟩ := old other member
    rw [sameId]
    exact one.present same inJobs
  · intro other member
    obtain ⟨same, inJobs, sameId, -⟩ := old other member
    rw [sameId]
    exact one.unsettled same inJobs
  · intro other member otherExecuting
    obtain ⟨same, inJobs, sameId, sameExecuting⟩ := old other member
    rw [sameId]
    exact one.locked same inJobs (sameExecuting otherExecuting)

theorem World.OneCopy.lockJob (one : w.OneCopy) (found : w.jobs[index]? = some job) :
    (w.lockJob config index job).OneCopy := by
  obtain ⟨row, stored⟩ := one.present job (List.mem_of_getElem? found)
  have after : w.lockJob config index job =
      { w with
        tasks := w.tasks.insert job.id (row.lock config w.now job.runner)
        jobs := w.jobs.set index { job with attempts := row.attempts, phase := .locked } } := by
    rw [World.lockJob, stored]
  rw [after]
  have ids : (w.jobs.set index { job with attempts := row.attempts, phase := .locked }).map Job.id =
      w.jobs.map Job.id := map_id_set found rfl
  have old : ∀ other ∈ w.jobs.set index { job with attempts := row.attempts, phase := .locked },
      other.id ≠ job.id → other ∈ w.jobs := by
    intro other member different
    rcases List.mem_or_eq_of_mem_set member with inJobs | replaced
    · exact inJobs
    · exact absurd (by rw [replaced]) different
  refine ⟨?_, fun other member => ?_, fun other member found' isRow => ?_, fun other member executing found' isRow => ?_⟩
  · rw [ids]
    exact one.distinct
  · by_cases same : other.id = job.id
    · exact ⟨_, by rw [same]; exact AList.lookup_insert _⟩
    · obtain ⟨otherRow, otherStored⟩ := one.present other (old other member same)
      exact ⟨otherRow, by rw [AList.lookup_insert_ne same]; exact otherStored⟩
  · by_cases same : other.id = job.id
    · rw [same, AList.lookup_insert] at isRow
      cases isRow
      simp [TaskRow.lock]
    · rw [AList.lookup_insert_ne same] at isRow
      exact one.unsettled other (old other member same) found' isRow
  · by_cases same : other.id = job.id
    · rw [same, AList.lookup_insert] at isRow
      cases isRow
      rfl
    · rw [AList.lookup_insert_ne same] at isRow
      exact one.locked other (old other member same) executing found' isRow

theorem World.OneCopy.saveJob (one : w.OneCopy) (found : w.jobs[index]? = some job)
    (result : Except TaskError Unit) : (w.saveJob config index job result).OneCopy := by
  obtain ⟨row, stored⟩ := one.present job (List.mem_of_getElem? found)
  have after : w.saveJob config index job result =
      { w with
        tasks := w.tasks.insert job.id (row.finish config job.attempts result)
        jobs := w.jobs.eraseIdx index } := by
    rw [World.saveJob, stored]
  rw [after]
  have inJobs : ∀ other ∈ w.jobs.eraseIdx index, other ∈ w.jobs := fun other => List.mem_of_mem_eraseIdx
  have different : ∀ other ∈ w.jobs.eraseIdx index, other.id ≠ job.id :=
    fun other => id_ne_of_mem_eraseIdx one.distinct found
  refine ⟨one.distinct.sublist ((List.eraseIdx_sublist _ _).map _), fun other member => ?_,
    fun other member found' isRow => ?_, fun other member executing found' isRow => ?_⟩
  · rw [AList.lookup_insert_ne (different other member)]
    exact one.present other (inJobs other member)
  · rw [AList.lookup_insert_ne (different other member)] at isRow
    exact one.unsettled other (inJobs other member) found' isRow
  · rw [AList.lookup_insert_ne (different other member)] at isRow
    exact one.locked other (inJobs other member) executing found' isRow

theorem isExecuting_of_phase {phase : Phase} (isPhase : job.phase = phase) (notSelected : phase ≠ .selected) :
    job.isExecuting = true := by
  unfold Job.isExecuting
  rw [isPhase]
  cases phase with
  | selected => exact absurd rfl notSelected
  | _ => rfl

theorem World.OneCopy.stepJob (one : w.OneCopy) (event : JobEvent) : (w.stepJob config index event).OneCopy := by
  have taken := @stepJob_cases config w index event
  generalize w.stepJob config index event = after at taken ⊢
  cases taken with
  | idle => exact one
  | lock found phase => exact one.lockJob found
  | download found phase content => exact one.setPhase found (isExecuting_of_phase phase (by simp)) _
  | check found phase =>
    have executing := isExecuting_of_phase phase (by simp)
    unfold World.checkJob
    split
    · exact one.setPhase found executing _
    · split
      · exact one.setPhase found executing _
      · exact one.setPhase found executing _
  | update found phase =>
    have moved := one.setPhase found (isExecuting_of_phase phase (by simp))
    unfold World.updateJob
    split
    · exact moved _
    · split
      · exact ⟨(moved _).distinct, (moved _).present, (moved _).unsettled, (moved _).locked⟩
      · exact moved _
  | fail found phase error =>
    refine one.setPhase found ?_ _
    rcases phase with locked | ⟨body, downloaded⟩ | ⟨body, checked⟩
    · exact isExecuting_of_phase locked (by simp)
    · exact isExecuting_of_phase downloaded (by simp)
    · exact isExecuting_of_phase checked (by simp)
  | save found phase => exact one.saveJob found _

theorem World.OneCopy.insert (one : w.OneCopy) (message : Nat) : (w.insert config message).OneCopy := by
  unfold World.insert
  cases w.inserting[message]? with
  | none => exact one
  | some task =>
    dsimp only
    split
    · exact ⟨one.distinct, one.present, one.unsettled, one.locked⟩
    · rename_i absent
      have different : ∀ job ∈ w.jobs, job.id ≠ config.hash task := by
        intro job member same
        obtain ⟨row, stored⟩ := one.present job member
        rw [← same, stored] at absent
        exact absent rfl
      refine ⟨one.distinct, fun job member => ?_, fun job member row isRow => ?_, fun job member executing row isRow => ?_⟩
      · rw [AList.lookup_insert_ne (different job member)]
        exact one.present job member
      · rw [AList.lookup_insert_ne (different job member)] at isRow
        exact one.unsettled job member row isRow
      · rw [AList.lookup_insert_ne (different job member)] at isRow
        exact one.locked job member executing row isRow

/-- Locks that hold keep an executed row from being selected again. -/
theorem World.OneCopy.selectsNew (one : w.OneCopy) (locks : w.LocksHold) {event : Event}
    (selectsFresh : w.SelectsFresh config event) : w.SelectsNew config event := by
  cases event with
  | select runner =>
    intro entry inPending job inJobs sameId
    obtain ⟨stored, pending⟩ := mem_getPendingTasks inPending
    have executing := selectsFresh entry inPending job inJobs sameId
    have isLocked := one.locked job inJobs executing entry.2 (by rw [sameId]; exact stored)
    obtain ⟨time, isTime⟩ := Option.isSome_iff_exists.mp isLocked
    have holds := locks ⟨entry.1, entry.2⟩ (AList.mem_lookup_iff.mp stored)
    simp only [isTime, Option.all_some, decide_eq_true_eq] at holds
    simp only [TaskRow.isPending, isTime, Option.all_some, Bool.and_eq_true, decide_eq_true_eq] at pending
    omega
  | tick | write | notify | listen | insert | job => trivial

theorem World.OneCopy.select (one : w.OneCopy) (runner : String) (selectsNew : w.SelectsNew config (.select runner)) :
    (w.select config runner).OneCopy := by
  have chosen : ∀ job ∈ (w.select config runner).jobs, job ∈ w.jobs ∨
      (job.isExecuting = false ∧ ∃ entry ∈ getPendingTasks w.tasks w.now config.batchSize, job.id = entry.1) := by
    intro job member
    rcases List.mem_append.mp member with old | new
    · exact .inl old
    · obtain ⟨entry, inPending, isJob⟩ := List.mem_map.mp new
      rw [← isJob]
      exact .inr ⟨rfl, entry, inPending, rfl⟩
  refine ⟨?_, fun job member => ?_, fun job member row isRow => ?_, fun job member executing row isRow => ?_⟩
  · have newIds : ((getPendingTasks w.tasks w.now config.batchSize).map (fun entry =>
        ({ runner, id := entry.1, task := entry.2.data, attempts := entry.2.attempts, phase := .selected } : Job))).map
          Job.id = (getPendingTasks w.tasks w.now config.batchSize).map Prod.fst := by
      rw [List.map_map]
      rfl
    rw [World.select, List.map_append, newIds, List.nodup_append]
    refine ⟨one.distinct, getPendingTasks_nodup, fun id isOld other isNew same => ?_⟩
    obtain ⟨job, inJobs, jobId⟩ := List.mem_map.mp isOld
    obtain ⟨entry, inPending, entryId⟩ := List.mem_map.mp isNew
    exact selectsNew entry inPending job inJobs (by rw [jobId, entryId, same])
  · rcases chosen job member with old | ⟨-, entry, inPending, isId⟩
    · exact one.present job old
    · exact ⟨entry.2, by rw [isId]; exact (mem_getPendingTasks inPending).1⟩
  · rcases chosen job member with old | ⟨-, entry, inPending, isId⟩
    · exact one.unsettled job old row isRow
    · obtain ⟨stored, pending⟩ := mem_getPendingTasks inPending
      have sameRow : row = entry.2 := by
        change w.tasks.lookup job.id = some row at isRow
        rw [isId, stored] at isRow
        exact (Option.some.inj isRow).symm
      rw [sameRow]
      simp only [TaskRow.isPending, Bool.and_eq_true, decide_eq_true_eq] at pending
      exact pending.1.1
  · rcases chosen job member with old | ⟨notExecuting, -⟩
    · exact one.locked job old executing row isRow
    · rw [notExecuting] at executing
      cases executing

end Steps

section Run

theorem World.OneCopy.step (one : w.OneCopy) {event : Event} (selectsNew : w.SelectsNew config event) :
    (w.step config event).OneCopy := by
  have applied : (w.apply config event).OneCopy := by
    cases event with
    | tick duration => exact ⟨one.distinct, one.present, one.unsettled, one.locked⟩
    | write asset uri => exact ⟨one.distinct, one.present, one.unsettled, one.locked⟩
    | notify message =>
      simp only [World.apply, World.notify]
      split
      · exact one
      · exact ⟨one.distinct, one.present, one.unsettled, one.locked⟩
    | listen message =>
      simp only [World.apply, World.listen]
      split
      · exact one
      · split
        · exact ⟨one.distinct, one.present, one.unsettled, one.locked⟩
        · exact ⟨one.distinct, one.present, one.unsettled, one.locked⟩
    | insert message => exact one.insert message
    | select runner => exact one.select runner selectsNew
    | job index event => exact one.stepJob event
  exact ⟨applied.distinct, applied.present, applied.unsettled, applied.locked⟩

/-- A row that has succeeded is not written again. -/
theorem World.OneCopy.success_kept (one : w.OneCopy) (event : Event) {id : String} {row : TaskRow}
    (stored : w.tasks.lookup id = some row) (succeeded : row.status = .success) :
    (w.step config event).tasks.lookup id = some row := by
  have other : ∀ job ∈ w.jobs, id ≠ job.id := by
    intro job member same
    rw [same] at stored
    exact one.unsettled job member row stored succeeded
  show (w.apply config event).tasks.lookup id = some row
  cases event with
  | tick duration => exact stored
  | write asset uri => exact stored
  | notify message =>
    simp only [World.apply, World.notify]
    split <;> exact stored
  | listen message =>
    simp only [World.apply, World.listen]
    split
    · exact stored
    · split <;> exact stored
  | insert message =>
    simp only [World.apply, World.insert]
    split
    · exact stored
    · split
      · exact stored
      · rename_i task _ absent
        have different : id ≠ config.hash task := by
          intro same
          rw [← same, stored] at absent
          exact absent rfl
        rw [AList.lookup_insert_ne different]
        exact stored
  | select runner => exact stored
  | job index event =>
    show (w.stepJob config index event).tasks.lookup id = some row
    have taken := @stepJob_cases config w index event
    generalize w.stepJob config index event = after at taken ⊢
    cases taken with
    | idle => exact stored
    | lock found phase =>
      unfold World.lockJob
      split
      · exact stored
      · rw [AList.lookup_insert_ne (other _ (List.mem_of_getElem? found))]
        exact stored
    | download found phase content => exact stored
    | check found phase =>
      unfold World.checkJob
      split
      · exact stored
      · split <;> exact stored
    | update found phase =>
      unfold World.updateJob
      split
      · exact stored
      · split <;> exact stored
    | fail found phase error => exact stored
    | save found phase =>
      unfold World.saveJob
      split
      · exact stored
      · rw [AList.lookup_insert_ne (other _ (List.mem_of_getElem? found))]
        exact stored

/-- No two spawned tasks execute the same row. -/
def World.OneExecutor (w : World) : Prop :=
  ∀ (i j : Nat) (first second : Job), w.jobs[i]? = some first → w.jobs[j]? = some second →
    first.isExecuting = true → second.isExecuting = true → first.id = second.id → i = j

theorem World.OneCopy.oneExecutor (one : w.OneCopy) : w.OneExecutor := by
  intro i j first second isFirst isSecond _ _ sameId
  obtain ⟨iBound, atI⟩ := List.getElem?_eq_some_iff.mp isFirst
  obtain ⟨jBound, atJ⟩ := List.getElem?_eq_some_iff.mp isSecond
  have iIds : i < (w.jobs.map Job.id).length := by rwa [List.length_map]
  have jIds : j < (w.jobs.map Job.id).length := by rwa [List.length_map]
  have same : (w.jobs.map Job.id)[i] = (w.jobs.map Job.id)[j] := by
    rw [List.getElem_map, List.getElem_map, atI, atJ, sameId]
  exact one.distinct.getElem_inj_iff.mp same

/-- While no lock has expired and no runner selects a row of which a copy is still
unlocked, every row has at most one executor, and a row that has succeeded stays
so. -/
theorem one_executor_and_success_final (config : TaskConfig) (w : World) (idle : w.jobs = []) (events : List Event)
    (allowed : Runs.Along (World.step config) (fun w event => w.LocksHold ∧ w.SelectsFresh config event) w events) :
    ∀ earlier, earlier <+: events → (earlier.foldl (World.step config) w).OneExecutor ∧
      ∀ later, earlier ++ later <+: events → ∀ id row,
        (earlier.foldl (World.step config) w).tasks.lookup id = some row → row.status = .success →
        ((earlier ++ later).foldl (World.step config) w).tasks.lookup id = some row := by
  have start : w.OneCopy := by
    refine ⟨?_, ?_, ?_, ?_⟩ <;> simp [idle]
  have kept : ∀ (w : World) (event : Event), w.OneCopy → w.LocksHold ∧ w.SelectsFresh config event →
      (w.step config event).OneCopy :=
    fun _ _ one conditions => one.step (one.selectsNew conditions.1 conditions.2)
  have held := Runs.Along.invariant kept start allowed
  intro earlier begins
  refine ⟨(held earlier begins).oneExecutor, fun later laterBegins id row stored succeeded => ?_⟩
  induction later using List.reverseRecOn with
  | nil =>
    rw [List.append_nil]
    exact stored
  | append_singleton between last ih =>
    rw [← List.append_assoc] at laterBegins ⊢
    have before := (List.prefix_append (earlier ++ between) [last]).trans laterBegins
    rw [List.foldl_concat]
    exact (held _ before).success_kept last (ih before) succeeded

end Run

section Example

instance (w : World) : Decidable w.LocksHold := inferInstanceAs (Decidable (∀ entry ∈ w.tasks.entries, _))

instance (config : TaskConfig) (w : World) : ∀ event, Decidable (w.SelectsFresh config event)
  | .select _ => inferInstanceAs (Decidable (∀ entry ∈ getPendingTasks w.tasks w.now config.batchSize, ∀ job ∈ w.jobs,
      job.id = entry.1 → job.isExecuting = true))
  | .tick _ | .write _ _ | .notify _ | .listen _ | .insert _ | .job _ _ => inferInstanceAs (Decidable True)

/-- An asset with one pending download. -/
def pendingDownload : World where
  assets := AList.singleton .zero { metadataUrl := "a", metadata := none, writtenAt := 0 }
  tasks := AList.singleton "a" (newTask exampleConfig 0 ⟨.zero, "a"⟩)

def selectedTwice : List Event := [.select "first", .select "second"]

def lockedTwice : List Event := selectedTwice ++ [.job 0 .lock, .job 1 .lock]

def lockedJob (runner : String) : Job where
  runner := runner
  id := "a"
  task := ⟨.zero, "a"⟩
  attempts := 0
  phase := .locked

def statusAfter (events : List Event) : Option TaskStatus :=
  ((events.foldl (World.step exampleConfig) pendingDownload).tasks.lookup "a").map TaskRow.status

/-- Two runners select the row before either has locked it: both execute it, and
the second takes the row back from its success. -/
theorem double_selection :
    Runs.Along (World.step exampleConfig) (fun w _ => w.LocksHold) pendingDownload lockedTwice ∧
      ¬ (lockedTwice.foldl (World.step exampleConfig) pendingDownload).OneExecutor ∧
      Runs.Along (World.step exampleConfig) (fun w _ => w.LocksHold) pendingDownload
        (selectedTwice ++ wholeJob ++ [.job 0 .lock]) ∧
      statusAfter (selectedTwice ++ wholeJob) = some .success ∧
      statusAfter (selectedTwice ++ wholeJob ++ [.job 0 .lock]) = some .running := by
  refine ⟨by decide, fun one => ?_, by decide, by decide, by decide⟩
  exact absurd (one 0 1 (lockedJob "first") (lockedJob "second") rfl rfl rfl rfl rfl) (by decide)

/-- A second selection after the lock is saved finds nothing. -/
theorem selection_after_lock :
    pendingDownload.jobs = [] ∧
      Runs.Along (World.step exampleConfig) (fun w event => w.LocksHold ∧ w.SelectsFresh exampleConfig event)
        pendingDownload [.select "first", .job 0 .lock, .select "second"] ∧
      ([.select "first", .job 0 .lock, .select "second"].foldl (World.step exampleConfig)
        pendingDownload).OneExecutor := by
  have allowed : Runs.Along (World.step exampleConfig)
      (fun w event => w.LocksHold ∧ w.SelectsFresh exampleConfig event) pendingDownload
      [.select "first", .job 0 .lock, .select "second"] := by decide
  exact ⟨rfl, allowed,
    (one_executor_and_success_final exampleConfig pendingDownload rfl _ allowed _ (List.prefix_refl _)).1⟩

end Example
end DasIndexer.Tasks
