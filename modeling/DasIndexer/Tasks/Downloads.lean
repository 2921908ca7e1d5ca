import DasIndexer.Tasks.Manager

namespace DasIndexer.Tasks
open Sql

variable {config : TaskConfig} {w : World}

/-- The task has not downloaded anything yet. -/
def Job.isWaiting (job : Job) : Bool :=
  match job.phase with
  | .selected | .locked => true
  | _ => false

/-- The body that the task may still store. -/
def Job.body? (job : Job) : Option Body :=
  match job.phase with
  | .downloaded body | .checked body => some body
  | _ => none

/-- The result that is to be saved. -/
def Job.result? (job : Job) : Option (Except TaskError Unit) :=
  match job.phase with
  | .finished result => some result
  | _ => none

/-- A runner will select the row, at the latest when its lock expires. -/
def TaskRow.isRunnable (row : TaskRow) : Bool := row.status ≠ .success && row.attempts ≤ row.maxAttempts

/-- Saving the result leaves the row to be selected again. -/
def Job.Retries (job : Job) (row : TaskRow) : Except TaskError Unit → Prop
  | .error (.other _) => job.attempts + 1 ≤ row.maxAttempts
  | _ => False

/-- A download of the task is still to come: a spawned task waits for it, or the
row will be selected again. -/
def World.DownloadComing (config : TaskConfig) (w : World) (task : DownloadMetadataInfo) : Prop :=
  (∃ job ∈ w.jobs, job.task = task ∧ job.isWaiting = true) ∨
    ∃ row, w.tasks.lookup (config.hash task) = some row ∧ row.isRunnable = true ∧
      ∀ job ∈ w.jobs, job.task = task → ∀ result, job.result? = some result → job.Retries row result

/-- An address is written while no body of it is on its way into the table, and
while its row is new or a download of it is still to come. -/
def World.WritesFresh (config : TaskConfig) (w : World) : Event → Prop
  | .write asset uri =>
    (∀ job ∈ w.jobs, job.task = ⟨asset, uri⟩ → job.body? = none) ∧
      (w.tasks.lookup (config.hash ⟨asset, uri⟩) = none ∨ w.DownloadComing config ⟨asset, uri⟩)
  | _ => True

/-- Every download and every statement succeeds. -/
def Event.Succeeds : Event → Prop
  | .job _ (.fail _) => False
  | _ => True

/-- The metadata was downloaded from the present address after that was written. -/
def AssetData.Fresh (data : AssetData) : Prop :=
  ∃ body, data.metadata = some body ∧ body.source = data.metadataUrl ∧ data.writtenAt < body.downloadedAt

/-- The download of the task is on its way to the listener or the table. -/
def World.Underway (w : World) (task : DownloadMetadataInfo) : Prop :=
  task ∈ w.unsent ∨ task ∈ w.channel ∨ task ∈ w.inserting

/-- Nothing is left to do. -/
structure World.Quiescent (w : World) : Prop where
  unsent : w.unsent = []
  channel : w.channel = []
  inserting : w.inserting = []
  jobs : w.jobs = []
  rows : ∀ entry ∈ w.tasks.entries, entry.2.isRunnable = false

/-- What is kept about the address `task.uri` of an asset: no older body can be
stored any more, and the metadata is fresh or will be. -/
structure World.Serves (config : TaskConfig) (w : World) (task : DownloadMetadataInfo) (data : AssetData) : Prop where
  current : ∀ job ∈ w.jobs, job.task = task → ∀ body, job.body? = some body → data.writtenAt < body.downloadedAt
  coming : data.Fresh ∨ (∃ job ∈ w.jobs, job.task = task ∧ job.body?.isSome = true) ∨
    (w.tasks.lookup (config.hash task) = none ∧ w.Underway task) ∨ w.DownloadComing config task

/-- The tables, the channel and the spawned tasks agree on what is to be done;
all addresses were written before the step `bound`. -/
structure World.Served (config : TaskConfig) (used : DownloadMetadataInfo → Prop) (bound : Nat) (w : World) :
    Prop where
  messages : ∀ task, w.Underway task → used task
  rows : ∀ id row, w.tasks.lookup id = some row → used row.data ∧ id = config.hash row.data
  jobs : ∀ job ∈ w.jobs, ∃ row, w.tasks.lookup job.id = some row ∧ row.data = job.task
  sources : ∀ job ∈ w.jobs, ∀ body, job.body? = some body → body.source = job.task.uri
  assets : ∀ asset data, w.assets.lookup asset = some data →
    used ⟨asset, data.metadataUrl⟩ ∧ data.writtenAt < bound ∧ w.Serves config ⟨asset, data.metadataUrl⟩ data

section Jobs
variable {index : Nat} {job : Job} {task : DownloadMetadataInfo} {data : AssetData}

theorem mem_set_of_ne {jobs : List Job} {other replaced : Job} (found : jobs[index]? = some job)
    (member : other ∈ jobs) (different : other ≠ job) : other ∈ jobs.set index replaced := by
  obtain ⟨j, atJ⟩ := List.getElem?_of_mem member
  have apart : index ≠ j := by
    intro same
    rw [same, atJ] at found
    exact different (Option.some.inj found)
  refine List.mem_of_getElem? (i := j) ?_
  rw [List.getElem?_set_ne apart]
  exact atJ

theorem mem_eraseIdx_of_ne {jobs : List Job} {other : Job} (found : jobs[index]? = some job)
    (member : other ∈ jobs) (different : other ≠ job) : other ∈ jobs.eraseIdx index := by
  obtain ⟨j, atJ⟩ := List.getElem?_of_mem member
  rw [List.mem_eraseIdx_iff_getElem?]
  refine ⟨j, ?_, atJ⟩
  intro same
  rw [same, found] at atJ
  exact different (Option.some.inj atJ).symm

theorem mem_of_found_set {jobs : List Job} {replaced : Job} (found : jobs[index]? = some job) :
    replaced ∈ jobs.set index replaced := by
  obtain ⟨inBounds, -⟩ := List.getElem?_eq_some_iff.mp found
  exact List.mem_set inBounds replaced

/-- The phases that keep the promise of a task. -/
structure KeepsPromise (job replaced : Job) (data : AssetData) : Prop where
  current : ∀ body, replaced.body? = some body → data.writtenAt < body.downloadedAt
  unfinished : replaced.result? = none
  waiting : job.isWaiting = true → replaced.isWaiting = true ∨ replaced.body?.isSome = true
  holding : job.body?.isSome = true → replaced.body?.isSome = true

/-- A spawned task moves on, and rows that could be selected still can. -/
theorem World.Serves.replace {after : World} (replaced : Job) (serves : w.Serves config task data)
    (found : w.jobs[index]? = some job) (sameTask : replaced.task = job.task)
    (promise : job.task = task → KeepsPromise job replaced data)
    (jobs : after.jobs = w.jobs.set index replaced)
    (absent : w.tasks.lookup (config.hash task) = none → after.tasks.lookup (config.hash task) = none)
    (rows : ∀ row, w.tasks.lookup (config.hash task) = some row → row.isRunnable = true →
      ∃ later, after.tasks.lookup (config.hash task) = some later ∧ later.isRunnable = true ∧
        later.maxAttempts = row.maxAttempts)
    (underway : w.Underway task → after.Underway task) : after.Serves config task data := by
  have new : replaced ∈ after.jobs := by
    rw [jobs]
    exact mem_of_found_set found
  refine ⟨fun other member ofTask body holds => ?_, ?_⟩
  · rw [jobs] at member
    rcases List.mem_or_eq_of_mem_set member with old | isNew
    · exact serves.current other old ofTask body holds
    · rw [isNew] at ofTask holds
      exact (promise (sameTask.symm.trans ofTask)).current body holds
  · rcases serves.coming with fresh | ⟨other, member, ofTask, holds⟩ | ⟨none, isUnderway⟩ | coming
    · exact .inl fresh
    · refine .inr (.inl ?_)
      by_cases same : other = job
      · rw [same] at ofTask holds
        exact ⟨replaced, new, sameTask.trans ofTask, (promise ofTask).holding holds⟩
      · exact ⟨other, by rw [jobs]; exact mem_set_of_ne found member same, ofTask, holds⟩
    · exact .inr (.inr (.inl ⟨absent none, underway isUnderway⟩))
    · rcases coming with ⟨other, member, ofTask, waits⟩ | ⟨row, stored, runnable, finished⟩
      · by_cases same : other = job
        · rw [same] at ofTask waits
          rcases (promise ofTask).waiting waits with still | holds
          · exact .inr (.inr (.inr (.inl ⟨replaced, new, sameTask.trans ofTask, still⟩)))
          · exact .inr (.inl ⟨replaced, new, sameTask.trans ofTask, holds⟩)
        · exact .inr (.inr (.inr (.inl ⟨other, by rw [jobs]; exact mem_set_of_ne found member same, ofTask, waits⟩)))
      · obtain ⟨later, storedLater, runnableLater, sameMax⟩ := rows row stored runnable
        refine .inr (.inr (.inr (.inr ⟨later, storedLater, runnableLater, fun other member ofTask result isResult => ?_⟩)))
        rw [jobs] at member
        rcases List.mem_or_eq_of_mem_set member with old | isNew
        · have retries := finished other old ofTask result isResult
          unfold Job.Retries at retries ⊢
          rw [sameMax]
          exact retries
        · rw [isNew] at ofTask isResult
          rw [(promise (sameTask.symm.trans ofTask)).unfinished] at isResult
          cases isResult

/-- The same for a step that changes no row. -/
theorem World.Serves.setPhase (serves : w.Serves config task data) (found : w.jobs[index]? = some job) {phase : Phase}
    (promise : job.task = task → KeepsPromise job { job with phase } data) :
    (w.setPhase index job phase).Serves config task data :=
  serves.replace { job with phase } found rfl promise rfl id (fun row stored runnable => ⟨row, stored, runnable, rfl⟩) id

end Jobs

section Steps
variable {used : DownloadMetadataInfo → Prop} {bound index : Nat} {job : Job}

theorem World.Served.setPhase (served : w.Served config used bound) (found : w.jobs[index]? = some job) {phase : Phase}
    (source : ∀ body, Job.body? { job with phase } = some body → body.source = job.task.uri)
    (promise : ∀ data, w.assets.lookup job.task.assetDataId = some data → data.metadataUrl = job.task.uri →
      KeepsPromise job { job with phase } data) :
    (w.setPhase index job phase).Served config used bound := by
  have old : ∀ other ∈ (w.setPhase index job phase).jobs, other ∈ w.jobs ∨ other = { job with phase } :=
    fun other => List.mem_or_eq_of_mem_set
  refine ⟨served.messages, served.rows, fun other member => ?_, fun other member body holds => ?_,
    fun asset data stored => ?_⟩
  · rcases old other member with inJobs | isNew
    · exact served.jobs other inJobs
    · rw [isNew]
      exact served.jobs job (List.mem_of_getElem? found)
  · rcases old other member with inJobs | isNew
    · exact served.sources other inJobs body holds
    · rw [isNew] at holds ⊢
      exact source body holds
  · obtain ⟨isUsed, early, serves⟩ := served.assets asset data stored
    refine ⟨isUsed, early, serves.setPhase found (fun ofTask => ?_)⟩
    refine promise data ?_ ?_
    · rw [ofTask]
      exact stored
    · rw [ofTask]

theorem served_download (served : w.Served config used w.clock) (found : w.jobs[index]? = some job)
    (content : Json) : (w.downloadJob config index job content).Served config used w.clock := by
  refine served.setPhase found (fun body holds => ?_) (fun data stored sameUrl => ?_)
  · cases holds
    rfl
  · obtain ⟨-, early, -⟩ := served.assets _ data stored
    refine ⟨fun body holds => ?_, rfl, fun _ => .inr rfl, fun _ => rfl⟩
    cases holds
    exact early

theorem served_check {body : Body} (served : w.Served config used bound) (found : w.jobs[index]? = some job)
    (phase : job.phase = .downloaded body) : (w.checkJob index job body).Served config used bound := by
  have member := List.mem_of_getElem? found
  have holds : job.body? = some body := by
    unfold Job.body?
    rw [phase]
  unfold World.checkJob
  split
  · rename_i absent
    refine served.setPhase found (fun other none => by cases none) (fun data stored _ => ?_)
    rw [absent] at stored
    cases stored
  · rename_i data stored
    split
    · rename_i changed
      refine served.setPhase found (fun other none => by cases none) (fun other storedOther sameUrl => ?_)
      rw [stored] at storedOther
      cases storedOther
      exact absurd sameUrl changed
    · refine served.setPhase found (fun other isBody => ?_) (fun other storedOther sameUrl => ?_)
      · cases isBody
        exact served.sources job member body holds
      · obtain ⟨-, -, serves⟩ := served.assets _ other storedOther
        have ofTask : job.task = ⟨job.task.assetDataId, other.metadataUrl⟩ := by rw [sameUrl]
        refine ⟨fun last isBody => ?_, rfl, fun _ => .inr rfl, fun _ => rfl⟩
        cases isBody
        exact serves.current job member ofTask body holds

theorem served_update {body : Body} (served : w.Served config used bound) (found : w.jobs[index]? = some job)
    (phase : job.phase = .checked body) : (w.updateJob config index job body).Served config used bound := by
  have member := List.mem_of_getElem? found
  have holds : job.body? = some body := by
    unfold Job.body?
    rw [phase]
  unfold World.updateJob
  split
  · rename_i absent
    refine served.setPhase found (fun other none => by cases none) (fun data stored _ => ?_)
    rw [absent] at stored
    cases stored
  · rename_i data stored
    split
    · rename_i sameUrl
      dsimp only
      generalize (if config.parses job.task.uri = true then (Except.ok () : Except TaskError Unit)
        else .error (.unrecoverable ("Failed to parse URI: " ++ job.task.uri))) = result
      have ofTask : job.task = ⟨job.task.assetDataId, data.metadataUrl⟩ := by rw [sameUrl]
      obtain ⟨isUsed, early, serves⟩ := served.assets _ data stored
      have old : ∀ other ∈ w.jobs.set index { job with phase := .finished result },
          other ∈ w.jobs ∨ other = { job with phase := .finished result } := fun other => List.mem_or_eq_of_mem_set
      have fresh : AssetData.Fresh { data with metadata := some body } :=
        ⟨body, rfl, (served.sources job member body holds).trans sameUrl.symm,
          serves.current job member ofTask body holds⟩
      refine ⟨served.messages, served.rows, fun other inJobs => ?_, fun other inJobs last isBody => ?_,
        fun asset other isOther => ?_⟩
      · rcases old other inJobs with isOld | isNew
        · exact served.jobs other isOld
        · rw [isNew]
          exact served.jobs job member
      · rcases old other inJobs with isOld | isNew
        · exact served.sources other isOld last isBody
        · rw [isNew] at isBody
          cases isBody
      · change (w.assets.insert job.task.assetDataId { data with metadata := some body }).lookup asset = some other
          at isOther
        by_cases same : asset = job.task.assetDataId
        · subst same
          rw [AList.lookup_insert] at isOther
          cases isOther
          refine ⟨isUsed, early, fun last inJobs lastTask stale isBody => ?_, .inl fresh⟩
          rcases old last inJobs with isOld | isNew
          · exact serves.current last isOld lastTask stale isBody
          · rw [isNew] at isBody
            cases isBody
        · rw [AList.lookup_insert_ne same] at isOther
          obtain ⟨otherUsed, otherEarly, otherServes⟩ := served.assets asset other isOther
          refine ⟨otherUsed, otherEarly, ?_⟩
          have moved : (w.setPhase index job (.finished result)).Serves config ⟨asset, other.metadataUrl⟩ other :=
            otherServes.setPhase found (fun otherTask => absurd (by rw [otherTask]) same)
          exact ⟨moved.current, moved.coming⟩
    · rename_i changed
      refine served.setPhase found (fun other none => by cases none) (fun other storedOther sameUrl => ?_)
      rw [stored] at storedOther
      cases storedOther
      exact absurd sameUrl changed

theorem isRunnable_lock {row : TaskRow} {now : Nat} {instanceName : String} (runnable : row.isRunnable = true) :
    (row.lock config now instanceName).isRunnable = true := by
  simp only [TaskRow.isRunnable, Bool.and_eq_true, decide_eq_true_eq] at runnable
  simp [TaskRow.isRunnable, TaskRow.lock, runnable.2]

theorem served_lock (served : w.Served config used bound) (found : w.jobs[index]? = some job)
    (phase : job.phase = .selected) : (w.lockJob config index job).Served config used bound := by
  have member := List.mem_of_getElem? found
  obtain ⟨row, stored, isData⟩ := served.jobs job member
  have after : w.lockJob config index job =
      { w with
        tasks := w.tasks.insert job.id (row.lock config w.now job.runner)
        jobs := w.jobs.set index { job with attempts := row.attempts, phase := .locked } } := by
    rw [World.lockJob, stored]
  have data : ∀ id other, w.tasks.lookup id = some other →
      ∃ later, (w.tasks.insert job.id (row.lock config w.now job.runner)).lookup id = some later ∧
        later.data = other.data ∧ (other.isRunnable = true → later.isRunnable = true) ∧
        later.maxAttempts = other.maxAttempts := by
    intro id other storedOther
    by_cases same : id = job.id
    · rw [same, stored] at storedOther
      cases storedOther
      rw [same, AList.lookup_insert]
      exact ⟨_, rfl, rfl, isRunnable_lock, rfl⟩
    · rw [AList.lookup_insert_ne same]
      exact ⟨other, storedOther, rfl, fun runnable => runnable, rfl⟩
  have old : ∀ other ∈ w.jobs.set index { job with attempts := row.attempts, phase := .locked },
      other ∈ w.jobs ∨ other = { job with attempts := row.attempts, phase := .locked } :=
    fun other => List.mem_or_eq_of_mem_set
  rw [after]
  refine ⟨served.messages, fun id other isOther => ?_, fun other inJobs => ?_, fun other inJobs body holds => ?_,
    fun asset stored' isAsset => ?_⟩
  · by_cases same : id = job.id
    · rw [same, AList.lookup_insert] at isOther
      cases isOther
      rw [same]
      exact served.rows job.id row stored
    · rw [AList.lookup_insert_ne same] at isOther
      exact served.rows id other isOther
  · obtain ⟨otherRow, storedOther, isOtherData⟩ : ∃ row, w.tasks.lookup other.id = some row ∧ row.data = other.task := by
      rcases old other inJobs with isOld | isNew
      · exact served.jobs other isOld
      · rw [isNew]
        exact ⟨row, stored, isData⟩
    obtain ⟨later, storedLater, sameData, -⟩ := data other.id otherRow storedOther
    exact ⟨later, storedLater, sameData.trans isOtherData⟩
  · rcases old other inJobs with isOld | isNew
    · exact served.sources other isOld body holds
    · rw [isNew] at holds
      cases holds
  · obtain ⟨isUsed, early, serves⟩ := served.assets asset stored' isAsset
    refine ⟨isUsed, early, serves.replace { job with attempts := row.attempts, phase := .locked } found rfl
      (fun _ => ?_) rfl (fun none => ?_) (fun other storedOther runnable => ?_) id⟩
    · refine ⟨fun body holds => ?_, rfl, fun _ => .inl rfl, fun holds => ?_⟩
      · cases holds
      · unfold Job.body? at holds
        rw [phase] at holds
        cases holds
    · have different : config.hash ⟨asset, stored'.metadataUrl⟩ ≠ job.id := by
        intro same
        rw [same, stored] at none
        cases none
      rw [AList.lookup_insert_ne different]
      exact none
    · obtain ⟨later, storedLater, -, keeps, sameMax⟩ := data _ other storedOther
      exact ⟨later, storedLater, keeps runnable, sameMax⟩

theorem finish_data (row : TaskRow) (attempts : Nat) (result : Except TaskError Unit) :
    (row.finish config attempts result).data = row.data ∧
      (row.finish config attempts result).maxAttempts = row.maxAttempts := by
  unfold TaskRow.finish
  split <;> exact ⟨rfl, rfl⟩

theorem isRunnable_finish {row : TaskRow} {result : Except TaskError Unit} (retries : job.Retries row result) :
    (row.finish config job.attempts result).isRunnable = true := by
  unfold Job.Retries at retries
  split at retries
  · simp [TaskRow.isRunnable, TaskRow.finish, retries]
  · cases retries

theorem served_save {result : Except TaskError Unit} (served : w.Served config used bound)
    (injective : ∀ task other, used task → used other → config.hash task = config.hash other → task = other)
    (found : w.jobs[index]? = some job) (phase : job.phase = .finished result) :
    (w.saveJob config index job result).Served config used bound := by
  have member := List.mem_of_getElem? found
  obtain ⟨row, stored, isData⟩ := served.jobs job member
  obtain ⟨sameData, sameMax⟩ := @finish_data config row job.attempts result
  have after : w.saveJob config index job result =
      { w with
        tasks := w.tasks.insert job.id (row.finish config job.attempts result)
        jobs := w.jobs.eraseIdx index } := by
    rw [World.saveJob, stored]
  have inJobs : ∀ other ∈ w.jobs.eraseIdx index, other ∈ w.jobs := fun other => List.mem_of_mem_eraseIdx
  rw [after]
  refine ⟨served.messages, fun id other isOther => ?_, fun other isOther => ?_,
    fun other isOther => served.sources other (inJobs other isOther), fun asset data isAsset => ?_⟩
  · by_cases same : id = job.id
    · rw [same, AList.lookup_insert] at isOther
      cases isOther
      rw [same, sameData]
      exact served.rows job.id row stored
    · rw [AList.lookup_insert_ne same] at isOther
      exact served.rows id other isOther
  · by_cases same : other.id = job.id
    · obtain ⟨otherRow, storedOther, isOtherData⟩ := served.jobs other (inJobs other isOther)
      rw [same, stored] at storedOther
      cases storedOther
      rw [same, AList.lookup_insert]
      exact ⟨_, rfl, sameData.trans isOtherData⟩
    · rw [AList.lookup_insert_ne same]
      exact served.jobs other (inJobs other isOther)
  · obtain ⟨isUsed, early, serves⟩ := served.assets asset data isAsset
    refine ⟨isUsed, early, fun other isOther => serves.current other (inJobs other isOther), ?_⟩
    rcases serves.coming with fresh | ⟨other, isOther, ofTask, holds⟩ | ⟨none, isUnderway⟩ | coming
    · exact .inl fresh
    · refine .inr (.inl ⟨other, mem_eraseIdx_of_ne found isOther (fun same => ?_), ofTask, holds⟩)
      rw [same] at holds
      unfold Job.body? at holds
      rw [phase] at holds
      cases holds
    · have different : config.hash ⟨asset, data.metadataUrl⟩ ≠ job.id := by
        intro same
        rw [same, stored] at none
        cases none
      exact .inr (.inr (.inl ⟨by rw [AList.lookup_insert_ne different]; exact none, isUnderway⟩))
    · refine .inr (.inr (.inr ?_))
      rcases coming with ⟨other, isOther, ofTask, waits⟩ | ⟨stored', isStored, runnable, finished⟩
      · refine .inl ⟨other, mem_eraseIdx_of_ne found isOther (fun same => ?_), ofTask, waits⟩
        rw [same] at waits
        unfold Job.isWaiting at waits
        rw [phase] at waits
        cases waits
      · right
        by_cases same : config.hash ⟨asset, data.metadataUrl⟩ = job.id
        · rw [same, stored] at isStored
          cases isStored
          obtain ⟨rowUsed, isHash⟩ := served.rows job.id row stored
          have isTask : job.task = ⟨asset, data.metadataUrl⟩ :=
            isData.symm.trans (injective _ _ rowUsed isUsed (isHash.symm.trans same.symm))
          have retries := finished job member isTask result (by unfold Job.result?; rw [phase])
          refine ⟨row.finish config job.attempts result, by rw [same]; exact AList.lookup_insert _,
            isRunnable_finish retries, fun other isOther ofTask last isLast => ?_⟩
          have otherRetries := finished other (inJobs other isOther) ofTask last isLast
          unfold Job.Retries at otherRetries ⊢
          rw [sameMax]
          exact otherRetries
        · exact ⟨stored', by rw [AList.lookup_insert_ne same]; exact isStored, runnable,
            fun other isOther => finished other (inJobs other isOther)⟩

theorem served_select (served : w.Served config used bound) (runner : String) :
    (w.select config runner).Served config used bound := by
  have chosen : ∀ job ∈ (w.select config runner).jobs, job ∈ w.jobs ∨
      (job.phase = .selected ∧ ∃ row, w.tasks.lookup job.id = some row ∧ row.data = job.task) := by
    intro job member
    rcases List.mem_append.mp member with old | new
    · exact .inl old
    · obtain ⟨entry, inPending, isJob⟩ := List.mem_map.mp new
      rw [← isJob]
      exact .inr ⟨rfl, entry.2, (mem_getPendingTasks inPending).1, rfl⟩
  have older : ∀ job ∈ w.jobs, job ∈ (w.select config runner).jobs := fun job => List.mem_append_left _
  refine ⟨served.messages, served.rows, fun job member => ?_, fun job member body holds => ?_,
    fun asset data isAsset => ?_⟩
  · rcases chosen job member with old | ⟨-, present⟩
    · exact served.jobs job old
    · exact present
  · rcases chosen job member with old | ⟨isSelected, -⟩
    · exact served.sources job old body holds
    · unfold Job.body? at holds
      rw [isSelected] at holds
      cases holds
  · obtain ⟨isUsed, early, serves⟩ := served.assets asset data isAsset
    refine ⟨isUsed, early, fun job member ofTask body holds => ?_, ?_⟩
    · rcases chosen job member with old | ⟨isSelected, -⟩
      · exact serves.current job old ofTask body holds
      · unfold Job.body? at holds
        rw [isSelected] at holds
        cases holds
    · rcases serves.coming with fresh | ⟨job, member, holds⟩ | absent | coming
      · exact .inl fresh
      · exact .inr (.inl ⟨job, older job member, holds⟩)
      · exact .inr (.inr (.inl absent))
      · refine .inr (.inr (.inr ?_))
        rcases coming with ⟨job, member, waits⟩ | ⟨row, stored, runnable, finished⟩
        · exact .inl ⟨job, older job member, waits⟩
        · refine .inr ⟨row, stored, runnable, fun job member ofTask result isResult => ?_⟩
          rcases chosen job member with old | ⟨isSelected, -⟩
          · exact finished job old ofTask result isResult
          · unfold Job.result? at isResult
            rw [isSelected] at isResult
            cases isResult

/-- A step that only moves messages on, and loses none whose row is absent. -/
theorem World.Served.moveMessages {after : World} (served : w.Served config used bound) (jobs : after.jobs = w.jobs)
    (tasks : after.tasks = w.tasks) (assets : after.assets = w.assets)
    (fewer : ∀ task, after.Underway task → w.Underway task)
    (kept : ∀ task, w.tasks.lookup (config.hash task) = none → w.Underway task → after.Underway task) :
    after.Served config used bound := by
  refine ⟨fun task isUnderway => served.messages task (fewer task isUnderway), ?_, ?_, ?_, fun asset data isAsset => ?_⟩
  · rw [tasks]
    exact served.rows
  · rw [jobs, tasks]
    exact served.jobs
  · rw [jobs]
    exact served.sources
  · rw [assets] at isAsset
    obtain ⟨isUsed, early, serves⟩ := served.assets asset data isAsset
    refine ⟨isUsed, early, by rw [jobs]; exact serves.current, ?_⟩
    unfold World.DownloadComing
    rw [jobs, tasks]
    rcases serves.coming with fresh | holding | ⟨absent, isUnderway⟩ | coming
    · exact .inl fresh
    · exact .inr (.inl holding)
    · exact .inr (.inr (.inl ⟨absent, kept _ absent isUnderway⟩))
    · exact .inr (.inr (.inr coming))

theorem mem_eraseIdx_iff {messages : List DownloadMetadataInfo} {message : Nat} {task other : DownloadMetadataInfo}
    (found : messages[message]? = some task) :
    other ∈ messages ↔ other ∈ messages.eraseIdx message ∨ other = task := by
  obtain ⟨inBounds, isTask⟩ := List.getElem?_eq_some_iff.mp found
  have parts : messages = messages.take message ++ task :: messages.drop (message + 1) := by
    rw [← isTask, List.getElem_cons_drop, List.take_append_drop]
  rw [List.eraseIdx_eq_take_drop_succ]
  conv_lhs => rw [parts]
  simp only [List.mem_append, List.mem_cons]
  tauto

theorem served_notify (served : w.Served config used bound) (message : Nat) :
    (w.notify message).Served config used bound := by
  unfold World.notify
  split
  · exact served
  · rename_i task found
    refine served.moveMessages rfl rfl rfl (fun other isUnderway => ?_) (fun other _ isUnderway => ?_)
    · unfold World.Underway at isUnderway ⊢
      simp only [List.mem_append, List.mem_singleton] at isUnderway
      rw [mem_eraseIdx_iff found]
      tauto
    · unfold World.Underway at isUnderway ⊢
      rw [mem_eraseIdx_iff found] at isUnderway
      simp only [List.mem_append, List.mem_singleton]
      tauto

theorem served_listen (served : w.Served config used bound) (message : Nat) :
    (w.listen config message).Served config used bound := by
  unfold World.listen
  split
  · exact served
  · rename_i task found
    dsimp only
    split
    · rename_i skipped
      refine served.moveMessages rfl rfl rfl (fun other isUnderway => ?_) (fun other absent isUnderway => ?_)
      · unfold World.Underway at isUnderway ⊢
        rw [mem_eraseIdx_iff found]
        tauto
      · have different : other ≠ task := by
          intro same
          rw [← same, absent] at skipped
          cases skipped
        unfold World.Underway at isUnderway ⊢
        rw [mem_eraseIdx_iff found] at isUnderway
        tauto
    · refine served.moveMessages rfl rfl rfl (fun other isUnderway => ?_) (fun other _ isUnderway => ?_)
      · unfold World.Underway at isUnderway ⊢
        simp only [List.mem_append, List.mem_singleton] at isUnderway
        rw [mem_eraseIdx_iff found]
        tauto
      · unfold World.Underway at isUnderway ⊢
        rw [mem_eraseIdx_iff found] at isUnderway
        simp only [List.mem_append, List.mem_singleton]
        tauto

theorem isRunnable_newTask (now : Nat) (task : DownloadMetadataInfo) : (newTask config now task).isRunnable = true := by
  unfold newTask TaskRow.isRunnable
  dsimp only
  split <;> simp [TaskRow.lock]

theorem newTask_data (now : Nat) (task : DownloadMetadataInfo) : (newTask config now task).data = task := by
  unfold newTask
  dsimp only
  split <;> rfl

theorem served_insert (served : w.Served config used bound)
    (injective : ∀ task other, used task → used other → config.hash task = config.hash other → task = other)
    (message : Nat) : (w.insert config message).Served config used bound := by
  unfold World.insert
  split
  · exact served
  · rename_i task found
    dsimp only
    split
    · rename_i present
      refine served.moveMessages rfl rfl rfl (fun other isUnderway => ?_) (fun other absent isUnderway => ?_)
      · unfold World.Underway at isUnderway ⊢
        rw [mem_eraseIdx_iff found]
        tauto
      · have different : other ≠ task := by
          intro same
          rw [← same, absent] at present
          cases present
        unfold World.Underway at isUnderway ⊢
        rw [mem_eraseIdx_iff found] at isUnderway
        tauto
    · rename_i present
      have absent : w.tasks.lookup (config.hash task) = none := by simpa using present
      have taskUsed : used task := served.messages task (.inr (.inr (List.mem_of_getElem? found)))
      have other : ∀ id row, w.tasks.lookup id = some row → id ≠ config.hash task := by
        intro id row stored same
        rw [same, absent] at stored
        cases stored
      refine ⟨fun other isUnderway => ?_, fun id row stored => ?_, fun job member => ?_, served.sources,
        fun asset data isAsset => ?_⟩
      · refine served.messages other ?_
        unfold World.Underway at isUnderway ⊢
        rw [mem_eraseIdx_iff found]
        tauto
      · by_cases same : id = config.hash task
        · rw [same, AList.lookup_insert] at stored
          cases stored
          rw [newTask_data]
          exact ⟨taskUsed, same⟩
        · rw [AList.lookup_insert_ne same] at stored
          exact served.rows id row stored
      · obtain ⟨row, stored, isData⟩ := served.jobs job member
        exact ⟨row, by rw [AList.lookup_insert_ne (other job.id row stored)]; exact stored, isData⟩
      · obtain ⟨isUsed, early, serves⟩ := served.assets asset data isAsset
        refine ⟨isUsed, early, serves.current, ?_⟩
        rcases serves.coming with fresh | holding | ⟨none, isUnderway⟩ | coming
        · exact .inl fresh
        · exact .inr (.inl holding)
        · by_cases same : config.hash ⟨asset, data.metadataUrl⟩ = config.hash task
          · have isTask := injective _ _ isUsed taskUsed same
            refine .inr (.inr (.inr (.inr ⟨_, by rw [same]; exact AList.lookup_insert _, isRunnable_newTask w.now task,
              fun job member ofTask => ?_⟩)))
            obtain ⟨row, stored, isData⟩ := served.jobs job member
            have isHash := (served.rows job.id row stored).2
            rw [isData, ofTask, isTask] at isHash
            exact absurd isHash (other job.id row stored)
          · refine .inr (.inr (.inl ⟨by rw [AList.lookup_insert_ne same]; exact none, ?_⟩))
            have different : (⟨asset, data.metadataUrl⟩ : DownloadMetadataInfo) ≠ task :=
              fun isTask => same (by rw [isTask])
            unfold World.Underway at isUnderway ⊢
            rw [mem_eraseIdx_iff found] at isUnderway
            tauto
        · refine .inr (.inr (.inr ?_))
          rcases coming with waiting | ⟨row, stored, rest⟩
          · exact .inl waiting
          · exact .inr ⟨row, by rw [AList.lookup_insert_ne (other _ row stored)]; exact stored, rest⟩

theorem served_write (served : w.Served config used w.clock) {asset : Pubkey} {uri : String} (isUsed : used ⟨asset, uri⟩)
    (writesFresh : w.WritesFresh config (.write asset uri)) :
    (w.write asset uri).Served config used (w.clock + 1) := by
  have underway : ∀ task, w.Underway task → (w.write asset uri).Underway task := by
    intro task isUnderway
    rcases isUnderway with unsent | later
    · exact .inl (List.mem_append_left _ unsent)
    · exact .inr later
  refine ⟨fun task isUnderway => ?_, served.rows, served.jobs, served.sources, fun other data isData => ?_⟩
  · rcases isUnderway with unsent | later
    · rcases List.mem_append.mp unsent with old | new
      · exact served.messages task (.inl old)
      · rw [List.mem_singleton.mp new]
        exact isUsed
    · exact served.messages task (.inr later)
  · change (w.assets.insert asset _).lookup other = some data at isData
    by_cases same : other = asset
    · rw [same, AList.lookup_insert] at isData
      cases isData
      rw [same]
      refine ⟨isUsed, Nat.lt_succ_self _, fun job member ofTask body holds => ?_, ?_⟩
      · rw [writesFresh.1 job member ofTask] at holds
        cases holds
      · rcases writesFresh.2 with absent | coming
        · exact .inr (.inr (.inl ⟨absent, .inl (List.mem_append_right _ List.mem_cons_self)⟩))
        · exact .inr (.inr (.inr coming))
    · rw [AList.lookup_insert_ne same] at isData
      obtain ⟨otherUsed, early, serves⟩ := served.assets other data isData
      refine ⟨otherUsed, Nat.lt_succ_of_lt early, serves.current, ?_⟩
      rcases serves.coming with fresh | holding | ⟨absent, isUnderway⟩ | coming
      · exact .inl fresh
      · exact .inr (.inl holding)
      · exact .inr (.inr (.inl ⟨absent, underway _ isUnderway⟩))
      · exact .inr (.inr (.inr coming))

end Steps

section Run
variable {used : DownloadMetadataInfo → Prop}

/-- What a step may do: it succeeds, writes no address twice over a finished
download, and names only the addresses in use. -/
structure World.Admits (config : TaskConfig) (used : DownloadMetadataInfo → Prop) (w : World) (event : Event) :
    Prop where
  succeeds : event.Succeeds
  writesFresh : w.WritesFresh config event
  used : ∀ asset uri, event = .write asset uri → used ⟨asset, uri⟩

theorem World.Served.mono {bound later : Nat} (served : w.Served config used bound) (ordered : bound ≤ later) :
    w.Served config used later where
  messages := served.messages
  rows := served.rows
  jobs := served.jobs
  sources := served.sources
  assets asset data stored := by
    obtain ⟨isUsed, early, serves⟩ := served.assets asset data stored
    exact ⟨isUsed, by omega, serves⟩

theorem served_stepJob (served : w.Served config used w.clock)
    (injective : ∀ task other, used task → used other → config.hash task = config.hash other → task = other)
    (index : Nat) (event : JobEvent) (succeeds : (Event.job index event).Succeeds) :
    (w.stepJob config index event).Served config used w.clock := by
  have taken := @stepJob_cases config w index event
  generalize w.stepJob config index event = after at taken ⊢
  cases taken with
  | idle => exact served
  | lock found phase => exact served_lock served found phase
  | download found phase content => exact served_download served found content
  | check found phase => exact served_check served found phase
  | update found phase => exact served_update served found phase
  | fail found phase error => exact absurd succeeds id
  | save found phase => exact served_save served injective found phase

theorem served_step (w : World) (event : Event)
    (injective : ∀ task other, used task → used other → config.hash task = config.hash other → task = other)
    (served : w.Served config used w.clock) (admits : w.Admits config used event) :
    (w.step config event).Served config used (w.step config event).clock := by
  have later := Nat.le_succ w.clock
  have applied : (w.apply config event).Served config used (w.clock + 1) := by
    cases event with
    | tick duration =>
      have moved : World.Served config used w.clock { w with now := w.now + duration } :=
        served.moveMessages rfl rfl rfl (fun _ => id) (fun _ _ => id)
      exact moved.mono later
    | write asset uri => exact served_write served (admits.used asset uri rfl) admits.writesFresh
    | notify message => exact (served_notify served message).mono later
    | listen message => exact (served_listen served message).mono later
    | insert message => exact (served_insert served injective message).mono later
    | select runner => exact (served_select served runner).mono later
    | job index event => exact (served_stepJob served injective index event admits.succeeds).mono later
  exact applied.moveMessages rfl rfl rfl (fun _ => id) (fun _ _ => id)

theorem World.Quiescent.fresh {bound : Nat} (quiescent : w.Quiescent) (served : w.Served config used bound)
    {asset : Pubkey} {data : AssetData} (stored : w.assets.lookup asset = some data) : data.Fresh := by
  obtain ⟨-, -, serves⟩ := served.assets asset data stored
  rcases serves.coming with fresh | ⟨job, member, -⟩ | ⟨-, unsent | sent | inserting⟩ |
    ⟨job, member, -⟩ | ⟨row, isRow, runnable, -⟩
  · exact fresh
  · rw [quiescent.jobs] at member
    cases member
  · rw [quiescent.unsent] at unsent
    cases unsent
  · rw [quiescent.channel] at sent
    cases sent
  · rw [quiescent.inserting] at inserting
    cases inserting
  · rw [quiescent.jobs] at member
    cases member
  · have idle := quiescent.rows ⟨_, row⟩ (AList.mem_lookup_iff.mp isRow)
    rw [idle] at runnable
    cases runnable

/-- When every address is written before a task of it has downloaded anything,
the metadata of every asset is fresh whenever nothing is left to do. -/
theorem metadata_fresh (config : TaskConfig) (events : List Event)
    (injective : ∀ task other : DownloadMetadataInfo, .write task.assetDataId task.uri ∈ events →
      .write other.assetDataId other.uri ∈ events → config.hash task = config.hash other → task = other)
    (allowed : Runs.Along (World.step config) (fun w event => event.Succeeds ∧ w.WritesFresh config event) {} events) :
    ∀ earlier, earlier <+: events → (earlier.foldl (World.step config) {}).Quiescent → ∀ asset data,
      (earlier.foldl (World.step config) {}).assets.lookup asset = some data → data.Fresh := by
  have admitted : Runs.Along (World.step config)
      (World.Admits config (fun task => .write task.assetDataId task.uri ∈ events)) {} events := by
    refine allowed.imp_of_mem (fun w event member conditions => ⟨conditions.1, conditions.2, fun asset uri isWrite => ?_⟩)
    rw [isWrite] at member
    exact member
  have start : World.Served config (fun task => .write task.assetDataId task.uri ∈ events) 0 {} := by
    refine ⟨fun task isUnderway => ?_, fun id row stored => ?_, fun job member => ?_, fun job member => ?_,
      fun asset data stored => ?_⟩
    · rcases isUnderway with member | member | member <;> cases member
    · cases stored
    · cases member
    · cases member
    · cases stored
  have kept : ∀ (w : World) (event : Event),
      w.Served config (fun task => .write task.assetDataId task.uri ∈ events) w.clock →
      w.Admits config (fun task => .write task.assetDataId task.uri ∈ events) event →
      (w.step config event).Served config (fun task => .write task.assetDataId task.uri ∈ events)
        (w.step config event).clock := fun w event => served_step w event injective
  intro earlier begins quiescent asset data stored
  exact quiescent.fresh (Runs.Along.invariant kept start admitted earlier begins) stored

end Run

section Example

/-- A task of the listener's channel is stored, selected and executed. -/
def downloadOnce : List Event := [.notify 0, .listen 0, .insert 0, .select "runner"] ++ wholeJob

/-- The address changes from `a` to `b` and back to `a`. -/
def thereAndBack : List Event :=
  [.write .zero "a"] ++ downloadOnce ++ [.write .zero "b"] ++ downloadOnce ++ [.write .zero "a", .notify 0, .listen 0]

def dataAfter (events : List Event) : Option AssetData :=
  (events.foldl (World.step exampleConfig) {}).assets.lookup .zero

theorem quiescent_thereAndBack : (thereAndBack.foldl (World.step exampleConfig) {}).Quiescent :=
  ⟨rfl, rfl, rfl, rfl, by decide⟩

/-- The task of the last address is skipped as an old one, and the metadata stays
that of `b`. -/
theorem thereAndBack_stale :
    (∀ event ∈ thereAndBack, event.Succeeds) ∧
      (thereAndBack.foldl (World.step exampleConfig) {}).Quiescent ∧
      (dataAfter thereAndBack).map AssetData.metadataUrl = some "a" ∧
      ((dataAfter thereAndBack).bind AssetData.metadata).map Body.source = some "b" := by
  refine ⟨?_, quiescent_thereAndBack, by decide, by decide⟩
  simp [thereAndBack, downloadOnce, wholeJob, Event.Succeeds]

def writtenOnce : List Event := [.write .zero "a"] ++ downloadOnce

theorem writtenOnce_fresh :
    (writtenOnce.foldl (World.step exampleConfig) {}).Quiescent ∧
      ∀ data, dataAfter writtenOnce = some data → data.Fresh := by
  have quiescent : (writtenOnce.foldl (World.step exampleConfig) {}).Quiescent := ⟨rfl, rfl, rfl, rfl, by decide⟩
  refine ⟨quiescent, fun data stored => ?_⟩
  refine metadata_fresh exampleConfig writtenOnce ?_ ?_ _ (List.prefix_refl _) quiescent .zero data stored
  · intro task other isTask isOther _
    simp only [writtenOnce, downloadOnce, wholeJob, List.cons_append, List.nil_append, List.mem_cons,
      Event.write.injEq, reduceCtorEq, List.not_mem_nil, or_false] at isTask isOther
    cases task
    cases other
    simp_all
  · refine ⟨⟨trivial, fun job member => ?_, .inl rfl⟩, ?_⟩
    · cases member
    · simp [downloadOnce, wholeJob, Runs.Along, Event.Succeeds, World.WritesFresh]

end Example
end DasIndexer.Tasks
