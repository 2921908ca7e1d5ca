import DasIndexer.Lib.Runs
import DasIndexer.Lib.Sql
import DasIndexer.Programs
import Mathlib.Data.List.Sort

namespace DasIndexer.Tasks
open Sql

inductive TaskStatus where
  | failed
  | pending
  | running
  | success
  deriving DecidableEq

/-- A row of `tasks`. Every task is a download, so the task type is left out. -/
structure TaskRow where
  data : DownloadMetadataInfo
  status : TaskStatus
  createdAt : Nat
  lockedUntil : Option Nat
  lockedBy : Option String
  maxAttempts : Nat
  attempts : Nat
  errors : Option String
  deriving DecidableEq

/-- What `DownloadMetadataTask::task` can fail with. -/
inductive TaskError where
  | unrecoverable (message : String)
  | other (message : String)
  deriving DecidableEq

/-- `IngesterError::to_string`, where the text of another error is its message. -/
def TaskError.text : TaskError → String
  | .unrecoverable message => "Unrecoverable task error: " ++ message
  | .other message => message

/-- A body with the address it was downloaded from and the step of the run at
which that happened. -/
structure Body where
  content : Json
  source : String
  downloadedAt : Nat

/-- The columns of `asset_data` that the download task reads and writes, with the
step at which the address was last written. Without a body the metadata is the
placeholder of the handlers. -/
structure AssetData where
  metadataUrl : String
  metadata : Option Body
  writtenAt : Nat

/-- How far a spawned task has come: selected with a copy of its row, locked,
then through the statements of `DownloadMetadataTask::task`, and last with the
result that is to be saved. -/
inductive Phase where
  | selected
  | locked
  | downloaded (body : Body)
  | checked (body : Body)
  | finished (result : Except TaskError Unit)

/-- A spawned task. `attempts` is that of the row its lock was saved to. -/
structure Job where
  runner : String
  id : String
  task : DownloadMetadataInfo
  attempts : Nat
  phase : Phase

structure TaskConfig where
  /-- `TaskData::hash`. -/
  hash : DownloadMetadataInfo → String
  /-- `Url::parse` succeeds. -/
  parses : String → Bool
  batchSize : Nat
  lockDuration : Nat
  maxAttempts : Nat
  processOnReceive : Bool
  listener : String

/-- The tables, the notifications that are not sent yet, the channel of the
listener, the insertions it has spawned, and the tasks that runners have
spawned. -/
structure World where
  clock : Nat := 0
  now : Nat := 0
  assets : Table Pubkey AssetData := ∅
  tasks : Table String TaskRow := ∅
  unsent : List DownloadMetadataInfo := []
  channel : List DownloadMetadataInfo := []
  inserting : List DownloadMetadataInfo := []
  jobs : List Job := []

inductive JobEvent where
  | lock
  | download (content : Json)
  | check
  | update
  | fail (error : TaskError)
  | save

inductive Event where
  | tick (duration : Nat)
  | write (asset : Pubkey) (uri : String)
  | notify (message : Nat)
  | listen (message : Nat)
  | insert (message : Nat)
  | select (runner : String)
  | job (index : Nat) (event : JobEvent)

section Rows
variable (config : TaskConfig)

/-- `lock_task`. -/
def TaskRow.lock (row : TaskRow) (now : Nat) (instanceName : String) : TaskRow :=
  { row with
    status := .running
    lockedUntil := some (now + config.lockDuration)
    lockedBy := some instanceName }

/-- The row that `new_task_handler` inserts. -/
def newTask (now : Nat) (task : DownloadMetadataInfo) : TaskRow :=
  let model : TaskRow :=
    { data := task
      status := .pending
      createdAt := now
      lockedUntil := none
      lockedBy := none
      maxAttempts := config.maxAttempts
      attempts := 0
      errors := none }
  if config.processOnReceive then model.lock config now config.listener else model

/-- What `execute_task` sets when the task is over, on the row that it is saved
to. -/
def TaskRow.finish (row : TaskRow) (attempts : Nat) : Except TaskError Unit → TaskRow
  | .ok _ =>
    { row with attempts := attempts + 1, status := .success, errors := none, lockedUntil := none, lockedBy := none }
  | .error (.unrecoverable message) =>
    { row with
      attempts := config.maxAttempts + 1
      status := .failed
      errors := some (TaskError.unrecoverable message).text
      lockedUntil := none
      lockedBy := some "permanent failure" }
  | .error (.other message) =>
    { row with
      attempts := attempts + 1
      status := .failed
      errors := some message
      lockedUntil := none
      lockedBy := none }

/-- The filter of `get_pending_tasks`. -/
def TaskRow.isPending (row : TaskRow) (now : Nat) : Bool :=
  row.status ≠ .success && row.lockedUntil.all (fun time => time ≤ now) && row.attempts ≤ row.maxAttempts

/-- Fewer attempts first, then the newest. -/
def TaskRow.precedes (row other : TaskRow) : Prop :=
  row.attempts < other.attempts ∨ (row.attempts = other.attempts ∧ other.createdAt ≤ row.createdAt)

instance : DecidableRel TaskRow.precedes := fun _ _ => inferInstanceAs (Decidable (_ ∨ _))

def getPendingTasks (tasks : Table String TaskRow) (now batchSize : Nat) : List (String × TaskRow) :=
  (((tasks.entries.filter (fun entry => entry.2.isPending now)).map (fun entry => (entry.1, entry.2))).insertionSort
    (fun x y => x.2.precedes y.2)).take batchSize

end Rows

section Step
variable (config : TaskConfig) (w : World)

/-- A handler writes the address of an asset and returns its download task. A new
row gets the placeholder; the metadata of an old one stays. -/
def World.write (asset : Pubkey) (uri : String) : World :=
  { w with
    assets := w.assets.insert asset
      { metadataUrl := uri, metadata := (w.assets.lookup asset).bind AssetData.metadata, writtenAt := w.clock }
    unsent := w.unsent ++ [⟨asset, uri⟩] }

/-- The notifier sends a task to the listener. -/
def World.notify (message : Nat) : World :=
  match w.unsent[message]? with
  | none => w
  | some task => { w with unsent := w.unsent.eraseIdx message, channel := w.channel ++ [task] }

/-- The listener skips a task whose row is not pending any more, and spawns the
insertion of every other one. -/
def World.listen (message : Nat) : World :=
  match w.channel[message]? with
  | none => w
  | some task =>
    let rest := { w with channel := w.channel.eraseIdx message }
    if (w.tasks.lookup (config.hash task)).any (fun row => row.status ≠ .pending) then rest
    else { rest with inserting := w.inserting ++ [task] }

/-- The insertion fails on a row that exists. -/
def World.insert (message : Nat) : World :=
  match w.inserting[message]? with
  | none => w
  | some task =>
    let rest := { w with inserting := w.inserting.eraseIdx message }
    if (w.tasks.lookup (config.hash task)).isSome then rest
    else { rest with tasks := AList.insert (config.hash task) (newTask config w.now task) w.tasks }

/-- One tick of a runner: a task is spawned for every row of the query. -/
def World.select (runner : String) : World :=
  { w with
    jobs := w.jobs ++ (getPendingTasks w.tasks w.now config.batchSize).map (fun entry =>
      { runner, id := entry.1, task := entry.2.data, attempts := entry.2.attempts, phase := .selected }) }

def World.setPhase (index : Nat) (job : Job) (phase : Phase) : World :=
  { w with jobs := w.jobs.set index { job with phase } }

/-- `save_task` of the lock: the update gives back the row as it is then. -/
def World.lockJob (index : Nat) (job : Job) : World :=
  match w.tasks.lookup job.id with
  | none => { w with jobs := w.jobs.eraseIdx index }
  | some row =>
    { w with
      tasks := w.tasks.insert job.id (row.lock config w.now job.runner)
      jobs := w.jobs.set index { job with attempts := row.attempts, phase := .locked } }

def World.downloadJob (index : Nat) (job : Job) (content : Json) : World :=
  let content := if config.parses job.task.uri then content else .str "Invalid Uri"
  w.setPhase index job (.downloaded { content, source := job.task.uri, downloadedAt := w.clock })

/-- The query for the address that is stored now. -/
def World.checkJob (index : Nat) (job : Job) (body : Body) : World :=
  match w.assets.lookup job.task.assetDataId with
  | none => w.setPhase index job (.finished (.error (.unrecoverable
      ("failed to find URI in database for \"" ++ job.task.assetDataId.toBase58 ++ "\""))))
  | some asset =>
    if asset.metadataUrl ≠ job.task.uri then w.setPhase index job (.finished (.ok ()))
    else w.setPhase index job (.checked body)

def updateFailed : TaskError :=
  .other ("Task Manager Error: Database error with DownloadMetadata, error: " ++
    "RecordNotFound Error: None of the database rows are affected")

/-- The update is filtered by the address as well, and fails without a row. -/
def World.updateJob (index : Nat) (job : Job) (body : Body) : World :=
  match w.assets.lookup job.task.assetDataId with
  | none => w.setPhase index job (.finished (.error updateFailed))
  | some asset =>
    if asset.metadataUrl = job.task.uri then
      let result := if config.parses job.task.uri then .ok ()
        else .error (.unrecoverable ("Failed to parse URI: " ++ job.task.uri))
      { w with assets := w.assets.insert job.task.assetDataId { asset with metadata := some body } }.setPhase
        index job (.finished result)
    else w.setPhase index job (.finished (.error updateFailed))

/-- The last `save_task`. -/
def World.saveJob (index : Nat) (job : Job) (result : Except TaskError Unit) : World :=
  match w.tasks.lookup job.id with
  | none => { w with jobs := w.jobs.eraseIdx index }
  | some row =>
    { w with
      tasks := w.tasks.insert job.id (row.finish config job.attempts result)
      jobs := w.jobs.eraseIdx index }

def World.stepJob (index : Nat) (event : JobEvent) : World :=
  match w.jobs[index]? with
  | none => w
  | some job => match job.phase, event with
    | .selected, .lock => w.lockJob config index job
    | .locked, .download content => w.downloadJob config index job content
    | .downloaded body, .check => w.checkJob index job body
    | .checked body, .update => w.updateJob config index job body
    | .locked, .fail error => w.setPhase index job (.finished (.error error))
    | .downloaded _, .fail error => w.setPhase index job (.finished (.error error))
    | .checked _, .fail error => w.setPhase index job (.finished (.error error))
    | .finished result, .save => w.saveJob config index job result
    | _, _ => w

def World.apply : Event → World
  | .tick duration => { w with now := w.now + duration }
  | .write asset uri => w.write asset uri
  | .notify message => w.notify message
  | .listen message => w.listen config message
  | .insert message => w.insert config message
  | .select runner => w.select config runner
  | .job index event => w.stepJob config index event

def World.step (event : Event) : World := { w.apply config event with clock := w.clock + 1 }

end Step

section JobSteps
variable {config : TaskConfig} {w : World} {index : Nat}

/-- What a step of a spawned task can do, with the phase it starts from. -/
inductive JobStep (config : TaskConfig) (w : World) (index : Nat) : JobEvent → World → Prop
  | idle (event : JobEvent) : JobStep config w index event w
  | lock {job : Job} (found : w.jobs[index]? = some job) (phase : job.phase = .selected) :
      JobStep config w index .lock (w.lockJob config index job)
  | download {job : Job} (found : w.jobs[index]? = some job) (phase : job.phase = .locked) (content : Json) :
      JobStep config w index (.download content) (w.downloadJob config index job content)
  | check {job : Job} {body : Body} (found : w.jobs[index]? = some job) (phase : job.phase = .downloaded body) :
      JobStep config w index .check (w.checkJob index job body)
  | update {job : Job} {body : Body} (found : w.jobs[index]? = some job) (phase : job.phase = .checked body) :
      JobStep config w index .update (w.updateJob config index job body)
  | fail {job : Job} (found : w.jobs[index]? = some job)
      (phase : job.phase = .locked ∨ (∃ body, job.phase = .downloaded body) ∨ ∃ body, job.phase = .checked body)
      (error : TaskError) :
      JobStep config w index (.fail error) (w.setPhase index job (.finished (.error error)))
  | save {job : Job} {result : Except TaskError Unit} (found : w.jobs[index]? = some job)
      (phase : job.phase = .finished result) :
      JobStep config w index .save (w.saveJob config index job result)

theorem stepJob_cases (event : JobEvent) : JobStep config w index event (w.stepJob config index event) := by
  unfold World.stepJob
  cases found : w.jobs[index]? with
  | none => exact .idle event
  | some job =>
    dsimp only
    split
    · exact .lock found (by assumption)
    · exact .download found (by assumption) _
    · exact .check found (by assumption)
    · exact .update found (by assumption)
    · exact .fail found (.inl (by assumption)) _
    · exact .fail found (.inr (.inl ⟨_, by assumption⟩)) _
    · exact .fail found (.inr (.inr ⟨_, by assumption⟩)) _
    · exact .save found (by assumption)
    · exact .idle _

end JobSteps

section Pending
variable {tasks : Table String TaskRow} {now batchSize : Nat}

theorem mem_getPendingTasks {entry : String × TaskRow} (member : entry ∈ getPendingTasks tasks now batchSize) :
    tasks.lookup entry.1 = some entry.2 ∧ entry.2.isPending now = true := by
  have inSorted := List.mem_of_mem_take member
  rw [List.mem_insertionSort] at inSorted
  obtain ⟨stored, inFiltered, same⟩ := List.mem_map.mp inSorted
  obtain ⟨inEntries, pending⟩ := List.mem_filter.mp inFiltered
  rw [← same]
  exact ⟨AList.mem_lookup_iff.mpr inEntries, pending⟩

/-- A selection has each row at most once. -/
theorem getPendingTasks_nodup : ((getPendingTasks tasks now batchSize).map Prod.fst).Nodup := by
  have sorted := List.perm_insertionSort (fun x y : String × TaskRow => x.2.precedes y.2)
    ((tasks.entries.filter (fun entry => entry.2.isPending now)).map (fun entry => (entry.1, entry.2)))
  have keys : (((tasks.entries.filter (fun entry => entry.2.isPending now)).map
      (fun entry => (entry.1, entry.2))).map Prod.fst).Nodup := by
    rw [List.map_map]
    exact tasks.keys_nodup.sublist (List.filter_sublist.map Sigma.fst)
  have all := (sorted.map Prod.fst).nodup_iff.mpr keys
  exact all.sublist ((List.take_sublist _ _).map _)

end Pending

section Example

def exampleConfig : TaskConfig where
  hash task := task.uri
  parses _ := true
  batchSize := 100
  lockDuration := 5
  maxAttempts := 3
  processOnReceive := false
  listener := "listener"

/-- The steps of one spawned task. -/
def wholeJob : List Event :=
  [.job 0 .lock, .job 0 (.download .null), .job 0 .check, .job 0 .update, .job 0 .save]

end Example

end DasIndexer.Tasks
