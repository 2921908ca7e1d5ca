import DasIndexer.Streams.AtLeastOnce

namespace DasIndexer.Streams
open Blockbuster Bubblegum

section Recovery
variable [BubblegumCrates] [Programs] [PlerkleCrate] {s : Ingester}

/-- Handling a message again leads to an acknowledgement unless something fails. -/
def Message.Acknowledgeable (message : Message) : Prop :=
  ∃ result, message.handling.2 = some result ∧ captureResult result = true

omit [BubblegumCrates] [PlerkleCrate] in
theorem Step.exec_none (step : Step) (db : Db) : (step.exec db .none).2 = none := by
  cases step with
  | statement statement => cases statement <;> rfl
  | _ => rfl

/-- A worker with the task alone, at a state of its choice. -/
def Ingester.alone (s : Ingester) (i : Nat) (worker : Worker) (task : Task) (db : Db) : Ingester :=
  { s.setTasks i worker [task] with db := db }

omit [BubblegumCrates] [Programs] [PlerkleCrate] in
theorem alone_worker {i : Nat} {worker : Worker} (isWorker : s.workers[i]? = some worker) (task : Task) (db : Db) :
    (s.alone i worker task db).workers[i]? = some { worker with tasks := [task] } := by
  obtain ⟨inside, -⟩ := List.getElem?_eq_some_iff.mp isWorker
  exact List.getElem?_set_self inside

/-- The remaining steps of a task, without a failure. -/
theorem steps_through {i : Nat} {worker : Worker} (isWorker : s.workers[i]? = some worker) (rest : List Step)
    (task : Task) (isRest : task.rest = rest) (db : Db) :
    ∃ actions after, Runs.Reaches Ingester.step (s.alone i worker task db) actions
      (s.alone i worker { task with rest := [] } after) := by
  induction rest generalizing task db with
  | nil =>
    refine ⟨[], db, ?_⟩
    rw [← isRest]
    rfl
  | cons next rest ih =>
    obtain ⟨actions, after, onward⟩ := ih { task with rest := rest } rfl (next.exec db .none).1
    refine ⟨.step i 0 .none :: actions, after, _, ?_, onward⟩
    rcases ran : next.exec db .none with ⟨moved, problem⟩
    have goesOn : problem = none := by
      have silent := next.exec_none db
      rwa [ran] at silent
    have isDb : (s.alone i worker task db).db = db := rfl
    rw [Ingester.step, alone_worker isWorker]
    simp only [List.getElem?_cons_zero, isRest, isDb, ran, goesOn]
    simp [Ingester.alone, Ingester.setTasks, Task.after]

/-- A message is received, handled and acknowledged. -/
theorem deliver {i : Nat} {worker : Worker} {message : Message} (isWorker : s.workers[i]? = some worker)
    (idle : worker.tasks = []) (sameKey : message.streamKey = worker.streamKey) (published : message ∈ s.published)
    (connected : s.acks.isSome = true) (drained : s.channel = []) (fine : message.Acknowledgeable) :
    ∃ actions t, Runs.Reaches Ingester.step s actions t ∧ t.published = s.published ∧ t.workers = s.workers ∧
      t.acks.isSome = true ∧ t.channel = [] ∧ (∀ ack ∈ s.acked, ack ∈ t.acked) ∧
      (message.streamKey, message.id) ∈ t.acked := by
  obtain ⟨acks, isAcks⟩ := Option.isSome_iff_exists.mp connected
  obtain ⟨actions, db, through⟩ := steps_through isWorker message.steps (Task.start message) rfl s.db
  have received : s.step (.recv i [message]) = some (s.alone i worker (Task.start message) s.db) := by
    simp [Ingester.step, isWorker, idle, sameKey, published, Ingester.alone]
    rfl
  have returns : message.handling.2.any captureResult = true := by
    obtain ⟨result, isResult, captured⟩ := fine
    simp [isResult, captured]
  obtain ⟨inside, isElement⟩ := List.getElem?_eq_some_iff.mp isWorker
  have restored : s.workers.set i { worker with tasks := [] } = s.workers := by
    rw [← idle, ← isElement]
    exact List.set_getElem_self inside
  let sent : Ingester := { s with db := db, channel := [(worker.streamKey, message.id)] }
  let buffered : Ingester := { s with db := db, acks := some (pushAck acks worker.streamKey message.id) }
  have joined : (s.alone i worker { Task.start message with rest := [] } db).step (.join i 0) = some sent := by
    rw [Ingester.step, alone_worker isWorker]
    simp [Ingester.alone, Ingester.setTasks, Task.returns, returns, isAcks, drained, restored, sent, Task.start]
  have passed : sent.step .ackRecv = some buffered := by
    simp [Ingester.step, sent, buffered, isAcks, drained]
  let flushed : Ingester :=
    { buffered with
      acked := s.acked ++ ackedBy (fun _ => true) (pushAck acks worker.streamKey message.id)
      acks := some ((pushAck acks worker.streamKey message.id).map (fun entry => (entry.1, []))) }
  have inMap : (message.streamKey, message.id) ∈ pairs (pushAck acks worker.streamKey message.id) := by
    rw [mem_pairs_pushAck, sameKey]
    exact Or.inr rfl
  have everything : ackedBy (fun _ => true) (pushAck acks worker.streamKey message.id) =
      pairs (pushAck acks worker.streamKey message.id) := by
    rw [ackedBy, List.filter_eq_self.mpr (fun _ _ => rfl)]
  refine ⟨.recv i [message] :: (actions ++ [.join i 0, .ackRecv, .tick (fun _ => true)]), flushed,
    ⟨_, received, through.append ⟨sent, joined, buffered, passed, flushed, rfl, rfl⟩⟩, rfl, rfl, rfl, drained, ?_, ?_⟩
  · exact fun ack member => List.mem_append_left _ member
  · show _ ∈ s.acked ++ ackedBy _ _
    rw [everything]
    exact List.mem_append_right _ inMap

/-- One message after the other. -/
theorem deliver_all (messages : List Message) (published : ∀ message ∈ messages, message ∈ s.published)
    (staffed : ∀ message ∈ s.published, ∃ (i : Nat) (worker : Worker), s.workers[i]? = some worker ∧
      worker.tasks = [] ∧
      message.streamKey = worker.streamKey) (connected : s.acks.isSome = true) (drained : s.channel = []) :
    ∃ actions t, Runs.Reaches Ingester.step s actions t ∧ t.published = s.published ∧
      ∀ message ∈ messages, message.Acknowledgeable → (message.streamKey, message.id) ∈ t.acked := by
  have all : ∃ actions t, Runs.Reaches Ingester.step s actions t ∧ t.published = s.published ∧
      t.workers = s.workers ∧ t.acks.isSome = true ∧ t.channel = [] ∧ (∀ ack ∈ s.acked, ack ∈ t.acked) ∧
      ∀ message ∈ messages, message.Acknowledgeable → (message.streamKey, message.id) ∈ t.acked := by
    induction messages with
    | nil => exact ⟨[], s, rfl, rfl, rfl, connected, drained, fun _ member => member, List.forall_mem_nil _⟩
    | cons message rest ih =>
      obtain ⟨actions, t, run, samePublished, sameWorkers, connected', drained', kept, acked⟩ :=
        ih (fun other member => published other (List.mem_cons_of_mem message member))
      by_cases fine : message.Acknowledgeable
      · obtain ⟨i, worker, isWorker, idle, sameKey⟩ := staffed message (published message List.mem_cons_self)
        rw [← sameWorkers] at isWorker
        obtain ⟨more, u, run', samePublished', sameWorkers', connected'', drained'', kept', ackedNow⟩ :=
          deliver isWorker idle sameKey (samePublished ▸ published message List.mem_cons_self) connected' drained' fine
        refine ⟨actions ++ more, u, run.append run', samePublished'.trans samePublished,
          sameWorkers'.trans sameWorkers, connected'', drained'', fun ack member => kept' ack (kept ack member), ?_⟩
        intro other member acknowledgeable
        rcases List.mem_cons.mp member with same | later
        · rw [same]
          exact ackedNow
        · exact kept' _ (acked other later acknowledgeable)
      · refine ⟨actions, t, run, samePublished, sameWorkers, connected', drained', kept, ?_⟩
        intro other member acknowledgeable
        rcases List.mem_cons.mp member with same | later
        · rw [same] at acknowledgeable
          exact absurd acknowledgeable fine
        · exact acked other later acknowledgeable
  obtain ⟨actions, t, run, samePublished, -, -, -, -, acked⟩ := all
  exact ⟨actions, t, run, samePublished, acked⟩

end Recovery

/-- Nothing that went wrong stands in the way later. From any state that was reached, the
ingester can be started again so that, if nothing fails from then on, all transactions that
can be handled are acknowledged, and the rows are those of handling all events in order. -/
theorem recovers [BubblegumCrates] [Programs] [PlerkleCrate] (streams : List String) (acker : Bool)
    (actions : List Action) (s : Ingester) (run : Runs.Reaches Ingester.step (.empty streams acker) actions s)
    (schema : Pubkey → SchemaVersion) (histories : Histories schema s.events)
    (fine : ∀ message ∈ s.published, message.events ≠ [] → message.Acknowledgeable) :
    ∃ more t, Runs.Reaches Ingester.step s more t ∧ t.published = s.published ∧
      (∀ message ∈ s.published, message.Acknowledgeable → (message.streamKey, message.id) ∈ t.acked) ∧
      SameButAudits t.db (ingest {} s.events) := by
  let again := s.start (s.published.map Message.streamKey) true
  have staffed : ∀ message ∈ again.published, ∃ (i : Nat) (worker : Worker),
      again.workers[i]? = some worker ∧ worker.tasks = [] ∧ message.streamKey = worker.streamKey := by
    intro message member
    obtain ⟨i, found⟩ := List.getElem?_of_mem (show message ∈ s.published from member)
    refine ⟨i, { streamKey := message.streamKey, tasks := [] }, ?_, rfl, rfl⟩
    simp [again, Ingester.start, found]
  obtain ⟨more, t, onward, samePublished, acked⟩ :=
    @deliver_all _ _ _ again s.published (fun _ member => member) staffed rfl rfl
  have restarted : Runs.Reaches Ingester.step s (.restart (s.published.map Message.streamKey) true :: more) t :=
    ⟨again, rfl, onward⟩
  have published : t.published = s.published := samePublished
  have sameEvents : t.events = s.events := by rw [Ingester.events, published, Ingester.events]
  obtain ⟨trace, sound⟩ := (Ingester.sound_empty streams acker).reaches (run.append restarted)
  refine ⟨_, t, restarted, published, acked, ?_⟩
  rw [← sameEvents] at histories ⊢
  refine sound.converges (fun _ => Iff.rfl) histories (fun message member events => acked message ?_ ?_)
  · rwa [← published]
  · exact fine message (by rwa [← published]) events

namespace Example

set_option maxRecDepth 4000

theorem disturbed_halfway : ((disturbed.take 9).foldlM (@Ingester.step crates _ plerkle)
    (.empty ["TXN"] true)).map Ingester.published = some [first, second] := by
  rfl

theorem first_handled : (@Message.handling crates _ plerkle first).2 = some (.ok ()) := by
  rfl

theorem second_handled : (@Message.handling crates _ plerkle second).2 = some (.ok ()) := by
  rfl

theorem acknowledgeable (message : Message) (member : message ∈ [first, second]) :
    @Message.Acknowledgeable crates _ plerkle message := by
  simp only [List.mem_cons, List.not_mem_nil, or_false] at member
  rcases member with one | two
  · rw [one]
    exact ⟨_, first_handled, rfl⟩
  · rw [two]
    exact ⟨_, second_handled, rfl⟩

end Example

/-- The same ingester in the middle of everything. -/
theorem recovers_disturbed :
    ∃ s more t, Runs.Reaches (@Ingester.step Example.crates _ Example.plerkle) (.empty ["TXN"] true)
        (Example.disturbed.take 9) s ∧
      Runs.Reaches (@Ingester.step Example.crates _ Example.plerkle) s more t ∧
      SameButAudits t.db
        (ingest {} [Bubblegum.Example.transfer 1 10 (.fill 1), Bubblegum.Example.transfer 2 10 (.fill 2)]) := by
  obtain ⟨s, ran, published⟩ := Option.map_eq_some_iff.mp Example.disturbed_halfway
  have run := Runs.Reaches.of_foldlM ran
  have isEvents : @Ingester.events Example.crates _ Example.plerkle s =
      [Bubblegum.Example.transfer 1 10 (.fill 1), Bubblegum.Example.transfer 2 10 (.fill 2)] := by
    show s.published.flatMap (@Message.events Example.crates _ Example.plerkle) = _
    rw [published]
    exact Example.events_disturbed
  obtain ⟨more, t, onward, -, -, same⟩ := @recovers Example.crates _ Example.plerkle ["TXN"] true _ s run
    (fun _ => .v1) (by rw [isEvents]; exact Example.histories_transfers)
    (fun message member _ => Example.acknowledgeable message (by rwa [← published]))
  rw [isEvents] at same
  exact ⟨s, more, t, run, onward, same⟩

end DasIndexer.Streams
