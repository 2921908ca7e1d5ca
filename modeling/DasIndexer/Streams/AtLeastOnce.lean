import DasIndexer.Blockbuster.Borsh
import DasIndexer.Streams.Effects

namespace DasIndexer.Streams
open Blockbuster Bubblegum Interleaved

section Invariant
variable [BubblegumCrates] [Programs] [PlerkleCrate] {trace : List Statement}

/-- All statements of the message took effect, and its result is one that is acknowledged. -/
structure Message.Handled (message : Message) (trace : List Statement) : Prop where
  result : ∃ result, message.handling.2 = some result ∧ captureResult result = true
  taken : ∀ step ∈ message.steps, step.Taken trace

/-- The steps before the remaining ones took effect, or the task was ended by an error. -/
structure Task.Sound (task : Task) (published : List Message) (trace : List Statement) : Prop where
  published : task.message ∈ published
  progress : (task.result = task.message.handling.2 ∧
      ∃ done, task.message.steps = done ++ task.rest ∧ ∀ step ∈ done, step.Taken trace) ∨
    (task.rest = [] ∧ task.returns = false)

structure Ingester.Sound (s : Ingester) (trace : List Statement) : Prop where
  effects : Effects trace s.db
  causal : Causal Statement.Optional (s.events.map Event.statements) trace
  unique : ∀ m ∈ s.published, ∀ m' ∈ s.published, m.streamKey = m'.streamKey → m.id = m'.id → m = m'
  tasks : ∀ worker ∈ s.workers, ∀ task ∈ worker.tasks,
    task.message.streamKey = worker.streamKey ∧ task.Sound s.published trace
  acks : ∀ ack ∈ s.acked ++ s.underway, ∃ m ∈ s.published, (m.streamKey, m.id) = ack ∧ m.Handled trace

theorem Message.Handled.mono {message : Message} (handled : message.Handled trace) (part : List Statement) :
    message.Handled (trace ++ part) where
  result := handled.result
  taken step member := (handled.taken step member).mono part

theorem Task.Sound.mono {task : Task} {published : List Message} (sound : task.Sound published trace)
    (part : List Statement) : task.Sound published (trace ++ part) where
  published := sound.published
  progress := by
    rcases sound.progress with ⟨result, done, isSteps, taken⟩ | ended
    · exact Or.inl ⟨result, done, isSteps, fun step member => (taken step member).mono part⟩
    · exact Or.inr ended

theorem Task.start_sound {message : Message} {published : List Message} (member : message ∈ published) :
    (Task.start message).Sound published trace where
  published := member
  progress := Or.inl ⟨rfl, [], rfl, List.forall_mem_nil _⟩

/-- A task whose message is acknowledged came to its end. -/
theorem Task.Sound.handled {task : Task} {published : List Message} (sound : task.Sound published trace)
    (ended : task.rest = []) (returns : task.returns = true) : task.message.Handled trace := by
  rcases sound.progress with ⟨result, done, isSteps, taken⟩ | ⟨-, silent⟩
  · rw [ended, List.append_nil] at isSteps
    refine ⟨?_, fun step member => taken step (by rwa [← isSteps])⟩
    rw [Task.returns, result, Option.any_eq_true] at returns
    exact returns
  · rw [silent] at returns
    cases returns

omit [BubblegumCrates] [Programs] [PlerkleCrate] in
theorem mem_pairs_pushAck (acks : List (String × List String)) (stream id : String) (ack : String × String) :
    ack ∈ pairs (pushAck acks stream id) ↔ ack ∈ pairs acks ∨ ack = (stream, id) := by
  induction acks with
  | nil => simp [pushAck, pairs]
  | cons entry rest ih =>
    obtain ⟨key, ids⟩ := entry
    unfold pairs at ih ⊢
    rw [pushAck]
    split
    · rename_i same
      subst same
      simp only [List.flatMap_cons, List.map_append, List.map_cons, List.map_nil, List.mem_append, List.mem_singleton]
      tauto
    · simp only [List.flatMap_cons, List.mem_append, ih]
      tauto

omit [BubblegumCrates] [Programs] [PlerkleCrate] in
theorem pairs_cleared (acks : List (String × List String)) : pairs (acks.map (fun entry => (entry.1, []))) = [] := by
  simp [pairs, List.flatMap_map]

omit [BubblegumCrates] [Programs] [PlerkleCrate] in
theorem mem_of_mem_ackedBy {acknowledged : String → Bool} {acks : List (String × List String)}
    {ack : String × String} (member : ack ∈ ackedBy acknowledged acks) : ack ∈ pairs acks := by
  obtain ⟨entry, kept, inEntry⟩ := List.mem_flatMap.mp member
  exact List.mem_flatMap.mpr ⟨entry, List.mem_of_mem_filter kept, inEntry⟩

namespace Ingester
variable {s t : Ingester}

theorem Sound.start (sound : s.Sound trace) (streams : List String) (acker : Bool) :
    (s.start streams acker).Sound trace where
  effects := sound.effects
  causal := sound.causal
  unique := sound.unique
  tasks := by
    intro worker member task inTasks
    obtain ⟨stream, -, isWorker⟩ := List.mem_map.mp member
    rw [← isWorker] at inTasks
    cases inTasks
  acks := by
    intro ack member
    refine sound.acks ack (List.mem_append_left _ ((List.mem_append.mp member).resolve_right (fun inMap => ?_)))
    cases acker <;> cases inMap

theorem Sound.publish {message : Message} (sound : s.Sound trace) (happened : s.step (.publish message) = some t) :
    t.Sound trace := by
  rw [Ingester.step] at happened
  split at happened
  · cases happened
  · rename_i fresh
    cases happened
    have isNew : ∀ m ∈ s.published, m.streamKey = message.streamKey → m.id ≠ message.id := by
      intro m member sameKey sameId
      exact fresh (List.any_eq_true.mpr ⟨m, member, by simp [sameKey, sameId]⟩)
    refine ⟨sound.effects, ?_, ?_, fun worker member task inTasks => ?_, fun ack member => ?_⟩
    · refine sound.causal.mono (fun program inPrograms => ?_)
      obtain ⟨event, inEvents, isProgram⟩ := List.mem_map.mp inPrograms
      refine List.mem_map.mpr ⟨event, ?_, isProgram⟩
      rw [events, List.flatMap_append]
      exact List.mem_append_left _ inEvents
    · intro m member m' member' sameKey sameId
      rcases List.mem_append.mp member with old | new <;> rcases List.mem_append.mp member' with old' | new'
      · exact sound.unique m old m' old' sameKey sameId
      · rw [List.mem_singleton] at new'
        subst new'
        exact absurd sameId (isNew m old sameKey)
      · rw [List.mem_singleton] at new
        subst new
        exact absurd sameId.symm (isNew m' old' sameKey.symm)
      · rw [List.mem_singleton.mp new, List.mem_singleton.mp new']
    · obtain ⟨sameKey, taskSound⟩ := sound.tasks worker member task inTasks
      exact ⟨sameKey, List.mem_append_left _ taskSound.published, taskSound.progress⟩
    · obtain ⟨m, inPublished, isAck, handled⟩ := sound.acks ack member
      exact ⟨m, List.mem_append_left _ inPublished, isAck, handled⟩

/-- A worker gets other tasks. -/
theorem Sound.setTasks {i : Nat} {worker : Worker} {tasks : List Task} (sound : s.Sound trace)
    (good : ∀ task ∈ tasks, task.message.streamKey = worker.streamKey ∧ task.Sound s.published trace) :
    (s.setTasks i worker tasks).Sound trace where
  effects := sound.effects
  causal := sound.causal
  unique := sound.unique
  acks := sound.acks
  tasks := by
    intro other member task inTasks
    rcases List.mem_or_eq_of_mem_set member with old | new
    · exact sound.tasks other old task inTasks
    · rw [new] at inTasks ⊢
      exact good task inTasks

theorem Sound.recv {i : Nat} {messages : List Message} (sound : s.Sound trace)
    (happened : s.step (.recv i messages) = some t) : t.Sound trace := by
  rw [Ingester.step] at happened
  split at happened
  · rename_i worker isWorker
    split at happened
    · rename_i allowed
      cases happened
      rw [Bool.and_eq_true, List.all_eq_true] at allowed
      refine sound.setTasks (fun task member => ?_)
      obtain ⟨message, inMessages, isTask⟩ := List.mem_map.mp member
      have received := allowed.2 message inMessages
      rw [Bool.and_eq_true, decide_eq_true_eq, decide_eq_true_eq] at received
      rw [← isTask]
      exact ⟨received.1, Task.start_sound received.2⟩
    · cases happened
  · cases happened

theorem Sound.join {i j : Nat} (sound : s.Sound trace) (happened : s.step (.join i j) = some t) : t.Sound trace := by
  rw [Ingester.step] at happened
  split at happened
  · rename_i worker isWorker
    split at happened
    · rename_i task isTask
      split at happened
      · rename_i ended
        cases happened
        have inWorkers := List.mem_of_getElem? isWorker
        have fine := sound.tasks worker inWorkers
        obtain ⟨sameKey, taskSound⟩ := fine task (List.mem_of_getElem? isTask)
        have base := @Sound.setTasks _ _ _ trace s i worker (worker.tasks.eraseIdx j) sound
          (fun other member => fine other (List.mem_of_mem_eraseIdx member))
        refine ⟨base.effects, base.causal, base.unique, base.tasks, fun ack member => ?_⟩
        simp only [underway, List.mem_append] at member
        have before : ack ∈ s.acked ++ s.underway → ∃ m ∈ s.published, (m.streamKey, m.id) = ack ∧ m.Handled trace :=
          sound.acks ack
        simp only [underway, List.mem_append] at before
        rcases member with inAcked | (inChannel | sent) | inMap
        · exact before (Or.inl inAcked)
        · exact before (Or.inr (Or.inl inChannel))
        · split at sent
          · rename_i returns
            rw [Bool.and_eq_true] at returns
            rw [List.mem_singleton.mp sent]
            exact ⟨task.message, taskSound.published, by rw [sameKey],
              taskSound.handled (List.isEmpty_iff.mp ended) returns.2⟩
          · cases sent
        · exact before (Or.inr (Or.inr inMap))
      · cases happened
    · cases happened
  · cases happened

theorem Sound.ackRecv (sound : s.Sound trace) (happened : s.step .ackRecv = some t) : t.Sound trace := by
  rw [Ingester.step] at happened
  split at happened
  · rename_i acks stream id rest isAcks isChannel
    cases happened
    refine ⟨sound.effects, sound.causal, sound.unique, sound.tasks, fun ack member => sound.acks ack ?_⟩
    simp only [underway, isAcks, isChannel, Option.getD_some, List.mem_append, List.mem_cons,
      mem_pairs_pushAck] at member ⊢
    tauto
  · cases happened

theorem Sound.tick {acknowledged : String → Bool} (sound : s.Sound trace)
    (happened : s.step (.tick acknowledged) = some t) : t.Sound trace := by
  rw [Ingester.step] at happened
  split at happened
  · rename_i acks isAcks
    cases happened
    refine ⟨sound.effects, sound.causal, sound.unique, sound.tasks, fun ack member => sound.acks ack ?_⟩
    simp only [underway, isAcks, Option.getD_some, List.mem_append, pairs_cleared, List.not_mem_nil,
      or_false] at member ⊢
    rcases member with (inAcked | now) | inChannel
    · exact Or.inl inAcked
    · exact Or.inr (Or.inr (mem_of_mem_ackedBy now))
    · exact Or.inr (Or.inl inChannel)
  · cases happened

/-- A task takes a step: its statements go on the trace behind those before them in the event. -/
theorem Sound.stepTask {i j : Nat} {fault : Fault} (sound : s.Sound trace)
    (happened : s.step (.step i j fault) = some t) : ∃ part, t.Sound (trace ++ part) := by
  rw [Ingester.step] at happened
  split at happened
  · rename_i worker isWorker
    split at happened
    · rename_i task isTask
      split at happened
      · rename_i next rest isRest
        have inWorkers := List.mem_of_getElem? isWorker
        have fine := sound.tasks worker inWorkers
        obtain ⟨sameKey, taskSound⟩ := fine task (List.mem_of_getElem? isTask)
        obtain ⟨part, effects, isPart, goesOn⟩ := next.exec_spec fault sound.effects
        rcases ran : next.exec s.db fault with ⟨db, problem⟩
        rw [ran] at effects goesOn
        simp only [ran, Option.some.injEq] at happened
        obtain ⟨done, isSteps, taken, isResult⟩ : ∃ done, task.message.steps = done ++ next :: rest ∧
            (∀ step ∈ done, step.Taken trace) ∧ task.result = task.message.handling.2 := by
          rcases taskSound.progress with ⟨isResult, done, isSteps, taken⟩ | ⟨ended, -⟩
          · exact ⟨done, by rw [isSteps, isRest], taken, isResult⟩
          · rw [isRest] at ended
            cases ended
        have causal : Causal Statement.Optional (s.events.map Event.statements) (trace ++ part) := by
          rcases isPart with none | all
          · rw [none, List.append_nil]
            exact sound.causal
          · by_cases silent : next.statements = []
            · rw [all, silent, List.append_nil]
              exact sound.causal
            · obtain ⟨event, inEvents, earlier, later, isStatements, inDone⟩ := Message.steps_split isSteps silent
              rw [all]
              have isProgram : earlier ++ (next.statements ++ later) ∈ s.events.map Event.statements := by
                rw [← isStatements]
                exact List.mem_map_of_mem (List.mem_flatMap.mpr ⟨task.message, taskSound.published, inEvents⟩)
              refine sound.causal.steps isProgram (fun s member => ?_)
              exact taken _ (inDone s member) s (List.mem_singleton_self s)
        have advanced : (task.after rest problem).message = task.message ∧
            (task.after rest problem).Sound s.published (trace ++ part) := by
          cases problem with
          | none =>
            refine ⟨rfl, taskSound.published, Or.inl ⟨isResult, done ++ [next], ?_, fun step member => ?_⟩⟩
            · rw [List.append_assoc]
              exact isSteps
            · rcases List.mem_append.mp member with old | new
              · exact (taken step old).mono part
              · rw [List.mem_singleton.mp new]
                exact goesOn rfl
          | some problem =>
            refine ⟨rfl, taskSound.published, Or.inr ⟨rfl, ?_⟩⟩
            have ended : (next.exec s.db fault).2 = some problem := by rw [ran]
            exact Step.exec_problem ended
        refine ⟨part, ?_⟩
        rw [← happened]
        have moved : Sound { s with db := db } (trace ++ part) := by
          refine ⟨effects, causal, sound.unique, fun other member task inTasks => ?_, fun ack member => ?_⟩
          · obtain ⟨sameKey, taskSound⟩ := sound.tasks other member task inTasks
            exact ⟨sameKey, taskSound.mono part⟩
          · obtain ⟨m, inPublished, isAck, handled⟩ := sound.acks ack member
            exact ⟨m, inPublished, isAck, handled.mono part⟩
        refine moved.setTasks (fun other member => ?_)
        rcases List.mem_or_eq_of_mem_set member with old | new
        · obtain ⟨sameKey, taskSound⟩ := fine other old
          exact ⟨sameKey, taskSound.mono part⟩
        · rw [new, advanced.1]
          exact ⟨sameKey, advanced.2⟩
      · cases happened
    · cases happened
  · cases happened

theorem Sound.kept {a : Action} (sound : s.Sound trace) (happened : s.step a = some t) :
    ∃ part, t.Sound (trace ++ part) := by
  have still : t.Sound trace → ∃ part, t.Sound (trace ++ part) := fun kept => ⟨[], by rwa [List.append_nil]⟩
  cases a with
  | publish message => exact still (sound.publish happened)
  | recv i messages => exact still (sound.recv happened)
  | step i j fault => exact sound.stepTask happened
  | join i j => exact still (sound.join happened)
  | ackRecv => exact still (sound.ackRecv happened)
  | tick acknowledged => exact still (sound.tick happened)
  | restart streams acker =>
    cases happened
    exact still (sound.start streams acker)

theorem sound_empty (streams : List String) (acker : Bool) : (empty streams acker).Sound [] := by
  refine Sound.start ⟨⟨⟨∅, rfl⟩, rfl⟩, Causal.nil, ?_, ?_, ?_⟩ streams acker
  · exact List.forall_mem_nil _
  · exact List.forall_mem_nil _
  · exact List.forall_mem_nil _

theorem Sound.reaches {actions : List Action} (sound : s.Sound trace) (run : Runs.Reaches step s actions t) :
    ∃ part, t.Sound (trace ++ part) := by
  have kept := @Runs.Reaches.invariant _ _ step (fun state => ∃ part, Sound state (trace ++ part)) s t actions ?_
    ⟨[], by rwa [List.append_nil]⟩ run
  · exact kept
  · rintro state a next ⟨part, soundBefore⟩ happened
    obtain ⟨more, soundAfter⟩ := soundBefore.kept happened
    exact ⟨part ++ more, by rwa [← List.append_assoc]⟩

/-- An acknowledged message was handled to its end. -/
theorem Sound.handled (sound : s.Sound trace) {message : Message} (published : message ∈ s.published)
    (acked : (message.streamKey, message.id) ∈ s.acked) : message.Handled trace := by
  obtain ⟨m, inPublished, isAck, handled⟩ := sound.acks _ (List.mem_append_left _ acked)
  obtain ⟨sameKey, sameId⟩ := Prod.mk.inj isAck
  rwa [← sound.unique m inPublished message published sameKey sameId]

end Ingester

end Invariant

section Durable
variable [Programs] {trace : List Statement} {db : Db}

theorem backfillItems_mono (db : Db) (s : Statement) {item : BackfillItemRow} (member : item ∈ db.backfillItems) :
    item ∈ (s.exec db).backfillItems := by
  cases s with
  | backfillItem tree seq slot => exact List.mem_append_left _ member
  | _ => exact member

theorem backfillItem_taken {tree : Pubkey} {seq slot : Nat} (taken : .backfillItem tree seq slot ∈ trace) :
    ∃ item ∈ (trace.foldl Statement.exec db).backfillItems, item.tree = tree ∧ item.seq = seq := by
  obtain ⟨before, after, split⟩ := List.append_of_mem taken
  rw [split, List.foldl_append, List.foldl_cons]
  have stays : ∀ (later : List Statement) (state : Db),
      (∃ item ∈ state.backfillItems, item.tree = tree ∧ item.seq = seq) →
        ∃ item ∈ (later.foldl Statement.exec state).backfillItems, item.tree = tree ∧ item.seq = seq := by
    intro later
    induction later with
    | nil => exact fun _ held => held
    | cons s rest ih =>
      rintro state ⟨item, member, isItem⟩
      exact ih (s.exec state) ⟨item, backfillItems_mono state s member, isItem⟩
  exact stays after _ ⟨_, List.mem_append_right _ (List.mem_singleton_self _), rfl, rfl⟩

theorem clItem_taken {tree : Pubkey} {nodeIdx : Nat} {item : ClItemRow} (taken : .clItem tree nodeIdx item ∈ trace) :
    ∃ row, (trace.foldl Statement.exec {}).clItems.lookup (tree, nodeIdx) = some row ∧ item.seq ≤ row.seq := by
  have written : item ∈ trace.filterMap (Statement.itemWrite (tree, nodeIdx)) :=
    List.mem_filterMap.mpr ⟨_, taken, by simp [Statement.itemWrite]⟩
  rw [run_clItems _ rfl]
  cases newest : (trace.filterMap (Statement.itemWrite (tree, nodeIdx))).argmax ClItemRow.seq with
  | none =>
    rw [List.argmax_eq_none.mp newest] at written
    cases written
  | some row => exact ⟨row, rfl, List.le_of_mem_argmax written newest⟩

/-- What an event leaves behind: its path or newer nodes, its place in the queue of the
backfiller, and its asset with its sequence number or a later one. -/
structure Durable (db : Db) (event : Event) (cl : ChangeLogEvent) : Prop where
  path : ∀ node ∈ pathItems cl, ∃ row, db.clItems.lookup (cl.id, node.1) = some row ∧ cl.seq ≤ row.seq
  recorded : Recorded db cl.id cl.seq
  applied : event.plan.inTransaction.toOption.isSome → ∀ id, event.assetId = some id → Applied db id cl.seq

theorem Effects.durable (effects : Effects trace db) {event : Event} {cl : ChangeLogEvent}
    (indexes : event.plan.Indexes event cl) (taken : ∀ s ∈ event.statements, s.Optional ∨ s ∈ trace) :
    Durable db event cl := by
  obtain ⟨accounts, state⟩ := effects.state
  have inTrace : ∀ s ∈ event.statements, s.kind ≠ .clAudit → s ∈ trace :=
    fun s member needed => (taken s member).resolve_left needed
  have logged : ∀ s ∈ saveChangelogEvent cl event.bundle event.parsingResult.instruction.ixStr,
      s ∈ event.statements := by
    intro s member
    rw [Event.statements, Plan.statements, indexes.changeLog]
    exact List.mem_append_left _ member
  rw [state]
  refine ⟨fun node member => ?_, Or.inl ?_, fun accepted id isAsset => ?_⟩
  · rw [← pathItems_seq member]
    refine clItem_taken (inTrace _ (logged _ ?_) (fun other => by cases other))
    exact List.mem_append_left _ (List.mem_map_of_mem member)
  · have isLogged : .backfillItem cl.id cl.seq event.bundle.slot ∈ trace := by
      refine inTrace _ (logged _ ?_) (fun other => by cases other)
      simp [saveChangelogEvent, insertChangeLog]
    exact backfillItem_taken isLogged
  · have writes : event.Writes cl id := ⟨indexes, isAsset⟩
    have moved : .assetSeq id cl.seq ∈ trace := by
      refine inTrace _ ?_ (fun other => by cases other)
      exact List.mem_append_right _ (writes.assetSeq accepted)
    exact Applied.of_mem moved {}

end Durable

/-- A transaction is acknowledged only after it was read and handled to an end that another
delivery would not change, and then each of its events is in the database for good. So
it is in every state of every run, with any number of workers, whatever fails and whenever
the process is started again. -/
theorem acknowledged_durable [BubblegumCrates] [Programs] [PlerkleCrate] (streams : List String) (acker : Bool)
    (actions : List Action) (s : Ingester) (run : Runs.Reaches Ingester.step (.empty streams acker) actions s)
    (message : Message) (published : message ∈ s.published) (acked : (message.streamKey, message.id) ∈ s.acked) :
    (∃ result, message.handling.2 = some result ∧ captureResult result = true) ∧
      ∀ event ∈ message.events, ∀ cl, event.plan.Indexes event cl → Durable s.db event cl := by
  obtain ⟨trace, sound⟩ := (Ingester.sound_empty streams acker).reaches run
  have handled := sound.handled published acked
  refine ⟨handled.result, fun event member cl indexes => ?_⟩
  exact sound.effects.durable indexes (Message.steps_taken handled.taken event member)

section Converging
variable [BubblegumCrates] [Programs] [PlerkleCrate] {trace : List Statement} {s : Ingester}

theorem Ingester.Sound.executes (sound : s.Sound trace) {events : List Event} (same : ∀ e, e ∈ s.events ↔ e ∈ events)
    (acked : ∀ message ∈ s.published, message.events ≠ [] → (message.streamKey, message.id) ∈ s.acked) :
    Executes events trace := by
  refine ⟨sound.causal.mono (fun program inPrograms => ?_), fun program inPrograms statement member => ?_⟩
  · obtain ⟨event, inEvents, isProgram⟩ := List.mem_map.mp inPrograms
    exact List.mem_map.mpr ⟨event, (same event).mp inEvents, isProgram⟩
  · obtain ⟨event, inEvents, isProgram⟩ := List.mem_map.mp inPrograms
    obtain ⟨message, published, inMessage⟩ := List.mem_flatMap.mp ((same event).mpr inEvents)
    have handled := sound.handled published (acked message published (List.ne_nil_of_mem inMessage))
    rw [← isProgram] at member
    exact Message.steps_taken handled.taken event inMessage statement member

theorem Ingester.Sound.converges (sound : s.Sound trace) {events : List Event} (same : ∀ e, e ∈ s.events ↔ e ∈ events)
    {schema : Pubkey → SchemaVersion} (histories : Histories schema events)
    (acked : ∀ message ∈ s.published, message.events ≠ [] → (message.streamKey, message.id) ∈ s.acked) :
    SameButAudits s.db (ingest {} events) := by
  obtain ⟨accounts, state⟩ := sound.effects.state
  have rows := (sound.executes same acked).sameButAudits histories
  rw [state]
  exact ⟨rows.asset, rows.assetData, rows.assetCreators, rows.assetGrouping, rows.assetAuthority, rows.clItems,
    rows.audits⟩

end Converging

/-- When all transactions with Bubblegum instructions are acknowledged, the rows are those
of handling the events one after the other without a failure. -/
theorem acknowledged_converges [BubblegumCrates] [Programs] [PlerkleCrate] (streams : List String) (acker : Bool)
    (actions : List Action) (s : Ingester) (run : Runs.Reaches Ingester.step (.empty streams acker) actions s)
    (schema : Pubkey → SchemaVersion) (histories : Histories schema s.events)
    (acked : ∀ message ∈ s.published, message.events ≠ [] → (message.streamKey, message.id) ∈ s.acked) :
    SameButAudits s.db (ingest {} s.events) := by
  obtain ⟨trace, sound⟩ := (Ingester.sound_empty streams acker).reaches run
  exact sound.converges (fun _ => Iff.rfl) histories acked

namespace Example

/-- The discriminator of `transfer`. -/
def transferData : Bytes := [163, 52, 200, 231, 140, 3, 69, 186]

@[reducible] def crates : BubblegumCrates :=
  { BubblegumCrates.eventsOnly with
    getInstructionType := fun data => if data = transferData then .transfer else .unknown }

/-- The calls of the noop program in a transfer: the leaf schema and the change log. -/
def leafCall (owner : UInt8) : CompiledInstruction where
  programIdIndex := 2
  accounts := []
  data := [1, 0, 203, 0, 0, 0] ++ [1, 0, 0] ++ List.replicate 32 7 ++ List.replicate 32 owner ++
    List.replicate 32 owner ++ List.replicate 8 0 ++ List.replicate 64 0 ++ List.replicate 32 9

def logCall (seq : UInt8) : CompiledInstruction where
  programIdIndex := 2
  accounts := []
  data := [0, 0] ++ List.replicate 32 8 ++ [1, 0, 0, 0] ++ List.replicate 32 9 ++ [1, 0, 0, 0] ++
    [seq, 0, 0, 0, 0, 0, 0, 0] ++ [0, 0, 0, 0]

def transaction (seq owner : UInt8) : TransactionInfo where
  slot := 10
  signature := []
  accountKeys := [.fill 1, Mainnet.bubblegumId, crates.splNoopId]
  messageInstructions := [{ programIdIndex := 1, accounts := [], data := transferData }]
  metaInnerInstructions := [{ index := 0, instructions := [leafCall owner, logCall seq] }]

@[reducible] def plerkle : PlerkleCrate where
  transactionInfo data :=
    if data = [1] then some (transaction 1 1) else if data = [2] then some (transaction 2 2) else none

def first : Message := { streamKey := "TXN", id := "1", data := [1] }

def second : Message := { streamKey := "TXN", id := "2", data := [2] }

/-- The second transfer is received first and fails; the process ends in the middle of the
first one, and both are delivered again and handled beside each other. -/
def disturbed : List Action :=
  [.publish first, .publish second, .recv 0 [second], .step 0 0 .none, .step 0 0 { reported := true, applied := false },
    .step 0 0 { reported := true, applied := false }, .join 0 0, .recv 0 [first], .step 0 0 .none,
    .restart ["TXN"] true, .recv 0 [first, second], .step 0 1 .none, .step 0 0 .none, .step 0 0 .none, .step 0 1 .none,
    .step 0 1 .none, .step 0 1 .none, .step 0 0 .none, .step 0 0 .none, .join 0 1, .ackRecv, .join 0 0, .ackRecv,
    .tick (fun _ => true)]

set_option maxRecDepth 4000

/-- What the ingester has published and what is acknowledged at the end. -/
def ended : Option (List Message × List (String × String)) :=
  (disturbed.foldlM (@Ingester.step crates _ plerkle) (.empty ["TXN"] true)).map (fun s => (s.published, s.acked))

theorem disturbed_ended : ended = some ([first, second], [("TXN", "2"), ("TXN", "1")]) := by rfl

theorem disturbed_run : ∃ s, Runs.Reaches (@Ingester.step crates _ plerkle) (.empty ["TXN"] true) disturbed s ∧
    s.published = [first, second] ∧ s.acked = [("TXN", "2"), ("TXN", "1")] := by
  obtain ⟨s, ran, same⟩ := Option.map_eq_some_iff.mp disturbed_ended
  obtain ⟨published, acked⟩ := Prod.mk.inj same
  exact ⟨s, Runs.Reaches.of_foldlM ran, published, acked⟩

theorem events_disturbed : [first, second].flatMap (@Message.events crates _ plerkle) =
    [Bubblegum.Example.transfer 1 10 (.fill 1), Bubblegum.Example.transfer 2 10 (.fill 2)] := by rfl

theorem events_second : @Message.events crates _ plerkle second = [Bubblegum.Example.transfer 2 10 (.fill 2)] := by
  rfl

theorem histories_transfers : Histories (fun _ => .v1)
    [Bubblegum.Example.transfer 1 10 (.fill 1), Bubblegum.Example.transfer 2 10 (.fill 2)] := by
  have consistent : Consistent .v1
      [Bubblegum.Example.transfer 1 10 (.fill 1), Bubblegum.Example.transfer 2 10 (.fill 2)] := by
    refine ⟨?_, ?_, ?_, ?_⟩
    · simp [Event.seq, Bubblegum.Example.transfer, Bubblegum.Example.changeLog]
    · have seqs : ([Bubblegum.Example.transfer 1 10 (.fill 1),
          Bubblegum.Example.transfer 2 10 (.fill 2)].map Event.seq).Nodup := by
        simp [Event.seq, Bubblegum.Example.transfer, Bubblegum.Example.changeLog]
      exact fun e member e' member' => List.inj_on_of_nodup_map seqs member member'
    · simp only [List.forall_mem_cons]
      exact ⟨⟨fun le same => by cases same; rfl, fun _ => rfl⟩, ⟨fun le same => by cases same; rfl, fun _ => rfl⟩,
        List.forall_mem_nil _⟩
    · intro e member e' _ isMint _
      simp only [List.mem_cons, List.not_mem_nil, or_false] at member
      rcases member with one | two
      · subst one
        cases isMint
      · subst two
        cases isMint
  refine consistent.histories (.fill 8) (fun e member cl update => ?_)
  simp only [List.mem_cons, List.not_mem_nil, or_false] at member
  rcases member with one | two
  · subst one
    cases update
    rfl
  · subst two
    cases update
    rfl

end Example

theorem acknowledged_durable_transfer :
    ∃ s, Runs.Reaches (@Ingester.step Example.crates _ Example.plerkle) (.empty ["TXN"] true) Example.disturbed s ∧
      ∀ cl, (Bubblegum.Example.transfer 2 10 (.fill 2)).plan.Indexes (Bubblegum.Example.transfer 2 10 (.fill 2)) cl →
        Durable s.db (Bubblegum.Example.transfer 2 10 (.fill 2)) cl := by
  obtain ⟨s, run, published, acked⟩ := Example.disturbed_run
  have durable := (@acknowledged_durable Example.crates _ Example.plerkle ["TXN"] true Example.disturbed s run
    Example.second (by simp [published]) (by simp [acked, Example.second])).2
  refine ⟨s, run, fun cl indexes => durable _ ?_ cl indexes⟩
  simp [Example.events_second]

theorem acknowledged_converges_disturbed :
    ∃ s, Runs.Reaches (@Ingester.step Example.crates _ Example.plerkle) (.empty ["TXN"] true) Example.disturbed s ∧
      SameButAudits s.db
        (ingest {} [Bubblegum.Example.transfer 1 10 (.fill 1), Bubblegum.Example.transfer 2 10 (.fill 2)]) := by
  obtain ⟨s, run, published, acked⟩ := Example.disturbed_run
  have isEvents : @Ingester.events Example.crates _ Example.plerkle s =
      [Bubblegum.Example.transfer 1 10 (.fill 1), Bubblegum.Example.transfer 2 10 (.fill 2)] := by
    show s.published.flatMap (@Message.events Example.crates _ Example.plerkle) = _
    rw [published]
    exact Example.events_disturbed
  refine ⟨s, run, ?_⟩
  rw [← isEvents]
  refine @acknowledged_converges Example.crates _ Example.plerkle ["TXN"] true Example.disturbed s run (fun _ => .v1)
    (by rw [isEvents]; exact Example.histories_transfers) (fun message member _ => ?_)
  rw [published] at member
  simp only [List.mem_cons, List.not_mem_nil, or_false] at member
  rcases member with one | two
  · simp [one, acked, Example.first]
  · simp [two, acked, Example.second]

end DasIndexer.Streams
