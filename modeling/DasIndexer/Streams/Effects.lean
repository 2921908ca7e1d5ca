import DasIndexer.Streams.Ingester

namespace DasIndexer.Streams
open Blockbuster Bubblegum Interleaved Sql

/-- The statements that a step runs. -/
def Step.statements : Step → List Statement
  | .statement s => [s]
  | .transaction body => body
  | .notify _ | .closeIx _ => []

/-- The statements of the step have taken effect, except for an audit row. -/
def Step.Taken (trace : List Statement) (step : Step) : Prop := ∀ s ∈ step.statements, s.Optional ∨ s ∈ trace

theorem Step.Taken.mono {trace : List Statement} {step : Step} (taken : step.Taken trace) (part : List Statement) :
    step.Taken (trace ++ part) :=
  fun s member => (taken s member).imp id (fun inTrace => List.mem_append_left part inTrace)

section Effects
variable [Programs] {db : Db} {trace : List Statement}

/-- The statements of Bubblegum neither read nor write the tables of tokens. -/
theorem statement_frame (db : Db) (s : Statement) (accounts : Table Pubkey TokenAccountRow) :
    s.exec { db with tokenAccounts := accounts } = { s.exec db with tokenAccounts := accounts } ∧
      (s.exec db).tokens = db.tokens := by
  cases s <;> exact ⟨rfl, rfl⟩

theorem statements_frame (db : Db) (statements : List Statement) (accounts : Table Pubkey TokenAccountRow) :
    statements.foldl Statement.exec { db with tokenAccounts := accounts } =
        { statements.foldl Statement.exec db with tokenAccounts := accounts } ∧
      (statements.foldl Statement.exec db).tokens = db.tokens := by
  induction statements generalizing db with
  | nil => exact ⟨rfl, rfl⟩
  | cons s rest ih =>
    obtain ⟨state, tokens⟩ := statement_frame db s accounts
    obtain ⟨stateRest, tokensRest⟩ := ih (s.exec db)
    rw [List.foldl_cons, List.foldl_cons, state]
    exact ⟨stateRest, tokensRest.trans tokens⟩

/-- The database after the effects of a trace, but for the token accounts. -/
structure Effects (trace : List Statement) (db : Db) : Prop where
  state : ∃ accounts, db = { trace.foldl Statement.exec {} with tokenAccounts := accounts }
  tokens : db.tokens = ∅

theorem Effects.statements (effects : Effects trace db) (part : List Statement) :
    Effects (trace ++ part) (part.foldl Statement.exec db) := by
  obtain ⟨accounts, state⟩ := effects.state
  refine ⟨⟨accounts, ?_⟩, (statements_frame db part ∅).2.trans effects.tokens⟩
  rw [state, (statements_frame _ part accounts).1, List.foldl_append]

/-- What a step does to the database, and what it means that it does not end the task. No
mint is known, so that only token accounts are closed. -/
theorem Step.exec_spec (step : Step) (fault : Fault) (effects : Effects trace db) :
    ∃ part, Effects (trace ++ part) (step.exec db fault).1 ∧ (part = [] ∨ part = step.statements) ∧
      ((step.exec db fault).2 = none → step.Taken (trace ++ part)) := by
  have untouched : Effects (trace ++ []) db := by rwa [List.append_nil]
  cases step with
  | statement s =>
    cases effective : fault.effective with
    | true =>
      refine ⟨[s], ?_, Or.inr rfl, fun _ t member => Or.inr (List.mem_append_right trace member)⟩
      simpa [Step.exec, effective] using effects.statements [s]
    | false =>
      refine ⟨[], by simpa [Step.exec, effective] using untouched, Or.inl rfl, fun onward t member => ?_⟩
      have reported : fault.reported = true := by
        rw [Fault.effective, Bool.or_eq_false_iff, Bool.not_eq_false'] at effective
        exact effective.1
      rw [Step.statements, List.mem_singleton] at member
      subst member
      cases t with
      | clAudit => exact Or.inl rfl
      | _ => simp [Step.exec, reported] at onward
  | transaction body =>
    cases effective : fault.effective with
    | true =>
      refine ⟨body, ?_, Or.inr rfl, fun _ t member => Or.inr (List.mem_append_right trace member)⟩
      simpa [Step.exec, effective] using effects.statements body
    | false =>
      refine ⟨[], by simpa [Step.exec, effective] using untouched, Or.inl rfl, fun onward => ?_⟩
      have reported : fault.reported = true := by
        rw [Fault.effective, Bool.or_eq_false_iff, Bool.not_eq_false'] at effective
        exact effective.1
      simp [Step.exec, reported] at onward
  | notify info => exact ⟨[], untouched, Or.inl rfl, fun _ => List.forall_mem_nil _⟩
  | closeIx accToClose =>
    refine ⟨[], ?_, Or.inl rfl, fun _ => List.forall_mem_nil _⟩
    have unknown : (if fault.lookupFails then none else db.tokens.lookup accToClose) = none := by
      rw [effects.tokens]
      split <;> rfl
    obtain ⟨accounts, state⟩ := effects.state
    rw [Step.exec, closeAccount, unknown]
    by_cases fails : fault.deleteFails = true
    · simpa [fails] using untouched
    · refine ⟨⟨db.tokenAccounts.erase accToClose, ?_⟩, ?_⟩
      · simp only [fails, List.append_nil]
        rw [state]
        rfl
      · simpa [fails] using effects.tokens

/-- A task that a step has ended is not acknowledged. -/
theorem Step.exec_problem {step : Step} {fault : Fault} {problem : ProgramTransformerError}
    (ended : (step.exec db fault).2 = some problem) : captureResult (.error problem) = false := by
  cases step with
  | statement s =>
    cases s with
    | clAudit => cases ended
    | _ =>
      cases reported : fault.reported with
      | true =>
        simp only [Step.exec, reported, if_true, Option.some.injEq] at ended
        rw [← ended]
        rfl
      | false => simp [Step.exec, reported] at ended
  | transaction body =>
    cases reported : fault.reported with
    | true =>
      simp only [Step.exec, reported, if_true, Option.some.injEq] at ended
      rw [← ended, Fault.transactionError]
      split <;> rfl
    | false => simp [Step.exec, reported] at ended
  | notify info =>
    cases reported : fault.reported with
    | true =>
      simp only [Step.exec, reported, if_true, Option.some.injEq] at ended
      rw [← ended]
      rfl
    | false => simp [Step.exec, reported] at ended
  | closeIx accToClose => cases ended

end Effects

section Scripts
variable [Programs] {event : Event} {trace : List Statement}

omit [Programs] in
/-- A step among statements on the connection, or behind them. -/
theorem connection_split {connection : List Statement} {tail done rest : List Step} {step : Step}
    (split : connection.map Step.statement ++ tail = done ++ step :: rest) :
    (∃ front s back, connection = front ++ s :: back ∧ step = .statement s ∧ done = front.map Step.statement) ∨
      ∃ middle, done = connection.map Step.statement ++ middle ∧ tail = middle ++ step :: rest := by
  rcases List.append_eq_append_iff.mp split with ⟨middle, isDone, isTail⟩ | ⟨middle, isConnection, isRest⟩
  · exact Or.inr ⟨middle, isDone, isTail⟩
  · cases middle with
    | nil =>
      refine Or.inr ⟨[], ?_, ?_⟩
      · simpa using isConnection.symm
      · simpa using isRest.symm
    | cons first others =>
      obtain ⟨isStep, -⟩ := List.cons.inj isRest
      obtain ⟨front, remaining, isSplit, isFront, isRemaining⟩ := List.map_eq_append_iff.mp isConnection
      obtain ⟨s, back, isBack, isFirst, -⟩ := List.map_eq_cons_iff.mp isRemaining
      exact Or.inl ⟨front, s, back, by rw [isSplit, isBack], isStep.trans isFirst.symm, isFront.symm⟩

/-- The place of a step among the statements of its event. -/
theorem eventSteps_split {done rest : List Step} {step : Step} (split : eventSteps event = done ++ step :: rest) :
    ∃ earlier later, event.statements = earlier ++ (step.statements ++ later) ∧
      ∀ s ∈ earlier, Step.statement s ∈ done := by
  obtain ⟨tail, isSteps, isTail⟩ : ∃ tail, eventSteps event = event.plan.onConnection.map Step.statement ++ tail ∧
      (tail = [] ∨ ∃ info : Option DownloadMetadataInfo,
        tail = Step.transaction event.plan.body :: (info.map Step.notify).toList) := by
    rw [eventSteps, Plan.body]
    cases event.plan.inTransaction with
    | error problem => exact ⟨[], by simp, Or.inl rfl⟩
    | ok transaction =>
      by_cases idle : event.handler = none
      · exact ⟨[], by simp [idle], Or.inl rfl⟩
      · exact ⟨_, by simp only [idle, if_false], Or.inr ⟨transaction.2, rfl⟩⟩
  rw [isSteps] at split
  rcases connection_split split with ⟨front, s, back, isConnection, isStep, isDone⟩ | ⟨middle, isDone, isRest⟩
  · refine ⟨front, back ++ event.plan.body, ?_, fun t member => ?_⟩
    · rw [Event.statements, Plan.statements, isConnection, isStep]
      simp [Step.statements]
    · rw [isDone]
      exact List.mem_map_of_mem member
  · rcases isTail with isTail | ⟨info, isTail⟩
    · rw [isTail] at isRest
      have lengths := congrArg List.length isRest
      simp at lengths
    · rw [isTail] at isRest
      cases middle with
      | nil =>
        obtain ⟨isStep, -⟩ := List.cons.inj isRest
        refine ⟨event.plan.onConnection, [], ?_, fun t member => ?_⟩
        · rw [← isStep, List.append_nil]
          rfl
        · rw [isDone, List.append_nil]
          exact List.mem_map_of_mem member
      | cons first others =>
        obtain ⟨-, isNotify⟩ := List.cons.inj isRest
        refine ⟨[], event.statements, ?_, List.forall_mem_nil _⟩
        cases info with
        | none =>
          have lengths := congrArg List.length isNotify
          simp at lengths
        | some info =>
          have isLast : step = .notify info := by
            have member : step ∈ ((some info).map Step.notify).toList := by
              rw [isNotify]
              exact List.mem_append_right others List.mem_cons_self
            simpa using member
          rw [isLast]
          rfl

/-- The steps of an event cover its statements. -/
theorem eventSteps_taken (taken : ∀ step ∈ eventSteps event, step.Taken trace) :
    ∀ s ∈ event.statements, s.Optional ∨ s ∈ trace := by
  intro s member
  rw [Event.statements, Plan.statements, List.mem_append] at member
  rw [eventSteps] at taken
  rcases member with onConnection | inBody
  · have isStep : Step.statement s ∈ event.plan.onConnection.map Step.statement := List.mem_map_of_mem onConnection
    refine taken (.statement s) ?_ s (List.mem_singleton_self s)
    cases event.plan.inTransaction with
    | error problem => exact isStep
    | ok transaction =>
      show Step.statement s ∈ ite _ _ _
      split
      · exact isStep
      · exact List.mem_append_left _ isStep
  · rw [Plan.body] at inBody
    cases planned : event.plan.inTransaction with
    | error problem =>
      rw [planned] at inBody
      cases inBody
    | ok transaction =>
      simp only [planned] at inBody taken
      by_cases idle : event.handler = none
      · have isPlan : event.plan = { onConnection := [], inTransaction := .ok ([], none) } := by
          rw [Event.plan, idle]
        rw [isPlan] at planned
        cases planned
        cases inBody
      · simp only [idle, if_false] at taken
        exact taken (.transaction transaction.1) (by simp) s inBody

variable [BubblegumCrates] [PlerkleCrate] {message : Message}

/-- The place of a step of a message among the statements of one of its events. -/
theorem Message.steps_split {done rest : List Step} {step : Step} (split : message.steps = done ++ step :: rest)
    (nonempty : step.statements ≠ []) :
    ∃ event ∈ message.events, ∃ earlier later, event.statements = earlier ++ (step.statements ++ later) ∧
      ∀ s ∈ earlier, Step.statement s ∈ done := by
  have located : ∀ (items : List Item) (done : List Step), items.flatMap Item.steps = done ++ step :: rest →
      ∃ item ∈ items, ∃ before after, item.steps = before ++ step :: after ∧ ∀ t ∈ before, t ∈ done := by
    intro items
    induction items with
    | nil =>
      intro done same
      have lengths := congrArg List.length same
      simp at lengths
    | cons item others ih =>
      intro done same
      rw [List.flatMap_cons] at same
      rcases List.append_eq_append_iff.mp same with ⟨middle, isDone, isOthers⟩ | ⟨middle, isItem, isRest⟩
      · obtain ⟨found, member, before, after, isFound, included⟩ := ih middle isOthers
        refine ⟨found, List.mem_cons_of_mem item member, before, after, isFound, fun t inBefore => ?_⟩
        rw [isDone]
        exact List.mem_append_right _ (included t inBefore)
      · cases middle with
        | nil =>
          obtain ⟨found, member, before, after, isFound, included⟩ := ih [] (by simpa using isRest.symm)
          exact ⟨found, List.mem_cons_of_mem item member, before, after, isFound,
            fun t inBefore => absurd (included t inBefore) List.not_mem_nil⟩
        | cons first after =>
          obtain ⟨isStep, -⟩ := List.cons.inj isRest
          exact ⟨item, List.mem_cons_self, done, after, by rw [isItem, isStep], fun t inBefore => inBefore⟩
  obtain ⟨item, member, before, after, isItem, included⟩ := located _ done split
  cases item with
  | closeIx accToClose =>
    have isClose : step = .closeIx accToClose := by
      have inItem : step ∈ Item.steps (.closeIx accToClose) := by simp [isItem]
      simpa [Item.steps] using inItem
    exact absurd (by rw [isClose]; rfl) nonempty
  | bubblegum event =>
    obtain ⟨earlier, later, isStatements, fromBefore⟩ := eventSteps_split isItem
    exact ⟨event, List.mem_filterMap.mpr ⟨_, member, rfl⟩, earlier, later, isStatements,
      fun s inEarlier => included _ (fromBefore s inEarlier)⟩

theorem Message.steps_taken (taken : ∀ step ∈ message.steps, step.Taken trace) :
    ∀ event ∈ message.events, ∀ s ∈ event.statements, s.Optional ∨ s ∈ trace := by
  intro event member
  obtain ⟨item, inItems, isEvent⟩ := List.mem_filterMap.mp member
  refine eventSteps_taken (fun step inEvent => taken step (List.mem_flatMap.mpr ⟨item, inItems, ?_⟩))
  cases item with
  | closeIx accToClose => cases isEvent
  | bubblegum other =>
    cases isEvent
    exact inEvent

end Scripts

end DasIndexer.Streams
