import Mathlib.Data.List.Basic

namespace Transactions
variable {σ τ δ : Type}

/-- What a statement does of a call that holds one transaction and writes to its
connection besides. Only the latter can wait for rows that the transaction has
locked, and then it waits for ever. -/
inductive Act (σ : Type) where
  | nothing
  | inside (write : σ → σ)
  | outside (waits : σ → Bool) (write : σ → σ)
  | commit

def Act.waits : Act σ → σ → Bool
  | .outside waits _, s => waits s
  | _, _ => false

/-- What is committed, and the writes of the open transaction. -/
structure Session (σ : Type) where
  committed : σ
  pending : σ → σ

def Session.exec (session : Session σ) : Act σ → Session σ
  | .nothing => session
  | .inside write => { session with pending := write ∘ session.pending }
  | .outside _ write => { session with committed := write session.committed }
  | .commit => { committed := session.pending session.committed, pending := id }

/-- A call that returns at its first failure: the state that is left, with an
open transaction rolled back, and the statement that failed. -/
def run (act : τ → Act σ) (fault : Nat → Option δ) : Session σ → List τ → Option (σ × Option (τ × δ))
  | session, [] => some (session.committed, none)
  | session, statement :: rest =>
    match fault 0 with
    | some failure => some (session.committed, some (statement, failure))
    | none =>
      if (act statement).waits session.committed then none
      else run act (fun i => fault (i + 1)) (session.exec (act statement)) rest

/-- What the statements on the connection make of a state. -/
def outside (act : τ → Act σ) (s : σ) (statements : List τ) : σ :=
  statements.foldl (fun s statement => match act statement with
    | .outside _ write => write s
    | _ => s) s

/-- What the statements on the transaction make of a state. -/
def inside (act : τ → Act σ) (s : σ) (statements : List τ) : σ :=
  statements.foldl (fun s statement => match act statement with
    | .inside write => write s
    | _ => s) s

/-- No statement waits for the transaction. -/
def Unblocked (act : τ → Act σ) : σ → List τ → Prop
  | _, [] => True
  | s, statement :: rest => (act statement).waits s = false ∧ Unblocked act (outside act s [statement]) rest

/-- The database fails first at the statement of this position. -/
structure FailsAt (fault : Nat → Option δ) (statements : List τ) (position : Nat) (statement : τ) (failure : δ) :
    Prop where
  statement : statements[position]? = some statement
  fails : fault position = some failure
  first : ∀ earlier < position, fault earlier = none

section Run
variable {act : τ → Act σ} {fault : Nat → Option δ}

theorem FailsAt.zero {x statement : τ} {rest : List τ} {failure : δ}
    (fails : FailsAt fault (x :: rest) 0 statement failure) : x = statement ∧ fault 0 = some failure :=
  ⟨Option.some.inj fails.statement, fails.fails⟩

theorem failsAt_succ {x statement : τ} {rest : List τ} {failure : δ} {position : Nat} :
    FailsAt fault (x :: rest) (position + 1) statement failure ↔
      fault 0 = none ∧ FailsAt (fun i => fault (i + 1)) rest position statement failure := by
  constructor
  · intro fails
    exact ⟨fails.first 0 (Nat.zero_lt_succ _), fails.statement, fails.fails,
      fun earlier below => fails.first (earlier + 1) (Nat.succ_lt_succ below)⟩
  · rintro ⟨works, fails⟩
    refine ⟨fails.statement, fails.fails, fun earlier below => ?_⟩
    cases earlier with
    | zero => exact works
    | succ earlier => exact fails.first earlier (Nat.lt_of_succ_lt_succ below)

theorem exec_committed {session : Session σ} {statement : τ} (noCommit : act statement ≠ .commit) :
    (session.exec (act statement)).committed = outside act session.committed [statement] := by
  rw [outside, List.foldl_cons, List.foldl_nil]
  cases what : act statement with
  | nothing => rfl
  | inside write => rfl
  | outside waits write => rfl
  | commit => exact absurd what noCommit

theorem exec_pending {session : Session σ} {statement : τ} (noCommit : act statement ≠ .commit) (s : σ) :
    (session.exec (act statement)).pending s = inside act (session.pending s) [statement] := by
  rw [inside, List.foldl_cons, List.foldl_nil]
  cases what : act statement with
  | nothing => rfl
  | inside write => rfl
  | outside waits write => rfl
  | commit => exact absurd what noCommit

theorem outside_cons (s : σ) (statement : τ) (rest : List τ) :
    outside act s (statement :: rest) = outside act (outside act s [statement]) rest := rfl

theorem inside_cons (s : σ) (statement : τ) (rest : List τ) :
    inside act s (statement :: rest) = inside act (inside act s [statement]) rest := rfl

theorem inside_append (s : σ) (first second : List τ) :
    inside act s (first ++ second) = inside act (inside act s first) second := List.foldl_append

theorem inside_eq_self {statements : List τ} (outer : ∀ statement ∈ statements, ∀ s, inside act s [statement] = s)
    (s : σ) : inside act s statements = s := by
  induction statements with
  | nil => rfl
  | cons statement rest ih =>
    rw [inside_cons, outer statement List.mem_cons_self]
    exact ih (fun other member => outer other (List.mem_cons_of_mem _ member))

theorem run_cons {session : Session σ} {statement : τ} {rest : List τ} (works : fault 0 = none)
    (unblocked : (act statement).waits session.committed = false) :
    run act fault session (statement :: rest) =
      run act (fun i => fault (i + 1)) (session.exec (act statement)) rest := by
  rw [run, works]
  simp only [unblocked, Bool.false_eq_true, if_false]

theorem run_failed_now {session : Session σ} {x statement : τ} {rest : List τ} {after : σ} {problem failure : δ}
    (first : fault 0 = some problem) :
    run act fault session (x :: rest) = some (after, some (statement, failure)) ↔
      ∃ position, FailsAt fault (x :: rest) position statement failure ∧
        Unblocked act session.committed ((x :: rest).take position) ∧
        after = outside act session.committed ((x :: rest).take position) := by
  simp only [run, first, Option.some.injEq, Prod.mk.injEq]
  constructor
  · rintro ⟨same, sameStatement, sameFailure⟩
    exact ⟨0, ⟨congrArg some sameStatement, first.trans (congrArg some sameFailure), nofun⟩, trivial, same.symm⟩
  · rintro ⟨position, fails, -, same⟩
    cases position with
    | zero =>
      obtain ⟨sameStatement, failed⟩ := fails.zero
      exact ⟨same.symm, sameStatement, Option.some.inj (first.symm.trans failed)⟩
    | succ position => cases first.symm.trans (failsAt_succ.mp fails).1

/-- A call whose last statement is the commit fails exactly where the database
does, if it gets there. It leaves what it wrote to the connection before. -/
theorem run_failed_iff {front : List τ} {last : τ} (noCommit : ∀ statement ∈ front, act statement ≠ .commit)
    {session : Session σ} {after : σ} {statement : τ} {failure : δ} :
    run act fault session (front ++ [last]) = some (after, some (statement, failure)) ↔
      ∃ position, FailsAt fault (front ++ [last]) position statement failure ∧
        Unblocked act session.committed ((front ++ [last]).take position) ∧
        after = outside act session.committed ((front ++ [last]).take position) := by
  induction front generalizing session fault with
  | nil =>
    cases first : fault 0 with
    | some problem => exact run_failed_now first
    | none =>
      constructor
      · intro ran
        rw [List.nil_append, run, first] at ran
        dsimp only at ran
        split at ran
        · cases ran
        · cases ran
      · rintro ⟨position, fails, -, -⟩
        cases position with
        | zero => cases first.symm.trans fails.fails
        | succ position => cases fails.statement
  | cons x rest ih =>
    have later : ∀ s ∈ rest, act s ≠ .commit := fun s member => noCommit s (List.mem_cons_of_mem _ member)
    have next := @exec_committed _ _ act session x (noCommit x List.mem_cons_self)
    rw [List.cons_append]
    cases first : fault 0 with
    | some problem => exact run_failed_now first
    | none =>
      cases blocked : (act x).waits session.committed with
      | true =>
        constructor
        · intro ran
          rw [run, first] at ran
          simp only [blocked, if_true] at ran
          cases ran
        · rintro ⟨position, fails, unblocked, -⟩
          cases position with
          | zero => cases first.symm.trans fails.fails
          | succ position => cases blocked.symm.trans unblocked.1
      | false =>
        rw [run_cons first blocked, ih later, next]
        constructor
        · rintro ⟨position, fails, unblocked, same⟩
          exact ⟨position + 1, failsAt_succ.mpr ⟨first, fails⟩, ⟨blocked, unblocked⟩, same⟩
        · rintro ⟨position, fails, unblocked, same⟩
          cases position with
          | zero => cases first.symm.trans fails.fails
          | succ position => exact ⟨position, (failsAt_succ.mp fails).2, unblocked.2, same⟩

/-- A call that meets no failure commits its transaction on top of what it wrote
to the connection. -/
theorem run_completed {front : List τ} {last : τ} (noCommit : ∀ statement ∈ front, act statement ≠ .commit)
    (commits : act last = .commit) (works : ∀ i, fault i = none) {session : Session σ}
    (unblocked : Unblocked act session.committed front) :
    run act fault session (front ++ [last]) =
      some (inside act (session.pending (outside act session.committed front)) front, none) := by
  induction front generalizing session fault with
  | nil =>
    have ready : (act last).waits session.committed = false := by rw [commits]; rfl
    rw [List.nil_append, run_cons (works 0) ready, commits]
    rfl
  | cons x rest ih =>
    have later : ∀ s ∈ rest, act s ≠ .commit := fun s member => noCommit s (List.mem_cons_of_mem _ member)
    have executed := @exec_committed _ _ act session x (noCommit x List.mem_cons_self)
    rw [List.cons_append, run_cons (works 0) unblocked.1, ih later (fun i => works (i + 1)), executed,
      exec_pending (noCommit x List.mem_cons_self), ← outside_cons, ← inside_cons]
    rw [executed]
    exact unblocked.2

end Run

end Transactions
