import Mathlib.Data.List.Basic

namespace Loops
variable {α σ ε : Type} {body : α → σ → σ × Except ε Unit}

/-- A sequence that ends well ran both of its parts. -/
theorem bind_eq_ok {β : Type} {x : Except ε α} {f : α → Except ε β} {r : β} :
    x >>= f = .ok r ↔ ∃ a, x = .ok a ∧ f a = .ok r := by
  cases x with
  | error problem => exact ⟨nofun, fun ⟨_, failed, _⟩ => nomatch failed⟩
  | ok a =>
    constructor
    · intro ran
      exact ⟨a, rfl, ran⟩
    · rintro ⟨b, same, ran⟩
      cases same
      exact ran

theorem map_eq_ok {β : Type} {x : Except ε α} {f : α → β} {r : β} :
    x.map f = .ok r ↔ ∃ a, x = .ok a ∧ f a = r := by
  cases x with
  | error problem => exact ⟨nofun, fun ⟨_, failed, _⟩ => nomatch failed⟩
  | ok a => simp [Except.map]

/-- A loop whose body may fail. What was done before the failure stays done. -/
def forEach (body : α → σ → σ × Except ε Unit) : List α → σ → σ × Except ε Unit
  | [], s => (s, .ok ())
  | x :: rest, s => match body x s with
    | (t, .error problem) => (t, .error problem)
    | (t, .ok _) => forEach body rest t

theorem forEach_cons_ok {x : α} {rest : List α} {s t : σ} :
    forEach body (x :: rest) s = (t, .ok ()) ↔ ∃ u, body x s = (u, .ok ()) ∧ forEach body rest u = (t, .ok ()) := by
  rw [forEach]
  rcases ran : body x s with ⟨u, outcome⟩
  cases outcome with
  | error problem => simp
  | ok value => simp

/-- What every turn of a completed loop keeps, the loop keeps. -/
theorem forEach_invariant (Inv : σ → Prop) {l : List α} {s t : σ}
    (kept : ∀ x ∈ l, ∀ s t, body x s = (t, .ok ()) → Inv s → Inv t)
    (completed : forEach body l s = (t, .ok ())) (start : Inv s) : Inv t := by
  induction l generalizing s with
  | nil =>
    cases completed
    exact start
  | cons x rest ih =>
    obtain ⟨u, ran, later⟩ := forEach_cons_ok.mp completed
    exact ih (fun y member => kept y (List.mem_cons_of_mem _ member)) later
      (kept x List.mem_cons_self s u ran start)

/-- What the turn of an element establishes and later turns keep holds of every
element at the end of a completed loop. -/
theorem forEach_established (Done : α → σ → Prop) {l : List α} {s t : σ}
    (established : ∀ x s t, body x s = (t, .ok ()) → Done x t)
    (kept : ∀ x y s t, body y s = (t, .ok ()) → Done x s → Done x t)
    (completed : forEach body l s = (t, .ok ())) : ∀ x ∈ l, Done x t := by
  induction l generalizing s with
  | nil =>
    intro x member
    cases member
  | cons y rest ih =>
    intro x member
    obtain ⟨u, ran, later⟩ := forEach_cons_ok.mp completed
    rcases List.mem_cons.mp member with isFirst | inRest
    · subst isFirst
      exact forEach_invariant (Done x) (fun z _ s t => kept x z s t) later (established x s u ran)
    · exact ih later x inRest

/-- What one turn of a loop without a bound does. -/
inductive Turn (σ ρ : Type) where
  | again (state : σ)
  | stop (result : ρ)

/-- A loop that runs until a turn stops it; `fuel` bounds the number of turns. -/
def loop {ρ : Type} (turn : σ → Turn σ ρ) : Nat → σ → Option ρ
  | 0, _ => none
  | fuel + 1, s => match turn s with
    | .again t => loop turn fuel t
    | .stop r => some r

section Unbounded
variable {ρ : Type} {turn : σ → Turn σ ρ} {Inv : σ → Prop}

/-- A loop ends with the expected result when every turn either stops with it or
keeps it and makes the measure smaller. -/
theorem loop_ends (measure : σ → Nat) (expected : σ → ρ)
    (turns : ∀ s, Inv s → turn s = .stop (expected s) ∨
      ∃ t, turn s = .again t ∧ Inv t ∧ measure t < measure s ∧ expected t = expected s)
    (s : σ) (start : Inv s) : ∃ fuel, loop turn fuel s = some (expected s) := by
  induction size : measure s using Nat.strongRecOn generalizing s with
  | _ n ih =>
    rcases turns s start with stops | ⟨t, goesOn, held, smaller, same⟩
    · refine ⟨1, ?_⟩
      rw [loop, stops]
    · obtain ⟨fuel, ended⟩ := ih (measure t) (by omega) t held rfl
      refine ⟨fuel + 1, ?_⟩
      rw [loop, goesOn, ← same]
      exact ended

/-- A loop none of whose turns stops never ends. -/
theorem loop_endless (turns : ∀ s, Inv s → ∃ t, turn s = .again t ∧ Inv t) (fuel : Nat) (s : σ) (start : Inv s) :
    loop turn fuel s = none := by
  induction fuel generalizing s with
  | zero => rfl
  | succ fuel ih =>
    obtain ⟨t, goesOn, held⟩ := turns s start
    rw [loop, goesOn]
    exact ih t held

/-- The number of turns that a loop may take does not change how it ends. -/
theorem loop_unique {first second : Nat} {s : σ} {r q : ρ} (ended : loop turn first s = some r)
    (alsoEnded : loop turn second s = some q) : r = q := by
  induction first generalizing second s with
  | zero => cases ended
  | succ first ih =>
    cases second with
    | zero => cases alsoEnded
    | succ second =>
      rw [loop] at ended alsoEnded
      cases turned : turn s with
      | again t =>
        rw [turned] at ended alsoEnded
        exact ih ended alsoEnded
      | stop result =>
        rw [turned] at ended alsoEnded
        exact Option.some.inj (ended.symm.trans alsoEnded)

end Unbounded

/-- A loop that counts its turns reaches every element. -/
theorem exists_mem_zipIdx {x : α} {l : List α} (member : x ∈ l) : ∃ i, (x, i) ∈ l.zipIdx := by
  obtain ⟨i, found⟩ := List.getElem?_of_mem member
  exact ⟨i, List.mk_mem_zipIdx_iff_getElem?.mpr found⟩

end Loops
