import Mathlib.Algebra.Order.Ring.Nat
import Mathlib.Data.List.Basic
import Mathlib.Data.List.Induction

namespace Runs
variable {S E : Type} {step : S → E → S}

/-- A property of the run so far holds all along a run exactly when every event may
follow the ones before it, provided that an event keeps the property exactly when
it may follow. -/
theorem prefixes_iff {Holds : List E → Prop} {Allowed : List E → E → Prop} (events : List E) (start : Holds [])
    (kept : ∀ earlier e, earlier ++ [e] <+: events → Holds earlier → (Holds (earlier ++ [e]) ↔ Allowed earlier e)) :
    (∀ earlier, earlier <+: events → Holds earlier) ↔
      ∀ earlier e, earlier ++ [e] <+: events → Allowed earlier e := by
  constructor
  · intro holds earlier e begins
    have before := holds earlier ((List.prefix_append earlier [e]).trans begins)
    exact (kept earlier e begins before).mp (holds (earlier ++ [e]) begins)
  · intro allowed earlier begins
    induction earlier using List.reverseRecOn with
    | nil => exact start
    | append_singleton before last ih =>
      have held := ih ((List.prefix_append before [last]).trans begins)
      exact (kept before last begins held).mpr (allowed before last begins)

/-- A property of the run so far and the state it reached, where what may follow
depends on that state. -/
theorem holds_iff_allowed {Holds : List E → S → Prop} {Allowed : S → E → Prop} {s : S} (events : List E)
    (start : Holds [] s)
    (kept : ∀ earlier e, earlier ++ [e] <+: events → Holds earlier (earlier.foldl step s) →
      (Holds (earlier ++ [e]) (step (earlier.foldl step s) e) ↔ Allowed (earlier.foldl step s) e)) :
    (∀ earlier, earlier <+: events → Holds earlier (earlier.foldl step s)) ↔
      ∀ earlier e, earlier ++ [e] <+: events → Allowed (earlier.foldl step s) e := by
  refine prefixes_iff events start (fun earlier e begins held => ?_)
  rw [List.foldl_concat]
  exact kept earlier e begins held

/-- Every step of the run is allowed in the state before it. -/
def Along (step : S → E → S) (Allowed : S → E → Prop) : S → List E → Prop
  | _, [] => True
  | s, e :: rest => Allowed s e ∧ Along step Allowed (step s e) rest

instance Along.decidable {Allowed : S → E → Prop} [∀ s e, Decidable (Allowed s e)] :
    ∀ s (events : List E), Decidable (Along step Allowed s events)
  | _, [] => inferInstanceAs (Decidable True)
  | s, e :: rest =>
    have : Decidable (Along step Allowed (step s e) rest) := Along.decidable (step s e) rest
    inferInstanceAs (Decidable (Allowed s e ∧ Along step Allowed (step s e) rest))

/-- An invariant that allowed steps keep holds in every state of an allowed
run. -/
theorem Along.invariant {Allowed : S → E → Prop} {Inv : S → Prop} {s : S} {events : List E}
    (kept : ∀ s e, Inv s → Allowed s e → Inv (step s e)) (start : Inv s) (allowed : Along step Allowed s events) :
    ∀ earlier, earlier <+: events → Inv (earlier.foldl step s) := by
  induction events generalizing s with
  | nil =>
    intro earlier begins
    rw [List.prefix_nil.mp begins]
    exact start
  | cons e rest ih =>
    intro earlier begins
    cases earlier with
    | nil => exact start
    | cons first later =>
      obtain ⟨same, laterBegins⟩ := List.cons_prefix_cons.mp begins
      subst same
      exact ih (kept s first start allowed.1) allowed.2 later laterBegins

/-- The condition on the steps may be replaced by a weaker one, which may use that
the step belongs to the run. -/
theorem Along.imp_of_mem {Allowed Other : S → E → Prop} {s : S} {events : List E}
    (imp : ∀ s, ∀ e ∈ events, Allowed s e → Other s e) (allowed : Along step Allowed s events) :
    Along step Other s events := by
  induction events generalizing s with
  | nil => trivial
  | cons e rest ih =>
    exact ⟨imp s e List.mem_cons_self allowed.1,
      ih (fun s e member => imp s e (List.mem_cons_of_mem _ member)) allowed.2⟩

/-- When a step that is not allowed breaks the invariant for good, an allowed run
ends with the invariant and every other run ends broken. -/
theorem Along.or_broken {Allowed : S → E → Prop} {Inv Broken : S → Prop} {s : S} {events : List E}
    (kept : ∀ s e, Inv s → Allowed s e → Inv (step s e)) (breaks : ∀ s e, Inv s → ¬ Allowed s e → Broken (step s e))
    (stays : ∀ s e, Broken s → Broken (step s e)) (start : Inv s) :
    (Along step Allowed s events ∧ Inv (events.foldl step s)) ∨
      (¬ Along step Allowed s events ∧ Broken (events.foldl step s)) := by
  have forever : ∀ (later : List E) (t : S), Broken t → Broken (later.foldl step t) := by
    intro later
    induction later with
    | nil => exact fun t broken => broken
    | cons e rest ih => exact fun t broken => ih (step t e) (stays t e broken)
  induction events generalizing s with
  | nil => exact .inl ⟨trivial, start⟩
  | cons e rest ih =>
    by_cases allowed : Allowed s e
    · rcases ih (kept s e start allowed) with ⟨along, held⟩ | ⟨notAlong, broken⟩
      · exact .inl ⟨⟨allowed, along⟩, held⟩
      · exact .inr ⟨fun along => notAlong along.2, broken⟩
    · exact .inr ⟨fun along => allowed along.1, forever rest (step s e) (breaks s e start allowed)⟩

/-- Every step of the run is allowed in the state that the steps before it lead to. -/
theorem along_iff {Allowed : S → E → Prop} {s : S} {events : List E} :
    Along step Allowed s events ↔ ∀ earlier e, earlier ++ [e] <+: events → Allowed (earlier.foldl step s) e := by
  induction events generalizing s with
  | nil =>
    refine ⟨fun _ earlier e begins => ?_, fun _ => trivial⟩
    exact absurd (List.prefix_nil.mp begins) (by simp)
  | cons first rest ih =>
    constructor
    · rintro ⟨allowed, along⟩ earlier e begins
      cases earlier with
      | nil =>
        obtain ⟨same, -⟩ := List.cons_prefix_cons.mp begins
        rw [same]
        exact allowed
      | cons other earlier =>
        obtain ⟨same, later⟩ := List.cons_prefix_cons.mp begins
        rw [same]
        exact ih.mp along earlier e later
    · intro allowed
      refine ⟨allowed [] first (List.cons_prefix_cons.mpr ⟨rfl, List.nil_prefix⟩), ih.mpr (fun earlier e begins => ?_)⟩
      exact allowed (first :: earlier) e (List.cons_prefix_cons.mpr ⟨rfl, begins⟩)

/-- What the events of a run weigh, each in the state before it. -/
def count (step : S → E → S) (weight : S → E → Nat) : S → List E → Nat
  | _, [] => 0
  | s, e :: rest => weight s e + count step weight (step s e) rest

theorem count_append {weight : S → E → Nat} {s : S} (earlier later : List E) :
    count step weight s (earlier ++ later) =
      count step weight s earlier + count step weight (earlier.foldl step s) later := by
  induction earlier generalizing s with
  | nil => exact (Nat.zero_add _).symm
  | cons e rest ih => rw [List.cons_append, count, ih, count, List.foldl_cons, Nat.add_assoc]

theorem count_concat {weight : S → E → Nat} {s : S} (earlier : List E) (e : E) :
    count step weight s (earlier ++ [e]) = count step weight s earlier + weight (earlier.foldl step s) e :=
  count_append earlier [e]

/-- An invariant about the state and a count of what happened so far, along an
allowed run. -/
theorem Along.counted {Allowed : S → E → Prop} {weight : S → E → Nat} {Inv : Nat → S → Prop} {s : S}
    {events : List E} (kept : ∀ n s e, Inv n s → Allowed s e → Inv (n + weight s e) (step s e)) (start : Inv 0 s)
    (allowed : Along step Allowed s events) :
    ∀ earlier, earlier <+: events → Inv (count step weight s earlier) (earlier.foldl step s) := by
  intro earlier begins
  induction earlier using List.reverseRecOn with
  | nil => exact start
  | append_singleton before last ih =>
    rw [count_concat, List.foldl_concat]
    exact kept _ _ last (ih ((List.prefix_append before [last]).trans begins)) (along_iff.mp allowed before last begins)

/-- The events can happen one after the other, and lead from the first state to
the second. -/
def Reaches (step : S → E → Option S) : S → List E → S → Prop
  | s, [], t => s = t
  | s, e :: rest, t => ∃ next, step s e = some next ∧ Reaches step next rest t

section Partial
variable {step : S → E → Option S}

/-- A run that can be computed. -/
theorem Reaches.of_foldlM {s t : S} {events : List E} (ran : events.foldlM step s = some t) :
    Reaches step s events t := by
  induction events generalizing s with
  | nil => exact Option.some.inj ran
  | cons e rest ih =>
    rw [List.foldlM_cons] at ran
    obtain ⟨next, happened, remains⟩ := Option.bind_eq_some_iff.mp ran
    exact ⟨next, happened, ih remains⟩

theorem Reaches.append {s t u : S} {earlier later : List E} (first : Reaches step s earlier t)
    (second : Reaches step t later u) : Reaches step s (earlier ++ later) u := by
  induction earlier generalizing s with
  | nil =>
    have same : s = t := first
    rw [same]
    exact second
  | cons e rest ih =>
    obtain ⟨next, happened, remains⟩ := first
    exact ⟨next, happened, ih remains⟩

/-- An invariant about the state and a count of what happened so far. -/
theorem Reaches.counted {Inv : Nat → S → Prop} {weight : E → Nat} {count : Nat} {s t : S} {events : List E}
    (kept : ∀ count s e t, Inv count s → step s e = some t → Inv (count + weight e) t) (start : Inv count s)
    (run : Reaches step s events t) : Inv (count + (events.map weight).sum) t := by
  induction events generalizing s count with
  | nil =>
    have same : s = t := run
    rw [← same]
    exact start
  | cons e rest ih =>
    obtain ⟨next, happened, remains⟩ := run
    have ended := ih (kept count s e next start happened) remains
    rw [List.map_cons, List.sum_cons, ← Nat.add_assoc]
    exact ended

theorem Reaches.invariant {Inv : S → Prop} {s t : S} {events : List E}
    (kept : ∀ s e t, Inv s → step s e = some t → Inv t) (start : Inv s) (run : Reaches step s events t) : Inv t :=
  @Reaches.counted _ _ _ (fun _ => Inv) (fun _ => 0) 0 _ _ _ (fun _ => kept) start run

end Partial

end Runs
