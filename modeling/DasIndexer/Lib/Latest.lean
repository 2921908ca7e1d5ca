import Mathlib.Algebra.Order.Ring.Nat
import Mathlib.Data.List.MinMax

namespace Latest

section Newest
variable {W V : Type} [LinearOrder V] (ver : W → V)

/-- The newest write of a history of versioned writes, the last delivered one
among equals. This is what a cell that refuses older writes ends with. -/
def latest (history : List W) : Option W := history.reverse.argmax ver

/-- What a cell guarded by `>=` holds after one more write. -/
def newer : Option W → W → W
  | none, w => w
  | some c, w => if ver w < ver c then c else w

/-- What a cell guarded by `>` holds after one more write. -/
def strictlyNewer : Option W → W → W
  | none, w => w
  | some c, w => if ver c < ver w then w else c

@[simp] theorem latest_nil : latest ver [] = none := rfl

theorem newer_eq_ite (c : Option W) (w : W) :
    some (newer ver c w) = if (c.map ver).all (fun v => v ≤ ver w) then some w else c := by
  cases c with
  | none => rfl
  | some c =>
    by_cases older : ver w < ver c
    · simp [newer, older]
    · simp [newer, older, not_lt.mp older]

theorem strictlyNewer_eq_ite (c : Option W) (w : W) :
    some (strictlyNewer ver c w) = if (c.map ver).all (fun v => v < ver w) then some w else c := by
  cases c with
  | none => rfl
  | some c =>
    by_cases older : ver c < ver w
    · simp [strictlyNewer, older]
    · simp [strictlyNewer, older]

theorem latest_concat (history : List W) (w : W) :
    latest ver (history ++ [w]) = some (newer ver (latest ver history) w) := by
  rw [latest, List.reverse_append, List.reverse_singleton, List.singleton_append, List.argmax_cons]
  change _ = some (newer ver (history.reverse.argmax ver) w)
  cases history.reverse.argmax ver with
  | none => rfl
  | some c => exact (apply_ite some (ver w < ver c) c w).symm

theorem argmax_concat_strictlyNewer (history : List W) (w : W) :
    (history ++ [w]).argmax ver = some (strictlyNewer ver (history.argmax ver) w) := by
  rw [List.argmax_concat]
  cases history.argmax ver with
  | none => rfl
  | some c => exact (apply_ite some (ver c < ver w) w c).symm

theorem latest_mem {history : List W} {w : W} (newest : latest ver history = some w) : w ∈ history :=
  List.mem_reverse.mp (List.argmax_mem newest)

theorem le_latest {history : List W} {w x : W} (newest : latest ver history = some w)
    (member : x ∈ history) : ver x ≤ ver w :=
  List.le_of_mem_argmax (List.mem_reverse.mpr member) newest

theorem latest_eq_none {history : List W} : latest ver history = none ↔ history = [] := by
  rw [latest, List.argmax_eq_none, List.reverse_eq_nil_iff]

theorem latest_exists {history : List W} (nonempty : history ≠ []) :
    ∃ w, latest ver history = some w :=
  Option.ne_none_iff_exists'.mp (fun none => nonempty ((latest_eq_none ver).mp none))

theorem latest_map {U : Type} (f : U → W) (history : List U) :
    latest ver (history.map f) = (latest (fun x => ver (f x)) history).map f := by
  induction history using List.reverseRecOn with
  | nil => rfl
  | append_singleton earlier x ih =>
    rw [List.map_append, List.map_singleton, latest_concat, ih, latest_concat, Option.map_some]
    cases latest (fun x => ver (f x)) earlier with
    | none => rfl
    | some c => exact congrArg some (apply_ite f (ver (f x) < ver (f c)) c x).symm

/-- The newest write splits the history: nothing before it is newer, and
everything after it is older. -/
theorem latest_eq_some_iff {history : List W} {w : W} :
    latest ver history = some w ↔ ∃ before after, history = before ++ w :: after ∧
      (∀ x ∈ before, ver x ≤ ver w) ∧ ∀ x ∈ after, ver x < ver w := by
  induction history using List.reverseRecOn generalizing w with
  | nil => simp
  | append_singleton earlier x ih =>
    rw [latest_concat, Option.some.injEq]
    constructor
    · rintro rfl
      cases newest : latest ver earlier with
      | none =>
        rw [(latest_eq_none ver).mp newest]
        exact ⟨[], [], rfl, by simp, by simp⟩
      | some c =>
        by_cases older : ver x < ver c
        · obtain ⟨before, after, rfl, notNewer, strictlyOlder⟩ := ih.mp newest
          rw [newer, if_pos older]
          refine ⟨before, after ++ [x], by simp, notNewer, fun y member => ?_⟩
          rcases List.mem_append.mp member with inAfter | isLast
          · exact strictlyOlder y inAfter
          · rwa [List.mem_singleton.mp isLast]
        · rw [newer, if_neg older]
          refine ⟨earlier, [], rfl, fun y member => ?_, by simp⟩
          exact (le_latest ver newest member).trans (not_lt.mp older)
    · rintro ⟨before, after, split, notNewer, strictlyOlder⟩
      rcases List.eq_nil_or_concat' after with rfl | ⟨front, y, rfl⟩
      · obtain ⟨rfl, same⟩ := List.append_inj' split rfl
        cases same
        cases newest : latest ver earlier with
        | none => rfl
        | some c => rw [newer, if_neg (not_lt.mpr (notNewer c (latest_mem ver newest)))]
      · rw [← List.cons_append, ← List.append_assoc] at split
        obtain ⟨rfl, same⟩ := List.append_inj' split rfl
        cases same
        have newest : latest ver (before ++ w :: front) = some w :=
          ih.mpr ⟨before, front, rfl, notNewer, fun y member => strictlyOlder y (List.mem_append_left _ member)⟩
        rw [newest, newer, if_pos (strictlyOlder x (List.mem_append_right _ List.mem_cons_self))]

/-- A version names one write: the situation of a totally ordered event log. -/
def Identifies (history : List W) : Prop :=
  ∀ w ∈ history, ∀ x ∈ history, ver w = ver x → w = x

variable {ver}

theorem latest_eq_of_greatest {history : List W} (identifies : Identifies ver history) {w : W}
    (member : w ∈ history) (greatest : ∀ x ∈ history, ver x ≤ ver w) : latest ver history = some w := by
  obtain ⟨x, newest⟩ := latest_exists ver (List.ne_nil_of_mem member)
  have same : x = w := identifies x (latest_mem ver newest) w member
    (le_antisymm (greatest x (latest_mem ver newest)) (le_latest ver newest member))
  rw [newest, same]

theorem argmax_eq_latest {history : List W} (identifies : Identifies ver history) :
    history.argmax ver = latest ver history := by
  cases newest : history.argmax ver with
  | none =>
    rw [List.argmax_eq_none.mp newest]
    rfl
  | some w =>
    exact (latest_eq_of_greatest identifies (List.argmax_mem newest)
      (fun x member => List.le_of_mem_argmax member newest)).symm

/-- The newest write depends on the set of delivered writes only. -/
theorem latest_congr {history other : List W} (identifies : Identifies ver history)
    (same : ∀ w, w ∈ history ↔ w ∈ other) : latest ver history = latest ver other := by
  cases newest : latest ver history with
  | none =>
    have empty := (latest_eq_none ver).mp newest
    subst empty
    have absent : other = [] := List.eq_nil_iff_forall_not_mem.mpr (fun w member => by
      simpa using (same w).mpr member)
    rw [absent]
    rfl
  | some w =>
    have identifiesOther : Identifies ver other := fun x hx y hy =>
      identifies x ((same x).mpr hx) y ((same y).mpr hy)
    exact (latest_eq_of_greatest identifiesOther ((same w).mp (latest_mem ver newest))
      (fun x member => le_latest ver newest ((same x).mpr member))).symm

end Newest

section Runs
variable {S E W C : Type} {step : S → E → S}

/-- The invariant rule of a run. -/
theorem foldl_invariant (Inv : S → Prop) {Good : E → Prop}
    (keep : ∀ s e, Good e → Inv s → Inv (step s e)) (events : List E) (good : ∀ e ∈ events, Good e)
    {s : S} (start : Inv s) : Inv (events.foldl step s) := by
  induction events generalizing s with
  | nil => exact start
  | cons e rest ih =>
    exact ih (fun x member => good x (List.mem_cons_of_mem _ member))
      (keep s e (good e List.mem_cons_self) start)

/-- A cell that every event either leaves alone or overwrites by `merge` is
determined by the writes of the run alone. `Inv` may be any property that the
events keep, and a stored write always comes from an admissible event. -/
theorem foldl_cell {Inv : S → Prop} {Good : E → Prop} {cell : S → C} {write : E → Option W}
    {render : Option W → C} {merge : Option W → W → W}
    (origin : ∀ c w, merge c w = w ∨ c = some (merge c w))
    (keep : ∀ s e, Good e → Inv s → Inv (step s e))
    (skip : ∀ s e c, Good e → Inv s → write e = none → cell s = render c → cell (step s e) = render c)
    (put : ∀ s e c w, Good e → Inv s → write e = some w →
      (∀ x, c = some x → ∃ e', Good e' ∧ write e' = some x) →
      cell s = render c → cell (step s e) = render (some (merge c w)))
    (events : List E) (good : ∀ e ∈ events, Good e) {s : S} (start : Inv s)
    (fresh : cell s = render none) :
    cell (events.foldl step s) =
      render ((events.filterMap write).foldl (fun c w => some (merge c w)) none) := by
  suffices general : ∀ (events : List E) (s : S) (c : Option W), (∀ e ∈ events, Good e) → Inv s →
      (∀ x, c = some x → ∃ e', Good e' ∧ write e' = some x) → cell s = render c →
      cell (events.foldl step s) =
        render ((events.filterMap write).foldl (fun c w => some (merge c w)) c) from
    general events s none good start (by simp) fresh
  intro events
  induction events with
  | nil => intro s c _ _ _ held; exact held
  | cons e rest ih =>
    intro s c good inv known held
    have goodE := good e List.mem_cons_self
    have goodRest : ∀ x ∈ rest, Good x := fun x member => good x (List.mem_cons_of_mem _ member)
    cases written : write e with
    | none =>
      rw [List.foldl_cons, List.filterMap_cons_none written]
      exact ih _ c goodRest (keep s e goodE inv) known (skip s e c goodE inv written held)
    | some w =>
      rw [List.foldl_cons, List.filterMap_cons_some written, List.foldl_cons]
      refine ih _ _ goodRest (keep s e goodE inv) ?_ (put s e c w goodE inv written known held)
      intro x stored
      cases Option.some.inj stored
      rcases origin c w with new | old
      · exact ⟨e, goodE, by rw [new]; exact written⟩
      · exact known _ old

variable {V : Type} [LinearOrder V] (ver : W → V)

theorem newer_origin (c : Option W) (w : W) : newer ver c w = w ∨ c = some (newer ver c w) := by
  cases c with
  | none => exact Or.inl rfl
  | some c =>
    by_cases older : ver w < ver c
    · exact Or.inr (by simp [newer, older])
    · exact Or.inl (by simp [newer, older])

theorem strictlyNewer_origin (c : Option W) (w : W) :
    strictlyNewer ver c w = w ∨ c = some (strictlyNewer ver c w) := by
  cases c with
  | none => exact Or.inl rfl
  | some c =>
    by_cases older : ver c < ver w
    · exact Or.inl (by simp [strictlyNewer, older])
    · exact Or.inr (by simp [strictlyNewer, older])

theorem foldl_newer (history : List W) :
    history.foldl (fun c w => some (newer ver c w)) none = latest ver history := by
  induction history using List.reverseRecOn with
  | nil => rfl
  | append_singleton earlier w ih =>
    rw [List.foldl_append, ih, latest_concat]
    rfl

theorem foldl_strictlyNewer (history : List W) :
    history.foldl (fun c w => some (strictlyNewer ver c w)) none = history.argmax ver := by
  induction history using List.reverseRecOn with
  | nil => rfl
  | append_singleton earlier w ih =>
    rw [List.foldl_append, ih, argmax_concat_strictlyNewer]
    rfl

section Cells
variable {Inv : S → Prop} {Good : E → Prop} {write : E → Option W} (cell : S → C) (render : Option W → C)
  (keep : ∀ s e, Good e → Inv s → Inv (step s e))
  (skip : ∀ s e c, Good e → Inv s → write e = none → cell s = render c → cell (step s e) = render c)
  {events : List E} (good : ∀ e ∈ events, Good e) {s : S} (start : Inv s) (fresh : cell s = render none)
include keep skip good start fresh

/-- A cell guarded by `>=` holds the newest write of a run. -/
theorem foldl_latest
    (put : ∀ s e c w, Good e → Inv s → write e = some w →
      (∀ x, c = some x → ∃ e', Good e' ∧ write e' = some x) →
      cell s = render c → cell (step s e) = render (some (newer ver c w))) :
    cell (events.foldl step s) = render (latest ver (events.filterMap write)) := by
  rw [foldl_cell (newer_origin ver) keep skip put events good start fresh, foldl_newer]

/-- A cell guarded by `>` holds the first newest write of a run. -/
theorem foldl_argmax
    (put : ∀ s e c w, Good e → Inv s → write e = some w →
      (∀ x, c = some x → ∃ e', Good e' ∧ write e' = some x) →
      cell s = render c → cell (step s e) = render (some (strictlyNewer ver c w))) :
    cell (events.foldl step s) = render ((events.filterMap write).argmax ver) := by
  rw [foldl_cell (strictlyNewer_origin ver) keep skip put events good start fresh, foldl_strictlyNewer]

end Cells

/-- Writes that come in blocks of one version each: only the first write of a
block can survive the strict guard. -/
theorem argmax_flatMap {f : E → List W} {level : E → V} (events : List E)
    (leveled : ∀ e ∈ events, ∀ w ∈ f e, ver w = level e) :
    (events.flatMap f).argmax ver = (events.filterMap (fun e => (f e).head?)).argmax ver := by
  have block : ∀ (rest : List W) (c : Option W) (w : W), (∀ x ∈ rest, ver x = ver w) →
      rest.foldl (fun c w => some (strictlyNewer ver c w)) (some (strictlyNewer ver c w)) =
        some (strictlyNewer ver c w) := by
    intro rest c w sameLevel
    have above : ver w ≤ ver (strictlyNewer ver c w) := by
      cases c with
      | none => exact le_rfl
      | some x =>
        by_cases older : ver x < ver w
        · simp [strictlyNewer, older]
        · simp [strictlyNewer, older, not_lt.mp older]
    induction rest with
    | nil => rfl
    | cons x rest ih =>
      have refused : strictlyNewer ver (some (strictlyNewer ver c w)) x = strictlyNewer ver c w := by
        rw [strictlyNewer, if_neg (not_lt.mpr ((sameLevel x List.mem_cons_self).trans_le above))]
      rw [List.foldl_cons, refused]
      exact ih (fun y member => sameLevel y (List.mem_cons_of_mem _ member))
  rw [← foldl_strictlyNewer, ← foldl_strictlyNewer]
  generalize (none : Option W) = c
  induction events generalizing c with
  | nil => rfl
  | cons e rest ih =>
    have others := ih (fun x member => leveled x (List.mem_cons_of_mem _ member))
    have here := leveled e List.mem_cons_self
    rw [List.flatMap_cons, List.foldl_append, others]
    cases items : f e with
    | nil => rw [List.filterMap_cons_none (by rw [items]; rfl)]; rfl
    | cons w later =>
      rw [items] at here
      have sameLevel : ∀ x ∈ later, ver x = ver w := fun x member =>
        (here x (List.mem_cons_of_mem _ member)).trans (here w List.mem_cons_self).symm
      rw [List.filterMap_cons_some (by rw [items]; rfl), List.foldl_cons, List.foldl_cons, block later c w sameLevel]

end Runs

end Latest
