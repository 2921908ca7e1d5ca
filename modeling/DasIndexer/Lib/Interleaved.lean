import DasIndexer.Lib.Latest

/-! Traces of programs that run beside each other, are cut off and start again. -/

namespace Interleaved
open Latest
variable {Step W V : Type} {Optional : Step → Prop} {programs : List (List Step)} {trace : List Step}

/-- Every step of a trace is a step of one of the programs, and all steps before it in
that program were taken earlier, except for those that a program may do without. -/
def Causal (Optional : Step → Prop) (programs : List (List Step)) (trace : List Step) : Prop :=
  ∀ before s after, trace = before ++ s :: after →
    ∃ program ∈ programs, ∃ earlier later, program = earlier ++ s :: later ∧
      ∀ t ∈ earlier, Optional t ∨ t ∈ before

/-- Every program ran to its end at least once. -/
def Complete (Optional : Step → Prop) (programs : List (List Step)) (trace : List Step) : Prop :=
  ∀ program ∈ programs, ∀ s ∈ program, Optional s ∨ s ∈ trace

theorem Causal.nil : Causal Optional programs [] := by
  intro before s after split
  have lengths := congrArg List.length split
  simp at lengths

theorem Causal.mem (causal : Causal Optional programs trace) {s : Step} (member : s ∈ trace) :
    ∃ program ∈ programs, s ∈ program := by
  obtain ⟨before, after, split⟩ := List.append_of_mem member
  obtain ⟨program, inPrograms, earlier, later, isSplit, -⟩ := causal before s after split
  exact ⟨program, inPrograms, by simp [isSplit]⟩

theorem Causal.mono (causal : Causal Optional programs trace) {more : List (List Step)}
    (included : ∀ program ∈ programs, program ∈ more) : Causal Optional more trace := by
  intro before s after split
  obtain ⟨program, inPrograms, rest⟩ := causal before s after split
  exact ⟨program, included program inPrograms, rest⟩

/-- A program that got through `done` takes its next step. -/
theorem Causal.step (causal : Causal Optional programs trace) {done rest : List Step} {s : Step}
    (member : done ++ s :: rest ∈ programs) (taken : ∀ t ∈ done, Optional t ∨ t ∈ trace) :
    Causal Optional programs (trace ++ [s]) := by
  intro before t after split
  rcases List.append_eq_append_iff.mp split with ⟨between, isBefore, isRest⟩ | ⟨between, isTrace, isRest⟩
  · cases between with
    | nil =>
      have same : s = t := (List.cons.inj isRest).1
      have sameTrace : before = trace := by simpa using isBefore
      subst same
      subst sameTrace
      exact ⟨_, member, done, rest, rfl, taken⟩
    | cons u more =>
      have lengths := congrArg List.length isRest
      simp at lengths
  · cases between with
    | nil =>
      have same : t = s := (List.cons.inj isRest).1
      have sameTrace : trace = before := by simpa using isTrace
      subst same
      subst sameTrace
      exact ⟨_, member, done, rest, rfl, taken⟩
    | cons u more =>
      have same : t = u := (List.cons.inj isRest).1
      subst same
      exact causal before t more isTrace

/-- A program takes several steps at once. -/
theorem Causal.steps (causal : Causal Optional programs trace) {done part rest : List Step}
    (member : done ++ (part ++ rest) ∈ programs) (taken : ∀ t ∈ done, Optional t ∨ t ∈ trace) :
    Causal Optional programs (trace ++ part) := by
  induction part generalizing done trace with
  | nil => rwa [List.append_nil]
  | cons s part ih =>
    have next := causal.step member taken
    have onward := @ih (trace ++ [s]) next (done ++ [s]) (by simpa using member) (fun t inDone => ?_)
    · simpa using onward
    · rcases List.mem_append.mp inDone with old | new
      · exact (taken t old).imp id (fun inTrace => List.mem_append_left [s] inTrace)
      · exact Or.inr (List.mem_append_right trace new)

theorem Complete.mono (complete : Complete Optional programs trace) {longer : List Step}
    (kept : ∀ s ∈ trace, s ∈ longer) : Complete Optional programs longer :=
  fun program inPrograms s member => (complete program inPrograms s member).imp id (kept s)

section Writes
variable {write : Step → Option W}

/-- A cell sees the same writes as if every program had run once. -/
theorem mem_writes_iff (causal : Causal Optional programs trace) (complete : Complete Optional programs trace)
    (needed : ∀ s, Optional s → write s = none) (w : W) :
    w ∈ trace.filterMap write ↔ w ∈ programs.flatten.filterMap write := by
  simp only [List.mem_filterMap, List.mem_flatten]
  constructor
  · rintro ⟨s, inTrace, written⟩
    exact ⟨s, causal.mem inTrace, written⟩
  · rintro ⟨s, ⟨program, inPrograms, member⟩, written⟩
    rcases complete program inPrograms s member with mayMiss | inTrace
    · rw [needed s mayMiss] at written
      cases written
    · exact ⟨s, inTrace, written⟩

variable [LinearOrder V] {ver : W → V}

/-- The first newest write in a trace is the first one of its program, however often
that program was cut off before. -/
theorem first_of_newest (causal : Causal Optional programs trace) (needed : ∀ s, Optional s → write s = none)
    (leveled : ∀ program ∈ programs, ∀ s ∈ program, ∀ t ∈ program, ∀ w x, write s = some w → write t = some x →
      ver w = ver x) {w : W} (newest : (trace.filterMap write).argmax ver = some w) :
    w ∈ programs.filterMap (fun program => (program.filterMap write).head?) := by
  have reversed : latest ver (trace.filterMap write).reverse = some w := by
    rw [latest, List.reverse_reverse]
    exact newest
  obtain ⟨post, pre, isReverse, -, older⟩ := (latest_eq_some_iff ver).mp reversed
  have isWrites : trace.filterMap write = pre.reverse ++ w :: post.reverse := by
    rw [← List.reverse_reverse (trace.filterMap write), isReverse]
    simp
  obtain ⟨before, rest, isTrace, isPre, isRest⟩ := List.filterMap_eq_append_iff.mp isWrites
  obtain ⟨silent, s, after, isSplit, noWrite, written, -⟩ := List.filterMap_eq_cons_iff.mp isRest
  obtain ⟨program, inPrograms, earlier, later, isProgram, taken⟩ :=
    causal (before ++ silent) s after (by rw [isTrace, isSplit, List.append_assoc])
  have inProgram : s ∈ program := by simp [isProgram]
  refine List.mem_filterMap.mpr ⟨program, inPrograms, ?_⟩
  cases firsts : earlier.filterMap write with
  | nil =>
    rw [isProgram, List.filterMap_append, firsts, List.nil_append, List.filterMap_cons_some written, List.head?_cons]
  | cons first more =>
    have isFirst : first ∈ earlier.filterMap write := by simp [firsts]
    obtain ⟨t, inEarlier, writtenFirst⟩ := List.mem_filterMap.mp isFirst
    have inProgram' : t ∈ program := by simp [isProgram, inEarlier]
    have sameLevel := leveled program inPrograms t inProgram' s inProgram first w writtenFirst written
    rcases taken t inEarlier with mayMiss | inBefore
    · rw [needed t mayMiss] at writtenFirst
      cases writtenFirst
    · rcases List.mem_append.mp inBefore with inBefore | inSilent
      · have inPre : first ∈ pre := by
          rw [← List.mem_reverse, ← isPre]
          exact List.mem_filterMap.mpr ⟨t, inBefore, writtenFirst⟩
        exact absurd sameLevel (older first inPre).ne
      · rw [noWrite t inSilent] at writtenFirst
        cases writtenFirst

/-- So a cell under `>` holds what it would hold if every program had run once. -/
theorem argmax_first (causal : Causal Optional programs trace) (complete : Complete Optional programs trace)
    (needed : ∀ s, Optional s → write s = none)
    (leveled : ∀ program ∈ programs, ∀ s ∈ program, ∀ t ∈ program, ∀ w x, write s = some w → write t = some x →
      ver w = ver x)
    (identifies : Identifies ver (programs.filterMap (fun program => (program.filterMap write).head?))) :
    (trace.filterMap write).argmax ver =
      (programs.filterMap (fun program => (program.filterMap write).head?)).argmax ver := by
  have inTrace : ∀ first ∈ programs.filterMap (fun program => (program.filterMap write).head?),
      first ∈ trace.filterMap write := by
    intro first member
    obtain ⟨program, inPrograms, isFirst⟩ := List.mem_filterMap.mp member
    obtain ⟨t, inProgram, written⟩ := List.mem_filterMap.mp (List.mem_of_mem_head? isFirst)
    exact (mem_writes_iff causal complete needed first).mpr
      (List.mem_filterMap.mpr ⟨t, List.mem_flatten.mpr ⟨program, inPrograms, inProgram⟩, written⟩)
  rw [argmax_eq_latest identifies]
  cases newest : (trace.filterMap write).argmax ver with
  | none =>
    have empty := List.argmax_eq_none.mp newest
    refine ((latest_eq_none ver).mpr (List.eq_nil_iff_forall_not_mem.mpr (fun first member => ?_))).symm
    have inEmpty := inTrace first member
    rw [empty] at inEmpty
    cases inEmpty
  | some w =>
    have isFirst := first_of_newest causal needed leveled newest
    refine (latest_eq_of_greatest identifies isFirst (fun first member => ?_)).symm
    exact List.le_of_mem_argmax (inTrace first member) newest

end Writes

end Interleaved
