import DasIndexer.Lib.Runs
import Mathlib.Algebra.BigOperators.Group.Finset.Basic
import Mathlib.Algebra.Order.BigOperators.Group.Finset
import Mathlib.Data.Multiset.Bind
import Mathlib.Tactic.Abel

/-! Managers in a row, each with a bounded channel in front of it and a bounded set of
workers, whose outputs go into the channel of the next one. -/

namespace Pipeline
open Finset

/-- The managers are numbered from 0; the channel behind the last one has no bound. -/
structure Config (Item : Type) where
  stages : Nat
  capacity : Nat → Nat
  limit : Nat → Nat
  outputs : Nat → Item → List Item

/-- A manager holds an item while it waits for a free worker. Workers that are done stay with
their manager until it takes notice of them. A channel is closed when nobody sends to it
any more. -/
structure State (Item : Type) where
  channel : Nat → List Item
  held : Nat → Option Item
  workers : Nat → List (List Item)
  closed : Nat → Bool

inductive Action where
  | recv (stage : Nat)
  /-- A worker starts, at the limit in the place of one that is done. -/
  | spawn (stage worker : Nat)
  | send (stage worker : Nat)
  | close (stage : Nat)

/-- The action moves an item. -/
def Action.moves : Action → Bool
  | close _ => false
  | _ => true

section Steps
variable {Item : Type} (config : Config Item)

/-- The manager has nothing left to do, and none of its workers. -/
def State.finished (s : State Item) (k : Nat) : Bool :=
  s.closed k && (s.channel k).isEmpty && (s.held k).isNone && (s.workers k).all List.isEmpty

def State.start (source : List Item) : State Item where
  channel := Function.update (fun _ => []) 0 source
  held _ := none
  workers _ := []
  closed := Function.update (fun _ => false) 0 true

/-- What an action does, unless it has to wait. -/
def step (s : State Item) : Action → Option (State Item)
  | .recv k => match s.channel k, s.held k with
    | item :: rest, none =>
      if k < config.stages then
        some { s with channel := Function.update s.channel k rest, held := Function.update s.held k (some item) }
      else none
    | _, _ => none
  | .spawn k j => match s.held k with
    | some item =>
      if k < config.stages then
        if (s.workers k).length < config.limit k ∨ s.workers k = [] then some
          { s with
            held := Function.update s.held k none
            workers := Function.update s.workers k (s.workers k ++ [config.outputs k item]) }
        else if ((s.workers k)[j]?).any List.isEmpty then some
          { s with
            held := Function.update s.held k none
            workers := Function.update s.workers k ((s.workers k).eraseIdx j ++ [config.outputs k item]) }
        else none
      else none
    | none => none
  | .send k j => match (s.workers k)[j]? with
    | some (item :: rest) =>
      if k < config.stages ∧ (k + 1 = config.stages ∨ (s.channel (k + 1)).length < config.capacity (k + 1)) then some
        { s with
          channel := Function.update s.channel (k + 1) (s.channel (k + 1) ++ [item])
          workers := Function.update s.workers k ((s.workers k).set j rest) }
      else none
    | _ => none
  | .close k =>
    if k < config.stages ∧ s.finished k = true ∧ s.closed (k + 1) = false then
      some { s with closed := Function.update s.closed (k + 1) true }
    else none

/-- What an action does, by cases. -/
inductive Stepped (s : State Item) : Action → State Item → Prop
  | recv {k : Nat} {item : Item} {rest : List Item} (inside : k < config.stages) (front : s.channel k = item :: rest)
      (free : s.held k = none) : Stepped s (.recv k)
        { s with channel := Function.update s.channel k rest, held := Function.update s.held k (some item) }
  | spawn {k j : Nat} {item : Item} {left : List (List Item)} (inside : k < config.stages) (waits : s.held k = some item)
      (room : left = s.workers k ∧ left.length < max 1 (config.limit k) ∨
        (s.workers k)[j]? = some [] ∧ left = (s.workers k).eraseIdx j) : Stepped s (.spawn k j)
        { s with
          held := Function.update s.held k none
          workers := Function.update s.workers k (left ++ [config.outputs k item]) }
  | send {k j : Nat} {item : Item} {rest : List Item} (inside : k < config.stages)
      (next : (s.workers k)[j]? = some (item :: rest))
      (room : k + 1 = config.stages ∨ (s.channel (k + 1)).length < config.capacity (k + 1)) : Stepped s (.send k j)
        { s with
          channel := Function.update s.channel (k + 1) (s.channel (k + 1) ++ [item])
          workers := Function.update s.workers k ((s.workers k).set j rest) }
  | close {k : Nat} (inside : k < config.stages) (finished : s.finished k = true) (wasOpen : s.closed (k + 1) = false) :
      Stepped s (.close k) { s with closed := Function.update s.closed (k + 1) true }

variable {config}

theorem stepped {s t : State Item} {action : Action} (happened : step config s action = some t) :
    Stepped config s action t := by
  cases action with
  | recv k =>
    rw [step] at happened
    split at happened
    · next item rest front free =>
      split at happened
      · next inside =>
        cases happened
        exact .recv inside front free
      · cases happened
    · cases happened
  | spawn k j =>
    rw [step] at happened
    split at happened
    · next item waits =>
      split at happened
      · next inside =>
        split at happened
        · next room =>
          cases happened
          refine .spawn inside waits (.inl ⟨rfl, ?_⟩)
          rcases room with room | noWorkers
          · omega
          · rw [noWorkers, List.length_nil]
            omega
        · split at happened
          · next isDone =>
            cases happened
            obtain ⟨outputs, found, noneLeft⟩ := (Option.any_eq_true _ _).mp isDone
            rw [List.isEmpty_iff.mp noneLeft] at found
            exact .spawn inside waits (.inr ⟨found, rfl⟩)
          · cases happened
      · cases happened
    · cases happened
  | send k j =>
    rw [step] at happened
    split at happened
    · next item rest next =>
      split at happened
      · next room =>
        cases happened
        exact .send room.1 next room.2
      · cases happened
    · cases happened
  | close k =>
    rw [step] at happened
    split at happened
    · next ready =>
      cases happened
      exact .close ready.1 ready.2.1 ready.2.2
    · cases happened

end Steps

section Weights
variable {Item M : Type} [AddCommMonoid M]

/-- What an item weighs in front of a manager, in its hands and as an output of a worker. -/
structure Weight (Item M : Type) where
  channel : Nat → Item → M
  held : Nat → Item → M
  output : Nat → Item → M

namespace Weight
variable (w : Weight Item M)

def ofChannel (k : Nat) (items : List Item) : M := (items.map (w.channel k)).sum

def ofHeld (k : Nat) : Option Item → M
  | some item => w.held k item
  | none => 0

def ofOutputs (k : Nat) (items : List Item) : M := (items.map (w.output k)).sum

def ofWorkers (k : Nat) (workers : List (List Item)) : M := (workers.map (w.ofOutputs k)).sum

/-- The weight of everything in the pipeline. -/
def total (stages : Nat) (s : State Item) : M :=
  ∑ k ∈ range (stages + 1), w.ofChannel k (s.channel k) + ∑ k ∈ range stages, w.ofHeld k (s.held k) +
    ∑ k ∈ range stages, w.ofWorkers k (s.workers k)

/-- An item loses a unit of its weight whenever it is moved. -/
structure Balanced (config : Config Item) (unit : M) : Prop where
  recv : ∀ k < config.stages, ∀ item, w.channel k item = w.held k item + unit
  spawn : ∀ k < config.stages, ∀ item, w.held k item = w.ofOutputs k (config.outputs k item) + unit
  send : ∀ k < config.stages, ∀ item, w.output k item = w.channel (k + 1) item + unit

end Weight

/-- One value of a sum is replaced. -/
theorem sum_update {n k : Nat} (inside : k < n) {V : Type} (value : Nat → V → M) (f : Nat → V) (v : V) :
    ∑ i ∈ range n, value i (Function.update f k v i) + value k (f k) = ∑ i ∈ range n, value i (f i) + value k v := by
  have member : k ∈ range n := mem_range.mpr inside
  have others : ∑ i ∈ (range n).erase k, value i (Function.update f k v i) =
      ∑ i ∈ (range n).erase k, value i (f i) := by
    refine sum_congr rfl (fun i inErased => ?_)
    rw [Function.update_of_ne (ne_of_mem_erase inErased)]
  rw [← sum_erase_add _ _ member, ← sum_erase_add (range n) (fun i => value i (f i)) member, others,
    Function.update_self, add_assoc, add_assoc, add_comm (value k v)]

/-- One list of a list of lists is replaced. -/
theorem ofWorkers_set (w : Weight Item M) {k j : Nat} {workers : List (List Item)} {item : Item} {rest : List Item}
    (next : workers[j]? = some (item :: rest)) :
    w.ofWorkers k workers = w.ofWorkers k (workers.set j rest) + w.output k item := by
  induction workers generalizing j with
  | nil => cases next
  | cons first others ih =>
    cases j with
    | zero =>
      cases next
      simp only [Weight.ofWorkers, Weight.ofOutputs, List.set_cons_zero, List.map_cons, List.sum_cons]
      rw [add_assoc, add_comm]
    | succ j =>
      have tail := ih next
      simp only [Weight.ofWorkers, List.set_cons_succ, List.map_cons, List.sum_cons] at tail ⊢
      rw [tail, add_assoc]

/-- A worker that is done weighs nothing. -/
theorem ofWorkers_eraseIdx (w : Weight Item M) {k j : Nat} {workers : List (List Item)}
    (isDone : workers[j]? = some []) : w.ofWorkers k (workers.eraseIdx j) = w.ofWorkers k workers := by
  induction workers generalizing j with
  | nil => cases isDone
  | cons first others ih =>
    cases j with
    | zero =>
      cases isDone
      simp [Weight.ofWorkers, Weight.ofOutputs]
    | succ j =>
      have tail := ih isDone
      simp only [Weight.ofWorkers, List.eraseIdx_cons_succ, List.map_cons, List.sum_cons] at tail ⊢
      rw [tail]

theorem ofWorkers_concat (w : Weight Item M) (k : Nat) (workers : List (List Item)) (outputs : List Item) :
    w.ofWorkers k (workers ++ [outputs]) = w.ofWorkers k workers + w.ofOutputs k outputs := by
  simp [Weight.ofWorkers]

theorem total_start (w : Weight Item M) (stages : Nat) (source : List Item) :
    w.total stages (State.start source) = w.ofChannel 0 source := by
  have channels : ∑ k ∈ range (stages + 1), w.ofChannel k ((State.start source).channel k) = w.ofChannel 0 source := by
    rw [sum_eq_single_of_mem 0 (mem_range.mpr (Nat.succ_pos _))]
    · rfl
    · intro k _ other
      have unfilled : (State.start source).channel k = [] := by simp [State.start, other]
      rw [unfilled]
      rfl
  rw [Weight.total, channels]
  simp [State.start, Weight.ofHeld, Weight.ofWorkers]

end Weights

section Conservation
variable {Item M : Type} [AddCancelCommMonoid M] {config : Config Item} {w : Weight Item M} {s t : State Item}
  {unit : M}

theorem channel_taken (w : Weight Item M) {n k : Nat} {item : Item} {rest : List Item} (inside : k < n)
    (front : s.channel k = item :: rest) : ∑ i ∈ range n, w.ofChannel i (s.channel i) =
      ∑ i ∈ range n, w.ofChannel i (Function.update s.channel k rest i) + w.channel k item := by
  have changed := sum_update inside w.ofChannel s.channel rest
  have weight : w.ofChannel k (s.channel k) = w.channel k item + w.ofChannel k rest := by
    rw [front, Weight.ofChannel, List.map_cons, List.sum_cons, ← Weight.ofChannel]
  rw [weight, ← add_assoc] at changed
  exact (add_right_cancel changed).symm

theorem channel_sent (w : Weight Item M) (s : State Item) {n k : Nat} (item : Item) (inside : k < n) :
    ∑ i ∈ range n, w.ofChannel i (Function.update s.channel k (s.channel k ++ [item]) i) =
      ∑ i ∈ range n, w.ofChannel i (s.channel i) + w.channel k item := by
  have changed := sum_update inside w.ofChannel s.channel (s.channel k ++ [item])
  have weight : w.ofChannel k (s.channel k ++ [item]) = w.channel k item + w.ofChannel k (s.channel k) := by
    simp [Weight.ofChannel, add_comm]
  rw [weight, ← add_assoc] at changed
  exact add_right_cancel changed

theorem held_taken (w : Weight Item M) {n k : Nat} {item : Item} (inside : k < n) (waits : s.held k = some item) :
    ∑ i ∈ range n, w.ofHeld i (s.held i) =
      ∑ i ∈ range n, w.ofHeld i (Function.update s.held k none i) + w.held k item := by
  have changed := sum_update inside w.ofHeld s.held none
  rw [waits, Weight.ofHeld, Weight.ofHeld, add_zero] at changed
  exact changed.symm

theorem held_put (w : Weight Item M) {n k : Nat} (item : Item) (inside : k < n) (free : s.held k = none) :
    ∑ i ∈ range n, w.ofHeld i (Function.update s.held k (some item) i) =
      ∑ i ∈ range n, w.ofHeld i (s.held i) + w.held k item := by
  have changed := sum_update inside w.ofHeld s.held (some item)
  rw [free, Weight.ofHeld, Weight.ofHeld, add_zero] at changed
  exact changed

theorem workers_changed (w : Weight Item M) {n k : Nat} (before after : M) {workers : List (List Item)} (inside : k < n)
    (weight : w.ofWorkers k (s.workers k) + after = w.ofWorkers k workers + before) :
    ∑ i ∈ range n, w.ofWorkers i (s.workers i) + after =
      ∑ i ∈ range n, w.ofWorkers i (Function.update s.workers k workers i) + before := by
  have changed := sum_update inside w.ofWorkers s.workers workers
  have both : ∑ i ∈ range n, w.ofWorkers i (s.workers i) + after + w.ofWorkers k workers =
      ∑ i ∈ range n, w.ofWorkers i (Function.update s.workers k workers i) + before + w.ofWorkers k workers := by
    rw [add_right_comm, ← changed, add_assoc, weight]
    abel
  exact add_right_cancel both

/-- Every action but a close takes a unit. -/
theorem total_step (balanced : w.Balanced config unit) {action : Action} (stepped : Stepped config s action t) :
    w.total config.stages s = w.total config.stages t + if action.moves then unit else 0 := by
  cases stepped with
  | @recv k item rest inside front free =>
    have channels := channel_taken w (Nat.lt_succ_of_lt inside) front
    have helds := held_put w item inside free
    simp only [Weight.total, Action.moves, if_true]
    rw [channels, helds, balanced.recv k inside]
    abel
  | @spawn k j item left inside waits room =>
    have helds := held_taken w inside waits
    have same : w.ofWorkers k left = w.ofWorkers k (s.workers k) := by
      rcases room with ⟨unchanged, -⟩ | ⟨isDone, erased⟩
      · rw [unchanged]
      · rw [erased, ofWorkers_eraseIdx w isDone]
    have weight : w.ofWorkers k (s.workers k) + w.ofOutputs k (config.outputs k item) =
        w.ofWorkers k (left ++ [config.outputs k item]) + 0 := by
      rw [ofWorkers_concat, same, add_zero]
    have workers := workers_changed w 0 (w.ofOutputs k (config.outputs k item)) inside weight
    simp only [Weight.total, Action.moves, if_true]
    rw [add_zero] at workers
    rw [helds, ← workers, balanced.spawn k inside]
    abel
  | @send k j item rest inside next room =>
    have channels := channel_sent w s item (show k + 1 < config.stages + 1 by omega)
    have weight : w.ofWorkers k (s.workers k) + 0 = w.ofWorkers k ((s.workers k).set j rest) + w.output k item := by
      rw [add_zero, ofWorkers_set w next]
    have workers := workers_changed w (w.output k item) 0 inside weight
    simp only [Weight.total, Action.moves, if_true]
    rw [add_zero] at workers
    rw [channels, workers, balanced.send k inside]
    abel
  | close inside finished wasOpen =>
    simp [Weight.total, Action.moves]

end Conservation

section Worth
variable {Item M : Type} [AddCommMonoid M] (config : Config Item) (leaf : Item → M) (unit : M)

/-- What an item in front of a manager is worth: what its outputs are worth further on, and
the moves that it takes to get them there. -/
def worth : Nat → Nat → Item → M
  | 0, _, item => leaf item
  | depth + 1, k, item => ((config.outputs k item).map (fun y => worth depth (k + 1) y + unit)).sum + unit + unit

def Weight.ofWorth : Weight Item M where
  channel k item := worth config leaf unit (config.stages - k) k item
  held k item := ((config.outputs k item).map (fun y => worth config leaf unit (config.stages - (k + 1)) (k + 1) y + unit)).sum +
    unit
  output k item := worth config leaf unit (config.stages - (k + 1)) (k + 1) item + unit

theorem ofWorth_balanced : (Weight.ofWorth config leaf unit).Balanced config unit where
  recv k inside item := by
    have deeper : config.stages - k = config.stages - (k + 1) + 1 := by omega
    simp only [Weight.ofWorth, deeper, worth]
  spawn k _ item := rfl
  send k _ item := rfl

/-- The moves of the items in front of a manager, by those of their outputs. -/
theorem sum_worth (depth k : Nat) (items : List Item) :
    (items.map (worth config (fun _ => 0) 1 (depth + 1) k)).sum =
      2 * items.length + (items.flatMap (config.outputs k)).length +
        ((items.flatMap (config.outputs k)).map (worth config (fun _ => 0) 1 depth (k + 1))).sum := by
  have ofOutputs : ∀ outputs : List Item, (outputs.map (fun y => worth config (fun _ => 0) 1 depth (k + 1) y + 1)).sum =
      (outputs.map (worth config (fun _ => 0) 1 depth (k + 1))).sum + outputs.length := by
    intro outputs
    rw [List.sum_map_add]
    simp
  induction items with
  | nil => rfl
  | cons first rest ih =>
    rw [List.map_cons, List.sum_cons, ih, worth, ofOutputs, List.flatMap_cons, List.map_append, List.sum_append,
      List.length_append, List.length_cons]
    omega

/-- The items behind the last manager that come of an item in front of one. -/
def leaves : Nat → Nat → Item → List Item
  | 0, _, item => [item]
  | depth + 1, k, item => (config.outputs k item).flatMap (leaves depth (k + 1))

theorem flatMap_leaves (depth k : Nat) (items : List Item) : items.flatMap (leaves config (depth + 1) k) =
    (items.flatMap (config.outputs k)).flatMap (leaves config depth (k + 1)) := List.flatMap_assoc.symm

theorem worth_leaves (depth k : Nat) (item : Item) :
    worth config (fun item => ({item} : Multiset Item)) 0 depth k item = leaves config depth k item := by
  induction depth generalizing k item with
  | zero => rfl
  | succ depth ih =>
    simp only [worth, leaves, add_zero, ih]
    induction config.outputs k item with
    | nil => rfl
    | cons first rest tail => rw [List.map_cons, List.sum_cons, tail, List.flatMap_cons, ← Multiset.coe_add]

theorem sum_worth_leaves (depth k : Nat) (items : List Item) :
    (items.map (worth config (fun item => ({item} : Multiset Item)) 0 depth k)).sum =
      (items.flatMap (leaves config depth k) : List Item) := by
  induction items with
  | nil => rfl
  | cons first rest tail =>
    rw [List.map_cons, List.sum_cons, tail, worth_leaves, List.flatMap_cons, ← Multiset.coe_add]

end Worth

section Reached
variable {Item : Type} {config : Config Item} {s t : State Item} {action : Action}

theorem finished_iff {k : Nat} : s.finished k = true ↔
    s.closed k = true ∧ s.channel k = [] ∧ s.held k = none ∧ ∀ outputs ∈ s.workers k, outputs = [] := by
  simp [State.finished, and_assoc]

/-- What holds in every state that a run reaches. -/
structure Sound (config : Config Item) (s : State Item) : Prop where
  source : s.closed 0 = true
  ordered : ∀ k < config.stages, s.closed (k + 1) = true → s.finished k = true
  channels : ∀ k, 0 < k → k < config.stages → (s.channel k).length ≤ config.capacity k
  workers : ∀ k, (s.workers k).length ≤ max 1 (config.limit k)

theorem start_sound (source : List Item) : Sound config (State.start source) where
  source := by simp [State.start]
  ordered k _ closed := by
    simp [State.start] at closed
  channels k positive _ := by
    have other : k ≠ 0 := by omega
    simp [State.start, other]
  workers k := Nat.zero_le _

/-- A manager that has finished stays so. -/
theorem Sound.finished_step (sound : Sound config s) (stepped : Stepped config s action t) {k : Nat}
    (finished : s.finished k = true) : t.finished k = true := by
  obtain ⟨closed, noneWaiting, noneHeld, allDone⟩ := finished_iff.mp finished
  cases stepped with
  | @recv i item rest within front free =>
    have other : k ≠ i := by
      intro same
      rw [← same, noneWaiting] at front
      cases front
    refine finished_iff.mpr ⟨closed, ?_, ?_, allDone⟩
    · dsimp only
      rw [Function.update_of_ne other, noneWaiting]
    · dsimp only
      rw [Function.update_of_ne other, noneHeld]
  | @spawn i j item left within waits room =>
    have other : k ≠ i := by
      intro same
      rw [← same, noneHeld] at waits
      cases waits
    refine finished_iff.mpr ⟨closed, noneWaiting, ?_, ?_⟩
    · dsimp only
      rw [Function.update_of_ne other, noneHeld]
    · dsimp only
      rw [Function.update_of_ne other]
      exact allDone
  | @send i j item rest within next room =>
    have busy : s.finished i ≠ true := by
      intro idle
      cases (finished_iff.mp idle).2.2.2 _ (List.mem_of_getElem? next)
    have other : k ≠ i := fun same => busy (same ▸ finished)
    have notNext : k ≠ i + 1 := by
      intro same
      rw [same] at closed
      exact busy (sound.ordered i within closed)
    refine finished_iff.mpr ⟨closed, ?_, noneHeld, ?_⟩
    · dsimp only
      rw [Function.update_of_ne notNext, noneWaiting]
    · dsimp only
      rw [Function.update_of_ne other]
      exact allDone
  | @close i within done wasOpen =>
    refine finished_iff.mpr ⟨?_, noneWaiting, noneHeld, allDone⟩
    by_cases same : k = i + 1
    · dsimp only
      rw [same, Function.update_self]
    · dsimp only
      rw [Function.update_of_ne same, closed]

theorem sound_step (sound : Sound config s) (stepped : Stepped config s action t) : Sound config t where
  source := by
    cases stepped with
    | recv => exact sound.source
    | spawn => exact sound.source
    | send => exact sound.source
    | close =>
      dsimp only
      rw [Function.update_of_ne (Nat.succ_ne_zero _).symm, sound.source]
  ordered k inside closed := by
    have kept : s.finished k = true → t.finished k = true := fun finished => sound.finished_step stepped finished
    cases stepped with
    | recv => exact kept (sound.ordered k inside closed)
    | spawn => exact kept (sound.ordered k inside closed)
    | send => exact kept (sound.ordered k inside closed)
    | @close i within done wasOpen =>
      by_cases same : k = i
      · rw [same] at kept ⊢
        exact kept done
      · dsimp only at closed
        rw [Function.update_of_ne (by omega)] at closed
        exact kept (sound.ordered k inside closed)
  channels k positive inside := by
    have bound := sound.channels k positive inside
    cases stepped with
    | @recv i item rest within front free =>
      by_cases same : k = i
      · rw [same] at bound ⊢
        rw [front, List.length_cons] at bound
        dsimp only
        rw [Function.update_self]
        omega
      · dsimp only
        rw [Function.update_of_ne same]
        exact bound
    | spawn => exact bound
    | @send i j item rest within next room =>
      by_cases same : k = i + 1
      · rw [same] at inside ⊢
        dsimp only
        rw [Function.update_self, List.length_append, List.length_singleton]
        rcases room with isLast | room <;> omega
      · dsimp only
        rw [Function.update_of_ne same]
        exact bound
    | close => exact bound
  workers k := by
    have bound := sound.workers k
    cases stepped with
    | recv => exact bound
    | @spawn i j item left within waits room =>
      by_cases same : k = i
      · rw [same] at bound ⊢
        dsimp only
        rw [Function.update_self, List.length_append, List.length_singleton]
        rcases room with ⟨-, room⟩ | ⟨isDone, erased⟩
        · omega
        · have index := (List.getElem?_eq_some_iff.mp isDone).1
          rw [erased, List.length_eraseIdx_of_lt index]
          omega
      · dsimp only
        rw [Function.update_of_ne same]
        exact bound
    | @send i j item rest within next room =>
      by_cases same : k = i
      · rw [same] at bound ⊢
        dsimp only
        rw [Function.update_self, List.length_set]
        exact bound
      · dsimp only
        rw [Function.update_of_ne same]
        exact bound
    | close => exact bound

end Reached

section Progress
variable {Item : Type} {config : Config Item} {s : State Item}

/-- Some action can happen. -/
def CanAct (config : Config Item) (s : State Item) : Prop := ∃ action, (step config s action).isSome = true

/-- A worker that has something to send can do so, unless the channel in front of it is
full. -/
theorem send_ready {k : Nat} (inside : k < config.stages) (busy : ∃ outputs ∈ s.workers k, outputs ≠ [])
    (room : k + 1 = config.stages ∨ (s.channel (k + 1)).length < config.capacity (k + 1)) :
    CanAct config s := by
  obtain ⟨outputs, member, notDone⟩ := busy
  obtain ⟨j, found⟩ := List.getElem?_of_mem member
  cases outputs with
  | nil => exact absurd rfl notDone
  | cons item rest =>
    refine ⟨.send k j, ?_⟩
    simp only [step, found]
    rw [if_pos ⟨inside, room⟩]
    rfl

/-- A manager that is not at rest can act, or the channel behind it is full. -/
theorem stage_ready {k : Nat} (inside : k < config.stages)
    (work : s.channel k ≠ [] ∨ s.held k ≠ none ∨ ∃ outputs ∈ s.workers k, outputs ≠ []) :
    CanAct config s ∨ ∃ outputs ∈ s.workers k, outputs ≠ [] := by
  by_cases busy : ∃ outputs ∈ s.workers k, outputs ≠ []
  · exact .inr busy
  · left
    have allDone : ∀ outputs ∈ s.workers k, outputs = [] := fun outputs member =>
      Classical.byContradiction (fun notDone => busy ⟨outputs, member, notDone⟩)
    cases waits : s.held k with
    | none =>
      cases front : s.channel k with
      | nil =>
        rcases work with some | some | some
        · exact absurd front some
        · exact absurd waits some
        · exact absurd some busy
      | cons item rest =>
        refine ⟨.recv k, ?_⟩
        simp only [step, front, waits]
        rw [if_pos inside]
        rfl
    | some item =>
      by_cases room : (s.workers k).length < config.limit k ∨ s.workers k = []
      · refine ⟨.spawn k 0, ?_⟩
        simp only [step, waits]
        rw [if_pos inside, if_pos room]
        rfl
      · have first : (s.workers k)[0]? = some [] := by
          cases workers : s.workers k with
          | nil => exact absurd (.inr workers) room
          | cons outputs others =>
            have isDone := allDone outputs (workers ▸ List.mem_cons_self)
            rw [isDone]
            rfl
        refine ⟨.spawn k 0, ?_⟩
        simp only [step, waits, first]
        rw [if_pos inside, if_neg room]
        rfl

/-- Work anywhere in the pipeline lets some action happen: the last manager whose workers
are busy can send. -/
theorem busy_ready (positive : ∀ k, 0 < k → k < config.stages → 0 < config.capacity k) (ahead : Nat) :
    ∀ k, k + ahead + 1 = config.stages →
      (s.channel k ≠ [] ∨ s.held k ≠ none ∨ ∃ outputs ∈ s.workers k, outputs ≠ []) →
      CanAct config s := by
  induction ahead with
  | zero =>
    intro k isLast work
    rcases stage_ready (show k < config.stages by omega) work with ready | busy
    · exact ready
    · exact send_ready (by omega) busy (.inl isLast)
  | succ ahead ih =>
    intro k position work
    rcases stage_ready (show k < config.stages by omega) work with ready | busy
    · exact ready
    · by_cases room : (s.channel (k + 1)).length < config.capacity (k + 1)
      · exact send_ready (by omega) busy (.inr room)
      · have capacity := positive (k + 1) (Nat.succ_pos k) (by omega)
        have full : s.channel (k + 1) ≠ [] := by
          intro isEmpty
          rw [isEmpty, List.length_nil] at room
          omega
        exact ih (k + 1) (by omega) (.inl full)

/-- The first manager that has not told the next one of its end has something to do. -/
theorem first_open (sound : Sound config s) (stages : Nat) (isOpen : s.closed stages = false) :
    ∃ k < stages, s.closed k = true ∧ s.closed (k + 1) = false := by
  induction stages with
  | zero =>
    rw [sound.source] at isOpen
    cases isOpen
  | succ stages ih =>
    cases before : s.closed stages with
    | true => exact ⟨stages, Nat.lt_succ_self stages, before, isOpen⟩
    | false =>
      obtain ⟨k, inside, closed, next⟩ := ih before
      exact ⟨k, Nat.lt_succ_of_lt inside, closed, next⟩

/-- As long as the last manager has not ended, some action can happen. -/
theorem Sound.progress (sound : Sound config s)
    (positive : ∀ k, 0 < k → k < config.stages → 0 < config.capacity k) (isOpen : s.closed config.stages = false) :
    CanAct config s := by
  obtain ⟨k, inside, closed, next⟩ := first_open sound config.stages isOpen
  by_cases finished : s.finished k = true
  · refine ⟨.close k, ?_⟩
    rw [Pipeline.step, if_pos ⟨inside, finished, next⟩]
    rfl
  · refine busy_ready positive (config.stages - (k + 1)) k (by omega) ?_
    by_contra idle
    push Not at idle
    obtain ⟨noneWaiting, noneHeld, allDone⟩ := idle
    exact finished (finished_iff.mpr ⟨closed, noneWaiting, noneHeld, allDone⟩)

end Progress

section Measure
variable {Item : Type} {config : Config Item} {s t : State Item}

/-- The number of actions that are left: the moves of the items and the ends of the
managers. -/
def remaining (config : Config Item) (s : State Item) : Nat :=
  (Weight.ofWorth config (fun _ => 0) 1).total config.stages s +
    ∑ k ∈ range config.stages, if s.closed (k + 1) then 0 else 1

theorem remaining_start (source : List Item) : remaining config (State.start source) =
    (source.map (worth config (fun _ => 0) 1 config.stages 0)).sum + config.stages := by
  rw [remaining, total_start]
  have noneClosed : ∀ k, (State.start source).closed (k + 1) = false := fun k => rfl
  simp [noneClosed, Weight.ofChannel, Weight.ofWorth]

/-- Every action takes one of them. -/
theorem remaining_step {action : Action} (stepped : Stepped config s action t) :
    remaining config s = remaining config t + 1 := by
  have moved := total_step (ofWorth_balanced config (fun _ => 0) 1) stepped
  rw [remaining, remaining, moved]
  cases stepped with
  | recv => simp only [Action.moves, if_true]; omega
  | spawn => simp only [Action.moves, if_true]; omega
  | send => simp only [Action.moves, if_true]; omega
  | @close k inside finished wasOpen =>
    have ended := sum_update inside (fun _ closed => if closed = true then 0 else 1) (fun i => s.closed (i + 1)) true
    have same : ∀ i, Function.update (fun i => s.closed (i + 1)) k true i =
        Function.update s.closed (k + 1) true (i + 1) := by
      intro i
      by_cases here : i = k
      · rw [here, Function.update_self, Function.update_self]
      · rw [Function.update_of_ne here, Function.update_of_ne (by omega)]
    simp only [same, wasOpen, Bool.false_eq_true, if_true, if_false] at ended
    simp only [Action.moves, Bool.false_eq_true, if_false]
    omega

end Measure

section Runs
variable {Item : Type} {config : Config Item} {s t : State Item} {actions : List Action}
open Runs

theorem reaches_sound (sound : Sound config s) (run : Reaches (step config) s actions t) : Sound config t :=
  run.invariant (fun _ _ _ sound happened => sound_step sound (stepped happened)) sound

/-- The length of a run is what it has taken off the number of actions that are left. -/
theorem reaches_remaining (run : Reaches (step config) s actions t) :
    actions.length + remaining config t = remaining config s := by
  induction actions generalizing s with
  | nil =>
    have same : s = t := run
    rw [same, List.length_nil, Nat.zero_add]
  | cons action rest ih =>
    obtain ⟨next, happened, remains⟩ := run
    have first := remaining_step (stepped happened)
    have later := ih remains
    rw [List.length_cons]
    omega

/-- Any state can be continued until the last manager has ended. -/
theorem completes (positive : ∀ k, 0 < k → k < config.stages → 0 < config.capacity k) (bound : Nat) :
    ∀ s, Sound config s → remaining config s ≤ bound →
      ∃ actions t, Reaches (step config) s actions t ∧ t.closed config.stages = true := by
  induction bound with
  | zero =>
    intro s sound small
    cases isOpen : s.closed config.stages with
    | true => exact ⟨[], s, rfl, isOpen⟩
    | false =>
      obtain ⟨action, ready⟩ := sound.progress positive isOpen
      obtain ⟨next, happened⟩ := Option.isSome_iff_exists.mp ready
      have taken := remaining_step (stepped happened)
      omega
  | succ bound ih =>
    intro s sound small
    cases isOpen : s.closed config.stages with
    | true => exact ⟨[], s, rfl, isOpen⟩
    | false =>
      obtain ⟨action, ready⟩ := sound.progress positive isOpen
      obtain ⟨next, happened⟩ := Option.isSome_iff_exists.mp ready
      have taken := remaining_step (stepped happened)
      obtain ⟨actions, t, run, ended⟩ := ih next (sound_step sound (stepped happened)) (by omega)
      exact ⟨action :: actions, t, ⟨next, happened, run⟩, ended⟩

/-- The items in the pipeline, as what becomes of them behind the last manager. -/
def expected (config : Config Item) (s : State Item) : Multiset Item :=
  (Weight.ofWorth config (fun item => ({item} : Multiset Item)) 0).total config.stages s

theorem reaches_expected (run : Reaches (step config) s actions t) : expected config s = expected config t := by
  refine @Reaches.invariant _ _ _ (fun u => expected config s = expected config u) s t actions
    (fun u _ v same happened => ?_) rfl run
  have kept := total_step (ofWorth_balanced config (fun item => ({item} : Multiset Item)) 0) (stepped happened)
  rw [ite_self, add_zero] at kept
  exact same.trans kept

theorem expected_start (source : List Item) : expected config (State.start source) =
    (source.flatMap (leaves config config.stages 0) : List Item) :=
  (total_start _ config.stages source).trans (sum_worth_leaves config config.stages 0 source)

theorem Sound.all_finished (sound : Sound config s) (ended : s.closed config.stages = true) {k : Nat}
    (inside : k < config.stages) : s.finished k = true := by
  have closed : ∀ rest k, k + rest = config.stages → s.closed k = true := by
    intro rest
    induction rest with
    | zero =>
      intro k isLast
      rw [← Nat.add_zero k, isLast]
      exact ended
    | succ rest ih =>
      intro k position
      have next := ih (k + 1) (by omega)
      exact (finished_iff.mp (sound.ordered k (by omega) next)).1
  exact sound.ordered k inside (closed (config.stages - (k + 1)) (k + 1) (by omega))

theorem arrived (items : List Item) :
    (Weight.ofWorth config (fun item => ({item} : Multiset Item)) 0).ofChannel config.stages items =
      (items : List Item) := by
  have weights := sum_worth_leaves config 0 config.stages items
  rw [← Nat.sub_self config.stages] at weights
  rw [Weight.ofChannel, Weight.ofWorth, weights, Nat.sub_self]
  exact congrArg _ (List.flatMap_singleton' items)

/-- When the last manager has ended, nothing is left in front of it. -/
theorem expected_ended (sound : Sound config s) (ended : s.closed config.stages = true) :
    expected config s = (s.channel config.stages : List Item) := by
  have idle : ∀ k ∈ range config.stages, s.channel k = [] ∧ s.held k = none ∧ ∀ outputs ∈ s.workers k, outputs = [] :=
    fun k inside => (finished_iff.mp (sound.all_finished ended (mem_range.mp inside))).2
  rw [expected, Weight.total, sum_range_succ, arrived]
  rw [sum_eq_zero (fun k inside => ?_), sum_eq_zero (fun k inside => ?_), sum_eq_zero (fun k inside => ?_),
    zero_add, add_zero, add_zero]
  · refine List.sum_eq_zero (fun weight member => ?_)
    obtain ⟨outputs, inWorkers, isWeight⟩ := List.mem_map.mp member
    rw [← isWeight, (idle k inside).2.2 outputs inWorkers]
    rfl
  · rw [(idle k inside).2.1]
    rfl
  · rw [(idle k inside).1]
    rfl

theorem arrived_le (s : State Item) : ((s.channel config.stages : List Item) : Multiset Item) ≤ expected config s := by
  rw [expected, Weight.total, sum_range_succ, arrived, add_assoc]
  exact (Multiset.le_add_left _ _).trans (Multiset.le_add_right _ _)

end Runs

end Pipeline
