import DasIndexer.Lib.Paging

namespace Backward
variable {α : Type} {place : α → Nat} {rows : List α}

/-- The rows of a history, the newest first. -/
def NewestFirst (place : α → Nat) (rows : List α) : Prop := rows.Pairwise (fun x y => place y < place x)

/-- The rows strictly before the place of the cursor. -/
def older (place : α → Nat) (cursor : Option Nat) (rows : List α) : List α :=
  rows.filter (fun x => cursor.all (fun c => place x < c))

/-- With the cursor at a row, the rows behind it are left. -/
theorem older_split (sorted : NewestFirst place rows) {cursor : Option Nat} {front rest : List α} {s : α}
    (split : older place cursor rows = front ++ s :: rest) : older place (some (place s)) rows = rest := by
  have inRows : s ∈ older place cursor rows := by
    rw [split]
    exact List.mem_append_right _ List.mem_cons_self
  have narrower : older place (some (place s)) rows = older place (some (place s)) (older place cursor rows) := by
    rw [older, older, older, List.filter_filter]
    refine List.filter_congr (fun x _ => ?_)
    have below := (List.mem_filter.mp inRows).2
    cases cursor with
    | none => simp
    | some c =>
      simp only [Option.all_some, decide_eq_true_eq] at below
      rw [Option.all_some, Option.all_some, Bool.eq_iff_iff, Bool.and_eq_true, decide_eq_true_eq, decide_eq_true_eq]
      exact ⟨fun less => ⟨less, less.trans below⟩, fun both => both.1⟩
  have ordered : NewestFirst place (front ++ s :: rest) := by
    rw [← split]
    exact sorted.filter _
  have irreflexive : Std.Irrefl (fun x y : α => place y < place x) := ⟨fun x => Nat.lt_irrefl (place x)⟩
  have transitive : IsTrans α (fun x y => place y < place x) := ⟨fun _ _ _ above below => below.trans above⟩
  rw [narrower, split]
  exact Paging.filter_behind ordered

section Runs
variable {kept : α → Bool} {limit : Nat} {front rest : List α} {s : α}

/-- Nowhere do so many rows that are dropped follow each other. -/
def RunFree (kept : α → Bool) (limit : Nat) (rows : List α) : Prop :=
  ∀ window, window <:+: rows → window.length = limit → ∃ x ∈ window, kept x = true

/-- A full page has a row that is kept. -/
theorem RunFree.page (runFree : RunFree kept limit rows) (full : limit ≤ rows.length) :
    ∃ s, ((rows.take limit).filter kept).getLast? = some s := by
  obtain ⟨x, member, isKept⟩ := runFree (rows.take limit) (List.take_prefix _ _).isInfix (List.length_take_of_le full)
  have found : x ∈ (rows.take limit).filter kept := List.mem_filter.mpr ⟨member, isKept⟩
  exact ⟨_, List.getLast?_eq_some_getLast (List.ne_nil_of_mem found)⟩

/-- A run that is too long lies before or behind a row that is kept. -/
theorem runFree_split (isKept : kept s = true) (short : front.length < limit) :
    RunFree kept limit (front ++ s :: rest) ↔ RunFree kept limit rest := by
  constructor
  · intro runFree window inRest
    exact runFree window ((inRest.trans (List.suffix_cons s rest).isInfix).trans (List.suffix_append front _).isInfix)
  · intro runFree window inside long
    obtain ⟨before, after, split⟩ := inside
    have notInFront : ∀ later, front ≠ before ++ window ++ later := by
      intro later isFront
      rw [isFront, List.length_append, List.length_append] at short
      omega
    rcases List.append_eq_append_iff.mp split with ⟨later, isFront, _⟩ | ⟨most, inBoth, isRest⟩
    · exact absurd isFront (notInFront later)
    · cases most with
      | nil =>
        rw [List.append_nil] at inBoth
        exact absurd (by rw [inBoth, List.append_nil]) (notInFront [])
      | cons first others =>
        obtain ⟨isFirst, restSplit⟩ := List.cons.inj isRest
        subst isFirst
        rcases List.append_eq_append_iff.mp inBoth with ⟨gap, _, isWindow⟩ | ⟨part, _, isWindow⟩
        · rw [isWindow]
          exact ⟨s, List.mem_append_right _ List.mem_cons_self, isKept⟩
        · cases part with
          | nil =>
            rw [List.nil_append] at isWindow
            rw [← isWindow]
            exact ⟨s, List.mem_cons_self, isKept⟩
          | cons first tail =>
            have inOthers : others = tail ++ window := (List.cons.inj isWindow).2
            have inRest : rest = others ++ after := restSplit
            rw [inOthers] at inRest
            exact runFree window ⟨tail, after, inRest.symm⟩ long

end Runs

end Backward
