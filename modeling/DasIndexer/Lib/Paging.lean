import DasIndexer.Lib.IndexMap
import Mathlib.Data.List.Sort

namespace Paging
variable {κ ε C R : Type}

/-- A listing that is followed from answer to answer: each one but the last
names where the next one starts. -/
inductive Enumerates (answer : Option C → Except ε R) (next : R → Option C) : Option C → List R → Prop
  | last {start : Option C} {r : R} (answered : answer start = .ok r) (ends : next r = none) :
      Enumerates answer next start [r]
  | more {start : Option C} {r : R} {c : C} {rs : List R} (answered : answer start = .ok r)
      (goesOn : next r = some c) (rest : Enumerates answer next (some c) rs) :
      Enumerates answer next start (r :: rs)

/-- A listing that is asked for page by page, up to the first page that is
empty. -/
inductive Numbered (answer : Nat → Except ε R) (isEmpty : R → Bool) : Nat → List R → Prop
  | last {page : Nat} {r : R} (answered : answer page = .ok r) (ends : isEmpty r = true) :
      Numbered answer isEmpty page []
  | more {page : Nat} {r : R} {rs : List R} (answered : answer page = .ok r) (goesOn : isEmpty r = false)
      (rest : Numbered answer isEmpty (page + 1) rs) : Numbered answer isEmpty page (r :: rs)

theorem Enumerates.unique {answer : Option C → Except ε R} {next : R → Option C} {start : Option C}
    {rs others : List R} (run : Enumerates answer next start rs) (other : Enumerates answer next start others) :
    rs = others := by
  induction run generalizing others with
  | last answered ends =>
    cases other with
    | last again _ =>
      rw [answered] at again
      cases again
      rfl
    | more again goesOn _ =>
      rw [answered] at again
      cases again
      rw [ends] at goesOn
      cases goesOn
  | more answered goesOn _ ih =>
    cases other with
    | last again ends =>
      rw [answered] at again
      cases again
      rw [ends] at goesOn
      cases goesOn
    | more again goesAlso rest =>
      rw [answered] at again
      cases again
      rw [goesOn] at goesAlso
      cases goesAlso
      rw [ih rest]

theorem Numbered.unique {answer : Nat → Except ε R} {isEmpty : R → Bool} {page : Nat}
    {rs others : List R} (run : Numbered answer isEmpty page rs) (other : Numbered answer isEmpty page others) :
    rs = others := by
  induction run generalizing others with
  | last answered ends =>
    cases other with
    | last _ _ => rfl
    | more again goesOn _ =>
      rw [answered] at again
      cases again
      rw [ends] at goesOn
      cases goesOn
  | more answered goesOn _ ih =>
    cases other with
    | last again ends =>
      rw [answered] at again
      cases again
      rw [ends] at goesOn
      cases goesOn
    | more again _ rest =>
      rw [answered] at again
      cases again
      rw [ih rest]

theorem Enumerates.answered {answer : Option C → Except ε R} {next : R → Option C} {start : Option C} {rs : List R}
    (run : Enumerates answer next start rs) : ∀ r ∈ rs, ∃ c, answer c = .ok r := by
  induction run with
  | last answered _ =>
    intro r member
    rw [List.mem_singleton.mp member]
    exact ⟨_, answered⟩
  | more answered _ _ ih =>
    intro r member
    rcases List.mem_cons.mp member with first | later
    · rw [first]
      exact ⟨_, answered⟩
    · exact ih r later

theorem Numbered.answered {answer : Nat → Except ε R} {isEmpty : R → Bool} {page : Nat} {rs : List R}
    (run : Numbered answer isEmpty page rs) : ∀ r ∈ rs, ∃ p, answer p = .ok r := by
  induction run with
  | last _ _ =>
    intro r member
    cases member
  | more answered _ _ ih =>
    intro r member
    rcases List.mem_cons.mp member with first | later
    · rw [first]
      exact ⟨_, answered⟩
    · exact ih r later

/-- The same listing with its answers written differently. -/
theorem Enumerates.map {S : Type} {answer : Option C → Except ε R} {next : R → Option C}
    {other : Option C → Except ε S} {nextOther : S → Option C} {f : R → S} {start : Option C} {rs : List R}
    (answers : ∀ c r, answer c = .ok r → other c = .ok (f r)) (follows : ∀ r, nextOther (f r) = next r)
    (run : Enumerates answer next start rs) : Enumerates other nextOther start (rs.map f) := by
  induction run with
  | last answered ends => exact .last (answers _ _ answered) ((follows _).trans ends)
  | more answered goesOn _ ih => exact .more (answers _ _ answered) ((follows _).trans goesOn) ih

theorem Numbered.map {S : Type} {answer : Nat → Except ε R} {isEmpty : R → Bool} {other : Nat → Except ε S}
    {isEmptyOther : S → Bool} {f : R → S} {page : Nat} {rs : List R}
    (answers : ∀ p r, answer p = .ok r → other p = .ok (f r)) (empties : ∀ r, isEmptyOther (f r) = isEmpty r)
    (run : Numbered answer isEmpty page rs) : Numbered other isEmptyOther page (rs.map f) := by
  induction run with
  | last answered ends => exact .last (answers _ _ answered) ((empties _).trans ends)
  | more answered goesOn _ ih => exact .more (answers _ _ answered) ((empties _).trans goesOn) ih

section Gaps
variable (kept : κ → Bool) (limit : Nat)

/-- Before a kept row there are never `limit` rows in succession that are
dropped; the first argument counts those since the last kept row. -/
def Gapless : Nat → List κ → Prop
  | _, [] => True
  | run, x :: rest => if kept x then run < limit ∧ Gapless 0 rest else Gapless (run + 1) rest

instance decidableGapless : ∀ (run : Nat) (rows : List κ), Decidable (Gapless kept limit run rows)
  | _, [] => inferInstanceAs (Decidable True)
  | run, x :: rest =>
    have := decidableGapless 0 rest
    have := decidableGapless (run + 1) rest
    inferInstanceAs (Decidable (if kept x then run < limit ∧ Gapless kept limit 0 rest
      else Gapless kept limit (run + 1) rest))

/-- The count that `Gapless` reaches behind some rows. -/
def trail (run : Nat) (rows : List κ) : Nat := rows.foldl (fun n x => if kept x then 0 else n + 1) run

variable {kept limit}

/-- Nothing can go wrong within the first `limit` rows. -/
theorem gapless_append {run : Nat} {front : List κ} (rest : List κ) (short : run + front.length ≤ limit) :
    Gapless kept limit run (front ++ rest) ↔ Gapless kept limit (trail kept run front) rest := by
  induction front generalizing run with
  | nil => rfl
  | cons x front ih =>
    rw [List.length_cons] at short
    rw [List.cons_append, Gapless]
    by_cases isKept : kept x = true
    · have small : run < limit := by omega
      have later := @ih 0 (by omega)
      rw [if_pos isKept, later, trail, trail, List.foldl_cons, if_pos isKept]
      exact ⟨fun both => both.2, fun rest => ⟨small, rest⟩⟩
    · have later := @ih (run + 1) (by omega)
      rw [if_neg isKept, later, trail, trail, List.foldl_cons, if_neg isKept]

theorem trail_dropped {run : Nat} {rows : List κ} (dropped : ∀ x ∈ rows, kept x = false) :
    trail kept run rows = run + rows.length := by
  induction rows generalizing run with
  | nil => rfl
  | cons x rest ih =>
    have first := dropped x List.mem_cons_self
    have later := @ih (run + 1) (fun y member => dropped y (List.mem_cons_of_mem _ member))
    unfold trail at later ⊢
    rw [List.foldl_cons, if_neg (by rw [first]; exact Bool.false_ne_true), later, List.length_cons]
    omega

theorem trail_concat {run : Nat} {rows : List κ} {x : κ} (isKept : kept x = true) :
    trail kept run (rows ++ [x]) = 0 := by
  rw [trail, List.foldl_append, List.foldl_cons, List.foldl_nil, if_pos isKept]

theorem gapless_dropped {run : Nat} {rows : List κ} (dropped : ∀ x ∈ rows, kept x = false) :
    Gapless kept limit run rows := by
  induction rows generalizing run with
  | nil => trivial
  | cons x rest ih =>
    rw [Gapless, if_neg (by rw [dropped x List.mem_cons_self]; exact Bool.false_ne_true)]
    exact ih (fun y member => dropped y (List.mem_cons_of_mem _ member))

/-- Behind `limit` dropped rows nothing may be kept. -/
theorem dropped_of_gapless {run : Nat} {rows : List κ} (long : limit ≤ run)
    (gapless : Gapless kept limit run rows) : ∀ x ∈ rows, kept x = false := by
  induction rows generalizing run with
  | nil =>
    intro x member
    cases member
  | cons y rest ih =>
    rw [Gapless] at gapless
    by_cases isKept : kept y = true
    · rw [if_pos isKept] at gapless
      exact absurd gapless.1 (Nat.not_lt.mpr long)
    · rw [if_neg isKept] at gapless
      intro x member
      rcases List.mem_cons.mp member with first | later
      · rw [first]
        exact Bool.eq_false_iff.mpr isKept
      · exact ih (Nat.le_succ_of_le long) gapless x later

/-- Repeated rows of a kept key change nothing. -/
theorem gapless_copies {x : κ} (isKept : kept x = true) (positive : 0 < limit) (copies : Nat) (rest : List κ) :
    Gapless kept limit 0 (List.replicate copies x ++ rest) ↔ Gapless kept limit 0 rest := by
  induction copies with
  | zero => rfl
  | succ copies ih =>
    rw [List.replicate_succ, List.cons_append, Gapless, if_pos isKept, ih]
    exact ⟨fun both => both.2, fun rest => ⟨positive, rest⟩⟩

/-- A list splits at its last kept row. -/
theorem split_last_kept {rows : List κ} {s : κ} (isLast : (rows.filter kept).getLast? = some s) :
    ∃ front dropped, rows = front ++ s :: dropped ∧ kept s = true ∧ ∀ x ∈ dropped, kept x = false := by
  induction rows using List.reverseRecOn with
  | nil => cases isLast
  | append_singleton front last ih =>
    by_cases isKept : kept last = true
    · rw [List.filter_append, List.filter_cons_of_pos isKept, List.filter_nil, List.getLast?_concat] at isLast
      cases isLast
      exact ⟨front, [], rfl, isKept, nofun⟩
    · rw [List.filter_append, List.filter_cons_of_neg isKept, List.filter_nil, List.append_nil] at isLast
      obtain ⟨init, dropped, split, keptS, none⟩ := ih isLast
      refine ⟨init, dropped ++ [last], by rw [split, List.append_assoc, List.cons_append], keptS, fun x member => ?_⟩
      rcases List.mem_append.mp member with early | isEnd
      · exact none x early
      · rw [List.mem_singleton.mp isEnd]
        exact Bool.eq_false_iff.mpr isKept

/-- Without dropped rows there are no gaps. -/
theorem gapless_kept {rows : List κ} (positive : 0 < limit) (all : ∀ x ∈ rows, kept x = true) :
    Gapless kept limit 0 rows := by
  induction rows with
  | nil => trivial
  | cons x rest ih =>
    rw [Gapless, if_pos (all x List.mem_cons_self)]
    exact ⟨positive, ih (fun y member => all y (List.mem_cons_of_mem _ member))⟩

end Gaps

section Shown
variable [DecidableEq κ] {kept : κ → Bool} {limit : Nat}

/-- What is shown of some rows: the keys that are kept, at their first row. -/
def shown (kept : κ → Bool) (rows : List κ) : List κ := (rows.filter kept).eraseDups

theorem mem_shown {rows : List κ} {x : κ} : x ∈ shown kept rows ↔ x ∈ rows ∧ kept x = true := by
  rw [shown, List.mem_eraseDups, List.mem_filter]

theorem shown_eq_nil_iff {rows : List κ} : shown kept rows = [] ↔ ∀ x ∈ rows, kept x = false := by
  rw [List.eq_nil_iff_forall_not_mem]
  refine forall_congr' (fun x => ?_)
  rw [mem_shown, not_and, Bool.not_eq_true]

theorem shown_nodup (rows : List κ) : (shown kept rows).Nodup := IndexMap.nodup_eraseDups _

end Shown

section Order
variable {before : κ → κ → Prop}

/-- Rows of one key stand together and the keys ascend. -/
def Sorted (before : κ → κ → Prop) (rows : List κ) : Prop := rows.Pairwise (fun x y => x = y ∨ before x y)

variable [Std.Irrefl before] [IsTrans κ before]

theorem before_asymm {x y : κ} (forth : before x y) (back : before y x) : False :=
  Std.Irrefl.irrefl x (IsTrans.trans x y x forth back)

omit [Std.Irrefl before] [IsTrans κ before] in
theorem shown_pairwise [DecidableEq κ] {rows : List κ} (kept : κ → Bool) (sorted : Sorted before rows) :
    (shown kept rows).Pairwise before := by
  have ordered : Sorted before (shown kept rows) :=
    (sorted.filter _).sublist (IndexMap.eraseDups_sublist _)
  exact (ordered.and (shown_nodup rows)).imp (fun both => both.1.resolve_left both.2)

/-- In a list in strict order, the elements behind one of them are those that come
after it. -/
theorem filter_behind [DecidableRel before] {front rest : List κ} {s : κ}
    (ordered : (front ++ s :: rest).Pairwise before) : (front ++ s :: rest).filter (fun x => before s x) = rest := by
  obtain ⟨_, behind, apart⟩ := List.pairwise_append.mp ordered
  have left : ∀ x ∈ rest, before s x := (List.pairwise_cons.mp behind).1
  have passed : ∀ x ∈ front ++ [s], ¬ before s x := by
    intro x member later
    rcases List.mem_append.mp member with inFront | isS
    · exact before_asymm later (apart x inFront s List.mem_cons_self)
    · rw [List.mem_singleton.mp isS] at later
      exact Std.Irrefl.irrefl s later
  rw [List.append_cons, List.filter_append,
    List.filter_eq_nil_iff.mpr (fun x member => by simpa using passed x member),
    List.filter_eq_self.mpr (fun x member => by simpa using left x member), List.nil_append]

/-- The members of a listing decide it. -/
theorem eq_of_same_members {xs ys : List κ} (orderedX : xs.Pairwise before) (orderedY : ys.Pairwise before)
    (same : ∀ x, x ∈ xs ↔ x ∈ ys) : xs = ys := by
  have distinct : ∀ {zs : List κ}, zs.Pairwise before → zs.Nodup := by
    intro zs ordered
    refine ordered.imp (fun {x y} earlier equal => ?_)
    rw [equal] at earlier
    exact Std.Irrefl.irrefl _ earlier
  have perm : xs.Perm ys := (List.perm_ext_iff_of_nodup (distinct orderedX) (distinct orderedY)).mpr same
  exact perm.eq_of_pairwise (fun x y _ _ forth back => (before_asymm forth back).elim) orderedX orderedY

/-- From its least key on, a sorted list starts with the rows of that key. -/
theorem copies_append [DecidableRel before] {s : κ} {rows : List κ} (sorted : Sorted before rows)
    (least : ∀ x ∈ rows, s = x ∨ before s x) :
    ∃ copies, rows = List.replicate copies s ++ rows.filter (fun x => before s x) := by
  induction rows with
  | nil => exact ⟨0, rfl⟩
  | cons y rest ih =>
    obtain ⟨bound, restSorted⟩ := List.pairwise_cons.mp sorted
    rcases least y List.mem_cons_self with same | later
    · subst same
      obtain ⟨copies, split⟩ := ih restSorted (fun x member => least x (List.mem_cons_of_mem _ member))
      refine ⟨copies + 1, ?_⟩
      rw [List.filter_cons_of_neg (by simpa using Std.Irrefl.irrefl s), List.replicate_succ, List.cons_append, ← split]
    · refine ⟨0, ?_⟩
      have all : ∀ x ∈ y :: rest, decide (before s x) = true := by
        intro x member
        rw [decide_eq_true_eq]
        rcases List.mem_cons.mp member with first | inRest
        · rw [first]
          exact later
        · rcases bound x inRest with same | above
          · rw [← same]
            exact later
          · exact IsTrans.trans s y x later above
      rw [List.filter_eq_self.mpr all]
      rfl

end Order

section Keyset
variable {kept : κ → Bool} {limit : Nat} {before : κ → κ → Prop}

def rowsAfter (before : κ → κ → Prop) [DecidableRel before] (cursor : Option κ) (rows : List κ) : List κ :=
  match cursor with
  | some c => rows.filter (fun x => before c x)
  | none => rows

/-- The last key shown is that of the last kept row. -/
theorem shown_getLast [DecidableEq κ] [Std.Irrefl before] [IsTrans κ before] {rows : List κ} (sorted : Sorted before rows) :
    (shown kept rows).getLast? = (rows.filter kept).getLast? := by
  have ordered : Sorted before (rows.filter kept) := List.Pairwise.filter kept sorted
  rw [shown]
  generalize rows.filter kept = l at ordered
  induction l using List.reverseRecOn with
  | nil => rfl
  | append_singleton front last ih =>
    obtain ⟨frontOrdered, -, bound⟩ := List.pairwise_append.mp ordered
    rw [IndexMap.eraseDups_concat, List.getLast?_concat]
    split
    · rename_i known
      rw [ih frontOrdered]
      obtain ⟨init, top, isTop⟩ := List.eq_nil_or_concat front |>.resolve_left (List.ne_nil_of_mem known)
      rw [List.concat_eq_append] at isTop
      subst isTop
      rw [List.getLast?_concat]
      have below : last = top ∨ before last top := by
        rcases List.mem_append.mp known with early | isLast
        · exact (List.pairwise_append.mp frontOrdered).2.2 last early top List.mem_cons_self
        · exact Or.inl (List.mem_singleton.mp isLast)
      have above := bound top (List.mem_append_right _ List.mem_cons_self) last List.mem_cons_self
      rcases below with same | forth
      · rw [same]
      · rcases above with same | back
        · rw [same]
        · exact (before_asymm forth back).elim
    · rw [List.getLast?_concat]

/-- Where the last key of a page stands in the sorted rows. -/
structure PageEnd (kept : κ → Bool) (limit : Nat) (before : κ → κ → Prop) (rows : List κ) (s : κ)
    (front dropped : List κ) : Prop where
  page : rows.take limit = front ++ s :: dropped
  isKept : kept s = true
  none : ∀ x ∈ dropped, kept x = false
  early : ∀ x ∈ front ++ [s], ¬ before s x
  late : ∀ x ∈ dropped ++ rows.drop limit, s = x ∨ before s x
  sorted : Sorted before (dropped ++ rows.drop limit)

theorem pageEnd_of_getLast [DecidableEq κ] [Std.Irrefl before] [IsTrans κ before] {rows : List κ}
    (sorted : Sorted before rows) {s : κ} (isLast : (shown kept (rows.take limit)).getLast? = some s) :
    ∃ front dropped, PageEnd kept limit before rows s front dropped := by
  rw [shown_getLast (List.Pairwise.sublist (List.take_sublist _ _) sorted)] at isLast
  obtain ⟨front, dropped, split, keptS, none⟩ := split_last_kept isLast
  have ordered := sorted
  rw [← List.take_append_drop limit rows, split, List.append_assoc, List.cons_append] at ordered
  obtain ⟨-, restOrdered, bound⟩ := List.pairwise_append.mp ordered
  obtain ⟨above, tailOrdered⟩ := List.pairwise_cons.mp restOrdered
  refine ⟨front, dropped, split, keptS, none, fun x member later => ?_, above, tailOrdered⟩
  rcases List.mem_append.mp member with inFront | isS
  · rcases bound x inFront s List.mem_cons_self with same | earlier
    · rw [same] at later
      exact Std.Irrefl.irrefl s later
    · exact before_asymm later earlier
  · rw [List.mem_singleton.mp isS] at later
    exact Std.Irrefl.irrefl s later

section PageEnd
variable {rows front dropped : List κ} {s : κ}

theorem PageEnd.rows_eq (ended : PageEnd kept limit before rows s front dropped) :
    rows = (front ++ [s]) ++ (dropped ++ rows.drop limit) := by
  conv_lhs => rw [← List.take_append_drop limit rows, ended.page]
  simp

theorem PageEnd.mem_page (ended : PageEnd kept limit before rows s front dropped) : s ∈ rows.take limit := by
  rw [ended.page]
  exact List.mem_append_right _ List.mem_cons_self

theorem PageEnd.remaining [DecidableRel before] (ended : PageEnd kept limit before rows s front dropped) :
    rows.filter (fun x => before s x) = (dropped ++ rows.drop limit).filter (fun x => before s x) := by
  conv_lhs => rw [ended.rows_eq, List.filter_append]
  rw [List.filter_eq_nil_iff.mpr (fun x member => by simpa using ended.early x member), List.nil_append]

/-- A kept row behind the page is one of those that are left exactly when its
key is not on the page. -/
theorem PageEnd.left_iff [Std.Irrefl before] (ended : PageEnd kept limit before rows s front dropped) {x : κ}
    (member : x ∈ rows.drop limit) (isKept : kept x = true) : before s x ↔ x ∉ (rows.take limit).filter kept := by
  constructor
  · intro later again
    obtain ⟨inPage, -⟩ := List.mem_filter.mp again
    rw [ended.page] at inPage
    rcases List.mem_append.mp inPage with inFront | inRest
    · exact ended.early x (List.mem_append_left _ inFront) later
    · rcases List.mem_cons.mp inRest with same | inDropped
      · rw [same] at later
        exact Std.Irrefl.irrefl s later
      · rw [ended.none x inDropped] at isKept
        cases isKept
  · intro new
    refine (ended.late x (List.mem_append_right _ member)).resolve_left (fun same => new ?_)
    rw [← same]
    exact List.mem_filter.mpr ⟨ended.mem_page, ended.isKept⟩

theorem PageEnd.shown_eq [DecidableEq κ] [DecidableRel before] [Std.Irrefl before]
    (ended : PageEnd kept limit before rows s front dropped) :
    shown kept rows = shown kept (rows.take limit) ++ shown kept (rows.filter (fun x => before s x)) := by
  have noneDropped : (dropped.filter (fun x => before s x)).filter kept = [] := by
    refine List.filter_eq_nil_iff.mpr (fun x member => ?_)
    rw [ended.none x (List.mem_filter.mp member).1]
    exact Bool.false_ne_true
  have new : ((rows.drop limit).filter kept).removeAll ((rows.take limit).filter kept) =
      (rows.filter (fun x => before s x)).filter kept := by
    rw [ended.remaining, List.filter_append, List.filter_append, noneDropped, List.nil_append, List.removeAll,
      List.filter_filter, List.filter_filter]
    refine List.filter_congr (fun x member => ?_)
    by_cases isKept : kept x = true
    · have left := ended.left_iff member isKept
      rw [isKept, Bool.and_true, Bool.true_and, Bool.eq_iff_iff, decide_eq_true_eq, left]
      simp [isKept]
    · rw [Bool.eq_false_iff.mpr isKept, Bool.and_false, Bool.false_and]
  have pieces : rows.filter kept = (rows.take limit).filter kept ++ (rows.drop limit).filter kept := by
    rw [← List.filter_append, List.take_append_drop]
  rw [shown, pieces, List.eraseDups_append, new]
  rfl

theorem PageEnd.gapless_iff [DecidableRel before] [Std.Irrefl before] [IsTrans κ before]
    (ended : PageEnd kept limit before rows s front dropped) :
    Gapless kept limit 0 rows ↔ Gapless kept limit 0 (rows.filter (fun x => before s x)) := by
  have short : (front ++ [s]).length ≤ limit := by
    have taken := List.length_take_le limit rows
    rw [ended.page, List.length_append, List.length_cons] at taken
    rw [List.length_append, List.length_singleton]
    omega
  have positive : 0 < limit := by
    rw [List.length_append, List.length_singleton] at short
    omega
  have cut : Gapless kept limit 0 rows ↔ Gapless kept limit 0 (dropped ++ rows.drop limit) := by
    conv_lhs => rw [ended.rows_eq]
    rw [gapless_append _ (by rwa [Nat.zero_add]), trail_concat ended.isKept]
  obtain ⟨copies, starts⟩ := copies_append ended.sorted ended.late
  rw [cut, starts, gapless_copies ended.isKept positive, ended.remaining]

theorem PageEnd.shorter [DecidableRel before] [Std.Irrefl before]
    (ended : PageEnd kept limit before rows s front dropped) :
    (rows.filter (fun x => before s x)).length < rows.length := by
  refine List.length_filter_lt_length_iff_exists.mpr ⟨s, List.mem_of_mem_take ended.mem_page, ?_⟩
  simpa using Std.Irrefl.irrefl (r := before) s

end PageEnd

/-- A page without anything to show ends the listing; that is right exactly when
nothing is left to show. -/
theorem page_empty [DecidableEq κ] {rows : List κ} (isEmpty : shown kept (rows.take limit) = []) :
    shown kept rows = [] ↔ Gapless kept limit 0 rows := by
  have dropped := shown_eq_nil_iff.mp isEmpty
  rw [shown_eq_nil_iff]
  refine ⟨gapless_dropped, fun gapless x member => ?_⟩
  rw [← List.take_append_drop limit rows, gapless_append _ (by rw [Nat.zero_add]; exact List.length_take_le _ _),
    trail_dropped dropped] at gapless
  rw [← List.take_append_drop limit rows] at member
  rcases List.mem_append.mp member with inPage | later
  · exact dropped x inPage
  · have full : limit ≤ 0 + (rows.take limit).length := by
      have more := List.length_pos_of_mem later
      rw [List.length_drop] at more
      rw [List.length_take]
      omega
    exact dropped_of_gapless full gapless x later

/-- The answers are those of a keyset: the page after the cursor, with the last
key shown as the next cursor. -/
def AnswersKeyset [DecidableEq κ] (kept : κ → Bool) (limit : Nat) (before : κ → κ → Prop) [DecidableRel before]
    (rows : List κ) (encode : κ → C) (answer : Option C → Except ε R) (next : R → Option C) (keys : R → List κ) : Prop :=
  ∀ cursor : Option κ, ∃ r, answer (cursor.map encode) = .ok r ∧
    keys r = shown kept ((rowsAfter before cursor rows).take limit) ∧ next r = (keys r).getLast?.map encode

section Listing
variable [DecidableEq κ] [DecidableRel before] [Std.Irrefl before] [IsTrans κ before] {rows : List κ}
  {encode : κ → C} {answer : Option C → Except ε R} {next : R → Option C} {keys : R → List κ}

/-- Following the cursors ends. It lists a first part of what there is to show,
and all of it exactly when no gap is as long as a page. -/
theorem enumerates_from (sorted : Sorted before rows)
    (answers : AnswersKeyset kept limit before rows encode answer next keys) (cursor : Option κ) :
    ∃ rs, Enumerates answer next (cursor.map encode) rs ∧
      rs.flatMap keys <+: shown kept (rowsAfter before cursor rows) ∧
      (rs.flatMap keys = shown kept (rowsAfter before cursor rows) ↔
        Gapless kept limit 0 (rowsAfter before cursor rows)) := by
  induction size : (rowsAfter before cursor rows).length using Nat.strong_induction_on generalizing cursor with
  | _ n ih =>
    obtain ⟨r, answered, page, follows⟩ := answers cursor
    have ordered : Sorted before (rowsAfter before cursor rows) := by
      cases cursor with
      | none => exact sorted
      | some c => exact List.Pairwise.filter _ sorted
    cases last : (keys r).getLast? with
    | none =>
      rw [last, Option.map_none] at follows
      have nothing : keys r = [] := List.getLast?_eq_none_iff.mp last
      refine ⟨[r], .last answered follows, ?_, ?_⟩
      · simp [nothing]
      · rw [List.flatMap_singleton, nothing, ← page_empty (page.symm.trans nothing)]
        exact eq_comm
    | some s =>
      rw [last, Option.map_some] at follows
      rw [page] at last
      obtain ⟨front, dropped, ended⟩ := pageEnd_of_getLast ordered last
      have after : (rowsAfter before cursor rows).filter (fun x => before s x) = rowsAfter before (some s) rows := by
        cases cursor with
        | none => rfl
        | some c =>
          have inRows := List.mem_of_mem_take ended.mem_page
          have later : before c s := of_decide_eq_true (List.mem_filter.mp inRows).2
          show (rows.filter (fun x => before c x)).filter (fun x => before s x) = rows.filter (fun x => before s x)
          rw [List.filter_filter]
          refine List.filter_congr (fun x _ => ?_)
          rw [Bool.eq_iff_iff, Bool.and_eq_true, decide_eq_true_eq, decide_eq_true_eq]
          exact ⟨fun both => both.1, fun above => ⟨above, IsTrans.trans c s x later above⟩⟩
      have shorter := ended.shorter
      rw [after] at shorter
      obtain ⟨rs, run, isPart, complete⟩ := ih _ (by omega) (some s) rfl
      refine ⟨r :: rs, .more answered follows run, ?_, ?_⟩
      · rw [List.flatMap_cons, page, ended.shown_eq, after]
        exact (List.prefix_append_right_inj _).mpr isPart
      · rw [List.flatMap_cons, page, ended.shown_eq, after, List.append_right_inj, complete, ← after]
        exact ended.gapless_iff.symm

end Listing

end Keyset

section Cursors
variable {before : κ → κ → Prop} {encode : κ → C} {answer : Option C → Except ε R} {keys : R → List κ}

/-- The cursor is honoured: the answer for it has only keys after it, and asking
again with the last key of each answer visits every key once. -/
structure Honours [BEq κ] (before : κ → κ → Prop) (encode : κ → C) (answer : Option C → Except ε R)
    (keys : R → List κ) (rows : List κ) : Prop where
  after : ∀ c r, answer (some (encode c)) = .ok r → ∀ k ∈ keys r, before c k
  visits : ∃ rs, Enumerates answer (fun r => (keys r).getLast?.map encode) none rs ∧
    ∀ k ∈ rows, (rs.flatMap keys).count k = 1

/-- A listing that ignores the cursor honours it only where it has nothing to
list. -/
theorem honours_ignored_iff [BEq κ] [Std.Irrefl before] {rows : List κ} {limit : Nat} {r : R}
    (ignored : ∀ c, answer c = .ok r) (page : keys r = rows.take limit) :
    Honours before encode answer keys rows ↔ rows = [] := by
  constructor
  · intro honours
    cases shows : keys r with
    | cons k rest =>
      have member : k ∈ keys r := shows ▸ List.mem_cons_self
      exact absurd (honours.after k r (ignored _) k member) (Std.Irrefl.irrefl k)
    | nil =>
      obtain ⟨rs, run, once⟩ := honours.visits
      have ends : Enumerates answer (fun r => (keys r).getLast?.map encode) none [r] := by
        refine .last (ignored none) ?_
        rw [shows]
        rfl
      rw [run.unique ends, List.flatMap_singleton, shows] at once
      refine List.eq_nil_iff_forall_not_mem.mpr (fun k member => ?_)
      cases once k member
  · intro empty
    have nothing : keys r = [] := by rw [page, empty, List.take_nil]
    refine ⟨fun c other answered k member => ?_, [r], .last (ignored none) ?_, ?_⟩
    · rw [ignored] at answered
      cases answered
      rw [nothing] at member
      cases member
    · show ((keys r).getLast?.map encode) = none
      rw [nothing]
      rfl
    · rw [empty]
      intro k member
      cases member

/-- Nor does a listing that fails. -/
theorem not_honours_of_error [BEq κ] {rows : List κ} {problem : ε} (failed : answer none = .error problem) :
    ¬ Honours before encode answer keys rows := by
  intro honours
  obtain ⟨rs, run, -⟩ := honours.visits
  cases run with
  | last answered _ | more answered _ _ =>
    rw [failed] at answered
    cases answered

end Cursors

section Pages
variable {kept : κ → Bool} {limit : Nat} {before : κ → κ → Prop} {rows : List κ}

/-- The rows of a page by its offset, the first page being page 0. -/
def pageOf (limit : Nat) (rows : List κ) (page : Nat) : List κ := (rows.drop (page * limit)).take limit

/-- No kept key has rows on two pages. -/
def OnOnePage (kept : κ → Bool) (limit : Nat) (rows : List κ) : Prop :=
  ∀ p q k, kept k = true → k ∈ pageOf limit rows p → k ∈ pageOf limit rows q → p = q

/-- No page whose rows are all dropped comes before a page with a kept row. -/
def NoBlankPage (kept : κ → Bool) (limit : Nat) (rows : List κ) : Prop :=
  ∀ p q, p ≤ q → (∃ k ∈ pageOf limit rows q, kept k = true) → ∃ k ∈ pageOf limit rows p, kept k = true

theorem mem_pageOf {page : Nat} {k : κ} :
    k ∈ pageOf limit rows page ↔ ∃ j < limit, rows[page * limit + j]? = some k := by
  rw [pageOf, List.mem_iff_getElem?]
  constructor
  · rintro ⟨j, found⟩
    rw [List.getElem?_take] at found
    split at found
    · rename_i within
      exact ⟨j, within, by rwa [List.getElem?_drop] at found⟩
    · cases found
  · rintro ⟨j, within, found⟩
    exact ⟨j, by rwa [List.getElem?_take, if_pos within, List.getElem?_drop]⟩

/-- Rows that fit on one page are all on the first. -/
theorem fits_first_page (short : rows.length ≤ limit) :
    OnOnePage kept limit rows ∧ NoBlankPage kept limit rows := by
  have first : ∀ {page : Nat} {k : κ}, k ∈ pageOf limit rows page → page = 0 := by
    intro page k member
    obtain ⟨j, within, found⟩ := mem_pageOf.mp member
    obtain ⟨inside, -⟩ := List.getElem?_eq_some_iff.mp found
    by_contra later
    have grows : 1 * limit ≤ page * limit := Nat.mul_le_mul_right _ (Nat.pos_of_ne_zero later)
    omega
  refine ⟨fun p q k _ onP onQ => ?_, fun p q earlier found => ?_⟩
  · rw [first onP, first onQ]
  · obtain ⟨k, onQ, isKept⟩ := found
    have isFirst := first onQ
    have same : p = q := by omega
    exact ⟨k, same ▸ onQ, isKept⟩

theorem exists_pageOf {k : κ} (positive : 0 < limit) (member : k ∈ rows) : ∃ page, k ∈ pageOf limit rows page := by
  obtain ⟨i, found⟩ := List.getElem?_of_mem member
  refine ⟨i / limit, mem_pageOf.mpr ⟨i % limit, Nat.mod_lt _ positive, ?_⟩⟩
  rwa [Nat.div_add_mod']

/-- In sorted rows, a key between two rows of one key is that key. -/
theorem between_same [Std.Irrefl before] [IsTrans κ before] (sorted : Sorted before rows) {a b c : Nat} {k : κ}
    (first : rows[a]? = some k) (last : rows[c]? = some k) (above : a < b) (below : b < c) : rows[b]? = some k := by
  obtain ⟨inC, atC⟩ := List.getElem?_eq_some_iff.mp last
  obtain ⟨inA, atA⟩ := List.getElem?_eq_some_iff.mp first
  have inB : b < rows.length := by omega
  have up := List.pairwise_iff_getElem.mp sorted a b inA inB above
  have down := List.pairwise_iff_getElem.mp sorted b c inB inC below
  rw [atA] at up
  rw [atC] at down
  refine List.getElem?_eq_some_iff.mpr ⟨inB, ?_⟩
  rcases up with same | later
  · exact same.symm
  · rcases down with same | earlier
    · exact same
    · exact (before_asymm later earlier).elim

theorem page_between [Std.Irrefl before] [IsTrans κ before] (sorted : Sorted before rows) (positive : 0 < limit)
    {p m q : Nat} {k : κ} (first : k ∈ pageOf limit rows p) (last : k ∈ pageOf limit rows q) (above : p < m)
    (below : m < q) : k ∈ pageOf limit rows m := by
  obtain ⟨i, iWithin, atI⟩ := mem_pageOf.mp first
  obtain ⟨j, jWithin, atJ⟩ := mem_pageOf.mp last
  have start : (p + 1) * limit ≤ m * limit := Nat.mul_le_mul_right _ above
  have finish : (m + 1) * limit ≤ q * limit := Nat.mul_le_mul_right _ below
  rw [Nat.succ_mul] at start finish
  refine mem_pageOf.mpr ⟨0, positive, between_same sorted atI atJ ?_ ?_⟩
  · omega
  · omega

/-- The answers are those of a numbered listing: the keys shown on the page. -/
def AnswersNumbered [DecidableEq κ] (kept : κ → Bool) (limit : Nat) (rows : List κ) (answer : Nat → Except ε R)
    (isEmpty : R → Bool) (keys : R → List κ) : Prop :=
  ∀ page, ∃ r, answer (page + 1) = .ok r ∧ keys r = shown kept (pageOf limit rows page) ∧
    (isEmpty r = true ↔ keys r = [])

section Listing
variable [DecidableEq κ] {answer : Nat → Except ε R} {isEmpty : R → Bool} {keys : R → List κ}

/-- The listing runs up to the first page that shows nothing. -/
theorem numbered_from (positive : 0 < limit) (answers : AnswersNumbered kept limit rows answer isEmpty keys)
    (page : Nat) :
    ∃ n rs, Numbered answer isEmpty (page + 1) rs ∧
      rs.flatMap keys = (List.range' page n).flatMap (fun q => shown kept (pageOf limit rows q)) ∧
      shown kept (pageOf limit rows (page + n)) = [] ∧
      ∀ q, page ≤ q → q < page + n → shown kept (pageOf limit rows q) ≠ [] := by
  induction left : rows.length - page generalizing page with
  | zero =>
    obtain ⟨r, answered, shows, empty⟩ := answers page
    have past : rows.length ≤ page * limit := by
      have grows : page * 1 ≤ page * limit := Nat.mul_le_mul_left _ positive
      omega
    have nothing : pageOf limit rows page = [] := by
      rw [pageOf, List.drop_eq_nil_of_le past, List.take_nil]
    rw [nothing] at shows
    refine ⟨0, [], .last answered (empty.mpr shows), rfl, ?_, fun q start stop => by omega⟩
    rw [Nat.add_zero, nothing]
    rfl
  | succ fuel ih =>
    obtain ⟨r, answered, shows, empty⟩ := answers page
    by_cases blank : shown kept (pageOf limit rows page) = []
    · exact ⟨0, [], .last answered (empty.mpr (shows.trans blank)), rfl, blank, fun q start stop => by omega⟩
    · obtain ⟨n, rs, run, lists, ends, goesOn⟩ := ih (page + 1) (by omega)
      have more : isEmpty r = false := by
        rw [Bool.eq_false_iff, ne_eq, empty, shows]
        exact blank
      refine ⟨n + 1, r :: rs, .more answered more run, ?_, ?_, fun q start stop => ?_⟩
      · rw [List.flatMap_cons, lists, shows, List.range'_succ, List.flatMap_cons]
      · rw [← ends]
        congr 2
        omega
      · rcases Nat.eq_or_lt_of_le start with same | later
        · rw [← same]
          exact blank
        · exact goesOn q later (by omega)

/-- A kept key is listed once for each page that has a row of it. -/
theorem count_pages {k : κ} (isKept : kept k = true) (pages : List Nat) :
    (pages.flatMap (fun q => shown kept (pageOf limit rows q))).count k =
      (pages.filter (fun q => k ∈ pageOf limit rows q)).length := by
  induction pages with
  | nil => rfl
  | cons q rest ih =>
    rw [List.flatMap_cons, List.count_append, ih, List.filter_cons]
    by_cases onPage : k ∈ pageOf limit rows q
    · rw [List.count_eq_one_of_mem (shown_nodup _) (mem_shown.mpr ⟨onPage, isKept⟩),
        if_pos (decide_eq_true onPage), List.length_cons, Nat.add_comm]
    · rw [List.count_eq_zero.mpr (fun member => onPage (mem_shown.mp member).1),
        if_neg (by simpa using onPage), Nat.zero_add]

theorem filter_length_one_iff {pages : List Nat} (distinct : pages.Nodup) (P : Nat → Prop) [DecidablePred P] :
    (pages.filter P).length = 1 ↔ ∃ q ∈ pages, P q ∧ ∀ p ∈ pages, P p → p = q := by
  constructor
  · intro one
    obtain ⟨q, only⟩ := List.length_eq_one_iff.mp one
    have member : q ∈ pages.filter P := by
      rw [only]
      exact List.mem_cons_self
    obtain ⟨inPages, holds⟩ := List.mem_filter.mp member
    refine ⟨q, inPages, of_decide_eq_true holds, fun p other also => ?_⟩
    have found : p ∈ pages.filter P := List.mem_filter.mpr ⟨other, decide_eq_true also⟩
    rw [only] at found
    exact List.mem_singleton.mp found
  · rintro ⟨q, inPages, holds, only⟩
    have same : ∀ p ∈ pages.filter P, p = q := fun p member =>
      only p (List.mem_filter.mp member).1 (of_decide_eq_true (List.mem_filter.mp member).2)
    have found : q ∈ pages.filter P := List.mem_filter.mpr ⟨inPages, decide_eq_true holds⟩
    have one := List.count_eq_one_of_mem (distinct.filter _) found
    rwa [List.count_eq_length.mpr (fun p member => (same p member).symm)] at one

/-- Every kept key is listed exactly once when no key is split between two pages
and no page is blank too early, and only then. -/
theorem numbered_complete_iff [Std.Irrefl before] [IsTrans κ before] (sorted : Sorted before rows)
    (positive : 0 < limit) (answers : AnswersNumbered kept limit rows answer isEmpty keys) :
    (∃ rs, Numbered answer isEmpty 1 rs ∧ ∀ k ∈ rows, kept k = true → (rs.flatMap keys).count k = 1) ↔
      OnOnePage kept limit rows ∧ NoBlankPage kept limit rows := by
  obtain ⟨n, rs, run, lists, ends, goesOn⟩ := numbered_from positive answers 0
  rw [Nat.zero_add] at ends
  have blankEnd := shown_eq_nil_iff.mp ends
  have counted : ∀ k, kept k = true → ((rs.flatMap keys).count k = 1 ↔
      ∃ q < n, k ∈ pageOf limit rows q ∧ ∀ p < n, k ∈ pageOf limit rows p → p = q) := by
    intro k isKept
    rw [lists, count_pages isKept, filter_length_one_iff List.nodup_range']
    simp
  constructor
  · rintro ⟨others, other, once⟩
    rw [← run.unique other] at once
    have listed : ∀ k q, kept k = true → k ∈ pageOf limit rows q → q < n ∧ ∀ p < n, k ∈ pageOf limit rows p → p = q := by
      intro k q isKept onPage
      obtain ⟨home, before_, atHome, only⟩ :=
        (counted k isKept).mp (once k (List.mem_of_mem_drop (List.mem_of_mem_take onPage)) isKept)
      by_cases inside : q < n
      · rw [only q inside onPage]
        exact ⟨before_, only⟩
      · rcases Nat.eq_or_lt_of_le (Nat.not_lt.mp inside) with same | beyond
        · rw [← same] at onPage
          rw [blankEnd k onPage] at isKept
          cases isKept
        · rw [blankEnd k (page_between sorted positive atHome onPage before_ beyond)] at isKept
          cases isKept
    refine ⟨fun p q k isKept onP onQ => ?_, fun p q earlier found => ?_⟩
    · exact (listed k q isKept onQ).2 p (listed k p isKept onP).1 onP
    · obtain ⟨k, onQ, isKept⟩ := found
      have inside := (listed k q isKept onQ).1
      have shows := goesOn p (Nat.zero_le _) (by omega)
      obtain ⟨x, member⟩ := List.exists_mem_of_ne_nil _ shows
      exact ⟨x, (mem_shown.mp member).1, (mem_shown.mp member).2⟩
  · rintro ⟨single, noBlank⟩
    refine ⟨rs, run, fun k inRows isKept => (counted k isKept).mpr ?_⟩
    obtain ⟨q, onPage⟩ := exists_pageOf positive inRows
    refine ⟨q, ?_, onPage, fun p _ onP => single p q k isKept onP onPage⟩
    by_contra outside
    obtain ⟨x, atEnd, isKeptX⟩ := noBlank n q (Nat.not_lt.mp outside) ⟨k, onPage, isKept⟩
    rw [blankEnd x atEnd] at isKeptX
    cases isKeptX

end Listing

end Pages

end Paging
