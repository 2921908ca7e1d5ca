import Mathlib.Data.List.Induction
import Mathlib.Data.List.Sort

namespace IndexMap
variable {K V α : Type} [DecidableEq K]

/-- Insertion into a map that lists its keys in the order in which they came: a
known key keeps its place. -/
def insert (key : K) (value : V) (entries : List (K × V)) : List (K × V) :=
  if entries.any (fun entry => entry.1 = key) then
    entries.map (fun entry => if entry.1 = key then (key, value) else entry)
  else entries ++ [(key, value)]

/-- A change of the value of one key, if it is there. -/
def modify (key : K) (change : V → V) (entries : List (K × V)) : List (K × V) :=
  entries.map (fun entry => if entry.1 = key then (entry.1, change entry.2) else entry)

def insertSome (key : K) (value : Option V) (entries : List (K × V)) : List (K × V) :=
  match value with
  | some value => insert key value entries
  | none => entries

section Keys

/-- A key that is already there does not come again. -/
theorem eraseDups_concat (l : List K) (x : K) :
    (l ++ [x]).eraseDups = if x ∈ l then l.eraseDups else l.eraseDups ++ [x] := by
  rw [List.eraseDups_append, List.removeAll]
  by_cases known : x ∈ l
  · rw [List.filter_cons_of_neg (by simpa using known), if_pos known]
    simp
  · rw [List.filter_cons_of_pos (by simpa using known), if_neg known]
    simp [List.eraseDups_cons]

theorem nodup_eraseDups (l : List K) : l.eraseDups.Nodup := by
  induction l using List.reverseRecOn with
  | nil => simp
  | append_singleton before last ih =>
    rw [eraseDups_concat]
    split
    · exact ih
    · rename_i new
      refine List.nodup_append.mpr ⟨ih, List.nodup_singleton _, fun x old y isLast same => new ?_⟩
      rw [← List.mem_singleton.mp isLast, ← same]
      exact List.mem_eraseDups.mp old

theorem eraseDups_sublist (l : List K) : l.eraseDups.Sublist l := by
  induction l using List.reverseRecOn with
  | nil => simp
  | append_singleton before last ih =>
    rw [eraseDups_concat]
    split
    · exact ih.trans (List.sublist_append_left _ _)
    · exact ih.append (List.Sublist.refl _)

theorem filter_eraseDups (l : List K) (p : K → Bool) : l.eraseDups.filter p = (l.filter p).eraseDups := by
  induction l using List.reverseRecOn with
  | nil => rfl
  | append_singleton before last ih =>
    rw [eraseDups_concat, List.filter_append]
    by_cases passes : p last = true
    · rw [List.filter_cons_of_pos passes, List.filter_nil, eraseDups_concat]
      by_cases known : last ∈ before
      · rw [if_pos known, if_pos (List.mem_filter.mpr ⟨known, passes⟩), ih]
      · rw [if_neg known, if_neg (fun found => known (List.mem_filter.mp found).1), List.filter_append, ih, List.filter_cons_of_pos passes,
          List.filter_nil]
    · rw [List.filter_cons_of_neg passes, List.filter_nil, List.append_nil]
      by_cases known : last ∈ before
      · rw [if_pos known, ih]
      · rw [if_neg known, List.filter_append, ih, List.filter_cons_of_neg passes, List.filter_nil, List.append_nil]

section Insert
variable {key : K} {entries : List (K × V)}

theorem keys_insert (key : K) (value : V) (entries : List (K × V)) :
    (insert key value entries).map Prod.fst =
      if key ∈ entries.map Prod.fst then entries.map Prod.fst else entries.map Prod.fst ++ [key] := by
  have known : entries.any (fun entry => entry.1 = key) = true ↔ key ∈ entries.map Prod.fst := by
    simp
  unfold insert
  by_cases present : key ∈ entries.map Prod.fst
  · rw [if_pos (known.mpr present), if_pos present, List.map_map]
    refine List.map_congr_left (fun entry _ => ?_)
    by_cases same : entry.1 = key
    · simp [same]
    · simp [same]
  · rw [if_neg (fun any => present (known.mp any)), if_neg present, List.map_append]
    rfl

theorem mem_keys_insert {key other : K} {value : V} {entries : List (K × V)} :
    other ∈ (insert key value entries).map Prod.fst ↔ other = key ∨ other ∈ entries.map Prod.fst := by
  rw [keys_insert]
  split
  · rename_i present
    refine ⟨Or.inr, fun either => ?_⟩
    rcases either with same | old
    · rwa [same]
    · exact old
  · simp [or_comm]

theorem nodup_keys_insert {key : K} {value : V} {entries : List (K × V)} (distinct : (entries.map Prod.fst).Nodup) :
    ((insert key value entries).map Prod.fst).Nodup := by
  rw [keys_insert]
  split
  · exact distinct
  · rename_i new
    refine List.nodup_append.mpr ⟨distinct, List.nodup_singleton key, fun x old y last same => new ?_⟩
    rw [← List.mem_singleton.mp last, ← same]
    exact old

theorem mem_insert {key : K} {value : V} {entries : List (K × V)} {entry : K × V}
    (member : entry ∈ insert key value entries) : entry = (key, value) ∨ entry ∈ entries := by
  unfold insert at member
  split at member
  · obtain ⟨old, inEntries, same⟩ := List.mem_map.mp member
    split at same
    · exact Or.inl same.symm
    · exact Or.inr (same ▸ inEntries)
  · rcases List.mem_append.mp member with old | last
    · exact Or.inr old
    · exact Or.inl (List.mem_singleton.mp last)

end Insert

end Keys

section Loops

/-- Inserting what is found under the keys of a list, where the key determines
what is found. -/
theorem foldl_insertSome {items : List α} {key : α → K} {found : α → Option V} (value : K → Option V)
    (determined : ∀ x ∈ items, found x = value (key x)) :
    items.foldl (fun entries x => insertSome (key x) (found x) entries) [] =
      ((items.map key).filter (fun k => (value k).isSome)).eraseDups.filterMap
        (fun k => (value k).map (fun v => (k, v))) := by
  induction items using List.reverseRecOn with
  | nil => rfl
  | append_singleton before last ih =>
    have earlier := ih (fun x member => determined x (List.mem_append_left _ member))
    rw [List.foldl_append, earlier, List.foldl_cons, List.foldl_nil,
      determined last (List.mem_append_right _ List.mem_cons_self), List.map_append, List.filter_append]
    cases stored : value (key last) with
    | none => simp [insertSome, stored]
    | some v =>
      rw [List.map_cons, List.map_nil, List.filter_cons_of_pos (by rw [stored]; rfl), List.filter_nil,
        eraseDups_concat, insertSome, insert]
      have knownIff : (((before.map key).filter (fun k => (value k).isSome)).eraseDups.filterMap
            (fun k => (value k).map (fun v => (k, v)))).any (fun entry => entry.1 = key last) = true ↔
          key last ∈ (before.map key).filter (fun k => (value k).isSome) := by
        rw [List.any_eq_true]
        constructor
        · rintro ⟨entry, member, same⟩
          obtain ⟨k, inKeys, isEntry⟩ := List.mem_filterMap.mp member
          obtain ⟨w, -, rfl⟩ := Option.map_eq_some_iff.mp isEntry
          rw [decide_eq_true_eq] at same
          rw [← same]
          exact List.mem_eraseDups.mp inKeys
        · intro member
          refine ⟨(key last, v), List.mem_filterMap.mpr ⟨key last, List.mem_eraseDups.mpr member, ?_⟩, by simp⟩
          rw [stored, Option.map_some]
      by_cases known : key last ∈ (before.map key).filter (fun k => (value k).isSome)
      · rw [if_pos (knownIff.mpr known), if_pos known]
        refine (List.map_congr_left (fun entry member => ?_)).trans (List.map_id _)
        obtain ⟨k, -, isEntry⟩ := List.mem_filterMap.mp member
        obtain ⟨w, isValue, rfl⟩ := Option.map_eq_some_iff.mp isEntry
        by_cases same : k = key last
        · subst same
          rw [stored, Option.some_inj] at isValue
          rw [if_pos rfl, isValue]
          rfl
        · rw [if_neg same]
          rfl
      · rw [if_neg (fun present => known (knownIff.mp present)), if_neg known, List.filterMap_append]
        simp [stored]

/-- What such a map has under a key. -/
theorem lookup_filterMap (keys : List K) (value : K → Option V) (key : K) :
    (keys.filterMap (fun k => (value k).map (fun v => (k, v)))).lookup key = if key ∈ keys then value key else none := by
  induction keys with
  | nil => rfl
  | cons first rest ih =>
    cases stored : value first with
    | none =>
      rw [List.filterMap_cons_none (by rw [stored]; rfl), ih]
      by_cases same : key = first
      · simp [same, stored]
      · simp [same]
    | some v =>
      rw [List.filterMap_cons_some (by rw [stored]; rfl), List.lookup_cons, ih]
      by_cases same : key = first
      · simp [same, stored]
      · have other : (key == first) = false := beq_false_of_ne same
        simp [same, other]

/-- A loop that changes one entry after the other changes each entry by the
rows that carry its key, in their order. -/
theorem foldl_modify {rows : List α} {key : α → K} {change : α → V → V} (entries : List (K × V)) :
    rows.foldl (fun entries row => modify (key row) (change row) entries) entries =
      entries.map (fun entry =>
        (entry.1, (rows.filter (fun row => key row = entry.1)).foldl (fun v row => change row v) entry.2)) := by
  induction rows generalizing entries with
  | nil => simp
  | cons row rest ih =>
    rw [List.foldl_cons, ih, modify, List.map_map]
    refine List.map_congr_left (fun entry _ => ?_)
    by_cases same : entry.1 = key row
    · simp [same]
    · have other : key row ≠ entry.1 := fun equal => same equal.symm
      simp [same, other]

end Loops

section Sorting

/-- Sorting is stable: rows that are all tied with each other keep their order. -/
theorem filter_insertionSort (r : α → α → Prop) [DecidableRel r] (p : α → Bool) (l : List α)
    (tied : ∀ x y, p x = true → p y = true → r x y) : (l.insertionSort r).filter p = l.filter p := by
  have ordered : (l.filter p).Pairwise r := by
    refine List.pairwise_iff_forall_sublist.mpr (fun sub => tied _ _ ?_ ?_)
    · exact (List.mem_filter.mp (sub.subset List.mem_cons_self)).2
    · exact (List.mem_filter.mp (sub.subset (List.mem_cons_of_mem _ List.mem_cons_self))).2
  have within := (List.sublist_insertionSort ordered List.filter_sublist).filter p
  rw [List.filter_filter] at within
  simp only [Bool.and_self] at within
  exact (within.eq_of_length ((List.perm_insertionSort r l).filter p).length_eq.symm).symm

end Sorting

end IndexMap
