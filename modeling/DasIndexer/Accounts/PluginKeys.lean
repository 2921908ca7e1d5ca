import DasIndexer.Accounts.MplCore
import DasIndexer.Mainnet
import Mathlib.Data.List.Forall2
import Mathlib.Data.List.Nodup

namespace DasIndexer

namespace Json

/-- A property of all values follows from the values inside. -/
@[elab_as_elim]
theorem inductionOn {motive : Json → Prop} (null : motive .null) (bool : ∀ b, motive (.bool b))
    (num : ∀ n, motive (.num n)) (str : ∀ s, motive (.str s))
    (arr : ∀ items, (∀ item ∈ items, motive item) → motive (.arr items))
    (obj : ∀ entries, (∀ entry ∈ entries, motive entry.2) → motive (.obj entries)) : ∀ json, motive json
  | .null => null
  | .bool b => bool b
  | .num n => num n
  | .str s => str s
  | .arr items => arr items (fun item _ => inductionOn null bool num str arr obj item)
  | .obj entries => obj entries (fun entry member => by
    have smaller := List.sizeOf_lt_of_mem member
    have inside : sizeOf entry.2 < sizeOf entry := by
      obtain ⟨key, value⟩ := entry
      simp
    exact inductionOn null bool num str arr obj entry.2)

/-- The keys of every object in a value, at every depth, have a property. -/
inductive EveryObject (P : List String → Prop) : Json → Prop
  | null : EveryObject P .null
  | bool (b : Bool) : EveryObject P (.bool b)
  | num (n : Int) : EveryObject P (.num n)
  | str (s : String) : EveryObject P (.str s)
  | arr {items : List Json} : (∀ item ∈ items, EveryObject P item) → EveryObject P (.arr items)
  | obj {entries : List (String × Json)} : P (entries.map Prod.fst) → (∀ entry ∈ entries, EveryObject P entry.2) →
      EveryObject P (.obj entries)

theorem EveryObject.imp₂ {P Q R : List String → Prop} (imp : ∀ keys, P keys → Q keys → R keys) {json : Json}
    (first : json.EveryObject P) (second : json.EveryObject Q) : json.EveryObject R := by
  induction first with
  | null => exact .null
  | bool b => exact .bool b
  | num n => exact .num n
  | str s => exact .str s
  | arr _ ih =>
    cases second with
    | arr others => exact .arr (fun item member => ih item member (others item member))
  | obj keys _ ih =>
    cases second with
    | obj otherKeys others => exact .obj (imp _ keys otherKeys) (fun entry member => ih entry member (others entry member))

@[simp] theorem everyObject_arr_iff {P : List String → Prop} {items : List Json} :
    EveryObject P (.arr items) ↔ ∀ item ∈ items, item.EveryObject P := by
  refine ⟨fun every => ?_, .arr⟩
  cases every with
  | arr inside => exact inside

@[simp] theorem everyObject_obj_iff {P : List String → Prop} {entries : List (String × Json)} :
    EveryObject P (.obj entries) ↔ P (entries.map Prod.fst) ∧ ∀ entry ∈ entries, entry.2.EveryObject P := by
  refine ⟨fun every => ?_, fun both => .obj both.1 both.2⟩
  cases every with
  | obj own inside => exact ⟨own, inside⟩

attribute [simp] EveryObject.null EveryObject.bool EveryObject.num EveryObject.str

/-- A value with the keys of its objects renamed: an object has the renamed entries
of the original, in some order, and no others. -/
inductive Renamed (rename : String → String) : Json → Json → Prop
  | null : Renamed rename .null .null
  | bool (b : Bool) : Renamed rename (.bool b) (.bool b)
  | num (n : Int) : Renamed rename (.num n) (.num n)
  | str (s : String) : Renamed rename (.str s) (.str s)
  | arr {items others : List Json} : List.Forall₂ (Renamed rename) items others →
      Renamed rename (.arr items) (.arr others)
  | obj {entries renamed others : List (String × Json)} :
      renamed.map Prod.fst = (entries.map Prod.fst).map rename →
      List.Forall₂ (Renamed rename) (entries.map Prod.snd) (renamed.map Prod.snd) → others.Perm renamed →
      Renamed rename (.obj entries) (.obj others)

/-- The equality of `serde_json` values, for which the entries of an object have no
order. -/
def Same : Json → Json → Prop := Renamed id

section Entries
variable {key : String} {value : Json} {entries : List (String × Json)}

theorem field_of_mem (distinct : (entries.map Prod.fst).Nodup) (member : (key, value) ∈ entries) :
    field key entries = some value := by
  induction entries with
  | nil => cases member
  | cons entry rest ih =>
    rw [List.map_cons, List.nodup_cons] at distinct
    rw [field, List.find?_cons]
    rcases List.mem_cons.mp member with same | later
    · rw [← same]
      simp
    · have other : (entry.1 == key) = false := by
        rw [beq_eq_false_iff_ne]
        intro same
        exact distinct.1 (same ▸ List.mem_map_of_mem later)
      rw [other]
      exact ih distinct.2 later

theorem insertField_new (new : key ∉ entries.map Prod.fst) :
    insertField key value entries = entries ++ [(key, value)] := by
  refine if_neg (fun found => new ?_)
  obtain ⟨entry, member, same⟩ := List.any_eq_true.mp found
  rw [← beq_iff_eq.mp same]
  exact List.mem_map_of_mem member

/-- Taking out an entry leaves the others. -/
theorem removeField_perm (distinct : (entries.map Prod.fst).Nodup) (member : (key, value) ∈ entries) :
    ((key, value) :: removeField key entries).Perm entries := by
  obtain ⟨front, rest, split⟩ := List.append_of_mem member
  have apart : key ∉ front.map Prod.fst := by
    rw [split, List.map_append, List.nodup_append] at distinct
    intro early
    exact distinct.2.2 key early key List.mem_cons_self rfl
  have place : entries.findIdx? (fun entry => entry.1 == key) = some front.length := by
    rw [split, List.findIdx?_append, List.findIdx?_eq_none_iff.mpr ?_, List.findIdx?_cons]
    · simp
    · intro entry inFront
      rw [beq_eq_false_iff_ne]
      intro same
      exact apart (same ▸ List.mem_map_of_mem inFront)
  cases rest using List.reverseRecOn with
  | nil =>
    have last : entries.getLast? = some (key, value) := by simp [split]
    have size : front.length + 1 = entries.length := by simp [split]
    rw [removeField, place, last]
    simp only [size, if_true]
    rw [split, List.dropLast_concat]
    exact (List.perm_append_singleton (key, value) front).symm
  | append_singleton middle final _ =>
    have last : entries.getLast? = some final := by
      rw [split, ← List.cons_append, ← List.append_assoc, List.getLast?_concat]
    have size : ¬ front.length + 1 = entries.length := by simp [split]
    have shorter : entries.dropLast = front ++ (key, value) :: middle := by
      rw [split, ← List.cons_append, ← List.append_assoc, List.dropLast_concat]
    rw [removeField, place, last]
    simp only [size, if_false]
    have swapped : (front ++ (key, value) :: middle).set front.length final = front ++ final :: middle := by simp
    rw [shorter, swapped, split]
    have moved : ((key, value) :: (front ++ final :: middle)).Perm (front ++ (key, value) :: final :: middle) :=
      List.perm_middle.symm
    have back : (final :: middle).Perm (middle ++ [final]) := (List.perm_append_singleton final middle).symm
    exact moved.trans ((back.cons (key, value)).append_left front)

end Entries

end Json

namespace MplCore

section Keys
variable [Programs]

theorem convertItems_eq_map (items : List Json) : convertItems items = items.map convertKeysToSnakeCase := by
  induction items with
  | nil => rfl
  | cons item rest ih => rw [convertItems, ih, List.map_cons]

theorem convertEntries_eq_map (entries : List (String × Json)) :
    convertEntries entries = entries.map (fun entry => (entry.1, convertKeysToSnakeCase entry.2)) := by
  induction entries with
  | nil => rfl
  | cons entry rest ih => rw [convertEntries, ih, List.map_cons]

theorem convertEntries_keys (entries : List (String × Json)) :
    (convertEntries entries).map Prod.fst = entries.map Prod.fst := by
  rw [convertEntries_eq_map, List.map_map]
  rfl

/-- An entry under its new name. -/
def renamedEntry (entry : String × Json) : String × Json := (Programs.toSnakeCase entry.1, entry.2)

/-- One turn of the loop over the keys. -/
def renameKey (obj : List (String × Json)) (key : String) : List (String × Json) :=
  match Json.field key obj with
  | some value => Json.insertField (Programs.toSnakeCase key) value (Json.removeField key obj)
  | none => obj

/-- Keys whose new names are pairwise different. -/
def Apart (keys : List String) : Prop :=
  ∀ key ∈ keys, ∀ other ∈ keys, Programs.toSnakeCase key = Programs.toSnakeCase other → key = other

variable (idempotent : ∀ key, Programs.toSnakeCase (Programs.toSnakeCase key) = Programs.toSnakeCase key)
include idempotent

/-- A new name is not the name of another key: that key would be renamed to itself,
and so have the same new name. -/
theorem Apart.new_name {keys : List String} (apart : Apart keys) {key : String} (member : key ∈ keys)
    (known : Programs.toSnakeCase key ∈ keys) : Programs.toSnakeCase key = key :=
  apart _ known key member (idempotent key)

/-- At every turn of the loop the names in the object are different. -/
theorem Apart.names {done todo : List String} (apart : Apart (done ++ todo)) (distinct : (done ++ todo).Nodup) :
    (done.map Programs.toSnakeCase ++ todo).Nodup := by
  obtain ⟨first, second, disjoint⟩ := List.nodup_append.mp distinct
  refine List.nodup_append.mpr ⟨?_, second, ?_⟩
  · refine first.map_on (fun key member other otherMember same => ?_)
    exact apart key (List.mem_append_left _ member) other (List.mem_append_left _ otherMember) same
  · intro name renamed waiting inTodo same
    obtain ⟨key, member, rfl⟩ := List.mem_map.mp renamed
    have known : Programs.toSnakeCase key ∈ done ++ todo := List.mem_append_right _ (same ▸ inTodo)
    have fixed := apart.new_name idempotent (List.mem_append_left _ member) known
    exact disjoint key member waiting inTodo (fixed.symm.trans same)

theorem renamed_names {done : List (String × Json)} (todo : List (String × Json))
    (apart : Apart ((done ++ todo).map Prod.fst)) (distinct : ((done ++ todo).map Prod.fst).Nodup) :
    ((done.map renamedEntry ++ todo).map Prod.fst).Nodup := by
  rw [List.map_append] at apart distinct
  have names := apart.names idempotent distinct
  rw [List.map_map] at names
  rw [List.map_append, List.map_map]
  exact names

/-- While the loop runs, the object has the entries that were renamed and those that
were not. -/
theorem renameKeys_loop (done todo : List (String × Json)) (apart : Apart ((done ++ todo).map Prod.fst))
    (distinct : ((done ++ todo).map Prod.fst).Nodup) {obj : List (String × Json)}
    (now : obj.Perm (done.map renamedEntry ++ todo)) :
    ((todo.map Prod.fst).foldl renameKey obj).Perm ((done ++ todo).map renamedEntry) := by
  induction todo generalizing done obj with
  | nil =>
    rw [List.append_nil] at now ⊢
    exact now
  | cons entry rest ih =>
    obtain ⟨key, value⟩ := entry
    have names := (now.map Prod.fst).nodup_iff.mpr (renamed_names idempotent _ apart distinct)
    have member := now.symm.subset (List.mem_append_right _ List.mem_cons_self)
    have removed : (Json.removeField key obj).Perm (done.map renamedEntry ++ rest) :=
      ((Json.removeField_perm names member).trans (now.trans List.perm_middle)).cons_inv
    have regroup : done ++ (key, value) :: rest = (done ++ [(key, value)]) ++ rest := by simp
    rw [regroup] at apart distinct ⊢
    have put : (Json.removeField key obj ++ [renamedEntry (key, value)]).Perm
        ((done ++ [(key, value)]).map renamedEntry ++ rest) := by
      refine (removed.append_right _).trans ?_
      rw [List.map_append, List.append_assoc, List.append_assoc]
      exact List.perm_append_comm.append_left _
    have new : Programs.toSnakeCase key ∉ (Json.removeField key obj).map Prod.fst := by
      have nextNames := (put.map Prod.fst).nodup_iff.mpr (renamed_names idempotent _ apart distinct)
      rw [List.map_append, List.nodup_append] at nextNames
      exact fun early => nextNames.2.2 _ early _ List.mem_cons_self rfl
    refine ih (done ++ [(key, value)]) apart distinct ?_
    rw [renameKey, Json.field_of_mem names member]
    show (Json.insertField (Programs.toSnakeCase key) value (Json.removeField key obj)).Perm _
    rw [Json.insertField_new new]
    exact put

theorem renameKeys_perm {entries : List (String × Json)} (apart : Apart (entries.map Prod.fst))
    (distinct : (entries.map Prod.fst).Nodup) : (renameKeys entries).Perm (entries.map renamedEntry) :=
  renameKeys_loop idempotent [] entries apart distinct (.refl entries)

/-- Each object gets the renamed entries of the original. -/
theorem convertKeysToSnakeCase_renamed {rename : String → String} {json : Json} (suitable : json.EveryObject
      (fun keys => keys.Nodup ∧ Apart keys ∧ ∀ key ∈ keys, rename key = Programs.toSnakeCase key)) :
    Json.Renamed rename json (convertKeysToSnakeCase json) := by
  induction json using Json.inductionOn with
  | null => exact .null
  | bool b => exact .bool b
  | num n => exact .num n
  | str s => exact .str s
  | arr items ih =>
    cases suitable with
    | arr inside =>
      rw [convertKeysToSnakeCase, convertItems_eq_map]
      refine .arr (List.forall₂_map_right_iff.mpr (List.forall₂_same.mpr (fun item member => ?_)))
      exact ih item member (inside item member)
  | obj entries ih =>
    cases suitable with
    | obj own inside =>
      obtain ⟨distinct, apart, agrees⟩ := own
      rw [← convertEntries_keys] at distinct apart
      refine .obj ?_ ?_ (renameKeys_perm idempotent apart distinct)
      · rw [convertEntries_eq_map, List.map_map, List.map_map, List.map_map]
        exact List.map_congr_left (fun entry member => (agrees entry.1 (List.mem_map_of_mem member)).symm)
      · rw [convertEntries_eq_map, List.map_map, List.map_map, List.forall₂_map_left_iff, List.forall₂_map_right_iff]
        exact List.forall₂_same.mpr (fun entry member => ih entry member (inside entry member))

/-- The keys of a converted value are different in each object, and are their own
new names. -/
theorem convertKeysToSnakeCase_fixed {json : Json}
    (suitable : json.EveryObject (fun keys => keys.Nodup ∧ Apart keys)) :
    (convertKeysToSnakeCase json).EveryObject
      (fun keys => keys.Nodup ∧ ∀ key ∈ keys, Programs.toSnakeCase key = key) := by
  induction json using Json.inductionOn with
  | null => exact .null
  | bool b => exact .bool b
  | num n => exact .num n
  | str s => exact .str s
  | arr items ih =>
    cases suitable with
    | arr inside =>
      rw [convertKeysToSnakeCase, convertItems_eq_map]
      refine .arr (fun item member => ?_)
      obtain ⟨original, inItems, rfl⟩ := List.mem_map.mp member
      exact ih original inItems (inside original inItems)
  | obj entries ih =>
    cases suitable with
    | obj own inside =>
      obtain ⟨distinct, apart⟩ := own
      rw [← convertEntries_keys] at distinct apart
      have renamed := renameKeys_perm idempotent apart distinct
      refine .obj ⟨?_, ?_⟩ ?_
      · have names := renamed_names idempotent []
          (by rwa [List.append_nil]) (by rwa [List.append_nil])
        rw [List.append_nil] at names
        exact (renamed.map Prod.fst).nodup_iff.mpr names
      · intro key member
        obtain ⟨entry, inRenamed, rfl⟩ := List.mem_map.mp ((renamed.map Prod.fst).subset member)
        obtain ⟨original, -, rfl⟩ := List.mem_map.mp inRenamed
        exact idempotent original.1
      · intro entry member
        obtain ⟨converted, inConverted, rfl⟩ := List.mem_map.mp (renamed.subset member)
        rw [convertEntries_eq_map] at inConverted
        obtain ⟨original, inEntries, rfl⟩ := List.mem_map.mp inConverted
        exact ih original inEntries (inside original inEntries)

end Keys

/-- Where the new names are different in each object, the conversion renames every
key and loses nothing, and a second conversion leaves an equal value. -/
theorem convertKeysToSnakeCase_lossless [Programs]
    (idempotent : ∀ key, Programs.toSnakeCase (Programs.toSnakeCase key) = Programs.toSnakeCase key) (json : Json)
    (valid : json.EveryObject List.Nodup) (injective : json.EveryObject Apart) :
    json.Renamed Programs.toSnakeCase (convertKeysToSnakeCase json) ∧
      (convertKeysToSnakeCase json).Same (convertKeysToSnakeCase (convertKeysToSnakeCase json)) := by
  constructor
  · refine convertKeysToSnakeCase_renamed idempotent ?_
    exact valid.imp₂ (fun _ distinct apart => ⟨distinct, apart, fun _ _ => rfl⟩) injective
  · have fixed := convertKeysToSnakeCase_fixed idempotent (valid.imp₂ (fun _ => And.intro) injective)
    refine convertKeysToSnakeCase_renamed idempotent (fixed.imp₂ (fun keys both _ => ?_) fixed)
    refine ⟨both.1, fun key member other inKeys same => ?_, fun key member => (both.2 key member).symm⟩
    rw [← both.2 key member, same, both.2 other inKeys]

/-- A plugin whose data have keys in camel case, next to keys that are in snake case. -/
def Example.plugins : Json :=
  .obj [("UpdateDelegate", .obj [("additionalDelegates", .arr [.str "a", .null]), ("offset", .num 3)]), ("index", .num 0)]

/-- The new names of the keys of the example. -/
def Example.toSnakeCase (key : String) : String :=
  if key = "UpdateDelegate" then "update_delegate"
  else if key = "additionalDelegates" then "additional_delegates" else key

@[reducible] def Example.snakeCase : Programs := { Mainnet.programs with toSnakeCase := Example.toSnakeCase }

theorem convertKeysToSnakeCase_plugin_data :
    Example.plugins.Renamed Example.toSnakeCase (@convertKeysToSnakeCase Example.snakeCase Example.plugins) ∧
      (@convertKeysToSnakeCase Example.snakeCase Example.plugins).Same
        (@convertKeysToSnakeCase Example.snakeCase (@convertKeysToSnakeCase Example.snakeCase Example.plugins)) := by
  refine @convertKeysToSnakeCase_lossless Example.snakeCase ?_ Example.plugins ?_ ?_
  · intro key
    show Example.toSnakeCase (Example.toSnakeCase key) = Example.toSnakeCase key
    by_cases first : key = "UpdateDelegate"
    · rw [first]
      decide
    · by_cases second : key = "additionalDelegates"
      · rw [second]
        decide
      · simp [Example.toSnakeCase, first, second]
  · simp [Example.plugins]
  · have outer : @Apart Example.snakeCase ["UpdateDelegate", "index"] := by
      unfold Apart
      decide
    have inner : @Apart Example.snakeCase ["additionalDelegates", "offset"] := by
      unfold Apart
      decide
    simp [Example.plugins, outer, inner]

end MplCore

end DasIndexer
