import Mathlib.Algebra.Order.Ring.Nat
import Mathlib.Data.List.Basic

namespace DasIndexer

/-- `serde_json::Value` with integer numbers. Objects keep insertion order, as
the feature `preserve_order` asks. -/
inductive Json where
  | null
  | bool (b : Bool)
  | num (n : Int)
  | str (s : String)
  | arr (items : List Json)
  | obj (entries : List (String × Json))

namespace Json

def field (key : String) (entries : List (String × Json)) : Option Json :=
  (entries.find? (fun entry => entry.1 == key)).map Prod.snd

/-- `Map::insert`: a known key keeps its place, a new one goes to the end. -/
def insertField (key : String) (value : Json) (entries : List (String × Json)) : List (String × Json) :=
  if entries.any (fun entry => entry.1 == key) then
    entries.map (fun entry => if entry.1 == key then (key, value) else entry)
  else entries ++ [(key, value)]

theorem field_insertField (key other : String) (value : Json) (entries : List (String × Json)) :
    field other (insertField key value entries) = if other = key then some value else field other entries := by
  have kept : ∀ entry : String × Json,
      ((if entry.1 == key then (key, value) else entry).1 == other) = (entry.1 == other) := by
    intro entry
    by_cases isKey : entry.1 = key
    · simp [isKey]
    · simp [isKey]
  have known : entries.any (fun entry => entry.1 == key) = (entries.find? (fun entry => entry.1 == key)).isSome :=
    List.isSome_find?.symm
  rw [insertField, known, field, field]
  by_cases same : other = key
  · subst same
    rw [if_pos rfl]
    cases found : entries.find? (fun entry => entry.1 == other) with
    | none => simp [found]
    | some entry =>
      have own : entry.1 = other := by simpa using List.find?_some found
      simp only [Option.isSome_some, if_true, List.find?_map, Function.comp_def, kept, found, Option.map_some]
      rw [if_pos (beq_iff_eq.mpr own)]
  · rw [if_neg same]
    split
    · simp only [List.find?_map, Function.comp_def, kept, Option.map_map]
      refine Option.map_congr (fun entry found => ?_)
      have own : entry.1 = other := by simpa using List.find?_some found
      have notKey : entry.1 ≠ key := fun isKey => same (own.symm.trans isKey)
      rw [if_neg (fun isKey => notKey (beq_iff_eq.mp isKey))]
    · have notKey : (key == other) = false := beq_false_of_ne (fun equal => same equal.symm)
      rw [List.find?_append]
      simp [notKey]

/-- `Map::remove` with `preserve_order`: the last entry takes the free place. -/
def removeField (key : String) (entries : List (String × Json)) : List (String × Json) :=
  match entries.findIdx? (fun entry => entry.1 == key), entries.getLast? with
  | some i, some last => if i + 1 = entries.length then entries.dropLast else entries.dropLast.set i last
  | _, _ => entries

/-- `get_mut(key)` on an object followed by a change of the value found there. -/
def modifyField (key : String) (change : Json → Json) (entries : List (String × Json)) :
    List (String × Json) :=
  entries.map (fun entry => if entry.1 == key then (entry.1, change entry.2) else entry)

/-- The operator `value ->> key` of Postgres on a text field. -/
def textAt (key : String) : Json → Option String
  | .obj entries => match field key entries with
    | some (.str s) => some s
    | _ => none
  | _ => none

end Json

end DasIndexer
