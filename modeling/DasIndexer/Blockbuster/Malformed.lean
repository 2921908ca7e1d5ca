import DasIndexer.Blockbuster.Ordering

namespace DasIndexer.Blockbuster

theorem mapM_isSome_iff {α β : Type} {f : α → Option β} {items : List α} :
    (items.mapM f).isSome ↔ ∀ x ∈ items, (f x).isSome := by
  induction items with
  | nil => simp
  | cons x rest ih =>
    rw [List.mapM_cons, List.forall_mem_cons, ← ih]
    cases f x with
    | none => simp
    | some y =>
      cases rest.mapM f with
      | none => simp
      | some ys => simp

/-- The groups that are attached to the outer instruction at a position. -/
def attached (groups : List InnerInstructions) (outerIndex : Nat) : List InnerInstructions :=
  groups.filter (fun ix => ix.index = UInt8.ofNat outerIndex)

/-- The entries of an outer instruction that has these groups of inner ones. -/
def entriesOf (programs : Finset Pubkey) (accountKeys : List Pubkey) (own : List InnerInstructions)
    (outer : CompiledInstruction) : List OrderedIx :=
  let inner := pairs accountKeys (own.flatMap InnerInstructions.instructions)
  hoistKnownPrograms programs inner ++ (known programs (pairs accountKeys [outer])).map (fun ix => (ix, some inner))

/-- All accesses are in bounds, and only groups of its own position are attached to
an outer instruction. -/
structure Safe (programs : Finset Pubkey) (accountKeys : List Pubkey) (outers : List CompiledInstruction)
    (groups : List InnerInstructions) : Prop where
  returns : orderInstructions programs accountKeys outers groups =
    some (outers.zipIdx.flatMap (fun outer => entriesOf programs accountKeys (attached groups outer.2) outer.1))
  attributed : ∀ index < outers.length, ∀ group ∈ attached groups index, group.index.toNat = index

section Bounds
variable {programs : Finset Pubkey} {accountKeys : List Pubkey} {outers : List CompiledInstruction}
  {groups : List InnerInstructions}

theorem mem_attached {index : Nat} {group : InnerInstructions} :
    group ∈ attached groups index ↔ group ∈ groups ∧ group.index.toNat = index % 256 := by
  rw [attached, List.mem_filter, decide_eq_true_eq, ← UInt8.toNat_inj, UInt8.toNat_ofNat']

theorem pair_isSome {ix : CompiledInstruction} : (pair? accountKeys ix).isSome ↔ InRange accountKeys ix := by
  simp [pair?, InRange]

/-- The turn of an outer instruction panics exactly when an inner one attached to it
names no account key. Its own program need not exist. -/
theorem orderOuter_isSome {outer : CompiledInstruction × Nat} :
    (orderOuter programs accountKeys groups outer).isSome ↔
      ∀ group ∈ attached groups outer.2, ∀ ix ∈ group.instructions, InRange accountKeys ix := by
  have inner : ((innerOf groups outer.2).mapM (pair? accountKeys)).isSome ↔
      ∀ group ∈ attached groups outer.2, ∀ ix ∈ group.instructions, InRange accountKeys ix := by
    rw [mapM_isSome_iff]
    simp only [pair_isSome, innerOf, attached, List.mem_flatMap]
    constructor
    · intro all group own ix member
      exact all ix ⟨group, own, member⟩
    · rintro all ix ⟨group, own, member⟩
      exact all group own ix member
  rw [← inner, orderOuter]
  cases (innerOf groups outer.2).mapM (pair? accountKeys) with
  | none => simp
  | some nonHoisted => simp

theorem orderOuter_entries {outer : CompiledInstruction × Nat}
    (inRange : ∀ group ∈ attached groups outer.2, ∀ ix ∈ group.instructions, InRange accountKeys ix) :
    orderOuter programs accountKeys groups outer =
      some (entriesOf programs accountKeys (attached groups outer.2) outer.1) := by
  have inner : (innerOf groups outer.2).mapM (pair? accountKeys) = some (pairs accountKeys (innerOf groups outer.2)) := by
    refine mapM_pairs (fun ix member => ?_)
    obtain ⟨group, own, inGroup⟩ := List.mem_flatMap.mp member
    exact inRange group own ix inGroup
  rw [orderOuter, inner]
  show some _ = some _
  refine congrArg some ?_
  have same : pairs accountKeys (innerOf groups outer.2) =
      pairs accountKeys ((attached groups outer.2).flatMap InnerInstructions.instructions) := rfl
  rw [entriesOf, same]
  refine congrArg (hoistKnownPrograms programs _ ++ ·) ?_
  cases isPair : pair? accountKeys outer.1 with
  | none =>
    have alone : pairs accountKeys [outer.1] = [] := List.filterMap_cons_none isPair
    rw [alone]
    rfl
  | some ix =>
    have alone : pairs accountKeys [outer.1] = [ix] := List.filterMap_cons_some isPair
    rw [alone, known, List.filter_cons, List.filter_nil]
    by_cases isKnown : ix.1 ∈ programs
    · simp [isKnown]
    · simp [isKnown]

/-- A transaction is ordered safely exactly when the inner instructions of all groups
that belong to an outer one name account keys, and no outer instruction is so
late that its position is cut to the index of another one's group. -/
theorem orderInstructions_safe_iff (programs : Finset Pubkey) (accountKeys : List Pubkey)
    (outers : List CompiledInstruction) (groups : List InnerInstructions) :
    Safe programs accountKeys outers groups ↔
      ∀ group ∈ groups, group.index.toNat < outers.length →
        (∀ ix ∈ group.instructions, InRange accountKeys ix) ∧ outers.length ≤ group.index.toNat + 256 := by
  have below : ∀ group : InnerInstructions, group.index.toNat < 256 := fun group => group.index.toNat_lt
  constructor
  · intro safe group member owned
    have own : group ∈ attached groups group.index.toNat :=
      mem_attached.mpr ⟨member, (Nat.mod_eq_of_lt (below group)).symm⟩
    constructor
    · have returned := safe.returns
      rw [orderInstructions, Option.map_eq_some_iff] at returned
      obtain ⟨parts, ran, -⟩ := returned
      have turns := mapM_isSome_iff.mp (Option.isSome_iff_exists.mpr ⟨parts, ran⟩)
      have turn := turns (outers[group.index.toNat], group.index.toNat)
        (List.mk_mem_zipIdx_iff_getElem?.mpr (List.getElem?_eq_getElem owned))
      exact orderOuter_isSome.mp turn group own
    · by_contra late
      have wrapped : group ∈ attached groups (group.index.toNat + 256) := by
        refine mem_attached.mpr ⟨member, ?_⟩
        have small := below group
        omega
      have same := safe.attributed (group.index.toNat + 256) (by omega) group wrapped
      omega
  · intro bounded
    have attributed : ∀ index < outers.length, ∀ group ∈ attached groups index, group.index.toNat = index := by
      intro index inOuters group own
      obtain ⟨member, cut⟩ := mem_attached.mp own
      have small := Nat.mod_le index 256
      have large := (bounded group member (by omega)).2
      omega
    refine ⟨?_, attributed⟩
    have turns : ∀ items : List (CompiledInstruction × Nat), (∀ outer ∈ items, outer ∈ outers.zipIdx) →
        items.mapM (orderOuter programs accountKeys groups) =
          some (items.map (fun outer => entriesOf programs accountKeys (attached groups outer.2) outer.1)) := by
      intro items inOuters
      induction items with
      | nil => rfl
      | cons outer rest ih =>
        have found := List.mk_mem_zipIdx_iff_getElem?.mp (inOuters outer List.mem_cons_self)
        have inList := (List.getElem?_eq_some_iff.mp found).1
        have inRange : ∀ group ∈ attached groups outer.2, ∀ ix ∈ group.instructions, InRange accountKeys ix := by
          intro group own
          have index := attributed outer.2 inList group own
          exact (bounded group (mem_attached.mp own).1 (by omega)).1
        rw [List.mapM_cons, orderOuter_entries inRange, ih (fun other member => inOuters other (List.mem_cons_of_mem _ member))]
        rfl
    rw [orderInstructions, turns _ (fun _ member => member), Option.map_some, List.flatMap_def]

end Bounds

namespace Example

/-- An inner instruction of a program that the transaction does not name, and a
group of the first outer instruction in a transaction of 257. -/
theorem orderInstructions_unsafe :
    orderInstructions programs accountKeys [call 0 []] [{ index := 0, instructions := [call 3 []] }] = none ∧
      ¬ Safe programs accountKeys [call 0 []] [{ index := 0, instructions := [call 3 []] }] ∧
      ¬ Safe programs accountKeys (List.replicate 257 (call 0 [])) [{ index := 0, instructions := [] }] := by
  have panics : orderInstructions programs accountKeys [call 0 []] [{ index := 0, instructions := [call 3 []] }] =
      none := by decide
  refine ⟨panics, fun safe => ?_, fun safe => ?_⟩
  · cases panics.symm.trans safe.returns
  · have same := safe.attributed 256 (by rw [List.length_replicate]; omega) { index := 0, instructions := [] }
      (mem_attached.mpr ⟨List.mem_singleton_self _, rfl⟩)
    revert same
    decide

end Example

end DasIndexer.Blockbuster
