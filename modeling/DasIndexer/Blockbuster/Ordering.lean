import DasIndexer.Bytes
import DasIndexer.Lib.Segments
import Mathlib.Data.Finset.Basic
import Mathlib.Data.List.Perm.Basic
import Mathlib.Data.List.Nodup

namespace DasIndexer.Blockbuster

structure CompiledInstruction where
  programIdIndex : UInt8
  accounts : List UInt8
  data : Bytes
  deriving DecidableEq

/-- The CPIs of the outer instruction at `index`, in the order in which they were
called. -/
structure InnerInstructions where
  index : UInt8
  instructions : List CompiledInstruction

abbrev IxPair := Pubkey × CompiledInstruction

/-- A hoisted instruction with the inner instructions attached to it. -/
abbrev OrderedIx := IxPair × Option (List IxPair)

def hoistKnownPrograms (programs : Finset Pubkey) (ixPairs : List IxPair) : List OrderedIx :=
  (ixPairs.zipIdx.filter (fun entry => entry.1.1 ∈ programs)).map (fun ((pid, ci), index) =>
    ((pid, ci), some ((ixPairs.drop (index + 1)).takeWhile (fun inner => inner.1 ≠ pid))))

/-- `account_keys.get(..)`, with the instruction beside it. -/
def pair? (accountKeys : List Pubkey) (ix : CompiledInstruction) : Option IxPair :=
  (accountKeys[ix.programIdIndex.toNat]?).map (fun pid => (pid, ix))

/-- The groups whose index is the position of the outer instruction, cast to `u8`. -/
def innerOf (metaInnerInstructions : List InnerInstructions) (outerIndex : Nat) : List CompiledInstruction :=
  (metaInnerInstructions.filter (fun ix => ix.index = UInt8.ofNat outerIndex)).flatMap
    InnerInstructions.instructions

section Order
variable (programs : Finset Pubkey) (accountKeys : List Pubkey)

/-- One turn of the loop; `none` when a program index of an inner instruction is
out of bounds, which panics. An outer one is only reported. -/
def orderOuter (metaInnerInstructions : List InnerInstructions) (outer : CompiledInstruction × Nat) :
    Option (List OrderedIx) := do
  let nonHoisted ← (innerOf metaInnerInstructions outer.2).mapM (pair? accountKeys)
  let own := match pair? accountKeys outer.1 with
    | some (outerProgramId, messageInstruction) =>
      if outerProgramId ∈ programs then [((outerProgramId, messageInstruction), some nonHoisted)] else []
    | none => []
  return hoistKnownPrograms programs nonHoisted ++ own

def orderInstructions (messageInstructions : List CompiledInstruction)
    (metaInnerInstructions : List InnerInstructions) : Option (List OrderedIx) :=
  (messageInstructions.zipIdx.mapM (orderOuter programs accountKeys metaInnerInstructions)).map List.flatten

end Order

section Attribution
variable {programs : Finset Pubkey} {accountKeys : List Pubkey} {outers : List CompiledInstruction}
  {groups : List InnerInstructions}

/-- The program index of the instruction names an account key. -/
def InRange (accountKeys : List Pubkey) (ix : CompiledInstruction) : Prop :=
  ix.programIdIndex.toNat < accountKeys.length

instance (ix : CompiledInstruction) : Decidable (InRange accountKeys ix) := inferInstanceAs (Decidable (_ < _))

/-- The instructions with their programs. -/
def pairs (accountKeys : List Pubkey) (ixs : List CompiledInstruction) : List IxPair :=
  ixs.filterMap (pair? accountKeys)

def known (programs : Finset Pubkey) (ixPairs : List IxPair) : List IxPair :=
  ixPairs.filter (fun ix => ix.1 ∈ programs)

/-- The instructions of the one group with the index. -/
def groupOf (groups : List InnerInstructions) (index : Nat) : List CompiledInstruction :=
  ((groups.find? (fun group => group.index.toNat = index)).map InnerInstructions.instructions).getD []

/-- Program indices in range, fewer than 256 outer instructions and at most one
group for an index. -/
structure WellFormed (accountKeys : List Pubkey) (outers : List CompiledInstruction)
    (groups : List InnerInstructions) : Prop where
  outer : ∀ ix ∈ outers, InRange accountKeys ix
  inner : ∀ group ∈ groups, ∀ ix ∈ group.instructions, InRange accountKeys ix
  few : outers.length < 256
  distinct : (groups.map InnerInstructions.index).Nodup

theorem pair_inRange {ix : CompiledInstruction} (inRange : InRange accountKeys ix) :
    ∃ pid, pair? accountKeys ix = some (pid, ix) := by
  unfold InRange at inRange
  exact ⟨_, by rw [pair?, List.getElem?_eq_getElem inRange, Option.map_some]⟩

theorem mapM_pairs {ixs : List CompiledInstruction} (inRange : ∀ ix ∈ ixs, InRange accountKeys ix) :
    ixs.mapM (pair? accountKeys) = some (pairs accountKeys ixs) := by
  induction ixs with
  | nil => rfl
  | cons ix rest ih =>
    obtain ⟨pid, isPair⟩ := pair_inRange (inRange ix List.mem_cons_self)
    have later := ih (fun other member => inRange other (List.mem_cons_of_mem _ member))
    have split : pairs accountKeys (ix :: rest) = (pid, ix) :: pairs accountKeys rest :=
      List.filterMap_cons_some isPair
    rw [List.mapM_cons, isPair, later, split]
    rfl

theorem groupOf_eq (distinct : (groups.map InnerInstructions.index).Nodup) (index : Nat) :
    groupOf groups index =
      (groups.filter (fun group => group.index.toNat = index)).flatMap InnerInstructions.instructions := by
  induction groups with
  | nil => rfl
  | cons group rest ih =>
    have fresh := (List.nodup_cons.mp distinct).1
    have later := ih (List.nodup_cons.mp distinct).2
    rw [groupOf, List.filter_cons, List.find?_cons]
    by_cases same : group.index.toNat = index
    · have none : rest.filter (fun other => other.index.toNat = index) = [] := by
        rw [List.filter_eq_nil_iff]
        intro other member sameIndex
        rw [decide_eq_true_eq, ← same, UInt8.toNat_inj] at sameIndex
        exact fresh (sameIndex ▸ List.mem_map_of_mem member)
      rw [if_pos (decide_eq_true same), decide_eq_true same, none]
      simp
    · rw [if_neg (by simpa using same), decide_eq_false same]
      exact later

/-- Below 256 the cast of a position to `u8` loses nothing. -/
theorem innerOf_eq (distinct : (groups.map InnerInstructions.index).Nodup) {index : Nat} (small : index < 256) :
    innerOf groups index = groupOf groups index := by
  rw [groupOf_eq distinct, innerOf]
  refine congrArg _ (List.filter_congr (fun group _ => decide_eq_decide.mpr ?_))
  constructor
  · intro same
    rw [same, UInt8.toNat_ofNat']
    omega
  · intro same
    rw [← same, UInt8.ofNat_toNat]

theorem hoisted_eq (ixPairs : List IxPair) : hoistKnownPrograms programs ixPairs =
    ((Segments.suffixes ixPairs).filter (fun s => s.1.1 ∈ programs)).map (fun s =>
      (s.1, some (s.2.takeWhile (fun inner => inner.1 ≠ s.1.1)))) := by
  rw [Segments.suffixes_eq, List.filter_map, List.map_map]
  rfl

theorem hoisted_heads (ixPairs : List IxPair) :
    (hoistKnownPrograms programs ixPairs).map Prod.fst = known programs ixPairs := by
  have heads : (Segments.suffixes ixPairs).filter (fun s => s.1.1 ∈ programs) =
      (Segments.suffixes ixPairs).filter ((fun ix : IxPair => decide (ix.1 ∈ programs)) ∘ Prod.fst) := rfl
  rw [hoisted_eq, List.map_map, known, heads]
  refine Eq.trans ?_ (congrArg (List.filter _) (Segments.suffixes_heads ixPairs))
  rw [List.filter_map]
  rfl

/-- The hoisted instructions of one program share out what follows the first of
them. -/
theorem hoisted_cover (ixPairs : List IxPair) {p : Pubkey} (isKnown : p ∈ programs) :
    ((hoistKnownPrograms programs ixPairs).filter (fun entry => entry.1.1 = p)).flatMap (fun entry =>
      entry.1 :: entry.2.getD []) = ixPairs.dropWhile (fun ix => ix.1 ≠ p) := by
  have covered := Segments.segments_cover (fun ix : IxPair => decide (ix.1 = p)) ixPairs
  have ofProgram : (Segments.suffixes ixPairs).filter (fun s => decide (s.1.1 = p) && decide (s.1.1 ∈ programs)) =
      (Segments.suffixes ixPairs).filter (fun s => decide (s.1.1 = p)) := by
    refine List.filter_congr (fun s _ => ?_)
    by_cases same : s.1.1 = p
    · rw [same, decide_eq_true rfl, decide_eq_true isKnown, Bool.and_self]
    · rw [decide_eq_false same, Bool.false_and]
  rw [hoisted_eq, List.filter_map, List.filter_filter]
  show ((((Segments.suffixes ixPairs).filter (fun s => decide (s.1.1 = p) && decide (s.1.1 ∈ programs))).map _).flatMap
    _) = _
  rw [ofProgram, List.flatMap_map]
  refine Eq.trans ?_ (covered.trans ?_)
  · refine List.flatMap_congr (fun s member => ?_)
    have same := (List.mem_filter.mp member).2
    rw [decide_eq_true_eq] at same
    simp [same]
  · simp

theorem WellFormed.groupOf_inRange (wellFormed : WellFormed accountKeys outers groups) {index : Nat}
    {ix : CompiledInstruction} (member : ix ∈ groupOf groups index) : InRange accountKeys ix := by
  rw [groupOf_eq wellFormed.distinct] at member
  obtain ⟨group, inGroups, inGroup⟩ := List.mem_flatMap.mp member
  exact wellFormed.inner group (List.mem_filter.mp inGroups).1 ix inGroup

/-- The entries of one outer instruction. -/
def outerEntries (programs : Finset Pubkey) (accountKeys : List Pubkey) (groups : List InnerInstructions)
    (outer : CompiledInstruction × Nat) : List OrderedIx :=
  let inner := pairs accountKeys (groupOf groups outer.2)
  hoistKnownPrograms programs inner ++
    (known programs (pairs accountKeys [outer.1])).map (fun ix => (ix, some inner))

theorem orderOuter_eq (wellFormed : WellFormed accountKeys outers groups) {outer : CompiledInstruction × Nat}
    (member : outer ∈ outers.zipIdx) :
    orderOuter programs accountKeys groups outer = some (outerEntries programs accountKeys groups outer) := by
  obtain ⟨ix, index⟩ := outer
  have found := List.mk_mem_zipIdx_iff_getElem?.mp member
  have inOuters := List.mem_of_getElem? found
  have small := (List.getElem?_eq_some_iff.mp found).1
  have isInner := innerOf_eq wellFormed.distinct (small.trans wellFormed.few)
  have inner := mapM_pairs (fun ix (inGroup : ix ∈ groupOf groups index) => wellFormed.groupOf_inRange inGroup)
  obtain ⟨pid, isPair⟩ := pair_inRange (wellFormed.outer ix inOuters)
  have alone : pairs accountKeys [ix] = [(pid, ix)] := List.filterMap_cons_some isPair
  rw [orderOuter, isInner, inner, isPair, outerEntries, alone, known, List.filter_cons, List.filter_nil]
  by_cases isKnown : pid ∈ programs
  · simp [isKnown]
  · simp [isKnown]

theorem orderInstructions_eq (wellFormed : WellFormed accountKeys outers groups) :
    orderInstructions programs accountKeys outers groups =
      some (outers.zipIdx.flatMap (outerEntries programs accountKeys groups)) := by
  have turns : ∀ items : List (CompiledInstruction × Nat), (∀ outer ∈ items, outer ∈ outers.zipIdx) →
      items.mapM (orderOuter programs accountKeys groups) =
        some (items.map (outerEntries programs accountKeys groups)) := by
    intro items inOuters
    induction items with
    | nil => rfl
    | cons outer rest ih =>
      rw [List.mapM_cons, orderOuter_eq wellFormed (inOuters outer List.mem_cons_self),
        ih (fun other member => inOuters other (List.mem_cons_of_mem _ member))]
      rfl
  rw [orderInstructions, turns _ (fun _ member => member), Option.map_some, List.flatMap_def]

/-- Up to their order, the instructions that are handed out are those of the
transaction. -/
theorem instructions_perm (wellFormed : WellFormed accountKeys outers groups)
    (owned : ∀ group ∈ groups, group.index.toNat < outers.length) :
    (outers.zipIdx.flatMap (fun outer => groupOf groups outer.2 ++ [outer.1])).Perm
      (outers ++ groups.flatMap InnerInstructions.instructions) := by
  have inner : (outers.zipIdx.flatMap (fun outer => groupOf groups outer.2)).Perm
      (groups.flatMap InnerInstructions.instructions) := by
    have byIndex : outers.zipIdx.flatMap (fun outer => groupOf groups outer.2) =
        ((List.range outers.length).flatMap (fun i => groups.filter (fun group => group.index.toNat = i))).flatMap
          InnerInstructions.instructions := by
      rw [List.flatMap_assoc, List.range_eq_range', ← List.zipIdx_map_snd 0 outers, List.flatMap_map]
      exact List.flatMap_congr (fun outer _ => groupOf_eq wellFormed.distinct outer.2)
    rw [byIndex]
    exact (Segments.grouped_perm (fun group : InnerInstructions => group.index.toNat) _ _ owned).flatMap_right _
  have own : outers.zipIdx.flatMap (fun outer => [outer.1]) = outers := by
    rw [← List.map_eq_flatMap, List.zipIdx_map_fst]
  refine (List.flatMap_append_perm _ _ _).symm.trans ?_
  rw [own]
  exact (inner.append_right _).trans List.perm_append_comm

/-- How known instructions and their inner ones are handed out: one entry for
each, in the order of execution with the inner ones before their outer one; of
each program, the inner instructions share out what follows the first of them. -/
structure Attributed (programs : Finset Pubkey) (accountKeys : List Pubkey) (outers : List CompiledInstruction)
    (groups : List InnerInstructions) (entries : List OrderedIx) (hoisted : Nat → List OrderedIx) : Prop where
  order : entries = outers.zipIdx.flatMap (fun outer => hoisted outer.2 ++
    (known programs (pairs accountKeys [outer.1])).map (fun ix => (ix, some (pairs accountKeys (groupOf groups outer.2)))))
  heads : ∀ i, (hoisted i).map Prod.fst = known programs (pairs accountKeys (groupOf groups i))
  covers : ∀ i, ∀ p ∈ programs,
    ((hoisted i).filter (fun entry => entry.1.1 = p)).flatMap (fun entry => entry.1 :: entry.2.getD []) =
      (pairs accountKeys (groupOf groups i)).dropWhile (fun ix => ix.1 ≠ p)
  complete : (∀ group ∈ groups, group.index.toNat < outers.length) →
    (entries.map Prod.fst).Perm
      (known programs (pairs accountKeys (outers ++ groups.flatMap InnerInstructions.instructions)))

/-- Every event is attributed to exactly one instruction of each program. -/
theorem order_instructions_attributed (programs : Finset Pubkey) (wellFormed : WellFormed accountKeys outers groups) :
    ∃ entries hoisted, orderInstructions programs accountKeys outers groups = some entries ∧
      Attributed programs accountKeys outers groups entries hoisted := by
  refine ⟨_, fun i => hoistKnownPrograms programs (pairs accountKeys (groupOf groups i)),
    orderInstructions_eq wellFormed, rfl, fun i => hoisted_heads _, fun i p isKnown => hoisted_cover _ isKnown, ?_⟩
  intro owned
  have heads : (outers.zipIdx.flatMap (outerEntries programs accountKeys groups)).map Prod.fst =
      known programs (pairs accountKeys (outers.zipIdx.flatMap (fun outer => groupOf groups outer.2 ++ [outer.1]))) := by
    rw [known, pairs, List.filterMap_flatMap, List.filter_flatMap, List.map_flatMap]
    refine List.flatMap_congr (fun outer _ => ?_)
    rw [outerEntries, List.map_append, hoisted_heads, List.map_map, List.filterMap_append, List.filter_append]
    exact congrArg _ (List.map_id _)
  rw [heads]
  exact ((instructions_perm wellFormed owned).filterMap _).filter _

end Attribution

namespace Example

def call (program : UInt8) (data : Bytes) : CompiledInstruction := { programIdIndex := program, accounts := [], data }

/-- Two calls of one program, with a call of another one before and after each. -/
def twoCalls : List InnerInstructions :=
  [{ index := 0, instructions := [call 1 [1], call 2 [], call 1 [2], call 2 [], call 1 [3]] }]

def programs : Finset Pubkey := {.fill 8}

def accountKeys : List Pubkey := [.fill 7, .fill 9, .fill 8]

theorem order_instructions_attributed_twice :
    ∃ entries hoisted, orderInstructions programs accountKeys [call 0 []] twoCalls = some entries ∧
      Attributed programs accountKeys [call 0 []] twoCalls entries hoisted := by
  have wellFormed : WellFormed accountKeys [call 0 []] twoCalls := ⟨by decide, by decide, by decide, by decide⟩
  exact order_instructions_attributed programs wellFormed

end Example

end DasIndexer.Blockbuster
