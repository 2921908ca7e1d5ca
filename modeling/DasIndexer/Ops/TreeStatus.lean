import DasIndexer.MerkleProofs
import Mathlib.Order.Interval.Finset.Nat

namespace DasIndexer.Ops
open Sql Merkle Bubblegum

structure MaxSeqItem where
  maxSeq : Nat
  cntSeq : Nat
  deriving DecidableEq

inductive Verdict where
  | complete
  | failed (missing : List Nat)
  deriving DecidableEq

/-- What `check_tree` says about a tree: how the highest indexed sequence number
compares with the chain, whether it sees gaps, and its verdict. -/
structure TreeReport where
  tip : Ordering
  hasGaps : Bool
  verdict : Verdict
  deriving DecidableEq

/-- The sequence numbers in the rows of a tree. -/
def treeSeqs (db : Db) (tree : Pubkey) : List Nat :=
  (db.clItems.entries.filter (fun entry => entry.1.1 = tree)).map (fun entry => entry.2.seq)

/-- The aggregate is one row; over no rows its maximum is NULL, which does not
decode as a number. -/
def getTreeMaxSeq (tree : Pubkey) (db : Db) : Except String (Option MaxSeqItem) :=
  match (treeSeqs db tree).max? with
  | some maxSeq => .ok (some { maxSeq, cntSeq := (treeSeqs db tree).dedup.length })
  | none => .error "A null value was encountered while decoding max_seq"

def getMissingSeq (tree : Pubkey) (maxSeq : Nat) (db : Db) : List Nat :=
  (List.range' 1 maxSeq).filter (fun seq => seq ∉ treeSeqs db tree)

/-- The check of a tree whose account on the chain has the given sequence number,
if it could be read. -/
def checkTree (latestSeq : Option Nat) (db : Db) (pubkey : Pubkey) : Except String TreeReport :=
  match latestSeq with
  | none => .error ("[" ++ pubkey.toBase58 ++ "] tree is missing from chain or error occured")
  | some seq => match getTreeMaxSeq pubkey db with
    | .error _ => .error ("[" ++ pubkey.toBase58 ++ "] coundn't query tree from index")
    | .ok none => .error ("[" ++ pubkey.toBase58 ++ "] tree missing from index")
    | .ok (some indexedSeq) => .ok
      { tip := compare indexedSeq.maxSeq seq
        hasGaps := indexedSeq.maxSeq ≠ indexedSeq.cntSeq
        verdict := if indexedSeq.maxSeq = seq ∧ indexedSeq.maxSeq = indexedSeq.cntSeq then .complete
          else .failed (getMissingSeq pubkey seq db) }

/-- The check ends with the message that indexing is complete. -/
def ReportsComplete (latestSeq : Option Nat) (db : Db) (tree : Pubkey) : Prop :=
  ∃ report, checkTree latestSeq db tree = .ok report ∧ report.verdict = .complete

section Verdicts
variable {db : Db} {tree : Pubkey} {seq n : Nat}

theorem mem_treeSeqs :
    seq ∈ treeSeqs db tree ↔ ∃ index row, db.clItems.lookup (tree, index) = some row ∧ row.seq = seq := by
  simp only [treeSeqs, List.mem_map, List.mem_filter, decide_eq_true_eq]
  constructor
  · rintro ⟨⟨⟨other, index⟩, row⟩, ⟨member, rfl⟩, same⟩
    exact ⟨index, row, AList.mem_lookup_iff.mpr member, same⟩
  · rintro ⟨index, row, stored, same⟩
    exact ⟨⟨(tree, index), row⟩, ⟨AList.mem_lookup_iff.mp stored, rfl⟩, same⟩

theorem mem_getMissingSeq : seq ∈ getMissingSeq tree n db ↔ 1 ≤ seq ∧ seq ≤ n ∧ seq ∉ treeSeqs db tree := by
  have range : seq ∈ List.range' 1 n ↔ 1 ≤ seq ∧ seq ≤ n := by
    rw [List.mem_range'_1]
    omega
  rw [getMissingSeq, List.mem_filter, range, decide_eq_true_eq, and_assoc]

/-- A list of numbers from 1 to `n` has `n` different ones exactly when it has all. -/
theorem dedup_length_iff {seqs : List Nat} (within : ∀ seq ∈ seqs, 1 ≤ seq ∧ seq ≤ n) :
    seqs.dedup.length = n ↔ ∀ seq, 1 ≤ seq → seq ≤ n → seq ∈ seqs := by
  have part : seqs.toFinset ⊆ Finset.Icc 1 n := by
    intro seq member
    rw [Finset.mem_Icc]
    exact within seq (List.mem_toFinset.mp member)
  have size : (Finset.Icc 1 n).card = n := by simp
  rw [← List.card_toFinset]
  constructor
  · intro count seq low high
    have all := Finset.eq_of_subset_of_card_le part (by omega)
    rw [← List.mem_toFinset, all, Finset.mem_Icc]
    exact ⟨low, high⟩
  · intro all
    have same : seqs.toFinset = Finset.Icc 1 n := by
      refine Finset.Subset.antisymm part (fun seq member => ?_)
      rw [Finset.mem_Icc] at member
      exact List.mem_toFinset.mpr (all seq member.1 member.2)
    rw [same, size]

/-- Where the rows stay within the sequence numbers of the chain, the tree is
found complete when every number stands in some row. -/
theorem reportsComplete_iff (within : ∀ seq ∈ treeSeqs db tree, 1 ≤ seq ∧ seq ≤ n) :
    ReportsComplete (some n) db tree ↔ n ≠ 0 ∧ ∀ seq, 1 ≤ seq → seq ≤ n → seq ∈ treeSeqs db tree := by
  rw [← dedup_length_iff within]
  cases highest : (treeSeqs db tree).max? with
  | none =>
    have empty := List.max?_eq_none_iff.mp highest
    have fails : ¬ ReportsComplete (some n) db tree := by
      rintro ⟨report, checked, -⟩
      simp [checkTree, getTreeMaxSeq, highest] at checked
    have none : ¬ (n ≠ 0 ∧ (treeSeqs db tree).dedup.length = n) := by
      rw [empty, List.dedup_nil, List.length_nil]
      omega
    exact ⟨fun complete => absurd complete fails, fun complete => absurd complete none⟩
  | some maxSeq =>
    have member := List.max?_mem highest
    have bounds := within maxSeq member
    have verdict : ReportsComplete (some n) db tree ↔ maxSeq = n ∧ maxSeq = (treeSeqs db tree).dedup.length := by
      simp only [ReportsComplete, checkTree, getTreeMaxSeq, highest, Except.ok.injEq, exists_eq_left']
      split
      · rename_i holds
        exact ⟨fun _ => holds, fun _ => rfl⟩
      · rename_i fails
        simp [fails]
    rw [verdict]
    constructor
    · omega
    · rintro ⟨-, count⟩
      have all := (dedup_length_iff within).mp count n (by omega) (Nat.le_refl n)
      have least := (List.max?_eq_some_iff.mp highest).2 n all
      omega

end Verdicts

/-- The event of a sequence number of the tree was ingested. -/
def Ingested (calls : List Ingestion) (tree : Pubkey) (seq : Nat) : Prop :=
  ∃ call ∈ calls, call.event.id = tree ∧ call.event.seq = seq

def AllIngested (calls : List Ingestion) (tree : Pubkey) (n : Nat) : Prop :=
  ∀ seq, 1 ≤ seq → seq ≤ n → Ingested calls tree seq

/-- The leaf that the event of a sequence number writes. -/
def writtenLeaf (writes : List (Nat × Hash)) (seq : Nat) : Option Nat := (writes[seq - 1]?).map Prod.fst

section Histories
variable {hash : Hash → Hash → Hash} {blank : Hash} {tree : Pubkey} {depth : Nat} {writes : List (Nat × Hash)}
  {calls : List Ingestion} {seq : Nat}

theorem nodeRow_seq (low : 1 ≤ seq) (high : seq ≤ writes.length) {write : Nat × Hash} {level position : Nat} :
    (nodeRow hash blank (writes.take (seq - 1)) write level position).seq = seq := by
  have size := List.length_take_of_le (show seq - 1 ≤ writes.length by omega)
  simp only [nodeRow, size]
  omega

variable (ofTree : ∀ call ∈ calls, call.event.id = tree → call.event ∈ changeLogs hash blank tree depth writes)
include ofTree

/-- The event of an ingested sequence number is that of its write. -/
theorem event_eq {call : Ingestion} (inCalls : call ∈ calls) (own : call.event.id = tree) :
    ∃ write, writes[call.event.seq - 1]? = some write ∧ 1 ≤ call.event.seq ∧ call.event.seq ≤ writes.length ∧
      call.event = changeLogOf hash blank tree depth (writes.take (call.event.seq - 1)) write := by
  obtain ⟨earlier, write, later, split, same⟩ := mem_changeLogs.mp (ofTree call inCalls own)
  have atSeq : call.event.seq = earlier.length + 1 := by
    rw [same]
    rfl
  refine ⟨write, ?_, by omega, ?_, ?_⟩
  · simp [atSeq, split]
  · simp [atSeq, split]
  · simpa [atSeq, split] using same

/-- The rows written for a node are those of the ingested events whose path goes
through it. -/
theorem mem_ingested_items {index : Nat} {item : ClItemRow} :
    item ∈ (calls.flatMap Ingestion.statements).filterMap (Statement.itemWrite (tree, index)) ↔
      ∃ seq write, Ingested calls tree seq ∧ writes[seq - 1]? = some write ∧ ∃ level ≤ depth,
        index = 2 ^ (depth - level) + write.1 / 2 ^ level ∧
          item = nodeRow hash blank (writes.take (seq - 1)) write level (write.1 / 2 ^ level) := by
  rw [mem_itemWrites]
  constructor
  · rintro ⟨call, inCalls, own, inPath⟩
    obtain ⟨write, written, -, -, same⟩ := event_eq ofTree inCalls own
    rw [same, mem_pathItems] at inPath
    exact ⟨call.event.seq, write, ⟨call, inCalls, own, rfl⟩, written, inPath⟩
  · rintro ⟨_, write, ⟨call, inCalls, own, rfl⟩, written, inPath⟩
    obtain ⟨write', written', -, -, same⟩ := event_eq ofTree inCalls own
    cases Option.some.inj (written.symm.trans written')
    exact ⟨call, inCalls, own, by rw [same]; exact mem_pathItems.mpr inPath⟩

theorem Ingested.bounds (ingested : Ingested calls tree seq) : 1 ≤ seq ∧ seq ≤ writes.length := by
  obtain ⟨call, inCalls, own, rfl⟩ := ingested
  obtain ⟨-, -, low, high, -⟩ := event_eq ofTree inCalls own
  exact ⟨low, high⟩

variable [Programs] {db : Db} (inRange : ∀ write ∈ writes, write.1 < 2 ^ depth)
  (fresh : ∀ index, db.clItems.lookup (tree, index) = none)
include inRange fresh

/-- An ingested sequence number is still in the table exactly when no later
ingested event writes its leaf: such an event takes the same path to the root,
any other leaves the row of the leaf alone. -/
theorem mem_treeSeqs_ingested :
    seq ∈ treeSeqs (ingestChangeLogs db calls) tree ↔ Ingested calls tree seq ∧
      ∀ later, seq < later → Ingested calls tree later → writtenLeaf writes later ≠ writtenLeaf writes seq := by
  simp only [mem_treeSeqs, ingestChangeLogs_eq_statements, run_clItems _ (fresh _)]
  constructor
  · rintro ⟨index, row, newest, atSeq⟩
    obtain ⟨own, write, ingested, written, level, small, through, rfl⟩ :=
      (mem_ingested_items ofTree).mp (List.argmax_mem newest)
    obtain ⟨low, high⟩ := ingested.bounds ofTree
    rw [nodeRow_seq low high] at atSeq
    subst atSeq
    refine ⟨ingested, fun later newer ingestedLater sameLeaf => ?_⟩
    obtain ⟨lowLater, highLater⟩ := ingestedLater.bounds ofTree
    obtain ⟨other, writtenLater⟩ : ∃ other, writes[later - 1]? = some other :=
      ⟨_, List.getElem?_eq_getElem (by omega)⟩
    have leaves : other.1 = write.1 := by
      rw [writtenLeaf, writtenLeaf, writtenLater, written] at sameLeaf
      exact Option.some.inj sameLeaf
    rw [← leaves] at through
    have covers := (mem_ingested_items ofTree).mpr
      ⟨later, other, ingestedLater, writtenLater, level, small, through, rfl⟩
    have atMost := List.le_of_mem_argmax covers newest
    rw [nodeRow_seq low high, nodeRow_seq lowLater highLater] at atMost
    omega
  · rintro ⟨ingested, last⟩
    obtain ⟨low, high⟩ := ingested.bounds ofTree
    obtain ⟨write, written⟩ : ∃ write, writes[seq - 1]? = some write := ⟨_, List.getElem?_eq_getElem (by omega)⟩
    have leafItem := (mem_ingested_items ofTree).mpr
      ⟨seq, write, ingested, written, 0, Nat.zero_le depth, rfl, rfl⟩
    obtain ⟨row, newest⟩ : ∃ row, ((calls.flatMap Ingestion.statements).filterMap
        (Statement.itemWrite (tree, 2 ^ (depth - 0) + write.1 / 2 ^ 0))).argmax ClItemRow.seq = some row := by
      refine Option.ne_none_iff_exists'.mp (fun missing => ?_)
      rw [List.argmax_eq_none.mp missing] at leafItem
      cases leafItem
    refine ⟨_, row, newest, ?_⟩
    obtain ⟨own, other, ingestedOwn, writtenOwn, level, small, through, rfl⟩ :=
      (mem_ingested_items ofTree).mp (List.argmax_mem newest)
    obtain ⟨lowOwn, highOwn⟩ := ingestedOwn.bounds ofTree
    have atMost := List.le_of_mem_argmax leafItem newest
    rw [nodeRow_seq low high, nodeRow_seq lowOwn highOwn] at atMost
    rw [nodeRow_seq lowOwn highOwn]
    obtain ⟨sameLevel, sameLeaf⟩ := heapIndex_injective
      (Bubblegum.position_lt (Nat.zero_le depth) (inRange write (List.mem_of_getElem? written)))
      (Bubblegum.position_lt small (inRange other (List.mem_of_getElem? writtenOwn))) through
    have level0 : level = 0 := by omega
    subst level0
    rw [Nat.pow_zero, Nat.div_one, Nat.div_one] at sameLeaf
    by_contra different
    refine last own (by omega) ingestedOwn ?_
    rw [writtenLeaf, writtenLeaf, writtenOwn, written, Option.map_some, Option.map_some, sameLeaf]

theorem ingested_visible_iff :
    (∀ seq, Ingested calls tree seq → seq ∈ treeSeqs (ingestChangeLogs db calls) tree) ↔
      ∀ a b, Ingested calls tree a → Ingested calls tree b → writtenLeaf writes a = writtenLeaf writes b → a = b := by
  simp only [mem_treeSeqs_ingested ofTree inRange fresh]
  constructor
  · intro visible a b ingestedA ingestedB same
    rcases Nat.lt_trichotomy a b with less | equal | more
    · exact absurd same.symm ((visible a ingestedA).2 b less ingestedB)
    · exact equal
    · exact absurd same ((visible b ingestedB).2 a more ingestedA)
  · intro distinct seq ingested
    refine ⟨ingested, fun later newer ingestedLater same => ?_⟩
    have equal := distinct later seq ingestedLater ingested same
    omega

end Histories

/-- The tool judges a tree rightly, whichever of its events were ingested in
whatever order, exactly when the tree has an event and no two ingested events
write the same leaf. -/
theorem tree_judged_iff [Programs] (hash : Hash → Hash → Hash) (blank : Hash) (tree : Pubkey) (depth : Nat)
    (writes : List (Nat × Hash)) (inRange : ∀ write ∈ writes, write.1 < 2 ^ depth) (calls : List Ingestion)
    (ofTree : ∀ call ∈ calls, call.event.id = tree → call.event ∈ changeLogs hash blank tree depth writes)
    (db : Db) (fresh : ∀ index, db.clItems.lookup (tree, index) = none) :
    ((ReportsComplete (some writes.length) (ingestChangeLogs db calls) tree ↔ AllIngested calls tree writes.length) ∧
      (¬ AllIngested calls tree writes.length →
        ∀ seq, seq ∈ getMissingSeq tree writes.length (ingestChangeLogs db calls) ↔
          1 ≤ seq ∧ seq ≤ writes.length ∧ ¬ Ingested calls tree seq)) ↔
      writes ≠ [] ∧ ∀ a b, Ingested calls tree a → Ingested calls tree b →
        writtenLeaf writes a = writtenLeaf writes b → a = b := by
  have stored : ∀ seq ∈ treeSeqs (ingestChangeLogs db calls) tree, Ingested calls tree seq :=
    fun seq member => ((mem_treeSeqs_ingested ofTree inRange fresh).mp member).1
  rw [reportsComplete_iff (fun seq member => (stored seq member).bounds ofTree),
    ← ingested_visible_iff ofTree inRange fresh, ← List.length_pos_iff_ne_nil, Nat.pos_iff_ne_zero]
  constructor
  · rintro ⟨complete, missing⟩
    by_cases all : AllIngested calls tree writes.length
    · obtain ⟨nonempty, visible⟩ := complete.mpr all
      refine ⟨nonempty, fun seq ingested => ?_⟩
      obtain ⟨low, high⟩ := ingested.bounds ofTree
      exact visible seq low high
    · refine ⟨fun empty => all (fun seq low high => by omega), fun seq ingested => ?_⟩
      obtain ⟨low, high⟩ := ingested.bounds ofTree
      by_contra unseen
      exact ((missing all seq).mp (mem_getMissingSeq.mpr ⟨low, high, unseen⟩)).2.2 ingested
  · rintro ⟨nonempty, visible⟩
    have same : ∀ seq, seq ∈ treeSeqs (ingestChangeLogs db calls) tree ↔ Ingested calls tree seq :=
      fun seq => ⟨stored seq, visible seq⟩
    refine ⟨?_, fun _ seq => by rw [mem_getMissingSeq, same]⟩
    simp only [same]
    exact ⟨fun complete => complete.2, fun all => ⟨nonempty, all⟩⟩

/-- The calls for the change logs of a tree of depth 2 after some writes. -/
def Example.mintEvents (writes : List (Nat × Hash)) : List Ingestion :=
  (changeLogs keccakNode (Programs.emptyNode 0) (.fill 8) 2 writes).map (fun event => ⟨event, 10, [], "MintV1"⟩)

/-- Two leaves are minted, and only the second event is ingested. -/
theorem tree_judged_second_only :
    (ReportsComplete (some 2) (ingestChangeLogs {} (Example.mintEvents [(1, .fill 5), (3, .fill 6)]).tail) (.fill 8) ↔
        AllIngested (Example.mintEvents [(1, .fill 5), (3, .fill 6)]).tail (.fill 8) 2) ∧
      (¬ AllIngested (Example.mintEvents [(1, .fill 5), (3, .fill 6)]).tail (.fill 8) 2 →
        ∀ seq, seq ∈ getMissingSeq (.fill 8) 2
            (ingestChangeLogs {} (Example.mintEvents [(1, .fill 5), (3, .fill 6)]).tail) ↔
          1 ≤ seq ∧ seq ≤ 2 ∧ ¬ Ingested (Example.mintEvents [(1, .fill 5), (3, .fill 6)]).tail (.fill 8) seq) := by
  refine (tree_judged_iff keccakNode (Programs.emptyNode 0) (.fill 8) 2 [(1, .fill 5), (3, .fill 6)] (by simp)
    (Example.mintEvents [(1, .fill 5), (3, .fill 6)]).tail ?_ {} (fun _ => rfl)).mpr ⟨by simp, ?_⟩
  · simp [Example.mintEvents, changeLogs]
  · rintro a b ⟨call, inCalls, -, rfl⟩ ⟨other, inCalls', -, rfl⟩ -
    have only : call = other := by
      simp only [Example.mintEvents, changeLogs, List.zipIdx_cons, List.zipIdx_nil, List.map_cons, List.map_nil,
        List.tail_cons, List.mem_singleton] at inCalls inCalls'
      rw [inCalls, inCalls']
    rw [only]

/-- A leaf is minted and replaced, both events are ingested in order, and the
first one is reported as missing. -/
theorem rewritten_leaf_missing :
    AllIngested (Example.mintEvents [(1, .fill 5), (1, .fill 6)]) (.fill 8) 2 ∧
      checkTree (some 2) (ingestChangeLogs {} (Example.mintEvents [(1, .fill 5), (1, .fill 6)])) (.fill 8) =
        .ok { tip := .eq, hasGaps := true, verdict := .failed [1] } := by
  constructor
  · intro seq low high
    obtain rfl | rfl : seq = 1 ∨ seq = 2 := by omega
    · exact ⟨_, List.mem_cons_self, rfl, rfl⟩
    · exact ⟨_, List.mem_cons_of_mem _ List.mem_cons_self, rfl, rfl⟩
  · decide

end DasIndexer.Ops
