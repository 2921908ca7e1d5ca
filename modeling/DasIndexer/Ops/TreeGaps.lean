import DasIndexer.Schema
import Mathlib.Data.List.Sort

namespace DasIndexer.Ops
open Sql

/-- The signature of a transaction. -/
structure Signature where
  bytes : Bytes
  size : bytes.length = 64
  deriving DecidableEq

/-- `Signature::try_from`. -/
def Signature.ofBytes? (bytes : Bytes) : Option Signature :=
  if size : bytes.length = 64 then some ⟨bytes, size⟩ else none

/-- Sixty-four copies of one byte. -/
def Signature.fill (b : UInt8) : Signature := ⟨List.replicate 64 b, List.length_replicate⟩

abbrev ClAudits := Table (Pubkey × Nat × Nat) ClAuditRow

/-- The columns of `cl_audits_v2` that the queries for one tree read. -/
structure Audit where
  seq : Nat
  tx : Bytes
  deriving DecidableEq

structure TreeGapModel where
  gapStartSeq : Nat
  gapEndSeq : Nat
  lowerBoundTx : Bytes
  upperBoundTx : Bytes
  deriving DecidableEq

structure TreeGapFill where
  tree : Pubkey
  before : Option Signature
  «until» : Option Signature
  deriving DecidableEq

structure TreeResponse where
  pubkey : Pubkey
  seq : Nat

inductive GapWorkerError where
  | tryFromSignature
  | tryFromSlice
  deriving DecidableEq

/-- The rows of a tree in the order of their sequence numbers. -/
def auditsOf (audits : ClAudits) (tree : Pubkey) : List Audit :=
  ((audits.entries.filter (fun entry => entry.1.1 = tree)).map
    (fun entry => { seq := entry.1.2.2, tx := entry.2.tx })).insertionSort (fun x y => x.seq ≤ y.seq)

/-- `TREE_GAP_SQL`: neighbours whose sequence numbers differ by more than one. -/
def treeGaps : List Audit → List TreeGapModel
  | row :: next :: rest =>
    let later := treeGaps (next :: rest)
    if 1 < next.seq - row.seq then
      { gapStartSeq := row.seq, gapEndSeq := next.seq, lowerBoundTx := row.tx, upperBoundTx := next.tx } :: later
    else later
  | _ => []

/-- `TryFrom<TreeGapModel> for TreeGapFill`. -/
def TreeGapModel.toFill (tree : Pubkey) (model : TreeGapModel) : Except GapWorkerError TreeGapFill :=
  match Signature.ofBytes? model.upperBoundTx, Signature.ofBytes? model.lowerBoundTx with
  | some upper, some lower => .ok { tree, before := some upper, «until» := some lower }
  | _, _ => .error .tryFromSignature

def toFills (tree : Pubkey) : List TreeGapModel → Except GapWorkerError (List TreeGapFill)
  | [] => .ok []
  | model :: rest => (model.toFill tree).bind (fun fill => (toFills tree rest).map (fill :: ·))

/-- The range above the highest known sequence number, or the whole tree. -/
def upperFill (tree : TreeResponse) : Option Audit → Except GapWorkerError (List TreeGapFill)
  | some upper => match Signature.ofBytes? upper.tx with
    | none => .error .tryFromSlice
    | some signature => .ok [{ tree := tree.pubkey, before := none, «until» := some signature }]
  | none => .ok (if 0 < tree.seq then [{ tree := tree.pubkey, before := none, «until» := none }] else [])

/-- The range below the lowest known sequence number. -/
def lowerFill (tree : TreeResponse) (lower : Option Audit) : Except GapWorkerError (List TreeGapFill) :=
  match lower.filter (fun row => 1 < row.seq) with
  | none => .ok []
  | some row => match Signature.ofBytes? row.tx with
    | none => .error .tryFromSlice
    | some signature => .ok [{ tree := tree.pubkey, before := some signature, «until» := none }]

/-- The ranges that `spawn_gap_worker` sends to the crawlers. -/
def gapWorker (audits : ClAudits) (tree : TreeResponse) : Except GapWorkerError (List TreeGapFill) :=
  let rows := auditsOf audits tree.pubkey
  (toFills tree.pubkey (treeGaps rows)).bind (fun gaps =>
    (upperFill tree rows.getLast?).bind (fun upper =>
      (lowerFill tree rows.head?).map (fun lower => gaps ++ upper ++ lower)))

/-- The successful transactions of a tree in chain order, each with the number
of changes it made to the tree. -/
structure History where
  transactions : List (Signature × Nat)
  distinct : (transactions.map Prod.fst).Nodup

/-- The transactions of the sequence numbers, from the first one on. -/
def History.changes (history : History) : List Signature :=
  history.transactions.flatMap (fun tx => List.replicate tx.2 tx.1)

/-- The transaction that produced a sequence number. -/
def History.txOf (history : History) (seq : Nat) : Option Signature :=
  if seq = 0 then none else history.changes[seq - 1]?

def History.position (history : History) (signature : Signature) : Nat :=
  (history.transactions.map Prod.fst).idxOf signature

/-- The transaction lies strictly between the bounds of the range. -/
def TreeGapFill.Covers (fill : TreeGapFill) (history : History) (signature : Signature) : Prop :=
  (∀ bound ∈ fill.until, history.position bound < history.position signature) ∧
    ∀ bound ∈ fill.before, history.position signature < history.position bound

/-- The rows of the tree are of sequence numbers of its history, under their
transactions. -/
def Recorded (history : History) (rows : List Audit) : Prop :=
  ∀ row ∈ rows, ∃ signature, history.txOf row.seq = some signature ∧ row.tx = signature.bytes

section Order

/-- Later sequence numbers have later transactions. -/
theorem changes_ordered (transactions : List (Signature × Nat)) (distinct : (transactions.map Prod.fst).Nodup) :
    (transactions.flatMap (fun tx => List.replicate tx.2 tx.1)).Pairwise (fun x y =>
      (transactions.map Prod.fst).idxOf x ≤ (transactions.map Prod.fst).idxOf y) := by
  induction transactions with
  | nil => exact List.Pairwise.nil
  | cons tx rest ih =>
    rw [List.map_cons, List.nodup_cons] at distinct
    rw [List.flatMap_cons, List.pairwise_append]
    refine ⟨List.pairwise_replicate.mpr (.inr (Nat.le_refl _)), ?_, ?_⟩
    · refine (ih distinct.2).imp_of_mem (fun {x y} inX inY ordered => ?_)
      have other : ∀ z ∈ rest.flatMap (fun tx => List.replicate tx.2 tx.1), tx.1 ≠ z := by
        intro z inZ same
        obtain ⟨entry, inRest, copies⟩ := List.mem_flatMap.mp inZ
        rw [List.eq_of_mem_replicate copies] at same
        exact distinct.1 (List.mem_map.mpr ⟨entry, inRest, same.symm⟩)
      rw [List.map_cons, List.idxOf_cons_ne _ (other x inX), List.idxOf_cons_ne _ (other y inY)]
      omega
    · intro x copies y _
      rw [List.eq_of_mem_replicate copies, List.map_cons, List.idxOf_cons_self]
      exact Nat.zero_le _

variable {history : History}

theorem position_mono {early late : Nat} (ordered : early ≤ late) {first second : Signature}
    (isFirst : history.txOf early = some first) (isSecond : history.txOf late = some second) :
    history.position first ≤ history.position second := by
  have nonzero : early ≠ 0 := by
    intro zero
    rw [History.txOf, if_pos zero] at isFirst
    cases isFirst
  rw [History.txOf, if_neg nonzero] at isFirst
  rw [History.txOf, if_neg (by omega)] at isSecond
  obtain ⟨inFirst, firstAt⟩ := List.getElem?_eq_some_iff.mp isFirst
  obtain ⟨inSecond, secondAt⟩ := List.getElem?_eq_some_iff.mp isSecond
  rcases Nat.lt_or_eq_of_le ordered with less | same
  · have pairs := List.pairwise_iff_getElem.mp (changes_ordered history.transactions history.distinct)
      (early - 1) (late - 1) inFirst inSecond (by omega)
    rw [← firstAt, ← secondAt]
    exact pairs
  · subst same
    rw [← firstAt, ← secondAt]

theorem txOf_mem {seq : Nat} {signature : Signature} (produced : history.txOf seq = some signature) :
    signature ∈ history.transactions.map Prod.fst := by
  rw [History.txOf] at produced
  split at produced
  · cases produced
  · obtain ⟨entry, inHistory, copies⟩ := List.mem_flatMap.mp (List.mem_of_getElem? produced)
    exact List.mem_map.mpr ⟨entry, inHistory, (List.eq_of_mem_replicate copies).symm⟩

/-- A transaction is told apart by its position. -/
theorem position_injective {first second : Signature} (inHistory : first ∈ history.transactions.map Prod.fst)
    (same : history.position first = history.position second) : first = second :=
  (List.idxOf_inj inHistory).mp same

theorem position_lt {early late : Nat} (ordered : early ≤ late) {first second : Signature}
    (isFirst : history.txOf early = some first) (isSecond : history.txOf late = some second)
    (different : first ≠ second) : history.position first < history.position second :=
  Nat.lt_of_le_of_ne (position_mono ordered isFirst isSecond)
    (fun same => different (position_injective (txOf_mem isFirst) same))

end Order

section Gaps

def TreeGapModel.between (row next : Audit) : TreeGapModel where
  gapStartSeq := row.seq
  gapEndSeq := next.seq
  lowerBoundTx := row.tx
  upperBoundTx := next.tx

/-- A gap is between two known rows, with no known row inside. -/
theorem mem_treeGaps {rows : List Audit} (sorted : rows.Pairwise (fun x y => x.seq ≤ y.seq)) {model : TreeGapModel}
    (member : model ∈ treeGaps rows) :
    ∃ row ∈ rows, ∃ next ∈ rows, model = .between row next ∧
      ∀ other ∈ rows, other.seq ≤ row.seq ∨ next.seq ≤ other.seq := by
  induction rows with
  | nil => cases member
  | cons row rest ih =>
    rw [List.pairwise_cons] at sorted
    cases rest with
    | nil => cases member
    | cons next later =>
      have old : model ∈ treeGaps (next :: later) → ∃ first ∈ row :: next :: later, ∃ second ∈ row :: next :: later,
          model = .between first second ∧
            ∀ other ∈ row :: next :: later, other.seq ≤ first.seq ∨ second.seq ≤ other.seq := by
        intro inLater
        obtain ⟨first, isFirst, second, isSecond, same, apart⟩ := ih sorted.2 inLater
        refine ⟨first, List.mem_cons_of_mem _ isFirst, second, List.mem_cons_of_mem _ isSecond, same, ?_⟩
        intro other isOther
        rcases List.mem_cons.mp isOther with isRow | inRest
        · rw [isRow]
          exact .inl (sorted.1 first isFirst)
        · exact apart other inRest
      rw [treeGaps] at member
      split at member
      · rcases List.mem_cons.mp member with new | inLater
        · refine ⟨row, List.mem_cons_self, next, List.mem_cons_of_mem _ List.mem_cons_self, new, ?_⟩
          intro other isOther
          rcases List.mem_cons.mp isOther with isRow | inRest
          · rw [isRow]
            exact .inl (Nat.le_refl _)
          · rcases List.mem_cons.mp inRest with isNext | inTail
            · rw [isNext]
              exact .inr (Nat.le_refl _)
            · exact .inr ((List.pairwise_cons.mp sorted.2).1 other inTail)
        · exact old inLater
      · exact old member

/-- A sequence number that no row has lies in a gap, when there are rows on both
sides of it. -/
theorem treeGaps_cover {rows : List Audit} (sorted : rows.Pairwise (fun x y => x.seq ≤ y.seq)) {seq : Nat}
    (missing : ∀ row ∈ rows, row.seq ≠ seq) (below : ∃ row ∈ rows, row.seq < seq)
    (above : ∃ row ∈ rows, seq < row.seq) :
    ∃ row ∈ rows, ∃ next ∈ rows, .between row next ∈ treeGaps rows ∧ row.seq < seq ∧ seq < next.seq := by
  induction rows with
  | nil =>
    obtain ⟨row, member, -⟩ := below
    cases member
  | cons row rest ih =>
    rw [List.pairwise_cons] at sorted
    obtain ⟨high, isHigh, more⟩ := above
    obtain ⟨low, isLow, less⟩ := below
    have rowBelow : row.seq < seq := by
      rcases List.mem_cons.mp isLow with isRow | inRest
      · rw [← isRow]
        exact less
      · have order := sorted.1 low inRest
        omega
    have highLater : high ∈ rest := by
      rcases List.mem_cons.mp isHigh with isRow | inRest
      · rw [isRow] at more
        omega
      · exact inRest
    cases rest with
    | nil => cases highLater
    | cons next later =>
      have notNext := missing next (List.mem_cons_of_mem _ List.mem_cons_self)
      by_cases here : seq < next.seq
      · refine ⟨row, List.mem_cons_self, next, List.mem_cons_of_mem _ List.mem_cons_self, ?_, rowBelow, here⟩
        rw [treeGaps, if_pos (by omega)]
        exact List.mem_cons_self
      · obtain ⟨first, isFirst, second, isSecond, found, inside⟩ := ih sorted.2
          (fun other member => missing other (List.mem_cons_of_mem _ member))
          ⟨next, List.mem_cons_self, by omega⟩ ⟨high, highLater, more⟩
        refine ⟨first, List.mem_cons_of_mem _ isFirst, second, List.mem_cons_of_mem _ isSecond, ?_, inside⟩
        rw [treeGaps]
        split
        · exact List.mem_cons_of_mem _ found
        · exact found

theorem Signature.ofBytes?_bytes (signature : Signature) : Signature.ofBytes? signature.bytes = some signature := by
  rw [Signature.ofBytes?, dif_pos signature.size]

/-- The range of a gap whose bounds are signatures. -/
def TreeGapModel.Ranges (model : TreeGapModel) (tree : Pubkey) (fill : TreeGapFill) : Prop :=
  ∃ upper lower : Signature, model.upperBoundTx = upper.bytes ∧ model.lowerBoundTx = lower.bytes ∧
    fill = { tree, before := some upper, «until» := some lower }

theorem toFills_ok (tree : Pubkey) (models : List TreeGapModel)
    (signed : ∀ model ∈ models, ∃ fill, model.Ranges tree fill) :
    ∃ fills, toFills tree models = .ok fills ∧
      (∀ fill ∈ fills, ∃ model ∈ models, model.Ranges tree fill) ∧
      ∀ model ∈ models, ∃ fill ∈ fills, model.Ranges tree fill := by
  induction models with
  | nil =>
    exact ⟨[], rfl, fun fill member => absurd member List.not_mem_nil, fun model member => absurd member List.not_mem_nil⟩
  | cons model rest ih =>
    obtain ⟨fills, converted, sound, complete⟩ := ih (fun model member => signed model (List.mem_cons_of_mem _ member))
    obtain ⟨fill, ranges⟩ := signed model List.mem_cons_self
    obtain ⟨upper, lower, isUpper, isLower, isFill⟩ := ranges
    have first : model.toFill tree = .ok fill := by
      rw [TreeGapModel.toFill, isUpper, isLower, upper.ofBytes?_bytes, lower.ofBytes?_bytes, isFill]
    refine ⟨fill :: fills, by rw [toFills, first, converted]; rfl, fun other member => ?_, fun other member => ?_⟩
    · rcases List.mem_cons.mp member with isFirst | inRest
      · rw [isFirst]
        exact ⟨model, List.mem_cons_self, upper, lower, isUpper, isLower, isFill⟩
      · obtain ⟨source, inModels, ofSource⟩ := sound other inRest
        exact ⟨source, List.mem_cons_of_mem _ inModels, ofSource⟩
    · rcases List.mem_cons.mp member with isFirst | inRest
      · rw [isFirst]
        exact ⟨fill, List.mem_cons_self, upper, lower, isUpper, isLower, isFill⟩
      · obtain ⟨found, inFills, ofModel⟩ := complete other inRest
        exact ⟨found, List.mem_cons_of_mem _ inFills, ofModel⟩

theorem auditsOf_sorted (audits : ClAudits) (tree : Pubkey) :
    (auditsOf audits tree).Pairwise (fun x y => x.seq ≤ y.seq) := by
  have total : Std.Total (fun x y : Audit => x.seq ≤ y.seq) := ⟨fun x y => Nat.le_total x.seq y.seq⟩
  have transitive : IsTrans Audit (fun x y => x.seq ≤ y.seq) := ⟨fun _ _ _ => Nat.le_trans⟩
  exact List.pairwise_insertionSort _ _

theorem Signature.ext_bytes {first second : Signature} (same : first.bytes = second.bytes) : first = second := by
  cases first
  cases second
  cases same
  rfl

theorem head_seq_le {first : Audit} {rest : List Audit}
    (sorted : (first :: rest).Pairwise (fun x y => x.seq ≤ y.seq)) {row : Audit} (member : row ∈ first :: rest) :
    first.seq ≤ row.seq := by
  rcases List.mem_cons.mp member with isFirst | inRest
  · rw [isFirst]
  · exact (List.pairwise_cons.mp sorted).1 row inRest

theorem seq_le_getLast {rows : List Audit} (sorted : rows.Pairwise (fun x y => x.seq ≤ y.seq)) {last row : Audit}
    (isLast : rows.getLast? = some last) (member : row ∈ rows) : row.seq ≤ last.seq := by
  obtain ⟨before, split⟩ := List.getLast?_eq_some_iff.mp isLast
  rw [split] at sorted member
  rcases List.mem_append.mp member with earlier | final
  · exact (List.pairwise_append.mp sorted).2.2 row earlier last List.mem_cons_self
  · rw [List.mem_singleton.mp final]

end Gaps

section Coverage
variable {history : History} {rows : List Audit} {tree : Pubkey}

/-- What a list of ranges does: it covers no transaction with a known sequence
number, and of the missing ones those that satisfy `Reached`. -/
structure Fills (history : History) (rows : List Audit) (Reached : Nat → Prop) (fills : List TreeGapFill) : Prop where
  sound : ∀ fill ∈ fills, ∀ row ∈ rows, ∀ signature, history.txOf row.seq = some signature →
    ¬ fill.Covers history signature
  complete : ∀ seq signature, history.txOf seq = some signature → Reached seq →
    (∀ row ∈ rows, history.txOf row.seq ≠ some signature) → ∃ fill ∈ fills, fill.Covers history signature

theorem treeGaps_fills (recorded : Recorded history rows) (sorted : rows.Pairwise (fun x y => x.seq ≤ y.seq)) :
    ∃ fills, toFills tree (treeGaps rows) = .ok fills ∧
      Fills history rows (fun seq => (∃ row ∈ rows, row.seq < seq) ∧ ∃ row ∈ rows, seq < row.seq) fills := by
  obtain ⟨fills, converted, ofModel, ofFill⟩ := toFills_ok tree (treeGaps rows) (fun model member => by
    obtain ⟨row, isRow, next, isNext, same, -⟩ := mem_treeGaps sorted member
    obtain ⟨lower, -, lowerTx⟩ := recorded row isRow
    obtain ⟨upper, -, upperTx⟩ := recorded next isNext
    subst same
    exact ⟨_, upper, lower, upperTx, lowerTx, rfl⟩)
  refine ⟨fills, converted, ?_, ?_⟩
  · intro fill member row isRow signature produced covers
    obtain ⟨model, inGaps, upper, lower, isUpper, isLower, isFill⟩ := ofModel fill member
    obtain ⟨first, isFirst, second, isSecond, same, apart⟩ := mem_treeGaps sorted inGaps
    obtain ⟨firstTx, firstProduced, firstBytes⟩ := recorded first isFirst
    obtain ⟨secondTx, secondProduced, secondBytes⟩ := recorded second isSecond
    subst same isFill
    have lowerIs : firstTx = lower := Signature.ext_bytes (firstBytes.symm.trans isLower)
    have upperIs : secondTx = upper := Signature.ext_bytes (secondBytes.symm.trans isUpper)
    subst lowerIs upperIs
    rcases apart row isRow with early | late
    · have order := position_mono early produced firstProduced
      have strict := covers.1 firstTx rfl
      omega
    · have order := position_mono late secondProduced produced
      have strict := covers.2 secondTx rfl
      omega
  · intro seq signature produced reached others
    have missing : ∀ row ∈ rows, row.seq ≠ seq := by
      intro row isRow same
      exact others row isRow (same ▸ produced)
    obtain ⟨first, isFirst, second, isSecond, inGaps, after, before⟩ := treeGaps_cover sorted missing reached.1 reached.2
    obtain ⟨fill, inFills, upper, lower, isUpper, isLower, isFill⟩ := ofFill _ inGaps
    obtain ⟨firstTx, firstProduced, firstBytes⟩ := recorded first isFirst
    obtain ⟨secondTx, secondProduced, secondBytes⟩ := recorded second isSecond
    have lowerIs : firstTx = lower := Signature.ext_bytes (firstBytes.symm.trans isLower)
    have upperIs : secondTx = upper := Signature.ext_bytes (secondBytes.symm.trans isUpper)
    subst lowerIs upperIs isFill
    refine ⟨_, inFills, fun bound isBound => ?_, fun bound isBound => ?_⟩
    · cases isBound
      refine position_lt (Nat.le_of_lt after) firstProduced produced (fun same => others first isFirst ?_)
      rw [firstProduced, same]
    · cases isBound
      refine position_lt (Nat.le_of_lt before) produced secondProduced (fun same => others second isSecond ?_)
      rw [secondProduced, same]

theorem upperFill_fills (recorded : Recorded history rows) (sorted : rows.Pairwise (fun x y => x.seq ≤ y.seq)) :
    ∃ fills, upperFill { pubkey := tree, seq := history.changes.length } rows.getLast? = .ok fills ∧
      Fills history rows (fun seq => ∀ row ∈ rows, row.seq < seq) fills := by
  cases isLast : rows.getLast? with
  | none =>
    have noRows := List.getLast?_eq_none_iff.mp isLast
    subst noRows
    refine ⟨_, rfl, fun fill _ row member => absurd member List.not_mem_nil, fun seq signature produced _ _ => ?_⟩
    have nonempty : 0 < history.changes.length := by
      rw [History.txOf] at produced
      split at produced
      · cases produced
      · exact List.length_pos_of_mem (List.mem_of_getElem? produced)
    rw [if_pos nonempty]
    refine ⟨_, List.mem_cons_self, fun bound isBound => ?_, fun bound isBound => ?_⟩
    · cases isBound
    · cases isBound
  | some last =>
    have inRows := List.mem_of_getLast? isLast
    obtain ⟨lastTx, lastProduced, lastBytes⟩ := recorded last inRows
    refine ⟨[{ tree, before := none, «until» := some lastTx }], ?_, ?_, ?_⟩
    · rw [upperFill, lastBytes, lastTx.ofBytes?_bytes]
    · intro fill member row isRow signature produced covers
      rw [List.mem_singleton.mp member] at covers
      have strict := covers.1 lastTx rfl
      have order := position_mono (seq_le_getLast sorted isLast isRow) produced lastProduced
      omega
    · intro seq signature produced reached others
      refine ⟨_, List.mem_cons_self, fun bound isBound => ?_, fun bound isBound => ?_⟩
      · cases isBound
        refine position_lt (Nat.le_of_lt (reached last inRows)) lastProduced produced (fun same => others last inRows ?_)
        rw [lastProduced, same]
      · cases isBound

theorem lowerFill_fills (recorded : Recorded history rows) (sorted : rows.Pairwise (fun x y => x.seq ≤ y.seq))
    (seqNow : Nat) :
    ∃ fills, lowerFill { pubkey := tree, seq := seqNow } rows.head? = .ok fills ∧
      Fills history rows (fun seq => rows ≠ [] ∧ ∀ row ∈ rows, seq < row.seq) fills := by
  cases rows with
  | nil =>
    exact ⟨[], rfl, fun fill member => absurd member List.not_mem_nil,
      fun seq signature _ reached => absurd rfl reached.1⟩
  | cons first rest =>
    have inRows : first ∈ first :: rest := List.mem_cons_self
    obtain ⟨firstTx, firstProduced, firstBytes⟩ := recorded first inRows
    by_cases low : 1 < first.seq
    · refine ⟨[{ tree, before := some firstTx, «until» := none }], ?_, ?_, ?_⟩
      · rw [lowerFill, List.head?_cons, Option.filter_some_pos (by simpa using low)]
        dsimp only
        rw [firstBytes, firstTx.ofBytes?_bytes]
      · intro fill member row isRow signature produced covers
        rw [List.mem_singleton.mp member] at covers
        have strict := covers.2 firstTx rfl
        have order := position_mono (head_seq_le sorted isRow) firstProduced produced
        omega
      · intro seq signature produced reached others
        refine ⟨_, List.mem_cons_self, fun bound isBound => ?_, fun bound isBound => ?_⟩
        · cases isBound
        · cases isBound
          refine position_lt (Nat.le_of_lt (reached.2 first inRows)) produced firstProduced
            (fun same => others first inRows ?_)
          rw [firstProduced, same]
    · refine ⟨[], ?_, fun fill member => absurd member List.not_mem_nil, fun seq signature produced reached => ?_⟩
      · rw [lowerFill, List.head?_cons, Option.filter_some_neg (by simpa using low)]
      · have below := reached.2 first inRows
        have zero : seq = 0 := by omega
        rw [History.txOf, if_pos zero] at produced
        cases produced

/-- Every transaction of a missing sequence number lies strictly inside one of
the ranges exactly when no transaction has produced both a known and a missing
sequence number: the bounds themselves are not fetched again. -/
theorem missing_covered_iff (history : History) (audits : ClAudits) (tree : Pubkey)
    (recorded : Recorded history (auditsOf audits tree)) :
    ∃ fills, gapWorker audits { pubkey := tree, seq := history.changes.length } = .ok fills ∧
      ((∀ seq signature, history.txOf seq = some signature → (∀ row ∈ auditsOf audits tree, row.seq ≠ seq) →
          ∃ fill ∈ fills, fill.Covers history signature) ↔
        ∀ seq signature, history.txOf seq = some signature → (∀ row ∈ auditsOf audits tree, row.seq ≠ seq) →
          ∀ row ∈ auditsOf audits tree, history.txOf row.seq ≠ some signature) := by
  have sorted := auditsOf_sorted audits tree
  obtain ⟨gaps, isGaps, ofGaps⟩ := @treeGaps_fills history _ tree recorded sorted
  obtain ⟨upper, isUpper, ofUpper⟩ := @upperFill_fills history _ tree recorded sorted
  obtain ⟨lower, isLower, ofLower⟩ := @lowerFill_fills history _ tree recorded sorted history.changes.length
  refine ⟨gaps ++ upper ++ lower, by rw [gapWorker, isGaps, isUpper, isLower]; rfl, ?_⟩
  constructor
  · intro covered seq signature produced missing row isRow known
    obtain ⟨fill, inFills, covers⟩ := covered seq signature produced missing
    rcases List.mem_append.mp inFills with inFirst | inLower
    · rcases List.mem_append.mp inFirst with inGaps | inUpper
      · exact ofGaps.sound fill inGaps row isRow signature known covers
      · exact ofUpper.sound fill inUpper row isRow signature known covers
    · exact ofLower.sound fill inLower row isRow signature known covers
  · intro apart seq signature produced missing
    have others := apart seq signature produced missing
    by_cases below : ∃ row ∈ auditsOf audits tree, row.seq < seq
    · by_cases above : ∃ row ∈ auditsOf audits tree, seq < row.seq
      · obtain ⟨fill, member, covers⟩ := ofGaps.complete seq signature produced ⟨below, above⟩ others
        exact ⟨fill, List.mem_append_left _ (List.mem_append_left _ member), covers⟩
      · obtain ⟨fill, member, covers⟩ := ofUpper.complete seq signature produced (fun row isRow => by
          have different := missing row isRow
          have notAbove : ¬ seq < row.seq := fun more => above ⟨row, isRow, more⟩
          omega) others
        exact ⟨fill, List.mem_append_left _ (List.mem_append_right _ member), covers⟩
    · by_cases noRows : auditsOf audits tree = []
      · obtain ⟨fill, member, covers⟩ := ofUpper.complete seq signature produced (fun row isRow => by
          rw [noRows] at isRow
          cases isRow) others
        exact ⟨fill, List.mem_append_left _ (List.mem_append_right _ member), covers⟩
      · obtain ⟨fill, member, covers⟩ := ofLower.complete seq signature produced ⟨noRows, fun row isRow => by
          have different := missing row isRow
          have notBelow : ¬ row.seq < seq := fun less => below ⟨row, isRow, less⟩
          omega⟩ others
        exact ⟨fill, List.mem_append_right _ member, covers⟩

end Coverage

section Shared

/-- Two transactions, the first of which made two changes. -/
def twoTransactions : History where
  transactions := [(.fill 1, 2), (.fill 2, 1)]
  distinct := by decide

/-- A table that has only the rows of the given sequence numbers. -/
def auditRows (rows : List (Nat × UInt8)) : ClAudits :=
  Table.upsertMany ∅ (rows.map (fun row =>
    ((Bytes32.zero, 0, row.1), { tx := (Signature.fill row.2).bytes, instruction := .transfer }))) .doNothing

theorem twoTransactions_recorded :
    Recorded twoTransactions (auditsOf (auditRows [(1, 1)]) .zero) ∧
      Recorded twoTransactions (auditsOf (auditRows [(3, 2)]) .zero) := by
  refine ⟨fun row member => ?_, fun row member => ?_⟩
  · rw [show auditsOf (auditRows [(1, 1)]) .zero = [{ seq := 1, tx := (Signature.fill 1).bytes }] from rfl] at member
    rw [List.mem_singleton.mp member]
    exact ⟨.fill 1, rfl, rfl⟩
  · rw [show auditsOf (auditRows [(3, 2)]) .zero = [{ seq := 3, tx := (Signature.fill 2).bytes }] from rfl] at member
    rw [List.mem_singleton.mp member]
    exact ⟨.fill 2, rfl, rfl⟩

/-- The second change of the first transaction is not found again once the
first change is known. -/
theorem shared_transaction_not_covered :
    Recorded twoTransactions (auditsOf (auditRows [(1, 1)]) .zero) ∧
      twoTransactions.txOf 2 = some (.fill 1) ∧
      ∃ fills, gapWorker (auditRows [(1, 1)]) { pubkey := .zero, seq := 3 } = .ok fills ∧
        ¬ ∃ fill ∈ fills, fill.Covers twoTransactions (.fill 1) := by
  refine ⟨twoTransactions_recorded.1, rfl, [{ tree := .zero, before := none, «until» := some (.fill 1) }], rfl, ?_⟩
  rintro ⟨fill, member, covers⟩
  rw [List.mem_singleton.mp member] at covers
  exact Nat.lt_irrefl _ (covers.1 (.fill 1) rfl)

/-- With only the last change known, both changes of the first transaction are
covered. -/
theorem unshared_transactions_covered :
    Recorded twoTransactions (auditsOf (auditRows [(3, 2)]) .zero) ∧
      ∃ fills, gapWorker (auditRows [(3, 2)]) { pubkey := .zero, seq := 3 } = .ok fills ∧
        ∀ seq signature, twoTransactions.txOf seq = some signature →
          (∀ row ∈ auditsOf (auditRows [(3, 2)]) .zero, row.seq ≠ seq) →
          ∃ fill ∈ fills, fill.Covers twoTransactions signature := by
  obtain ⟨fills, emitted, covered⟩ := missing_covered_iff twoTransactions (auditRows [(3, 2)]) .zero
    twoTransactions_recorded.2
  refine ⟨twoTransactions_recorded.2, fills, emitted, covered.mpr ?_⟩
  have rows : auditsOf (auditRows [(3, 2)]) .zero = [{ seq := 3, tx := (Signature.fill 2).bytes }] := rfl
  intro seq signature produced missing row isRow
  rw [rows] at missing isRow
  have notThird := missing _ List.mem_cons_self
  rw [List.mem_singleton.mp isRow]
  have last : twoTransactions.txOf 3 = some (.fill 2) := rfl
  dsimp only at notThird ⊢
  rw [last]
  rcases seq with _ | _ | _ | _ | n
  · cases produced
  · cases produced
    decide
  · cases produced
    decide
  · exact absurd rfl notThird
  · cases produced

end Shared
end DasIndexer.Ops
