import DasIndexer.Core.QueuePool
import DasIndexer.Lib.Pipeline
import DasIndexer.Ops.Crawl

namespace DasIndexer.Ops.Backfiller
open Pipeline Runs

structure Args where
  treeCrawlerCount : Nat
  signatureChannelSize : Nat
  gapChannelSize : Nat
  transactionWorkerCount : Nat
  gapWorkerCount : Nat

inductive Item where
  | tree (tree : TreeResponse)
  | gap (gap : TreeGapFill)
  | signature (signature : Signature)
  | message (bytes : Bytes)

/-- The gaps that `spawn_gap_worker` sends. -/
def spawnGapWorker (audits : ClAudits) (tree : TreeResponse) : List TreeGapFill :=
  match gapWorker audits tree with
  | .ok gaps => gaps
  | .error _ => []

/-- The trees of a run and what its tasks read: the audits, the pages of signatures with
the outcomes of the crawls, which all end, and the transactions as serialized messages. -/
structure Sources where
  trees : List TreeResponse
  audits : ClAudits
  client : SignaturesClient
  crawled : TreeGapFill → List Signature × Except CrawlError Unit
  transaction : Signature → Except String Bytes
  ends : ∀ tree ∈ trees, ∀ gap ∈ spawnGapWorker audits tree, ∃ fuel, gap.crawl client fuel = some (crawled gap)

section Workers
variable (sources : Sources)

/-- The signatures that `spawn_crawl_worker` sends. -/
def spawnCrawlWorker (gap : TreeGapFill) : List Signature := (sources.crawled gap).1

/-- The messages that `spawn_transaction_worker` pushes. -/
def spawnTransactionWorker (signature : Signature) : List Bytes :=
  match sources.transaction signature with
  | .ok message => [message]
  | .error _ => []

/-- The workers of the loop over the trees, of the gap manager and of the transaction
manager. -/
def outputs : Nat → Item → List Item
  | 0, .tree tree => (spawnGapWorker sources.audits tree).map .gap
  | 1, .gap gap => (spawnCrawlWorker sources gap).map .signature
  | 2, .signature signature => (spawnTransactionWorker sources signature).map .message
  | _, _ => []

def gapsOf : List TreeGapFill := sources.trees.flatMap (spawnGapWorker sources.audits)

def signaturesOf : List Signature := (gapsOf sources).flatMap (spawnCrawlWorker sources)

def messagesOf : List Bytes := (signaturesOf sources).flatMap (spawnTransactionWorker sources)

end Workers

section Run
variable (args : Args) (sources : Sources)

def config : Config Item where
  stages := 3
  capacity
    | 1 => args.gapChannelSize
    | _ => args.signatureChannelSize
  limit
    | 0 => args.treeCrawlerCount
    | 1 => args.gapWorkerCount
    | _ => args.transactionWorkerCount
  outputs := outputs sources

/-- `run`, once it has its trees. A channel without a buffer, or with one that is too
large, panics. -/
def run : Option (State Item) :=
  if (0 < args.signatureChannelSize ∧ args.signatureChannelSize ≤ Core.QueuePool.maxPermits) ∧
      0 < args.gapChannelSize ∧ args.gapChannelSize ≤ Core.QueuePool.maxPermits then
    some (State.start (sources.trees.map .tree))
  else none

/-- The messages in the stream of the queue. -/
def queued (s : State Item) : List Item := s.channel 3

/-- The transaction manager has joined its last worker. -/
def hasReturned (s : State Item) : Bool := s.closed 3

/-- The number of actions of a run that returns. -/
def actionsOf : Nat :=
  2 * sources.trees.length + 3 * (gapsOf sources).length + 3 * (signaturesOf sources).length +
    (messagesOf sources).length + 3

end Run

namespace Example
open Backward

/-- The tree has a mint, a failed transaction and one that made two changes. -/
def node : AddressHistory where
  transactions := [{ signature := .fill 3, slot := 30, err := none, confirmationStatus := some .finalized },
    { signature := .fill 2, slot := 20, err := some "custom program error: 0x1", confirmationStatus := some .finalized },
    { signature := .fill 1, slot := 10, err := none, confirmationStatus := some .finalized }]
  place signature := bigEndianValue (signature.bytes.take 1)
  newestFirst := by
    simp [NewestFirst, Signature.fill, bigEndianValue]

def args : Args where
  treeCrawlerCount := 1
  signatureChannelSize := 1
  gapChannelSize := 1
  transactionWorkerCount := 0
  gapWorkerCount := 1

/-- Only the mint is known. -/
def sources : Sources where
  trees := [{ pubkey := .fill 1, seq := 3 }]
  audits := Sql.Table.upsertMany ∅
    [((.fill 1, 0, 1), { tx := (Signature.fill 1).bytes, instruction := .mintV1 })] .doNothing
  client := answering (fun _ => node)
  crawled gap := (signatures ((node.between gap.before gap.until).filter AddressTransaction.succeeded), .ok ())
  transaction signature := if signature = .fill 3 then .ok [9] else .error "not found"
  ends tree _ gap _ := by
    refine crawl_ends { before := gap.before, sent := [] } (fun window inside length => ?_)
    have short : (node.between gap.before gap.until).length ≤ 3 :=
      (List.length_filter_le _ _).trans (List.length_filter_le _ _)
    have bound : window.length ≤ (node.between gap.before gap.until).length := inside.length_le
    rw [length, getSignaturesForAddressLimit] at bound
    omega

def actions : List Action :=
  [.recv 0, .spawn 0 0, .send 0 0, .recv 1, .close 0, .spawn 1 0, .send 1 0, .recv 2, .close 1, .spawn 2 0, .send 2 0,
    .close 2]

end Example

section Delivery
variable {args : Args} {sources : Sources} {s t : State Item} {actions : List Action}

theorem outputs_trees : (sources.trees.map Item.tree).flatMap ((config args sources).outputs 0) =
    (gapsOf sources).map .gap := by
  simp [config, outputs, gapsOf, List.flatMap_map, List.map_flatMap]

theorem outputs_gaps (gaps : List TreeGapFill) : (gaps.map Item.gap).flatMap ((config args sources).outputs 1) =
    (gaps.flatMap (spawnCrawlWorker sources)).map .signature := by
  simp [config, outputs, List.flatMap_map, List.map_flatMap]

theorem outputs_signatures (signatures : List Signature) :
    (signatures.map Item.signature).flatMap ((config args sources).outputs 2) =
      (signatures.flatMap (spawnTransactionWorker sources)).map .message := by
  simp [config, outputs, List.flatMap_map, List.map_flatMap]

/-- What comes out of the last channel is what the workers make one after the other. -/
theorem leaves_trees : (sources.trees.map Item.tree).flatMap (leaves (config args sources) 3 0) =
    (messagesOf sources).map .message := by
  rw [flatMap_leaves, outputs_trees, flatMap_leaves, outputs_gaps, flatMap_leaves, outputs_signatures]
  exact List.flatMap_singleton' _

theorem remaining_trees :
    remaining (config args sources) (State.start (sources.trees.map .tree)) = actionsOf sources := by
  rw [remaining_start]
  show ((sources.trees.map Item.tree).map (worth (config args sources) (fun _ => 0) 1 3 0)).sum + 3 = _
  rw [sum_worth, outputs_trees, sum_worth, outputs_gaps, sum_worth, outputs_signatures, actionsOf]
  have atEnd : ∀ items : List Item, (items.map (worth (config args sources) (fun _ => 0) 1 0 3)).sum = 0 := by
    intro items
    simp [worth]
  simp only [atEnd, List.length_map]
  rw [messagesOf, signaturesOf]
  omega

theorem run_eq (started : run args sources = some s) :
    0 < args.signatureChannelSize ∧ 0 < args.gapChannelSize ∧ s = State.start (sources.trees.map .tree) := by
  rw [run] at started
  split at started
  · next sizes =>
    cases started
    exact ⟨sizes.1.1, sizes.2.1, rfl⟩
  · cases started

/-- The queue never gets a message that it should not get, and in the end it has each one
as often as the crawls found it. -/
theorem queue_holds (started : run args sources = some s) (reached : Reaches (step (config args sources)) s actions t) :
    (queued t).Subperm ((messagesOf sources).map .message) ∧
      (hasReturned t = true → (queued t).Perm ((messagesOf sources).map .message)) := by
  rw [(run_eq started).2.2] at reached
  have sound := reaches_sound (Pipeline.start_sound _) reached
  have all := (reaches_expected reached).symm.trans (expected_start _)
  rw [show (config args sources).stages = 3 from rfl, leaves_trees] at all
  constructor
  · have arrived := @arrived_le _ (config args sources) t
    rw [all] at arrived
    exact Multiset.coe_le.mp arrived
  · intro returned
    have ended := expected_ended sound returned
    rw [all] at ended
    exact (Multiset.coe_eq_coe.mp ended).symm

/-- The channels between the managers have room for an item at least. -/
theorem capacity_pos (started : run args sources = some s) (k : Nat) : 0 < (config args sources).capacity k := by
  obtain ⟨signatureSize, gapSize, -⟩ := run_eq started
  by_cases isGaps : k = 1
  · rw [isGaps]
    exact gapSize
  · have same : (config args sources).capacity k = args.signatureChannelSize := by
      simp only [config]
    rw [same]
    exact signatureSize

theorem Example.ended : ((Example.actions.foldlM (step (config Example.args Example.sources))
    (State.start (Example.sources.trees.map .tree))).any hasReturned) = true := by
  rfl

/-- Whatever the order in which the workers and the managers act: the queue never gets a
message that it should not get, and in the end it has each one as often as the crawls
found it. The channels and the sets of workers keep their bounds, no run is longer than
the work, and every run can be continued until the program returns. -/
theorem run_delivers (args : Args) (sources : Sources) (s t : State Item) (actions : List Action)
    (started : run args sources = some s) (reached : Reaches (step (config args sources)) s actions t) :
    (queued t).Subperm ((messagesOf sources).map .message) ∧
      (hasReturned t = true → (queued t).Perm ((messagesOf sources).map .message)) ∧
      (t.channel 1).length ≤ args.gapChannelSize ∧ (t.channel 2).length ≤ args.signatureChannelSize ∧
      (∀ k, (t.workers k).length ≤ max 1 ((config args sources).limit k)) ∧
      actions.length ≤ actionsOf sources ∧
      ∃ more u, Reaches (step (config args sources)) t more u ∧ hasReturned u = true := by
  obtain ⟨never, delivered⟩ := queue_holds started reached
  have positive := capacity_pos started
  rw [(run_eq started).2.2] at reached
  have sound := reaches_sound (Pipeline.start_sound _) reached
  have length := reaches_remaining reached
  rw [remaining_trees] at length
  exact ⟨never, delivered, sound.channels 1 Nat.one_pos (show 1 < 3 by omega),
    sound.channels 2 Nat.two_pos (show 2 < 3 by omega), sound.workers, by omega,
    completes (fun k _ _ => positive k) _ t sound (Nat.le_refl _)⟩

/-- A run with the smallest channels and a worker for each manager. -/
theorem run_delivers_two_changes : ∃ s t, run Example.args Example.sources = some s ∧
    Reaches (step (config Example.args Example.sources)) s Example.actions t ∧
    hasReturned t = true ∧ (queued t).Perm [.message [9]] := by
  obtain ⟨t, ran, returned⟩ := (Option.any_eq_true _ _).mp Example.ended
  have reached := Reaches.of_foldlM ran
  have delivered := run_delivers Example.args Example.sources _ t Example.actions rfl reached
  exact ⟨_, t, rfl, reached, returned, delivered.2.1 returned⟩

end Delivery

section Chain
variable {history : History} {audits : ClAudits} {tree : TreeResponse}

theorem ofBytes?_eq {bytes : Bytes} {signature : Signature} (isSignature : Signature.ofBytes? bytes = some signature) :
    bytes = signature.bytes := by
  rw [Signature.ofBytes?] at isSignature
  split at isSignature
  · cases isSignature
    rfl
  · cases isSignature

/-- The range is of the tree, and its bounds are transactions of its rows. -/
def Bounded (rows : List Audit) (pubkey : Pubkey) (fill : TreeGapFill) : Prop :=
  fill.tree = pubkey ∧ ∀ bound, bound ∈ fill.before ∨ bound ∈ fill.until → ∃ row ∈ rows, row.tx = bound.bytes

theorem toFill_bounds {pubkey : Pubkey} {row next : Audit} {fill : TreeGapFill}
    (converted : (TreeGapModel.between row next).toFill pubkey = .ok fill) : fill.tree = pubkey ∧
      ∀ bound, bound ∈ fill.before ∨ bound ∈ fill.until → row.tx = bound.bytes ∨ next.tx = bound.bytes := by
  rw [TreeGapModel.toFill] at converted
  split at converted
  · next upper lower isUpper isLower =>
    cases converted
    refine ⟨rfl, fun bound isBound => ?_⟩
    rcases isBound with isBound | isBound
    · cases isBound
      exact .inr (ofBytes?_eq isUpper)
    · cases isBound
      exact .inl (ofBytes?_eq isLower)
  · cases converted

theorem toFills_bounds {rows : List Audit} {pubkey : Pubkey} {models : List TreeGapModel} {fills : List TreeGapFill}
    (known : ∀ model ∈ models, ∃ row ∈ rows, ∃ next ∈ rows, model = .between row next)
    (converted : toFills pubkey models = .ok fills) : ∀ fill ∈ fills, Bounded rows pubkey fill := by
  induction models generalizing fills with
  | nil =>
    cases converted
    intro fill member
    cases member
  | cons model rest ih =>
    obtain ⟨first, isFirst, remains⟩ := Loops.bind_eq_ok.mp converted
    obtain ⟨others, isOthers, all⟩ := Loops.map_eq_ok.mp remains
    obtain ⟨row, isRow, next, isNext, isModel⟩ := known model List.mem_cons_self
    rw [isModel] at isFirst
    obtain ⟨sameTree, bounds⟩ := toFill_bounds isFirst
    intro fill member
    rw [← all] at member
    rcases List.mem_cons.mp member with here | inOthers
    · rw [here]
      refine ⟨sameTree, fun bound isBound => ?_⟩
      rcases bounds bound isBound with ofRow | ofNext
      · exact ⟨row, isRow, ofRow⟩
      · exact ⟨next, isNext, ofNext⟩
    · exact ih (fun model member => known model (List.mem_cons_of_mem _ member)) isOthers fill inOthers

theorem upperFill_bounds {rows : List Audit} {fills : List TreeGapFill}
    (emitted : upperFill tree rows.getLast? = .ok fills) : ∀ fill ∈ fills, Bounded rows tree.pubkey fill := by
  intro fill member
  cases isLast : rows.getLast? with
  | none =>
    rw [isLast, upperFill] at emitted
    cases emitted
    split at member
    · rw [List.mem_singleton.mp member]
      refine ⟨rfl, fun bound isBound => ?_⟩
      rcases isBound with isBound | isBound <;> cases isBound
    · cases member
  | some last =>
    rw [isLast, upperFill] at emitted
    split at emitted
    · cases emitted
    · next signature isSignature =>
      cases emitted
      rw [List.mem_singleton.mp member]
      refine ⟨rfl, fun bound isBound => ?_⟩
      rcases isBound with isBound | isBound
      · cases isBound
      · cases isBound
        exact ⟨last, List.mem_of_getLast? isLast, ofBytes?_eq isSignature⟩

theorem lowerFill_bounds {rows : List Audit} {fills : List TreeGapFill}
    (emitted : lowerFill tree rows.head? = .ok fills) : ∀ fill ∈ fills, Bounded rows tree.pubkey fill := by
  intro fill member
  rw [lowerFill] at emitted
  split at emitted
  · cases emitted
    cases member
  · next first isFirst =>
    split at emitted
    · cases emitted
    · next signature isSignature =>
      cases emitted
      rw [List.mem_singleton.mp member]
      refine ⟨rfl, fun bound isBound => ?_⟩
      rcases isBound with isBound | isBound
      · cases isBound
        exact ⟨first, List.mem_of_head? (Option.filter_eq_some_iff.mp isFirst).1, ofBytes?_eq isSignature⟩
      · cases isBound

theorem gapWorker_bounds {fills : List TreeGapFill} (emitted : gapWorker audits tree = .ok fills) :
    ∀ fill ∈ fills, Bounded (auditsOf audits tree.pubkey) tree.pubkey fill := by
  obtain ⟨gaps, isGaps, rest⟩ := Loops.bind_eq_ok.mp emitted
  obtain ⟨upper, isUpper, rest⟩ := Loops.bind_eq_ok.mp rest
  obtain ⟨lower, isLower, all⟩ := Loops.map_eq_ok.mp rest
  intro fill member
  rw [← all] at member
  rcases List.mem_append.mp member with inFirst | inLower
  · rcases List.mem_append.mp inFirst with inGaps | inUpper
    · refine toFills_bounds (fun model inModels => ?_) isGaps fill inGaps
      obtain ⟨row, isRow, next, isNext, isModel, -⟩ := mem_treeGaps (auditsOf_sorted audits tree.pubkey) inModels
      exact ⟨row, isRow, next, isNext, isModel⟩
    · exact upperFill_bounds isUpper fill inUpper
  · exact lowerFill_bounds isLower fill inLower

/-- The gap worker finds a range for every transaction none of whose sequence numbers is
known. -/
theorem gapWorker_complete (recorded : Recorded history (auditsOf audits tree.pubkey))
    (latest : tree.seq = history.changes.length) : ∃ fills, gapWorker audits tree = .ok fills ∧
      ∀ seq signature, history.txOf seq = some signature →
        (∀ row ∈ auditsOf audits tree.pubkey, history.txOf row.seq ≠ some signature) →
        ∃ fill ∈ fills, fill.Covers history signature := by
  have sorted := auditsOf_sorted audits tree.pubkey
  obtain ⟨gaps, isGaps, ofGaps⟩ := @treeGaps_fills history _ tree.pubkey recorded sorted
  obtain ⟨upper, isUpper, ofUpper⟩ := @upperFill_fills history _ tree.pubkey recorded sorted
  obtain ⟨lower, isLower, ofLower⟩ := @lowerFill_fills history _ tree.pubkey recorded sorted history.changes.length
  rw [← latest] at isUpper isLower
  refine ⟨gaps ++ upper ++ lower, ?_, fun seq signature produced others => ?_⟩
  · show (toFills tree.pubkey _).bind _ = _
    rw [isGaps]
    show (upperFill tree _).bind _ = _
    rw [isUpper]
    show (lowerFill tree _).map _ = _
    rw [isLower]
    rfl
  · have missing : ∀ row ∈ auditsOf audits tree.pubkey, row.seq ≠ seq := by
      intro row isRow same
      rw [← same] at produced
      exact others row isRow produced
    by_cases allBelow : ∀ row ∈ auditsOf audits tree.pubkey, row.seq < seq
    · obtain ⟨fill, member, covers⟩ := ofUpper.complete seq signature produced allBelow others
      exact ⟨fill, List.mem_append_left _ (List.mem_append_right _ member), covers⟩
    · by_cases allAbove : ∀ row ∈ auditsOf audits tree.pubkey, seq < row.seq
      · have some : auditsOf audits tree.pubkey ≠ [] := by
          intro noRows
          refine allBelow (fun row isRow => ?_)
          rw [noRows] at isRow
          cases isRow
        obtain ⟨fill, member, covers⟩ := ofLower.complete seq signature produced ⟨some, allAbove⟩ others
        exact ⟨fill, List.mem_append_right _ member, covers⟩
      · push Not at allBelow allAbove
        obtain ⟨high, isHigh, notBelow⟩ := allBelow
        obtain ⟨low, isLow, notAbove⟩ := allAbove
        have notHigh := missing high isHigh
        have notLow := missing low isLow
        obtain ⟨fill, member, covers⟩ := ofGaps.complete seq signature produced
          ⟨⟨low, isLow, by omega⟩, high, isHigh, by omega⟩ others
        exact ⟨fill, List.mem_append_left _ (List.mem_append_left _ member), covers⟩

/-- The node lists the transactions of the history, besides failed ones. -/
def Lists (address : AddressHistory) (history : History) : Prop :=
  history.transactions.map Prod.fst = (signatures (address.transactions.filter AddressTransaction.succeeded)).reverse

theorem place_lt {address : AddressHistory} (lists : Lists address history) {early late : Signature}
    (isLate : late ∈ history.transactions.map Prod.fst) (before : history.position early < history.position late) :
    address.place early < address.place late := by
  have lateIndex := List.idxOf_lt_length_iff.mpr isLate
  have earlyIndex : (history.transactions.map Prod.fst).idxOf early < _ := before.trans lateIndex
  have ordered : (history.transactions.map Prod.fst).Pairwise (fun x y => address.place x < address.place y) := by
    rw [lists, List.pairwise_reverse]
    exact List.Pairwise.map _ (fun _ _ less => less) (address.newestFirst.filter _)
  have places := List.pairwise_iff_getElem.mp ordered _ _ earlyIndex lateIndex before
  rw [List.getElem_idxOf, List.getElem_idxOf] at places
  exact places

/-- A transaction that a range covers is between its bounds at the node. -/
theorem covers_between {address : AddressHistory} (lists : Lists address history) {fill : TreeGapFill}
    (known : ∀ bound, bound ∈ fill.before ∨ bound ∈ fill.until → bound ∈ history.transactions.map Prod.fst)
    {signature : Signature} (inHistory : signature ∈ history.transactions.map Prod.fst)
    (covers : fill.Covers history signature) :
    signature ∈ signatures ((address.between fill.before fill.until).filter AddressTransaction.succeeded) := by
  have listed := inHistory
  rw [lists, List.mem_reverse] at listed
  obtain ⟨tx, inFiltered, isSignature⟩ := List.mem_map.mp listed
  obtain ⟨inAddress, succeeded⟩ := List.mem_filter.mp inFiltered
  refine List.mem_map.mpr ⟨tx, List.mem_filter.mpr ⟨List.mem_filter.mpr ⟨List.mem_filter.mpr ⟨inAddress, ?_⟩, ?_⟩,
    succeeded⟩, isSignature⟩
  · cases isUntil : fill.until with
    | none => rfl
    | some lower =>
      have above := place_lt lists inHistory (covers.1 lower isUntil)
      rw [Option.all_some, decide_eq_true_eq, AddressHistory.placeOf, isSignature]
      exact above
  · cases isBefore : fill.before with
    | none => rfl
    | some upper =>
      have below := place_lt lists (known upper (.inl isBefore)) (covers.2 upper isBefore)
      rw [Option.map_some, Option.all_some, decide_eq_true_eq, AddressHistory.placeOf, isSignature]
      exact below

/-- A crawl at the node that ends has sent the successful transactions between the
bounds. -/
theorem crawled_at_node {histories : Pubkey → AddressHistory} {gap : TreeGapFill} {fuel : Nat}
    {result : List Signature × Except CrawlError Unit} (ended : gap.crawl (answering histories) fuel = some result) :
    result.1 = signatures (((histories gap.tree).between gap.before gap.until).filter AddressTransaction.succeeded) := by
  have clear : Clear histories gap { before := gap.before, sent := [] } := by
    by_contra blocked
    have endless := crawl_endless fuel { before := gap.before, sent := [] } blocked
    rw [TreeGapFill.crawl, endless] at ended
    cases ended
  obtain ⟨enough, outcome⟩ := crawl_ends _ clear
  rw [Loops.loop_unique ended outcome]
  rfl

/-- Once the program has returned, the queue has every transaction that a node lists for
one of its trees and that has produced only sequence numbers without an audit, if the
transaction could be fetched. -/
theorem run_fills_gaps (args : Args) (sources : Sources) (histories : Pubkey → AddressHistory) (s t : State Item)
    (actions : List Action) (atNode : sources.client = answering histories) (started : run args sources = some s)
    (reached : Reaches (step (config args sources)) s actions t) (returned : hasReturned t = true)
    (tree : TreeResponse) (inTrees : tree ∈ sources.trees) (history : History)
    (lists : Lists (histories tree.pubkey) history)
    (recorded : Recorded history (auditsOf sources.audits tree.pubkey)) (latest : tree.seq = history.changes.length)
    (seq : Nat) (signature : Signature) (produced : history.txOf seq = some signature)
    (unknown : ∀ row ∈ auditsOf sources.audits tree.pubkey, history.txOf row.seq ≠ some signature) (message : Bytes)
    (fetched : sources.transaction signature = .ok message) : .message message ∈ queued t := by
  obtain ⟨fills, emitted, complete⟩ := gapWorker_complete recorded latest
  obtain ⟨gap, inFills, covers⟩ := complete seq signature produced unknown
  obtain ⟨sameTree, bounds⟩ := gapWorker_bounds emitted gap inFills
  have sent : gap ∈ spawnGapWorker sources.audits tree := by
    rw [spawnGapWorker, emitted]
    exact inFills
  have known : ∀ bound, bound ∈ gap.before ∨ bound ∈ gap.until → bound ∈ history.transactions.map Prod.fst := by
    intro bound isBound
    obtain ⟨row, isRow, isTx⟩ := bounds bound isBound
    obtain ⟨rowTx, rowProduced, rowBytes⟩ := recorded row isRow
    rw [Signature.ext_bytes (isTx.symm.trans rowBytes)]
    exact txOf_mem rowProduced
  have between := covers_between lists known (txOf_mem produced) covers
  obtain ⟨fuel, ended⟩ := sources.ends tree inTrees gap sent
  rw [atNode] at ended
  have crawled : signature ∈ spawnCrawlWorker sources gap := by
    rw [spawnCrawlWorker, crawled_at_node ended, sameTree]
    exact between
  have inSignatures : signature ∈ signaturesOf sources :=
    List.mem_flatMap.mpr ⟨gap, List.mem_flatMap.mpr ⟨tree, inTrees, sent⟩, crawled⟩
  have inMessages : message ∈ messagesOf sources := by
    refine List.mem_flatMap.mpr ⟨signature, inSignatures, ?_⟩
    rw [spawnTransactionWorker, fetched]
    exact List.mem_singleton_self message
  obtain ⟨-, delivered⟩ := queue_holds started reached
  exact (delivered returned).mem_iff.mpr (List.mem_map_of_mem inMessages)

/-- The history of the example. -/
def Example.twoChanges : History where
  transactions := [(.fill 1, 1), (.fill 3, 2)]
  distinct := by decide

theorem run_fills_second_change : ∃ s t, run Example.args Example.sources = some s ∧
    Reaches (step (config Example.args Example.sources)) s Example.actions t ∧ .message [9] ∈ queued t := by
  obtain ⟨t, ran, returned⟩ := (Option.any_eq_true _ _).mp Example.ended
  have reached := Reaches.of_foldlM ran
  have rows : auditsOf Example.sources.audits (.fill 1) = [{ seq := 1, tx := (Signature.fill 1).bytes }] := rfl
  refine ⟨_, t, rfl, reached, run_fills_gaps Example.args Example.sources (fun _ => Example.node) _ t Example.actions rfl
    rfl reached returned { pubkey := .fill 1, seq := 3 } List.mem_cons_self Example.twoChanges rfl
    (fun row isRow => ?_) rfl 3 (.fill 3) rfl (fun row isRow => ?_) [9] rfl⟩
  · rw [rows] at isRow
    rw [List.mem_singleton.mp isRow]
    exact ⟨.fill 1, rfl, rfl⟩
  · rw [rows] at isRow
    rw [List.mem_singleton.mp isRow]
    decide

end Chain

end DasIndexer.Ops.Backfiller
