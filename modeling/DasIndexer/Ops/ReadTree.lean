import DasIndexer.Lib.Reorder
import DasIndexer.SignatureCrawlers

namespace DasIndexer.Ops
open Reorder Forwarder

structure LeafNode where
  leaf : Bytes
  index : Int

/-- The sequence numbers of a transaction in one tree, with the leaves they change. -/
abbrev SeqUpdates := List (Nat × Option LeafNode)

/-- What a worker sends for a transaction, under the number of the transaction. -/
abbrev TxSeqs := Numbered (Signature × SeqUpdates)

/-- The lines that `print_seqs` logs. -/
def printSeqs (result : TxSeqs) : List String :=
  result.2.2.map (fun update => toString update.1 ++ " " ++
    (update.2.map (fun node => toString node.index)).getD "" ++ " " ++ result.2.1.toBase58 ++ " " ++
    toString result.1)

/-- The lines that are logged before the channel is closed. -/
def printedEarly (results : List TxSeqs) : List String :=
  (results.foldl Buffer.receive Buffer.start).out.flatMap printSeqs

/-- The lines that `read_tree` logs for the results of the channel, in the order in
which they arrive. The hash map lists its entries in some order. -/
def readTree (intoIter : AList (fun _ : Nat => Signature × SeqUpdates) → List TxSeqs) (results : List TxSeqs) :
    List String :=
  let buffer := results.foldl Buffer.receive Buffer.start
  buffer.out.flatMap printSeqs ++ (Buffer.sortById (intoIter buffer.waiting)).flatMap printSeqs

section Printed
variable {intoIter : AList (fun _ : Nat => Signature × SeqUpdates) → List TxSeqs} {results : List TxSeqs}

/-- What is logged when a fetch fails, after some of the results, are the first of
the lines that all results give. -/
theorem printedEarly_prefix {received : List TxSeqs} (begins : received <+: results) :
    printedEarly received <+: readTree intoIter results := by
  obtain ⟨later, split⟩ := begins
  have before := Buffer.out_prefix later (received.foldl Buffer.receive Buffer.start)
  rw [← List.foldl_append, split] at before
  obtain ⟨rest, more⟩ := before
  rw [readTree, ← more, List.flatMap_append, List.append_assoc]
  exact List.prefix_append _ _

variable (anyOrder : ∀ map, (intoIter map).Perm map.entries) (distinct : (results.map Sigma.fst).Nodup)
include anyOrder distinct

theorem readTree_flushed : ∃ printed : List TxSeqs, printed.Perm results ∧
    printed.Pairwise (fun a b => a.1 < b.1) ∧ readTree intoIter results = printed.flatMap printSeqs := by
  obtain ⟨complete, ordered⟩ := (Buffer.foldl_sound distinct).flush distinct (anyOrder _)
  refine ⟨_, complete, ordered, ?_⟩
  rw [List.flatMap_append]
  rfl

end Printed

/-- Whatever the order in which results with different numbers arrive, and whatever
numbers are missing, each of them is printed once, in the order of the numbers. -/
theorem readTree_prints_in_order (intoIter : AList (fun _ : Nat => Signature × SeqUpdates) → List TxSeqs)
    (anyOrder : ∀ map, (intoIter map).Perm map.entries) (results : List TxSeqs)
    (distinct : (results.map Sigma.fst).Nodup) :
    ∃ printed : List TxSeqs, printed.Perm results ∧ printed.Pairwise (fun a b => a.1 < b.1) ∧
      readTree intoIter results = printed.flatMap printSeqs :=
  readTree_flushed anyOrder distinct

/-- Results arrive as 2, 0, 5, 1, and the results 3 and 4 are missing. -/
def Example.results : List TxSeqs :=
  [⟨2, .fill 2, [(7, none)]⟩, ⟨0, .fill 0, [(5, some ⟨[1], 0⟩)]⟩, ⟨5, .fill 5, []⟩, ⟨1, .fill 1, [(6, none), (8, none)]⟩]

theorem readTree_prints_gaps : ∃ printed : List TxSeqs, printed.Perm Example.results ∧
    printed.Pairwise (fun a b => a.1 < b.1) ∧
      readTree (fun map => map.entries) Example.results = printed.flatMap printSeqs :=
  readTree_prints_in_order (fun map => map.entries) (fun _ => .refl _) Example.results (by decide)

/-- The workers of `read_tree_start`: the messages of the channel of signatures that
no worker has taken, the number of the next message, the transactions that are
being processed, and the results sent. -/
structure Fetch where
  messages : List (Except FindSignaturesError Signature)
  sigId : Nat
  fetching : List (Signature × Nat)
  sent : List TxSeqs

namespace Fetch

def start (messages : List (Except FindSignaturesError Signature)) : Fetch where
  messages
  sigId := 0
  fetching := []
  sent := []

section Steps
variable (processTx : Signature → Except String (Pubkey → Option SeqUpdates)) (pubkey : Pubkey)

def resultOf (signature : Signature) (updates : Pubkey → Option SeqUpdates) (id : Nat) : TxSeqs :=
  ⟨id, signature, (updates pubkey).getD []⟩

/-- What the workers do, as long as none of them fails. A worker that finds the
channel closed takes a number too. -/
inductive Step : Fetch → Fetch → Prop
  | take {fetch signature rest} : fetch.messages = .ok signature :: rest →
      Step fetch { fetch with
        messages := rest
        sigId := fetch.sigId + 1
        fetching := fetch.fetching ++ [(signature, fetch.sigId)] }
  | closed {fetch} : fetch.messages = [] → Step fetch { fetch with sigId := fetch.sigId + 1 }
  | send {fetch front signature id rest updates} : fetch.fetching = front ++ (signature, id) :: rest →
      processTx signature = .ok updates →
      Step fetch { fetch with
        fetching := front ++ rest
        sent := fetch.sent ++ [resultOf pubkey signature updates id] }

/-- The signatures that were taken are being processed or have their result sent,
under their place in the channel. -/
structure Tracked (messages : List (Except FindSignaturesError Signature)) (fetch : Fetch)
    (taken : List Signature) : Prop where
  split : messages = taken.map .ok ++ fetch.messages
  numbered : fetch.messages ≠ [] → fetch.sigId = taken.length
  kept : ((fetch.sent.map (fun result => (result.2.1, result.1))) ++ fetch.fetching).Perm taken.zipIdx
  processed : ∀ result ∈ fetch.sent, ∃ updates, processTx result.2.1 = .ok updates ∧
    result = resultOf pubkey result.2.1 updates result.1

variable {processTx pubkey} {messages : List (Except FindSignaturesError Signature)} {fetch after : Fetch}
  {taken : List Signature}

theorem start_tracked : Tracked processTx pubkey messages (start messages) [] where
  split := rfl
  numbered := fun _ => rfl
  kept := .nil
  processed := by
    intro result member
    cases member

theorem Tracked.step (tracked : Tracked processTx pubkey messages fetch taken)
    (step : Step processTx pubkey fetch after) : ∃ more, Tracked processTx pubkey messages after (taken ++ more) := by
  cases step with
  | @take signature rest first =>
    have place := tracked.numbered (by simp [first])
    refine ⟨[signature], ?_, ?_, ?_, tracked.processed⟩
    · simp [tracked.split, first]
    · intro _
      rw [List.length_append, ← place]
      rfl
    · have joined := tracked.kept.append_right [(signature, fetch.sigId)]
      rw [List.append_assoc] at joined
      simpa [List.zipIdx_append, ← place] using joined
  | closed empty =>
    refine ⟨[], ?_, fun more => absurd empty more, ?_, tracked.processed⟩
    · rw [List.append_nil]
      exact tracked.split
    · rw [List.append_nil]
      exact tracked.kept
  | @send front signature id rest updates found done =>
    refine ⟨[], ?_, ?_, ?_, ?_⟩
    · rw [List.append_nil]
      exact tracked.split
    · rw [List.append_nil]
      exact tracked.numbered
    · have moved := tracked.kept
      rw [found] at moved
      have back : ((signature, id) :: (front ++ rest)).Perm (front ++ (signature, id) :: rest) :=
        List.perm_middle.symm
      rw [List.append_nil, List.map_append, List.append_assoc]
      exact (back.append_left _).trans moved
    · intro result member
      rcases List.mem_append.mp member with earlier | last
      · exact tracked.processed result earlier
      · rw [List.mem_singleton.mp last]
        exact ⟨updates, done, rfl⟩

theorem reach_tracked (run : Relation.ReflTransGen (Step processTx pubkey) (start messages) fetch) :
    ∃ taken, Tracked processTx pubkey messages fetch taken := by
  induction run with
  | refl => exact ⟨[], start_tracked⟩
  | tail _ step ih =>
    obtain ⟨taken, tracked⟩ := ih
    obtain ⟨more, next⟩ := tracked.step step
    exact ⟨taken ++ more, next⟩

/-- In every state that the workers reach, the results sent have different numbers. -/
theorem Tracked.distinct (tracked : Tracked processTx pubkey messages fetch taken) :
    (fetch.sent.map Sigma.fst).Nodup := by
  have places := tracked.kept.map Prod.snd
  rw [List.zipIdx_map_snd, List.map_append, List.map_map] at places
  have nodup := places.nodup_iff.mpr List.nodup_range'
  exact (List.nodup_append.mp nodup).1

end Steps

/-- However many workers there are and however they interleave, when they are done
the tool has printed the transactions in the order of the crawl. -/
theorem crawl_printed_in_order {intoIter : AList (fun _ : Nat => Signature × SeqUpdates) → List TxSeqs}
    (anyOrder : ∀ map, (intoIter map).Perm map.entries)
    {processTx : Signature → Except String (Pubkey → Option SeqUpdates)} {pubkey : Pubkey}
    {signatures : List Signature} {fetch : Fetch}
    (run : Relation.ReflTransGen (Step processTx pubkey) (start (signatures.map .ok)) fetch)
    (read : fetch.messages = []) (idle : fetch.fetching = []) :
    ∃ printed : List TxSeqs, printed.map (fun result => result.2.1) = signatures ∧
      (∀ result ∈ printed, ∃ updates, processTx result.2.1 = .ok updates ∧
        result.2.2 = (updates pubkey).getD []) ∧
      readTree intoIter fetch.sent = printed.flatMap printSeqs := by
  obtain ⟨taken, tracked⟩ := reach_tracked run
  obtain ⟨printed, complete, ordered, lines⟩ := readTree_flushed anyOrder tracked.distinct
  have all : taken = signatures := by
    have split := tracked.split
    rw [read, List.append_nil] at split
    exact (List.map_injective_iff.mpr (fun _ _ same => Except.ok.inj same) split).symm
  have places : (printed.map (fun result => (result.2.1, result.1))).Perm signatures.zipIdx := by
    have kept := tracked.kept
    rw [idle, List.append_nil, all] at kept
    exact (complete.map _).trans kept
  have inPlace : printed.map (fun result => (result.2.1, result.1)) = signatures.zipIdx := by
    have increasing : signatures.zipIdx.Pairwise (fun a b => a.2 < b.2) := by
      refine List.pairwise_map.mp ?_
      rw [List.zipIdx_map_snd]
      exact List.pairwise_lt_range'
    refine List.Perm.eq_of_pairwise (fun a b _ _ below above => ?_) (List.pairwise_map.mpr ordered) increasing places
    omega
  refine ⟨printed, ?_, ?_, lines⟩
  · have firsts := congrArg (List.map Prod.fst) inPlace
    rw [List.zipIdx_map_fst, List.map_map] at firsts
    exact firsts
  · intro result member
    obtain ⟨updates, done, same⟩ := tracked.processed result (complete.subset member)
    refine ⟨updates, done, ?_⟩
    rw [same]
    rfl

end Fetch

end DasIndexer.Ops
