import DasIndexer.Bubblegum.LedgerRows

/-! Proofs for the leaves of a ledger. -/

namespace DasIndexer.Bubblegum
open Sql Latest Merkle

section Calls
variable [Programs] {chain : Chain} {events : List Event} {l : Ledger} {tree : Pubkey}

/-- The call of `insert_change_log` for an event. -/
def callOf (e : Event) (cl : ChangeLogEvent) : Ingestion where
  event := cl
  slot := e.bundle.slot
  txnId := e.bundle.txnId
  instruction := e.parsingResult.instruction.ixStr

/-- The calls for a tree. -/
def treeCalls (tree : Pubkey) (events : List Event) : List Ingestion :=
  events.filterMap (fun e => e.parsingResult.treeUpdate.bind (fun cl => if cl.id = tree then some (callOf e cl) else none))

theorem Plan.Indexes.items {event : Event} {cl : ChangeLogEvent} (indexes : event.plan.Indexes event cl) (index : Nat) :
    event.statements.filterMap (Statement.itemWrite (tree, index)) =
      ((treeCalls tree [event]).flatMap Ingestion.statements).filterMap (Statement.itemWrite (tree, index)) := by
  by_cases inTree : cl.id = tree
  · have body : event.plan.body.filterMap (Statement.itemWrite (tree, index)) = [] := by
      rw [List.filterMap_eq_nil_iff]
      intro s member
      cases written : s.itemWrite (tree, index) with
      | none => rfl
      | some item =>
        have isItem := Statement.itemWrite_eq written
        subst isItem
        exact (indexes.ofEvent _ member).elim
    rw [Event.statements, Plan.statements, List.filterMap_append, body, List.append_nil, indexes.changeLog]
    simp [treeCalls, callOf, indexes.update, inTree, Ingestion.statements, saveChangelogEvent]
  · have silent : event.statements.filterMap (Statement.itemWrite (tree, index)) = [] := by
      by_contra written
      obtain ⟨item, member⟩ := List.exists_mem_of_ne_nil _ written
      obtain ⟨other, update, sameTree⟩ := Event.tree_of_item member
      rw [indexes.update] at update
      cases update
      exact inTree sameTree
    rw [silent]
    simp [treeCalls, indexes.update, inTree]

omit [Programs] in
theorem mem_treeCalls {cl : ChangeLogEvent} : (∃ call ∈ treeCalls tree events, call.event = cl) ↔
    ∃ e ∈ events, e.parsingResult.treeUpdate = some cl ∧ cl.id = tree := by
  constructor
  · rintro ⟨call, member, same⟩
    obtain ⟨e, inEvents, isCall⟩ := List.mem_filterMap.mp member
    obtain ⟨other, update, chosen⟩ := Option.bind_eq_some_iff.mp isCall
    obtain ⟨inTree, isCall⟩ := Option.ite_none_right_eq_some.mp chosen
    cases isCall
    cases same
    exact ⟨e, inEvents, update, inTree⟩
  · rintro ⟨e, inEvents, update, inTree⟩
    refine ⟨callOf e cl, List.mem_filterMap.mpr ⟨e, inEvents, ?_⟩, rfl⟩
    rw [update, Option.bind_some, if_pos inTree]

variable (sound : l.Sound chain events)
include sound

/-- The nodes of a tree are those of its change logs, whatever other trees do. -/
theorem Ledger.Sound.lookup_treeCalls (index : Nat) : (ingest {} events).clItems.lookup (tree, index) =
    (ingestChangeLogs {} (treeCalls tree events)).clItems.lookup (tree, index) := by
  have writes : ∀ part, (∀ e ∈ part, e ∈ events) →
      (part.flatMap Event.statements).filterMap (Statement.itemWrite (tree, index)) =
        ((treeCalls tree part).flatMap Ingestion.statements).filterMap (Statement.itemWrite (tree, index)) := by
    intro part
    induction part with
    | nil => exact fun _ => rfl
    | cons e rest ih =>
      intro included
      obtain ⟨cl, id, h, logs⟩ := sound.logged e (included e List.mem_cons_self)
      have split : treeCalls tree (e :: rest) = treeCalls tree [e] ++ treeCalls tree rest := by
        unfold treeCalls
        rw [← List.filterMap_append, List.singleton_append]
      rw [List.flatMap_cons, List.filterMap_append, split, List.flatMap_append, List.filterMap_append,
        ih (fun e member => included e (List.mem_cons_of_mem _ member)), logs.indexes.items]
  rw [ingest_eq_statements, ingestChangeLogs_eq_statements, run_clItems _ rfl, run_clItems _ rfl,
    writes events (fun _ member => member)]

theorem Ledger.Sound.complete (cl : ChangeLogEvent) : (∃ call ∈ treeCalls tree events, call.event = cl) ↔
    cl ∈ changeLogs chain.hash (Programs.emptyNode 0) tree (chain.depth tree) (l.writes tree) := by
  rw [mem_treeCalls, sound.logs]

end Calls

section Served
variable [Programs] {db : Db}

omit [Programs] in
theorem findRequiredNodes_congr {other : Db} {tree : Pubkey}
    (same : ∀ index, db.clItems.lookup (tree, index) = other.clItems.lookup (tree, index)) (reqIndexes : List Nat) :
    findRequiredNodes db tree reqIndexes = findRequiredNodes other tree reqIndexes := by
  unfold findRequiredNodes
  refine List.filterMap_congr (fun index _ => ?_)
  rw [same]

/-- The proof that is built from the nodes on the way to the root. -/
theorem buildAssetProof_of_hashes {hash : Hash → Hash → Hash} {leaves : Nat → Hash} {tree : Pubkey} {depth leaf : Nat}
    {required : List SimpleChangeLog}
    (hashes : (fillEmptyNodes tree.bytes
      (placeNodes (getRequiredNodesForProof (2 ^ depth + leaf)).length required)
      (getRequiredNodesForProof (2 ^ depth + leaf))).map SimpleChangeLog.hash =
        (List.range (depth + 1)).map (fun level => (proofNode hash leaves depth leaf level).bytes)) :
    buildAssetProof tree.bytes (2 ^ depth + leaf) (leaves leaf).bytes (getRequiredNodesForProof (2 ^ depth + leaf))
        required =
      { root := (node hash depth leaves 0).toBase58
        leaf := (leaves leaf).toBase58
        proof := ((List.range depth).map (proofNode hash leaves depth leaf)).map Bytes32.toBase58
        nodeIndex := 2 ^ depth + leaf
        treeId := tree.toBase58 } := by
  rw [List.range_succ, List.map_append, List.map_singleton] at hashes
  have top : proofNode hash leaves depth leaf depth = node hash depth leaves 0 := by
    rw [proofNode, requiredPosition, if_neg (Nat.lt_irrefl depth)]
  unfold buildAssetProof
  generalize fillEmptyNodes _ _ _ = nodes at hashes ⊢
  have root : nodes.getLast?.map SimpleChangeLog.hash = some (node hash depth leaves 0).bytes := by
    rw [← List.getLast?_map, hashes, List.getLast?_concat, top]
  have path : nodes.dropLast.map SimpleChangeLog.hash =
      (List.range depth).map (fun level => (proofNode hash leaves depth leaf level).bytes) := by
    rw [List.map_dropLast, hashes, List.dropLast_concat]
  have proof : nodes.dropLast.map (fun node => bs58Encode node.hash) =
      (nodes.dropLast.map SimpleChangeLog.hash).map bs58Encode := by
    rw [List.map_map]
    rfl
  obtain ⟨last, isLast, lastHash⟩ := Option.map_eq_some_iff.mp root
  simp only [isLast, Option.getD_some, lastHash, proof, path, List.map_map]
  rfl

omit [Programs] in
/-- The nodes of the proof lead to the root. -/
theorem climb_proofNodes (hash : Hash → Hash → Hash) (leaves : Nat → Hash) {depth leaf : Nat}
    (inTree : leaf < 2 ^ depth) :
    climb hash (leaves leaf) (2 ^ depth + leaf) ((List.range depth).map (proofNode hash leaves depth leaf)) =
      node hash depth leaves 0 := by
  have parity : ∀ i < depth, (2 ^ depth + leaf) / 2 ^ i % 2 = leaf / 2 ^ i % 2 := by
    intro i small
    have index := @heapIndex depth i leaf (Nat.le_of_lt small)
    rw [Nat.shiftRight_eq_div_pow] at index
    have even : 2 ^ (depth - i) = 2 * 2 ^ (depth - i - 1) := by
      rw [← Nat.pow_succ']
      congr 1
      omega
    rw [index, even, Nat.mul_add_mod]
  have climbed := climb_siblings hash leaves depth 0 leaf (2 ^ depth + leaf) parity
  rw [Nat.zero_add, Nat.div_eq_of_lt inTree] at climbed
  rw [← climbed]
  refine congrArg _ (List.map_congr_left (fun level member => ?_))
  rw [proofNode, requiredPosition, if_pos (List.mem_range.mp member), Nat.zero_add]

variable {chain : Chain} {events : List Event} {l : Ledger} {id : Pubkey} {h : Holding} {row : AssetRow}
  (sound : l.Sound chain events)
include sound

/-- The leaf row of an asset holds its leaf. -/
theorem Ledger.Sound.leaf_row (holds : l.holdings id = some h) : ∃ item,
    (ingest {} events).clItems.lookup (h.tree, 2 ^ chain.depth h.tree + h.leaf) = some item ∧
      item.leafIdx = some (h.leaf : Int) ∧ item.hash = h.value chain id := by
  obtain ⟨write, member, atLeaf⟩ := sound.written id h holds
  have inTree := (sound.placed id h holds).2
  obtain ⟨item, found⟩ : ∃ item, (ingestChangeLogs {} (treeCalls h.tree events)).clItems.lookup
      (h.tree, 2 ^ chain.depth h.tree + h.leaf) = some item := by
    refine Option.ne_none_iff_exists'.mp (fun missing => ?_)
    exact lookup_node_none sound.complete (fun _ => rfl) (Nat.zero_le _) missing write member (by simp [atLeaf])
  obtain ⟨-, leafIdx, hashed⟩ := lookup_node sound.complete (sound.inRange h.tree) (fun _ => rfl)
    (Nat.zero_le _) inTree found
  refine ⟨item, by rw [sound.lookup_treeCalls, found], by simpa using leafIdx, ?_⟩
  rw [hashed, ← sound.value id h holds]
  rfl

/-- The proof of an asset leads from its leaf to the root of its tree. -/
theorem Ledger.Sound.proof_served (doubling : ∀ level, Programs.emptyNode (level + 1) =
      chain.hash (Programs.emptyNode level) (Programs.emptyNode level))
    (holds : l.holdings id = some h) (tables : ProofTables db)
    (items : ∀ key, db.clItems.lookup key = (ingest {} events).clItems.lookup key)
    (stored : db.asset.lookup id = some row) (inTree : row.treeId = some h.tree) (nonce : row.nonce = some h.leaf) :
    ∃ siblings : List Hash,
      getProofForAsset db id = .ok
        { root := (node chain.hash (chain.depth h.tree) (leavesAfter (Programs.emptyNode 0) (l.writes h.tree)) 0).toBase58
          leaf := (h.value chain id).toBase58
          proof := siblings.map Bytes32.toBase58
          nodeIndex := 2 ^ chain.depth h.tree + h.leaf
          treeId := h.tree.toBase58 } ∧
      siblings.length = chain.depth h.tree ∧
      climb chain.hash (h.value chain id) (2 ^ chain.depth h.tree + h.leaf) siblings =
        node chain.hash (chain.depth h.tree) (leavesAfter (Programs.emptyNode 0) (l.writes h.tree)) 0 := by
  obtain ⟨item, atLeaf, leafIdx, hashed⟩ := sound.leaf_row holds
  have value := sound.value id h holds
  have found : findLeaf db id = some ((h.tree, 2 ^ chain.depth h.tree + h.leaf), item) := by
    rw [findLeaf_eq_some_iff tables]
    refine ⟨h.leaf, by rw [items, atLeaf], leafIdx, row, stored, inTree, ?_⟩
    rw [nonce]
    rfl
  have nodes := findRequiredNodes_congr (fun index => (items (h.tree, index)).trans (sound.lookup_treeCalls index))
    (getRequiredNodesForProof (2 ^ chain.depth h.tree + h.leaf))
  have fresh : ∀ index, ({} : Db).clItems.lookup (h.tree, index) = none := fun _ => rfl
  have hashes := finalNode_hash sound.complete (sound.inRange h.tree) fresh doubling rfl (sound.placed id h holds).2
  have built := buildAssetProof_of_hashes hashes
  rw [value] at built
  have climbed := climb_proofNodes chain.hash (leavesAfter (Programs.emptyNode 0) (l.writes h.tree))
    (sound.placed id h holds).2
  rw [value] at climbed
  refine ⟨_, ?_, by rw [List.length_map, List.length_range], climbed⟩
  simp only [getProofForAsset, found]
  rw [nodes, hashed, built]

end Served

end DasIndexer.Bubblegum
