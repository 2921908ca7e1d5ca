import DasIndexer.Bubblegum.Cells
import DasIndexer.ChangeLogs
import DasIndexer.Lib.Merkle
import DasIndexer.Mainnet

namespace DasIndexer.Bubblegum
open Sql Latest Merkle

/-- One call of `insert_change_log`. -/
structure Ingestion where
  event : ChangeLogEvent
  slot : Nat
  txnId : Bytes
  instruction : String

def Ingestion.statements (call : Ingestion) : List Statement :=
  insertChangeLog call.event call.slot call.txnId call.instruction

def ingestChangeLogs [Programs] (db : Db) (calls : List Ingestion) : Db :=
  calls.foldl (fun db call => call.statements.foldl Statement.exec db) db

theorem ingestChangeLogs_eq_statements [Programs] (db : Db) (calls : List Ingestion) :
    ingestChangeLogs db calls = (calls.flatMap Ingestion.statements).foldl Statement.exec db := by
  rw [List.foldl_flatMap]
  rfl

section Tree
variable (hash : Hash → Hash → Hash) (blank : Hash) (tree : Pubkey) (depth : Nat)

/-- The change log that the tree emits for a write after `earlier` ones: the
path of the written leaf with the nodes of the tree after the write. -/
def changeLogOf (earlier : List (Nat × Hash)) (write : Nat × Hash) : ChangeLogEvent where
  id := tree
  path := (List.range (depth + 1)).map (fun i =>
    { node := node hash i (leavesAfter blank (earlier ++ [write])) (write.1 / 2 ^ i)
      index := (2 ^ depth + write.1) >>> i })
  seq := earlier.length + 1
  index := write.1
  rooted := by simp

/-- The change logs of a history of writes, with sequence numbers from 1 on. -/
def changeLogs (writes : List (Nat × Hash)) : List ChangeLogEvent :=
  writes.zipIdx.map (fun (write, k) => changeLogOf hash blank tree depth (writes.take k) write)

/-- The row of the node at a level and position, written by the last of
`earlier ++ [write]`. -/
def nodeRow (earlier : List (Nat × Hash)) (write : Nat × Hash) (level position : Nat) : ClItemRow where
  leafIdx := if level = 0 then some (position : Int) else none
  seq := earlier.length + 1
  level := level
  hash := node hash level (leavesAfter blank (earlier ++ [write])) position

variable {hash blank tree depth}

theorem heapIndex {level leaf : Nat} (small : level ≤ depth) :
    (2 ^ depth + leaf) >>> level = 2 ^ (depth - level) + leaf / 2 ^ level := by
  rw [Nat.shiftRight_eq_div_pow]
  have split : 2 ^ depth = 2 ^ (depth - level) * 2 ^ level := by
    rw [← Nat.pow_add, Nat.sub_add_cancel small]
  rw [split, Nat.mul_comm, Nat.mul_add_div (Nat.two_pow_pos level)]

/-- An index tells its level and its position there. -/
theorem heapIndex_injective {a b p q : Nat} (smallP : p < 2 ^ a) (smallQ : q < 2 ^ b)
    (same : 2 ^ a + p = 2 ^ b + q) : a = b ∧ p = q := by
  have levels : a = b := by
    rcases Nat.lt_trichotomy a b with less | equal | more
    · have doubled := Nat.pow_le_pow_right (show 0 < 2 by decide) less
      rw [Nat.pow_succ] at doubled
      omega
    · exact equal
    · have doubled := Nat.pow_le_pow_right (show 0 < 2 by decide) more
      rw [Nat.pow_succ] at doubled
      omega
  subst levels
  exact ⟨rfl, by omega⟩

theorem position_lt {leaf level : Nat} (small : level ≤ depth) (inRange : leaf < 2 ^ depth) :
    leaf / 2 ^ level < 2 ^ (depth - level) := by
  rw [Nat.div_lt_iff_lt_mul (Nat.two_pow_pos level), ← Nat.pow_add, Nat.sub_add_cancel small]
  exact inRange

/-- The items of a true change log. -/
theorem mem_pathItems {earlier : List (Nat × Hash)} {write : Nat × Hash} {index : Nat} {item : ClItemRow} :
    (index, item) ∈ pathItems (changeLogOf hash blank tree depth earlier write) ↔
      ∃ level ≤ depth, index = 2 ^ (depth - level) + write.1 / 2 ^ level ∧
        item = nodeRow hash blank earlier write level (write.1 / 2 ^ level) := by
  have row : ∀ level ≤ depth, clItemRow (changeLogOf hash blank tree depth earlier write)
      { node := node hash level (leavesAfter blank (earlier ++ [write])) (write.1 / 2 ^ level)
        index := (2 ^ depth + write.1) >>> level } level =
        nodeRow hash blank earlier write level (write.1 / 2 ^ level) := by
    intro level small
    by_cases leaf : level = 0
    · subst leaf
      simp only [clItemRow, nodeRow, changeLogOf, nodeIdxToLeafIdx, List.length_map, List.length_range,
        Nat.shiftRight_zero, Nat.pow_zero, Nat.div_one, if_true, Nat.add_sub_cancel]
      have cancel : ((2 ^ depth + write.1 : Nat) : Int) - 2 ^ depth = write.1 := by
        push_cast
        omega
      rw [cancel]
    · simp [clItemRow, nodeRow, changeLogOf, leaf]
  rw [pathItems, List.mem_map]
  constructor
  · rintro ⟨⟨p, level⟩, member, same⟩
    rw [List.mk_mem_zipIdx_iff_getElem?, changeLogOf, List.getElem?_map, Option.map_eq_some_iff] at member
    obtain ⟨i, inRange, rfl⟩ := member
    obtain ⟨small, rfl⟩ := List.getElem?_eq_some_iff.mp inRange
    rw [List.length_range] at small
    rw [List.getElem_range] at same
    cases same
    exact ⟨level, by omega, heapIndex (by omega), row level (by omega)⟩
  · rintro ⟨level, small, rfl, rfl⟩
    refine ⟨(_, level), List.mk_mem_zipIdx_iff_getElem?.mpr ?_, Prod.ext (heapIndex small) (row level small)⟩
    rw [changeLogOf, List.getElem?_map, List.getElem?_range (by omega)]
    rfl

theorem mem_changeLogs {writes : List (Nat × Hash)} {event : ChangeLogEvent} :
    event ∈ changeLogs hash blank tree depth writes ↔
      ∃ earlier write later, writes = earlier ++ write :: later ∧
        event = changeLogOf hash blank tree depth earlier write := by
  rw [changeLogs, List.mem_map]
  constructor
  · rintro ⟨⟨write, k⟩, member, rfl⟩
    rw [List.mk_mem_zipIdx_iff_getElem?] at member
    obtain ⟨small, found⟩ := List.getElem?_eq_some_iff.mp member
    refine ⟨writes.take k, write, writes.drop (k + 1), ?_, rfl⟩
    rw [← found, List.getElem_cons_drop, List.take_append_drop]
  · rintro ⟨earlier, write, later, rfl, rfl⟩
    exact ⟨(write, earlier.length), List.mk_mem_zipIdx_iff_getElem?.mpr (by simp), by simp⟩

end Tree

section Rows
variable [Programs] {hash : Hash → Hash → Hash} {blank : Hash} {tree : Pubkey} {depth : Nat}
  {writes : List (Nat × Hash)} {calls : List Ingestion} {db : Db}

omit [Programs] in
theorem mem_itemWrites {index : Nat} {item : ClItemRow} :
    item ∈ (calls.flatMap Ingestion.statements).filterMap (Statement.itemWrite (tree, index)) ↔
      ∃ call ∈ calls, call.event.id = tree ∧ (index, item) ∈ pathItems call.event := by
  rw [List.mem_filterMap]
  constructor
  · rintro ⟨s, member, written⟩
    obtain ⟨call, inCalls, inStatements⟩ := List.mem_flatMap.mp member
    cases Statement.itemWrite_eq written
    rcases @mem_saveChangelogEvent call.event ⟨call.txnId, call.slot⟩ call.instruction _ inStatements with
      ⟨entry, inPath, same⟩ | same | same
    · cases same
      exact ⟨call, inCalls, rfl, inPath⟩
    · cases same
    · cases same
  · rintro ⟨call, inCalls, rfl, inPath⟩
    refine ⟨.clItem call.event.id index item, List.mem_flatMap.mpr ⟨call, inCalls, ?_⟩, by simp [Statement.itemWrite]⟩
    exact List.mem_append_left _ (List.mem_map.mpr ⟨(index, item), inPath, rfl⟩)

variable (complete : ∀ event, (∃ call ∈ calls, call.event = event) ↔
  event ∈ changeLogs hash blank tree depth writes)
  (inRange : ∀ write ∈ writes, write.1 < 2 ^ depth) (fresh : ∀ index, db.clItems.lookup (tree, index) = none)
include complete

omit [Programs] in
theorem mem_history_items {index : Nat} {item : ClItemRow} :
    item ∈ (calls.flatMap Ingestion.statements).filterMap (Statement.itemWrite (tree, index)) ↔
      ∃ earlier write later, writes = earlier ++ write :: later ∧ ∃ level ≤ depth,
        index = 2 ^ (depth - level) + write.1 / 2 ^ level ∧
          item = nodeRow hash blank earlier write level (write.1 / 2 ^ level) := by
  rw [mem_itemWrites]
  constructor
  · rintro ⟨call, inCalls, -, inPath⟩
    obtain ⟨earlier, write, later, split, same⟩ := mem_changeLogs.mp ((complete call.event).mp ⟨call, inCalls, rfl⟩)
    rw [same, mem_pathItems] at inPath
    exact ⟨earlier, write, later, split, inPath⟩
  · rintro ⟨earlier, write, later, split, inPath⟩
    obtain ⟨call, inCalls, same⟩ := (complete _).mpr (mem_changeLogs.mpr ⟨earlier, write, later, split, rfl⟩)
    exact ⟨call, inCalls, by rw [same]; rfl, by rw [same]; exact mem_pathItems.mpr inPath⟩

include fresh inRange

/-- The stored row of a node above some write is the node of the final tree:
the newest change log through it is the last one that changed it. -/
theorem lookup_node {level position : Nat} (small : level ≤ depth) (within : position < 2 ^ (depth - level))
    {row : ClItemRow}
    (stored : (ingestChangeLogs db calls).clItems.lookup (tree, 2 ^ (depth - level) + position) = some row) :
    row.level = level ∧ row.leafIdx = (if level = 0 then some (position : Int) else none) ∧
      row.hash = node hash level (leavesAfter blank writes) position := by
  rw [ingestChangeLogs_eq_statements, run_clItems _ (fresh _)] at stored
  obtain ⟨earlier, write, later, split, level', small', index, rfl⟩ :=
    (mem_history_items complete).mp (List.argmax_mem stored)
  have writeRange : write.1 < 2 ^ depth := inRange write (by rw [split]; simp)
  obtain ⟨sameLevel, rfl⟩ := heapIndex_injective within (position_lt small' writeRange) index
  have same : level' = level := by omega
  subst same
  refine ⟨rfl, rfl, ?_⟩
  have unchanged : ∀ other ∈ later, other.1 / 2 ^ level' ≠ write.1 / 2 ^ level' := by
    intro other member covers
    obtain ⟨middle, rest, rfl⟩ := List.append_of_mem member
    have newer : nodeRow hash blank (earlier ++ write :: middle) other level' (other.1 / 2 ^ level') ∈
        (calls.flatMap Ingestion.statements).filterMap
          (Statement.itemWrite (tree, 2 ^ (depth - level') + write.1 / 2 ^ level')) :=
      (mem_history_items complete).mpr
        ⟨earlier ++ write :: middle, other, rest, by rw [split]; simp, level', small', by rw [covers], rfl⟩
    have le := List.le_of_mem_argmax newer stored
    simp only [nodeRow, List.length_append, List.length_cons] at le
    omega
  have after := node_leavesAfter_append hash blank (earlier ++ [write]) later unchanged
  rw [split, ← List.singleton_append, ← List.append_assoc, after]
  rfl

omit inRange in
/-- No row is stored for a node exactly when no write reached it. -/
theorem lookup_node_none {level position : Nat} (small : level ≤ depth)
    (stored : (ingestChangeLogs db calls).clItems.lookup (tree, 2 ^ (depth - level) + position) = none) :
    ∀ write ∈ writes, write.1 / 2 ^ level ≠ position := by
  rw [ingestChangeLogs_eq_statements, run_clItems _ (fresh _), List.argmax_eq_none] at stored
  rintro write member rfl
  obtain ⟨earlier, later, split⟩ := List.append_of_mem member
  have item := (mem_history_items complete).mpr ⟨earlier, write, later, split, level, small, rfl, rfl⟩
  rw [stored] at item
  cases item

omit inRange fresh complete in
theorem ingestChangeLogs_asset : (ingestChangeLogs db calls).asset = db.asset := by
  have logOnly : ∀ s ∈ calls.flatMap Ingestion.statements, s.assetUpsert = none := by
    intro s member
    obtain ⟨call, -, inStatements⟩ := List.mem_flatMap.mp member
    rcases @mem_saveChangelogEvent call.event ⟨call.txnId, call.slot⟩ call.instruction _ inStatements with
      ⟨entry, -, rfl⟩ | rfl | rfl <;> rfl
  rw [ingestChangeLogs_eq_statements]
  exact foldl_invariant (fun current : Db => current.asset = db.asset)
    (fun current s untouched held => by rw [Statement.exec_asset, untouched]; exact held) _ logOnly rfl

/-- Every row of the tree belongs to a node of it. -/
theorem lookup_index {index : Nat} {row : ClItemRow}
    (stored : (ingestChangeLogs db calls).clItems.lookup (tree, index) = some row) :
    ∃ level ≤ depth, ∃ position < 2 ^ (depth - level), index = 2 ^ (depth - level) + position := by
  rw [ingestChangeLogs_eq_statements, run_clItems _ (fresh _)] at stored
  obtain ⟨earlier, write, later, split, level, small, same, -⟩ :=
    (mem_history_items complete).mp (List.argmax_mem stored)
  exact ⟨level, small, write.1 / 2 ^ level, position_lt small (inRange write (by rw [split]; simp)), same⟩

/-- The leaf row of an asset is found under the index of its leaf. -/
theorem findLeaf_eq {id : Pubkey} {asset : AssetRow} {leaf : Nat} (assetRow : db.asset.lookup id = some asset)
    (inTree : asset.treeId = some tree) (nonce : asset.nonce = some leaf)
    (written : ∃ write ∈ writes, write.1 = leaf) :
    ∃ row, findLeaf (ingestChangeLogs db calls) id = some ((tree, 2 ^ depth + leaf), row) ∧
      row.hash = leavesAfter blank writes leaf := by
  obtain ⟨write, member, rfl⟩ := written
  have leafRange := inRange write member
  obtain ⟨row, found⟩ : ∃ row,
      (ingestChangeLogs db calls).clItems.lookup (tree, 2 ^ depth + write.1) = some row := by
    refine Option.ne_none_iff_exists'.mp (fun missing => ?_)
    exact lookup_node_none complete fresh (Nat.zero_le depth) missing write member (by simp)
  obtain ⟨atLevel, atLeaf, hashed⟩ := lookup_node complete inRange fresh (Nat.zero_le depth) leafRange found
  refine ⟨row, ?_, hashed⟩
  rw [findLeaf, ingestChangeLogs_asset, assetRow, Option.bind_some]
  rw [if_pos rfl] at atLeaf
  generalize candidates : ((ingestChangeLogs db calls).clItems.entries.map (fun entry => (entry.1, entry.2))).filter
    (fun entry => entry.2.level = 0 && asset.treeId == some entry.1.1 && entry.2.leafIdx.isSome &&
      entry.2.leafIdx == asset.nonce.map Int.ofNat) = list
  have only : ∀ entry ∈ list, entry = ((tree, 2 ^ depth + write.1), row) := by
    rintro ⟨⟨otherTree, index⟩, other⟩ inList
    rw [← candidates, List.mem_filter, List.mem_map] at inList
    obtain ⟨⟨⟨key, stored⟩, inEntries, same⟩, joins⟩ := inList
    cases same
    simp only [inTree, nonce, Bool.and_eq_true, decide_eq_true_eq, beq_iff_eq, Option.some.injEq] at joins
    obtain ⟨⟨⟨otherLevel, rfl⟩, -⟩, otherLeaf⟩ := joins
    have storedAt := AList.mem_lookup_iff.mpr inEntries
    obtain ⟨level, small, position, within, rfl⟩ := lookup_index complete inRange fresh storedAt
    obtain ⟨nodeLevel, nodeLeaf, -⟩ := lookup_node complete inRange fresh small within storedAt
    have zero : level = 0 := nodeLevel.symm.trans otherLevel
    subst zero
    have leaves : position = write.1 := by
      rw [nodeLeaf, if_pos rfl] at otherLeaf
      have casts : (position : Int) = write.1 := by simpa using otherLeaf
      omega
    subst leaves
    exact Prod.ext rfl (Option.some.inj (storedAt.symm.trans found))
  have listed : ((tree, 2 ^ depth + write.1), row) ∈ list := by
    rw [← candidates, List.mem_filter, List.mem_map]
    refine ⟨⟨⟨(tree, 2 ^ depth + write.1), row⟩, AList.mem_lookup_iff.mp found, rfl⟩, ?_⟩
    simp [inTree, nonce, atLevel, atLeaf]
  cases newest : list.argmax (fun entry => entry.2.seq) with
  | none =>
    rw [List.argmax_eq_none.mp newest] at listed
    cases listed
  | some entry => rw [only entry (List.argmax_mem newest)]

/-- The node of the final tree that a proof asks for at a level. -/
def proofNode (hash : Hash → Hash → Hash) (leaves : Nat → Hash) (depth leaf level : Nat) : Hash :=
  node hash level leaves (requiredPosition depth leaf level)

omit [Programs] complete inRange fresh in
theorem mem_findRequiredNodes {tree : Pubkey} {reqIndexes : List Nat} {found : SimpleChangeLog} :
    found ∈ findRequiredNodes db tree reqIndexes ↔ ∃ nodeIdx ∈ reqIndexes, ∃ row,
      db.clItems.lookup (tree, nodeIdx) = some row ∧
      found = { hash := row.hash.bytes, level := row.level, nodeIdx, seq := row.seq, tree := tree.bytes } := by
  simp only [findRequiredNodes, List.mem_filterMap, List.mem_insertionSort, List.mem_dedup,
    Option.map_eq_some_iff]
  constructor
  · rintro ⟨nodeIdx, member, row, stored, rfl⟩
    exact ⟨nodeIdx, member, row, stored, rfl⟩
  · rintro ⟨nodeIdx, member, row, stored, rfl⟩
    exact ⟨nodeIdx, member, row, stored, rfl⟩

/-- A row found for a level is the row of the node that the proof asks for. -/
theorem requiredNode_row {leaf : Nat} (leafRange : leaf < 2 ^ depth) {found : SimpleChangeLog}
    (member : found ∈ findRequiredNodes (ingestChangeLogs db calls) tree
      (getRequiredNodesForProof (2 ^ depth + leaf))) :
    found.level ≤ depth ∧ found.hash = (proofNode hash (leavesAfter blank writes) depth leaf found.level).bytes := by
  obtain ⟨nodeIdx, inRequest, row, stored, rfl⟩ := mem_findRequiredNodes.mp member
  rw [getRequiredNodesForProof_eq depth leaf leafRange, List.mem_map] at inRequest
  obtain ⟨level, inLevels, rfl⟩ := inRequest
  have small : level ≤ depth := by
    rw [List.mem_range] at inLevels
    omega
  obtain ⟨sameLevel, -, sameHash⟩ := lookup_node complete inRange fresh small
    (requiredPosition_lt leafRange small) stored
  subst sameLevel
  exact ⟨small, congrArg Bytes32.bytes sameHash⟩

/-- The list of nodes that the proof is cut from holds the nodes of the final
tree: a stored row, or the empty node where nothing was written. -/
theorem finalNode_hash (doubling : ∀ level, Programs.emptyNode (level + 1) =
      hash (Programs.emptyNode level) (Programs.emptyNode level))
    (start : blank = Programs.emptyNode 0) {leaf : Nat} (leafRange : leaf < 2 ^ depth) :
    (fillEmptyNodes tree.bytes
      (placeNodes (getRequiredNodesForProof (2 ^ depth + leaf)).length
        (findRequiredNodes (ingestChangeLogs db calls) tree (getRequiredNodesForProof (2 ^ depth + leaf))))
      (getRequiredNodesForProof (2 ^ depth + leaf))).map SimpleChangeLog.hash =
      (List.range (depth + 1)).map (fun level =>
        (proofNode hash (leavesAfter blank writes) depth leaf level).bytes) := by
  have request := getRequiredNodesForProof_eq depth leaf leafRange
  have count : (getRequiredNodesForProof (2 ^ depth + leaf)).length = depth + 1 := by
    rw [request, List.length_map, List.length_range]
  refine List.ext_getElem? (fun i => ?_)
  by_cases small : i < depth + 1
  · have atIndex : (getRequiredNodesForProof (2 ^ depth + leaf))[i]? =
        some (2 ^ (depth - i) + requiredPosition depth leaf i) := by
      rw [request, List.getElem?_map, List.getElem?_range small]
      rfl
    have atNode := placeNodes_getElem (getRequiredNodesForProof (2 ^ depth + leaf)).length
      (findRequiredNodes (ingestChangeLogs db calls) tree (getRequiredNodesForProof (2 ^ depth + leaf)))
      (i := i) (by rw [count]; exact small)
    rw [List.getElem?_map, fillEmptyNodes_getElem atNode atIndex, List.getElem?_map, List.getElem?_range small,
      Option.map_some, Option.map_some]
    congr 1
    cases search : (findRequiredNodes (ingestChangeLogs db calls) tree
        (getRequiredNodesForProof (2 ^ depth + leaf))).reverse.find? (fun node => node.level = i) with
    | some found =>
      have atLevel : found.level = i := by simpa using List.find?_some search
      have member := List.mem_reverse.mp (List.mem_of_find?_eq_some search)
      obtain ⟨-, hashed⟩ := requiredNode_row complete inRange fresh leafRange member
      have stored : found ≠ {} := by
        rintro rfl
        exact Bytes32.bytes_ne_nil _ hashed.symm
      rw [Option.getD_some, if_neg stored, hashed, atLevel]
    | none =>
      rw [Option.getD_none, if_pos rfl]
      have missing : (ingestChangeLogs db calls).clItems.lookup
          (tree, 2 ^ (depth - i) + requiredPosition depth leaf i) = none := by
        cases stored : (ingestChangeLogs db calls).clItems.lookup
            (tree, 2 ^ (depth - i) + requiredPosition depth leaf i) with
        | none => rfl
        | some row =>
          have member := mem_findRequiredNodes.mpr ⟨_, List.mem_of_getElem? atIndex, row, stored, rfl⟩
          have level := (lookup_node complete inRange fresh (by omega)
            (requiredPosition_lt leafRange (by omega)) stored).1
          have absent := List.find?_eq_none.mp search _ (List.mem_reverse.mpr member)
          simp [level] at absent
      have untouched := lookup_node_none complete fresh (by omega) missing
      subst start
      rw [proofNode, node_leavesAfter_untouched doubling writes untouched]
      rfl
  · rw [List.getElem?_eq_none, List.getElem?_eq_none]
    · rw [List.length_map, List.length_range]
      omega
    · rw [List.length_map, fillEmptyNodes, List.length_mapIdx, List.length_zip, placeNodes_length, count]
      omega

end Rows

/-- A served proof leads from the leaf to the root of the tree after the last
write, in whatever order and how often its change logs were ingested. -/
theorem getProofForAsset_sound [Programs] (hash : Hash → Hash → Hash)
    (doubling : ∀ level, Programs.emptyNode (level + 1) =
      hash (Programs.emptyNode level) (Programs.emptyNode level))
    (tree : Pubkey) (depth : Nat) (writes : List (Nat × Hash)) (inRange : ∀ write ∈ writes, write.1 < 2 ^ depth)
    (calls : List Ingestion)
    (complete : ∀ event, (∃ call ∈ calls, call.event = event) ↔
      event ∈ changeLogs hash (Programs.emptyNode 0) tree depth writes)
    (db : Db) (fresh : ∀ index, db.clItems.lookup (tree, index) = none) (id : Pubkey) (asset : AssetRow)
    (assetRow : db.asset.lookup id = some asset) (inTree : asset.treeId = some tree) (leaf : Nat)
    (nonce : asset.nonce = some leaf) (written : ∃ write ∈ writes, write.1 = leaf) :
    ∃ (siblings : List Hash) (leafHash root : Hash),
      getProofForAsset (ingestChangeLogs db calls) id = .ok
        { root := root.toBase58
          leaf := leafHash.toBase58
          proof := siblings.map Bytes32.toBase58
          nodeIndex := 2 ^ depth + leaf
          treeId := tree.toBase58 } ∧
      siblings.length = depth ∧ climb hash leafHash (2 ^ depth + leaf) siblings = root ∧
      root = node hash depth (leavesAfter (Programs.emptyNode 0) writes) 0 := by
  have leafRange : leaf < 2 ^ depth := by
    obtain ⟨write, member, rfl⟩ := written
    exact inRange write member
  obtain ⟨row, found, hashed⟩ := findLeaf_eq complete inRange fresh assetRow inTree nonce written
  have hashes := finalNode_hash complete inRange fresh doubling rfl leafRange
  rw [List.range_succ, List.map_append, List.map_singleton] at hashes
  have top : proofNode hash (leavesAfter (Programs.emptyNode 0) writes) depth leaf depth =
      node hash depth (leavesAfter (Programs.emptyNode 0) writes) 0 := by
    rw [proofNode, requiredPosition, if_neg (Nat.lt_irrefl depth)]
  refine ⟨(List.range depth).map (proofNode hash (leavesAfter (Programs.emptyNode 0) writes) depth leaf),
    leavesAfter (Programs.emptyNode 0) writes leaf,
    node hash depth (leavesAfter (Programs.emptyNode 0) writes) 0, ?_, by simp, ?_, rfl⟩
  · simp only [getProofForAsset, found, buildAssetProof]
    generalize fillEmptyNodes _ _ _ = nodes at hashes ⊢
    have root : nodes.getLast?.map SimpleChangeLog.hash =
        some (node hash depth (leavesAfter (Programs.emptyNode 0) writes) 0).bytes := by
      rw [← List.getLast?_map, hashes, List.getLast?_concat, top]
    have path : nodes.dropLast.map SimpleChangeLog.hash =
        (List.range depth).map (fun level =>
          (proofNode hash (leavesAfter (Programs.emptyNode 0) writes) depth leaf level).bytes) := by
      rw [List.map_dropLast, hashes, List.dropLast_concat]
    obtain ⟨last, isLast, lastHash⟩ := Option.map_eq_some_iff.mp root
    have proof : nodes.dropLast.map (fun node => bs58Encode node.hash) =
        (nodes.dropLast.map SimpleChangeLog.hash).map bs58Encode := by rw [List.map_map]; rfl
    rw [isLast, Option.getD_some, lastHash, proof, path, hashed, List.map_map, List.map_map]
    rfl
  · have parity : ∀ i < depth, (2 ^ depth + leaf) / 2 ^ i % 2 = leaf / 2 ^ i % 2 := by
      intro i small
      have index := @heapIndex depth i leaf (Nat.le_of_lt small)
      rw [Nat.shiftRight_eq_div_pow] at index
      have even : 2 ^ (depth - i) = 2 * 2 ^ (depth - i - 1) := by
        rw [← Nat.pow_succ']
        congr 1
        omega
      rw [index, even, Nat.mul_add_mod]
    have climbed := climb_siblings hash (leavesAfter (Programs.emptyNode 0) writes) depth 0 leaf
      (2 ^ depth + leaf) parity
    rw [Nat.zero_add, Nat.div_eq_of_lt leafRange] at climbed
    rw [← climbed]
    refine congrArg _ (List.map_congr_left (fun level member => ?_))
    rw [proofNode, requiredPosition, if_pos (List.mem_range.mp member), Nat.zero_add]

/-- The hash of the on-chain trees. -/
def keccakNode (left right : Hash) : Hash := Mainnet.toBytes32 (Mainnet.keccak256 (left.bytes ++ right.bytes))

/-- Two writes of a tree of depth 2, their change logs ingested newest first and
once more in order. -/
def Example.newestFirst : List Ingestion :=
  let events := changeLogs keccakNode (Programs.emptyNode 0) (.fill 8) 2 [(1, .fill 5), (3, .fill 6)]
  (events.reverse ++ events).map (fun event => ⟨event, 10, [], "Transfer"⟩)

theorem getProofForAsset_newest_first :
    ∃ (siblings : List Hash) (leafHash root : Hash),
      getProofForAsset (ingestChangeLogs
          { asset := AList.insert Example.asset { treeId := some (.fill 8), nonce := some 1 } ∅ }
          Example.newestFirst) Example.asset = .ok
        { root := root.toBase58
          leaf := leafHash.toBase58
          proof := siblings.map Bytes32.toBase58
          nodeIndex := 2 ^ 2 + 1
          treeId := (Bytes32.fill 8).toBase58 } ∧
      siblings.length = 2 ∧ climb keccakNode leafHash (2 ^ 2 + 1) siblings = root ∧
      root = node keccakNode 2 (leavesAfter (Programs.emptyNode 0) [(1, .fill 5), (3, .fill 6)]) 0 := by
  refine getProofForAsset_sound keccakNode (fun _ => rfl) (.fill 8) 2 [(1, .fill 5), (3, .fill 6)] (by simp)
    Example.newestFirst ?_ _ (fun _ => rfl) Example.asset _ (AList.lookup_insert _) rfl 1 rfl
    ⟨(1, .fill 5), by simp, rfl⟩
  intro event
  simp [Example.newestFirst]

end DasIndexer.Bubblegum
