import DasIndexer.ChangeLogs
import DasIndexer.Mainnet

namespace DasIndexer
open Sql

structure Leaf where
  treeId : Pubkey
  leafIdx : Int
  deriving DecidableEq

structure LeafInfo where
  id : Pubkey
  treeId : Pubkey
  leafIdx : Int
  nodeIdx : Nat
  hash : Bytes32
  deriving DecidableEq

def LeafInfo.leaf (info : LeafInfo) : Leaf := { treeId := info.treeId, leafIdx := info.leafIdx }

/-- The rows that join with one of the assets on tree and leaf. -/
def findLeaves (db : Db) (assetIds : List Pubkey) : List LeafInfo :=
  (db.asset.entries.filter (fun asset => asset.1 ∈ assetIds)).flatMap (fun asset =>
    db.clItems.entries.filterMap (fun item =>
      item.2.leafIdx.bind (fun leafIdx =>
        if asset.2.nonce.map Int.ofNat = some leafIdx ∧ asset.2.treeId = some item.1.1 then
          some { id := asset.1, treeId := item.1.1, leafIdx, nodeIdx := item.1.2, hash := item.2.hash }
        else none)))

def simpleChangeLog (key : Pubkey × Nat) (row : ClItemRow) : SimpleChangeLog :=
  { hash := row.hash.bytes, level := row.level, nodeIdx := key.2, seq := row.seq, tree := key.1.bytes }

/-- `(tree = ? AND node_idx IN (?)) OR ..` with one case for each leaf. -/
def findNodes (db : Db) (treeIndexes : Table Leaf (List Nat)) : List SimpleChangeLog :=
  (db.clItems.entries.filter (fun item =>
    treeIndexes.entries.any (fun entry => entry.1.treeId = item.1.1 && item.1.2 ∈ entry.2))).map
      (fun item => simpleChangeLog item.1 item.2)

def treeIndexesOf (leaves : List LeafInfo) : Table Leaf (List Nat) :=
  Table.insertAll leaves LeafInfo.leaf (fun leaf => getRequiredNodesForProof leaf.nodeIdx)

def assetMapOf (leaves : List LeafInfo) : Table Leaf LeafInfo :=
  Table.insertAll leaves LeafInfo.leaf id

def nodeMapOf (nodes : List SimpleChangeLog) : Table (Bytes × Nat) SimpleChangeLog :=
  Table.insertAll nodes (fun node => (node.tree, node.nodeIdx)) id

def proofOfLeaf [Programs] (nodeMap : Table (Bytes × Nat) SimpleChangeLog) (info : LeafInfo) (reqIndexes : List Nat) :
    AssetProof :=
  buildAssetProof info.treeId.bytes info.nodeIdx info.hash.bytes reqIndexes
    (reqIndexes.filterMap (fun nodeIdx => nodeMap.lookup (info.treeId.bytes, nodeIdx)))

/-- The proofs by encoded asset id; `none` is the panic of a leaf that is in one
map and not in the other. -/
def getAssetProofs [Programs] (db : Db) (assetIds : List Pubkey) : Option (Table String AssetProof) :=
  let leaves := findLeaves db assetIds
  let assetMap := assetMapOf leaves
  let treeIndexes := treeIndexesOf leaves
  let nodeMap := nodeMapOf (findNodes db treeIndexes)
  (treeIndexes.entries.mapM (fun entry =>
    (assetMap.lookup entry.1).map (fun info => (info, entry.2)))).map (fun found =>
      Table.insertAll found (fun pair => pair.1.id.toBase58) (fun pair => proofOfLeaf nodeMap pair.1 pair.2))

/-- What the proof queries rely on in the tables. The level of a row is never
negative and a node of a tree has one row by the types of the model. -/
structure ProofTables (db : Db) : Prop where
  leaf_level : ∀ {key row}, db.clItems.lookup key = some row → (row.leafIdx.isSome ↔ row.level = 0)
  leaf_unique : ∀ {tree n m row other}, db.clItems.lookup (tree, n) = some row →
    db.clItems.lookup (tree, m) = some other → row.leafIdx.isSome → row.leafIdx = other.leafIdx → n = m
  asset_unique : ∀ {id other asset otherAsset}, db.asset.lookup id = some asset →
    db.asset.lookup other = some otherAsset → asset.treeId.isSome → asset.nonce.isSome →
    asset.treeId = otherAsset.treeId → asset.nonce = otherAsset.nonce → id = other

section Requests

theorem getRequiredNodesForProof_le {index n : Nat} (member : n ∈ getRequiredNodesForProof index) :
    n ≤ index + 1 := by
  induction index using Nat.strong_induction_on generalizing n with
  | _ index ih =>
    rw [getRequiredNodesForProof] at member
    split at member
    · rename_i above
      rcases List.mem_cons.mp member with first | later
      · split at first
        · omega
        · omega
      · have below := ih (index / 2) (by omega) later
        omega
    · have root : n = 1 := List.mem_singleton.mp member
      omega

/-- A proof asks for ever smaller nodes. -/
theorem getRequiredNodesForProof_decreasing (index : Nat) :
    (getRequiredNodesForProof index).Pairwise (· > ·) := by
  induction index using Nat.strong_induction_on with
  | _ index ih =>
    rw [getRequiredNodesForProof]
    split
    · rename_i above
      rw [List.pairwise_cons]
      refine ⟨fun n later => ?_, ih (index / 2) (by omega)⟩
      by_cases top : index / 2 ≤ 1
      · rw [getRequiredNodesForProof, if_neg (by omega)] at later
        have root : n = 1 := List.mem_singleton.mp later
        split
        · omega
        · omega
      · have below := getRequiredNodesForProof_le later
        split
        · omega
        · omega
    · exact List.pairwise_singleton _ _

theorem findRequiredNodes_eq (db : Db) (tree : Pubkey) (index : Nat) :
    findRequiredNodes db tree (getRequiredNodesForProof index) =
      (getRequiredNodesForProof index).filterMap (fun nodeIdx =>
        (db.clItems.lookup (tree, nodeIdx)).map (simpleChangeLog (tree, nodeIdx))) := by
  have decreasing := getRequiredNodesForProof_decreasing index
  have distinct : (getRequiredNodesForProof index).Nodup := decreasing.imp (fun greater => by omega)
  have sorted : (getRequiredNodesForProof index).Pairwise (· ≥ ·) := decreasing.imp (fun greater => by omega)
  rw [findRequiredNodes, distinct.dedup, sorted.insertionSort_eq]
  rfl

end Requests

section Leaves
variable {db : Db}

/-- The asset names the leaf of the row by its tree and nonce. -/
structure Joins (db : Db) (id : Pubkey) (key : Pubkey × Nat) (row : ClItemRow) (leafIdx : Int) : Prop where
  stored : db.clItems.lookup key = some row
  leaf : row.leafIdx = some leafIdx
  asset : ∃ asset, db.asset.lookup id = some asset ∧ asset.treeId = some key.1 ∧
    asset.nonce.map Int.ofNat = some leafIdx

theorem mem_findLeaves {assetIds : List Pubkey} {info : LeafInfo} :
    info ∈ findLeaves db assetIds ↔ info.id ∈ assetIds ∧
      ∃ row, Joins db info.id (info.treeId, info.nodeIdx) row info.leafIdx ∧ row.hash = info.hash := by
  simp only [findLeaves, List.mem_flatMap, List.mem_filter, List.mem_filterMap, Option.bind_eq_some_iff,
    decide_eq_true_eq, Option.ite_none_right_eq_some, Option.some_inj]
  constructor
  · rintro ⟨⟨id, asset⟩, ⟨inAssets, asked⟩, ⟨⟨tree, nodeIdx⟩, row⟩, inItems, leafIdx, leaf, ⟨nonce, treeId⟩, same⟩
    subst same
    refine ⟨asked, row, ⟨?_, leaf, asset, ?_, treeId, nonce⟩, rfl⟩
    · exact Table.mem_entries_iff.mp inItems
    · exact Table.mem_entries_iff.mp inAssets
  · rintro ⟨asked, row, ⟨stored, leaf, asset, known, treeId, nonce⟩, hash⟩
    refine ⟨⟨info.id, asset⟩, ⟨Table.mem_entries_iff.mpr known, asked⟩,
      ⟨(info.treeId, info.nodeIdx), row⟩, Table.mem_entries_iff.mpr stored, info.leafIdx, leaf, ⟨nonce, treeId⟩, ?_⟩
    rw [hash]

theorem Joins.row_unique (tables : ProofTables db) {id : Pubkey} {key other : Pubkey × Nat} {row otherRow : ClItemRow}
    {leafIdx otherIdx : Int} (joins : Joins db id key row leafIdx) (again : Joins db id other otherRow otherIdx) :
    other = key ∧ otherRow = row ∧ otherIdx = leafIdx := by
  obtain ⟨asset, known, treeId, nonce⟩ := joins.asset
  obtain ⟨asset', known', treeId', nonce'⟩ := again.asset
  have sameAsset : asset' = asset := Option.some_inj.mp (known'.symm.trans known)
  subst sameAsset
  have sameLeaf : otherIdx = leafIdx := Option.some_inj.mp (nonce'.symm.trans nonce)
  have sameTree : other.1 = key.1 := Option.some_inj.mp (treeId'.symm.trans treeId)
  have sameNode : other.2 = key.2 := by
    have sameTreeStored : db.clItems.lookup (key.1, other.2) = some otherRow := by
      rw [← sameTree]
      exact again.stored
    have isLeaf : otherRow.leafIdx.isSome := by
      rw [again.leaf]
      rfl
    refine tables.leaf_unique sameTreeStored joins.stored isLeaf ?_
    rw [again.leaf, joins.leaf, sameLeaf]
  have sameKey : other = key := Prod.ext sameTree sameNode
  have stored := again.stored
  rw [sameKey, joins.stored] at stored
  exact ⟨sameKey, (Option.some_inj.mp stored).symm, sameLeaf⟩

theorem Joins.asset_unique (tables : ProofTables db) {id other : Pubkey} {tree : Pubkey} {n m : Nat}
    {row otherRow : ClItemRow} {leafIdx : Int} (joins : Joins db id (tree, n) row leafIdx)
    (again : Joins db other (tree, m) otherRow leafIdx) : other = id := by
  obtain ⟨asset, known, treeId, nonce⟩ := joins.asset
  obtain ⟨asset', known', treeId', nonce'⟩ := again.asset
  have sameNonce : asset'.nonce = asset.nonce :=
    Option.map_injective (fun _ _ same => Int.ofNat.inj same) (nonce'.trans nonce.symm)
  refine tables.asset_unique known' known ?_ ?_ (treeId'.trans treeId.symm) sameNonce
  · rw [treeId']
    rfl
  · rw [← Option.isSome_map (f := Int.ofNat), nonce']
    rfl

/-- The query for one asset finds the row that joins with it. -/
theorem findLeaf_eq_some_iff (tables : ProofTables db) (id : Pubkey) (key : Pubkey × Nat) (row : ClItemRow) :
    findLeaf db id = some (key, row) ↔ ∃ leafIdx, Joins db id key row leafIdx := by
  have candidates : ∀ asset, db.asset.lookup id = some asset → ∀ found,
      found ∈ (db.clItems.entries.map (fun entry => (entry.1, entry.2))).filter (fun entry =>
        entry.2.level = 0 && asset.treeId == some entry.1.1 && entry.2.leafIdx.isSome &&
          entry.2.leafIdx == asset.nonce.map Int.ofNat) ↔ ∃ leafIdx, Joins db id found.1 found.2 leafIdx := by
    intro asset known found
    obtain ⟨key, row⟩ := found
    simp only [List.mem_filter, List.mem_map, Bool.and_eq_true, decide_eq_true_eq, beq_iff_eq]
    constructor
    · rintro ⟨⟨⟨key', row'⟩, inItems, same⟩, ⟨⟨-, treeId⟩, isLeaf⟩, nonce⟩
      obtain ⟨rfl, rfl⟩ := Prod.mk.inj same
      obtain ⟨leafIdx, leaf⟩ := Option.isSome_iff_exists.mp isLeaf
      exact ⟨leafIdx, Table.mem_entries_iff.mp inItems, leaf, asset, known, treeId, nonce.symm.trans leaf⟩
    · rintro ⟨leafIdx, stored, leaf, asset', known', treeId, nonce⟩
      have sameAsset : asset' = asset := Option.some_inj.mp (known'.symm.trans known)
      subst sameAsset
      have isLeaf : row.leafIdx.isSome := by rw [leaf]; rfl
      refine ⟨⟨⟨key, row⟩, Table.mem_entries_iff.mpr stored, rfl⟩, ⟨⟨?_, treeId⟩, isLeaf⟩, leaf.trans nonce.symm⟩
      exact (tables.leaf_level stored).mp isLeaf
  constructor
  · intro found
    obtain ⟨asset, known, chosen⟩ := Option.bind_eq_some_iff.mp found
    exact (candidates asset known _).mp (List.argmax_mem chosen)
  · rintro ⟨leafIdx, joins⟩
    obtain ⟨asset, known, -⟩ := joins.asset
    have member := (candidates asset known (key, row)).mpr ⟨leafIdx, joins⟩
    cases best : findLeaf db id with
    | none =>
      rw [findLeaf, known, Option.bind_some, List.argmax_eq_none] at best
      rw [best] at member
      simp at member
    | some found =>
      rw [findLeaf, known, Option.bind_some] at best
      obtain ⟨foundIdx, again⟩ := (candidates asset known found).mp (List.argmax_mem best)
      obtain ⟨sameKey, sameRow, -⟩ := joins.row_unique tables again
      exact congrArg some (Prod.ext sameKey sameRow)

end Leaves

section Maps
variable {db : Db} {assetIds : List Pubkey}

theorem leaf_determines (tables : ProofTables db) {info other : LeafInfo} (asked : info ∈ findLeaves db assetIds)
    (otherAsked : other ∈ findLeaves db assetIds) (same : info.leaf = other.leaf) : info = other := by
  obtain ⟨-, row, joins, hash⟩ := mem_findLeaves.mp asked
  obtain ⟨-, otherRow, otherJoins, otherHash⟩ := mem_findLeaves.mp otherAsked
  obtain ⟨id, tree, leafIdx, nodeIdx, leafHash⟩ := info
  obtain ⟨id', tree', leafIdx', nodeIdx', leafHash'⟩ := other
  obtain ⟨sameTree, sameIdx⟩ := Leaf.mk.inj same
  dsimp only at sameTree sameIdx joins otherJoins hash otherHash
  subst sameTree sameIdx
  have sameId : id' = id := joins.asset_unique tables otherJoins
  subst sameId
  obtain ⟨sameKey, sameRow, -⟩ := joins.row_unique tables otherJoins
  have sameNode := (Prod.mk.inj sameKey).2
  subst sameNode sameRow
  rw [← hash, otherHash]

theorem treeIndexes_lookup_iff (tables : ProofTables db) (leaf : Leaf) (reqIndexes : List Nat) :
    (treeIndexesOf (findLeaves db assetIds)).lookup leaf = some reqIndexes ↔
      ∃ info ∈ findLeaves db assetIds, info.leaf = leaf ∧ getRequiredNodesForProof info.nodeIdx = reqIndexes := by
  refine Table.lookup_insertAll_iff ?_ leaf reqIndexes
  intro info asked other otherAsked same
  rw [leaf_determines tables asked otherAsked same]

theorem assetMap_lookup_iff (tables : ProofTables db) (leaf : Leaf) (info : LeafInfo) :
    (assetMapOf (findLeaves db assetIds)).lookup leaf = some info ↔
      info ∈ findLeaves db assetIds ∧ info.leaf = leaf := by
  refine Table.lookup_insertAll_self ?_ leaf info
  intro info asked other otherAsked same
  exact leaf_determines tables asked otherAsked same

theorem mem_findNodes {treeIndexes : Table Leaf (List Nat)} {node : SimpleChangeLog} :
    node ∈ findNodes db treeIndexes ↔ ∃ key row, db.clItems.lookup key = some row ∧
      simpleChangeLog key row = node ∧
      ∃ leaf reqIndexes, treeIndexes.lookup leaf = some reqIndexes ∧ leaf.treeId = key.1 ∧ key.2 ∈ reqIndexes := by
  simp only [findNodes, List.mem_map, List.mem_filter, List.any_eq_true, Bool.and_eq_true, decide_eq_true_eq]
  constructor
  · rintro ⟨⟨key, row⟩, ⟨inItems, ⟨leaf, reqIndexes⟩, inIndexes, tree, required⟩, same⟩
    exact ⟨key, row, Table.mem_entries_iff.mp inItems, same, leaf, reqIndexes,
      Table.mem_entries_iff.mp inIndexes, tree, required⟩
  · rintro ⟨key, row, stored, same, leaf, reqIndexes, indexed, tree, required⟩
    exact ⟨⟨key, row⟩, ⟨Table.mem_entries_iff.mpr stored, ⟨leaf, reqIndexes⟩,
      Table.mem_entries_iff.mpr indexed, tree, required⟩, same⟩

theorem simpleChangeLog_key {key other : Pubkey × Nat} {row : ClItemRow}
    (same : ((simpleChangeLog key row).tree, (simpleChangeLog key row).nodeIdx) = (other.1.bytes, other.2)) :
    key = other := by
  obtain ⟨⟨bytes, size⟩, nodeIdx⟩ := key
  obtain ⟨⟨otherBytes, otherSize⟩, otherIdx⟩ := other
  obtain ⟨sameTree, sameNode⟩ := Prod.mk.inj same
  dsimp only [simpleChangeLog] at sameTree sameNode
  subst sameTree sameNode
  rfl

theorem findNodes_determined {treeIndexes : Table Leaf (List Nat)} {node other : SimpleChangeLog}
    (inNodes : node ∈ findNodes db treeIndexes) (inOthers : other ∈ findNodes db treeIndexes)
    (same : (node.tree, node.nodeIdx) = (other.tree, other.nodeIdx)) : node = other := by
  obtain ⟨key, row, stored, built, -⟩ := mem_findNodes.mp inNodes
  obtain ⟨otherKey, otherRow, otherStored, otherBuilt, -⟩ := mem_findNodes.mp inOthers
  subst built otherBuilt
  have sameKey : key = otherKey := simpleChangeLog_key same
  subst sameKey
  have sameRow : row = otherRow := Option.some_inj.mp (stored.symm.trans otherStored)
  rw [sameRow]

/-- A required node of a leaf is found in the map exactly when the tree has a
row for it, whichever other leaves the request is about. -/
theorem nodeMap_lookup (tables : ProofTables db) {info : LeafInfo} (asked : info ∈ findLeaves db assetIds)
    {nodeIdx : Nat} (required : nodeIdx ∈ getRequiredNodesForProof info.nodeIdx) :
    (nodeMapOf (findNodes db (treeIndexesOf (findLeaves db assetIds)))).lookup (info.treeId.bytes, nodeIdx) =
      (db.clItems.lookup (info.treeId, nodeIdx)).map (simpleChangeLog (info.treeId, nodeIdx)) := by
  refine Option.ext (fun node => ?_)
  rw [nodeMapOf, Table.lookup_insertAll_self
    (fun node inNodes other inOthers same => findNodes_determined inNodes inOthers same)]
  constructor
  · rintro ⟨inNodes, here⟩
    obtain ⟨key, row, stored, built, -⟩ := mem_findNodes.mp inNodes
    subst built
    have sameKey : key = (info.treeId, nodeIdx) := simpleChangeLog_key here
    rw [← sameKey, stored, Option.map_some]
  · intro found
    obtain ⟨row, stored, built⟩ := Option.map_eq_some_iff.mp found
    have indexed := (treeIndexes_lookup_iff tables info.leaf _).mpr ⟨info, asked, rfl, rfl⟩
    refine ⟨mem_findNodes.mpr ⟨_, row, stored, built, info.leaf, _, indexed, rfl, required⟩, ?_⟩
    rw [← built]
    rfl

end Maps

section Batch
variable [Programs] {db : Db} {assetIds : List Pubkey}

omit [Programs] in
theorem mapM_some_of_forall {α β : Type} {f : α → Option β} {items : List α}
    (succeed : ∀ item ∈ items, ∃ result, f item = some result) :
    ∃ results, items.mapM f = some results ∧ ∀ result, result ∈ results ↔ ∃ item ∈ items, f item = some result := by
  induction items with
  | nil => exact ⟨[], rfl, by simp⟩
  | cons item rest ih =>
    obtain ⟨result, here⟩ := succeed item List.mem_cons_self
    obtain ⟨results, found, members⟩ := ih (fun later member => succeed later (List.mem_cons_of_mem _ member))
    refine ⟨result :: results, ?_, fun other => ?_⟩
    · rw [List.mapM_cons, here, found]
      rfl
    · rw [List.mem_cons, members, List.exists_mem_cons_iff, here, Option.some_inj, eq_comm]

theorem proofOfLeaf_eq (tables : ProofTables db) {info : LeafInfo} (asked : info ∈ findLeaves db assetIds) :
    getProofForAsset db info.id = .ok (proofOfLeaf
      (nodeMapOf (findNodes db (treeIndexesOf (findLeaves db assetIds)))) info
      (getRequiredNodesForProof info.nodeIdx)) := by
  obtain ⟨-, row, joins, hash⟩ := mem_findLeaves.mp asked
  have found := (findLeaf_eq_some_iff tables info.id (info.treeId, info.nodeIdx) row).mpr ⟨_, joins⟩
  have required : (getRequiredNodesForProof info.nodeIdx).filterMap (fun nodeIdx =>
      (nodeMapOf (findNodes db (treeIndexesOf (findLeaves db assetIds)))).lookup (info.treeId.bytes, nodeIdx)) =
      findRequiredNodes db info.treeId (getRequiredNodesForProof info.nodeIdx) := by
    rw [findRequiredNodes_eq]
    exact List.filterMap_congr (fun nodeIdx member => nodeMap_lookup tables asked member)
  rw [getProofForAsset, found, proofOfLeaf, required, ← hash]

theorem getProofForAsset_ok (tables : ProofTables db) {id : Pubkey} (asked : id ∈ assetIds) {proof : AssetProof}
    (single : getProofForAsset db id = .ok proof) : ∃ info ∈ findLeaves db assetIds, info.id = id := by
  cases found : findLeaf db id with
  | none =>
    rw [getProofForAsset, found] at single
    cases single
  | some leaf =>
    obtain ⟨⟨tree, nodeIdx⟩, row⟩ := leaf
    obtain ⟨leafIdx, joins⟩ := (findLeaf_eq_some_iff tables id (tree, nodeIdx) row).mp found
    refine ⟨{ id, treeId := tree, leafIdx, nodeIdx, hash := row.hash }, ?_, rfl⟩
    exact mem_findLeaves.mpr ⟨asked, row, joins, rfl⟩

omit [Programs] in
/-- No leaf is missing from the map of assets: the maps have the same keys. -/
theorem treeIndexes_mapM (tables : ProofTables db) (assetIds : List Pubkey) :
    ∃ found, (treeIndexesOf (findLeaves db assetIds)).entries.mapM (fun entry =>
        ((assetMapOf (findLeaves db assetIds)).lookup entry.1).map (fun info => (info, entry.2))) = some found ∧
      ∀ pair, pair ∈ found ↔
        pair.1 ∈ findLeaves db assetIds ∧ pair.2 = getRequiredNodesForProof pair.1.nodeIdx := by
  have entries : ∀ entry ∈ (treeIndexesOf (findLeaves db assetIds)).entries,
      ∃ info ∈ findLeaves db assetIds, (assetMapOf (findLeaves db assetIds)).lookup entry.1 = some info ∧
        entry.2 = getRequiredNodesForProof info.nodeIdx := by
    rintro ⟨leaf, reqIndexes⟩ member
    obtain ⟨info, asked, here, required⟩ :=
      (treeIndexes_lookup_iff tables leaf reqIndexes).mp (Table.mem_entries_iff.mp member)
    exact ⟨info, asked, (assetMap_lookup_iff tables leaf info).mpr ⟨asked, here⟩, required.symm⟩
  have succeed : ∀ entry ∈ (treeIndexesOf (findLeaves db assetIds)).entries, ∃ pair : LeafInfo × List Nat,
      ((assetMapOf (findLeaves db assetIds)).lookup entry.1).map (fun info => (info, entry.2)) = some pair := by
    intro entry member
    obtain ⟨info, -, known, -⟩ := entries entry member
    exact ⟨(info, entry.2), by rw [known, Option.map_some]⟩
  obtain ⟨found, mapped, members⟩ := mapM_some_of_forall succeed
  refine ⟨found, mapped, fun pair => (members pair).trans ⟨?_, ?_⟩⟩
  · rintro ⟨entry, member, result⟩
    obtain ⟨info, asked, known, required⟩ := entries entry member
    rw [known] at result
    have same : (info, entry.2) = pair := Option.some_inj.mp result
    subst same
    exact ⟨asked, required⟩
  · obtain ⟨info, reqIndexes⟩ := pair
    rintro ⟨asked, required⟩
    have indexed := (treeIndexes_lookup_iff tables info.leaf reqIndexes).mpr ⟨info, asked, rfl, required.symm⟩
    refine ⟨⟨info.leaf, reqIndexes⟩, Table.mem_entries_iff.mpr indexed, ?_⟩
    rw [(assetMap_lookup_iff tables info.leaf info).mpr ⟨asked, rfl⟩]
    rfl

/-- The batch has an entry for each leaf found, and nothing else. -/
theorem getAssetProofs_eq (tables : ProofTables db) (assetIds : List Pubkey) :
    ∃ proofs, getAssetProofs db assetIds = some proofs ∧ ∀ key proof, proofs.lookup key = some proof ↔
      ∃ info ∈ findLeaves db assetIds, info.id.toBase58 = key ∧ getProofForAsset db info.id = .ok proof := by
  obtain ⟨found, mapped, members⟩ := treeIndexes_mapM tables assetIds
  have single : ∀ pair ∈ found, getProofForAsset db pair.1.id = .ok (proofOfLeaf
      (nodeMapOf (findNodes db (treeIndexesOf (findLeaves db assetIds)))) pair.1 pair.2) := by
    intro pair member
    obtain ⟨asked, required⟩ := (members pair).mp member
    rw [required]
    exact proofOfLeaf_eq tables asked
  refine ⟨_, by rw [getAssetProofs, mapped]; rfl, fun key proof => ?_⟩
  rw [Table.lookup_insertAll_iff]
  · constructor
    · rintro ⟨pair, member, here, built⟩
      refine ⟨pair.1, ((members pair).mp member).1, here, ?_⟩
      rw [single pair member, built]
    · rintro ⟨info, asked, here, built⟩
      have member := (members (info, getRequiredNodesForProof info.nodeIdx)).mpr ⟨asked, rfl⟩
      refine ⟨_, member, here, ?_⟩
      exact Except.ok.inj ((single _ member).symm.trans built)
  · intro pair member other otherMember same
    have sameId : pair.1.id = other.1.id := Bytes32.toBase58_injective same
    have proofs := single pair member
    rw [sameId, single other otherMember] at proofs
    exact (Except.ok.inj proofs).symm

/-- A batch of proofs has an entry for an asset exactly when the proof for that
asset alone is found, with the same proof, and no entries for other assets. -/
theorem getAssetProofs_agrees (tables : ProofTables db) (assetIds : List Pubkey) :
    ∃ proofs, getAssetProofs db assetIds = some proofs ∧
      (∀ id ∈ assetIds, proofs.lookup id.toBase58 = (getProofForAsset db id).toOption) ∧
      (∀ key ∈ proofs.keys, ∃ id ∈ assetIds, id.toBase58 = key) := by
  obtain ⟨proofs, computed, entries⟩ := getAssetProofs_eq tables assetIds
  refine ⟨proofs, computed, fun id asked => Option.ext (fun proof => ?_), fun key member => ?_⟩
  · have found : proof ∈ (getProofForAsset db id).toOption ↔ getProofForAsset db id = .ok proof := by
      cases getProofForAsset db id with
      | error problem => simp [Except.toOption]
      | ok other => simp [Except.toOption]
    rw [Option.mem_def] at found
    rw [entries, found]
    constructor
    · rintro ⟨info, -, here, single⟩
      rw [← Bytes32.toBase58_injective here]
      exact single
    · intro single
      obtain ⟨info, inLeaves, here⟩ := getProofForAsset_ok tables asked single
      refine ⟨info, inLeaves, ?_, ?_⟩
      · rw [here]
      · rw [here]
        exact single
  · obtain ⟨proof, stored⟩ := Option.isSome_iff_exists.mp (AList.lookup_isSome.mpr member)
    obtain ⟨info, inLeaves, here, -⟩ := (entries key proof).mp stored
    exact ⟨info.id, (mem_findLeaves.mp inLeaves).1, here⟩

end Batch

namespace ProofTables.Example

def tree : Pubkey := .fill 8

def left : Pubkey := .fill 1

def right : Pubkey := .fill 2

/-- A tree of two leaves, both minted; the row of the root is missing. -/
def db : Db where
  asset := (AList.insert left { treeId := some tree, nonce := some 0 } ∅).insert right
    { treeId := some tree, nonce := some 1 }
  clItems := (AList.insert (tree, 2) { leafIdx := some 0, seq := 1, level := 0, hash := .fill 5 } ∅).insert (tree, 3)
    { leafIdx := some 1, seq := 2, level := 0, hash := .fill 6 }

theorem clItems_cases {key : Pubkey × Nat} {row : ClItemRow} (stored : db.clItems.lookup key = some row) :
    (key = (tree, 3) ∧ row = { leafIdx := some 1, seq := 2, level := 0, hash := .fill 6 }) ∨
      (key = (tree, 2) ∧ row = { leafIdx := some 0, seq := 1, level := 0, hash := .fill 5 }) := by
  rcases Table.lookup_insert_cases stored with second | rest
  · exact Or.inl second
  · rcases Table.lookup_insert_cases rest with first | none
    · exact Or.inr first
    · simp at none

theorem asset_cases {id : Pubkey} {asset : AssetRow} (stored : db.asset.lookup id = some asset) :
    (id = right ∧ asset = { treeId := some tree, nonce := some 1 }) ∨
      (id = left ∧ asset = { treeId := some tree, nonce := some 0 }) := by
  rcases Table.lookup_insert_cases stored with second | rest
  · exact Or.inl second
  · rcases Table.lookup_insert_cases rest with first | none
    · exact Or.inr first
    · simp at none

theorem tables : ProofTables db where
  leaf_level stored := by
    rcases clItems_cases stored with ⟨-, here⟩ | ⟨-, here⟩
    · simp [here]
    · simp [here]
  leaf_unique stored other _ same := by
    rcases clItems_cases stored with ⟨key, here⟩ | ⟨key, here⟩
    · rcases clItems_cases other with ⟨otherKey, there⟩ | ⟨-, there⟩
      · exact (Prod.mk.inj key).2.trans (Prod.mk.inj otherKey).2.symm
      · simp [here, there] at same
    · rcases clItems_cases other with ⟨-, there⟩ | ⟨otherKey, there⟩
      · simp [here, there] at same
      · exact (Prod.mk.inj key).2.trans (Prod.mk.inj otherKey).2.symm
  asset_unique stored other _ _ _ same := by
    rcases asset_cases stored with ⟨key, here⟩ | ⟨key, here⟩
    · rcases asset_cases other with ⟨otherKey, there⟩ | ⟨-, there⟩
      · rw [key, otherKey]
      · simp [here, there] at same
    · rcases asset_cases other with ⟨-, there⟩ | ⟨otherKey, there⟩
      · simp [here, there] at same
      · rw [key, otherKey]

end ProofTables.Example

theorem getAssetProofs_agrees_two_leaves :
    (getProofForAsset ProofTables.Example.db ProofTables.Example.left).toOption.isSome = true ∧
      ∃ proofs, getAssetProofs ProofTables.Example.db
          [ProofTables.Example.left, ProofTables.Example.right, ProofTables.Example.left] = some proofs ∧
        (∀ id ∈ [ProofTables.Example.left, ProofTables.Example.right, ProofTables.Example.left],
          proofs.lookup id.toBase58 = (getProofForAsset ProofTables.Example.db id).toOption) ∧
        (∀ key ∈ proofs.keys, ∃ id ∈ [ProofTables.Example.left, ProofTables.Example.right, ProofTables.Example.left],
          id.toBase58 = key) :=
  ⟨rfl, getAssetProofs_agrees ProofTables.Example.tables _⟩

end DasIndexer
