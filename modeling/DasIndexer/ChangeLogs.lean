import DasIndexer.Dao
import DasIndexer.Lib.Merkle
import Mathlib.Data.List.Dedup

namespace DasIndexer
open Sql

structure SimpleChangeLog where
  hash : Bytes := []
  level : Nat := 0
  nodeIdx : Nat := 0
  seq : Nat := 0
  tree : Bytes := []
  deriving DecidableEq

structure AssetProof where
  root : String
  leaf : String
  proof : List String
  nodeIndex : Nat
  treeId : String
  deriving DecidableEq

/-- The siblings on the way from a node to the root, then the root. -/
def getRequiredNodesForProof (index : Nat) : List Nat :=
  if 1 < index then
    (if index % 2 = 0 then index + 1 else index - 1) :: getRequiredNodesForProof (index / 2)
  else [1]
termination_by index
decreasing_by omega

def makeEmptyNode [Programs] (level nodeIndex : Nat) (tree : Bytes) : SimpleChangeLog :=
  { nodeIdx := nodeIndex, level, hash := (Programs.emptyNode level).bytes, seq := 0, tree }

/-- The found rows by level; a row above the root is ignored. -/
def placeNodes (count : Nat) (requiredNodes : List SimpleChangeLog) : List SimpleChangeLog :=
  requiredNodes.foldl (fun nodes node => if node.level < nodes.length then nodes.set node.level node else nodes)
    (List.replicate count {})

/-- Levels without a row belong to subtrees that were never written. -/
def fillEmptyNodes [Programs] (treeId : Bytes) (nodes : List SimpleChangeLog) (reqIndexes : List Nat) :
    List SimpleChangeLog :=
  (nodes.zip reqIndexes).mapIdx (fun i (node, nodeIndex) =>
    if node = {} then makeEmptyNode i nodeIndex treeId else node)

def buildAssetProof [Programs] (treeId : Bytes) (leafNodeIdx : Nat) (leafHash : Bytes) (reqIndexes : List Nat)
    (requiredNodes : List SimpleChangeLog) : AssetProof :=
  let finalNodeList := fillEmptyNodes treeId (placeNodes reqIndexes.length requiredNodes) reqIndexes
  { root := bs58Encode (finalNodeList.getLast?.getD {}).hash
    leaf := bs58Encode leafHash
    proof := finalNodeList.dropLast.map (fun node => bs58Encode node.hash)
    nodeIndex := leafNodeIdx
    treeId := bs58Encode treeId }

/-- The newest row of level 0 that joins with the asset on tree and leaf. -/
def findLeaf (db : Db) (assetId : Pubkey) : Option ((Pubkey × Nat) × ClItemRow) :=
  (db.asset.lookup assetId).bind (fun asset =>
    ((db.clItems.entries.map (fun entry => (entry.1, entry.2))).filter (fun entry =>
      entry.2.level = 0 && asset.treeId == some entry.1.1 && entry.2.leafIdx.isSome &&
        entry.2.leafIdx == asset.nonce.map Int.ofNat)).argmax (fun entry => entry.2.seq))

def findRequiredNodes (db : Db) (tree : Pubkey) (reqIndexes : List Nat) : List SimpleChangeLog :=
  (reqIndexes.dedup.insertionSort (· ≥ ·)).filterMap (fun nodeIdx =>
    (db.clItems.lookup (tree, nodeIdx)).map (fun row =>
      { hash := row.hash.bytes, level := row.level, nodeIdx, seq := row.seq, tree := tree.bytes }))

def getProofForAsset [Programs] (db : Db) (assetId : Pubkey) : Except DbErr AssetProof :=
  match findLeaf db assetId with
  | none => .error (.recordNotFound "Asset Proof Not Found")
  | some ((tree, nodeIdx), leaf) =>
    let reqIndexes := getRequiredNodesForProof nodeIdx
    .ok (buildAssetProof tree.bytes nodeIdx leaf.hash.bytes reqIndexes (findRequiredNodes db tree reqIndexes))

section Requests

/-- The position at a level that a proof asks for: the sibling on the path, and
the root at the top. -/
def requiredPosition (depth leaf level : Nat) : Nat :=
  if level < depth then Merkle.sibling (leaf / 2 ^ level) else 0

theorem getRequiredNodesForProof_eq (depth leaf : Nat) (inRange : leaf < 2 ^ depth) :
    getRequiredNodesForProof (2 ^ depth + leaf) =
      (List.range (depth + 1)).map (fun level =>
        2 ^ (depth - level) + requiredPosition depth leaf level) := by
  induction depth generalizing leaf with
  | zero =>
    have root : leaf = 0 := by omega
    rw [root, getRequiredNodesForProof]
    simp [requiredPosition]
  | succ depth ih =>
    have power : 2 ^ (depth + 1) = 2 * 2 ^ depth := Nat.pow_succ'
    have positive := Nat.two_pow_pos depth
    have half : (2 ^ (depth + 1) + leaf) / 2 = 2 ^ depth + leaf / 2 := by omega
    have first : (if (2 ^ (depth + 1) + leaf) % 2 = 0 then 2 ^ (depth + 1) + leaf + 1
        else 2 ^ (depth + 1) + leaf - 1) = 2 ^ (depth + 1) + Merkle.sibling leaf := by
      unfold Merkle.sibling
      by_cases even : leaf % 2 = 0
      · rw [if_pos even, if_pos (by omega)]
        omega
      · rw [if_neg even, if_neg (by omega)]
        omega
    rw [getRequiredNodesForProof, if_pos (by omega), first, half, ih (leaf / 2) (by omega),
      List.range_succ_eq_map (n := depth + 1), List.map_cons, List.map_map]
    refine congrArg₂ List.cons (by simp [requiredPosition]) (List.map_congr_left (fun level _ => ?_))
    simp only [Function.comp_apply, Nat.succ_eq_add_one, requiredPosition, Nat.add_sub_add_right,
      Nat.add_lt_add_iff_right, Nat.pow_succ', Nat.div_div_eq_div_mul]

theorem requiredPosition_lt {depth leaf level : Nat} (inRange : leaf < 2 ^ depth) (small : level ≤ depth) :
    requiredPosition depth leaf level < 2 ^ (depth - level) := by
  unfold requiredPosition
  split
  · rename_i below
    have half : leaf / 2 ^ level < 2 ^ (depth - level) := by
      rwa [Nat.div_lt_iff_lt_mul (Nat.two_pow_pos level), ← Nat.pow_add, Nat.sub_add_cancel small]
    have even : 2 ^ (depth - level) = 2 * 2 ^ (depth - level - 1) := by
      rw [← Nat.pow_succ']
      congr 1
      omega
    generalize leaf / 2 ^ level = position at half
    unfold Merkle.sibling
    split
    · omega
    · omega
  · exact Nat.two_pow_pos _

end Requests

section Placement

theorem placeNodes_concat (count : Nat) (nodes : List SimpleChangeLog) (node : SimpleChangeLog) :
    placeNodes count (nodes ++ [node]) =
      if node.level < (placeNodes count nodes).length then (placeNodes count nodes).set node.level node
      else placeNodes count nodes := by
  rw [placeNodes, List.foldl_append]
  rfl

theorem placeNodes_length (count : Nat) (nodes : List SimpleChangeLog) :
    (placeNodes count nodes).length = count := by
  induction nodes using List.reverseRecOn with
  | nil => simp [placeNodes]
  | append_singleton earlier node ih =>
    rw [placeNodes_concat]
    split
    · rw [List.length_set, ih]
    · exact ih

/-- A level holds the last row of that level. -/
theorem placeNodes_getElem (count : Nat) (nodes : List SimpleChangeLog) {i : Nat} (small : i < count) :
    (placeNodes count nodes)[i]? = some ((nodes.reverse.find? (fun node => node.level = i)).getD {}) := by
  induction nodes using List.reverseRecOn with
  | nil => simp [placeNodes, small]
  | append_singleton earlier node ih =>
    rw [placeNodes_concat, placeNodes_length, List.reverse_append, List.reverse_singleton,
      List.singleton_append, List.find?_cons]
    by_cases here : node.level = i
    · subst here
      rw [if_pos small, List.getElem?_set_self (by rw [placeNodes_length]; exact small)]
      simp
    · rw [decide_eq_false here]
      split
      · rw [List.getElem?_set_ne here, ih]
      · exact ih

theorem fillEmptyNodes_getElem [Programs] {treeId : Bytes} {nodes : List SimpleChangeLog}
    {reqIndexes : List Nat} {i : Nat} {node : SimpleChangeLog} {nodeIndex : Nat}
    (atNode : nodes[i]? = some node) (atIndex : reqIndexes[i]? = some nodeIndex) :
    (fillEmptyNodes treeId nodes reqIndexes)[i]? =
      some (if node = {} then makeEmptyNode i nodeIndex treeId else node) := by
  have zipped : (nodes.zip reqIndexes)[i]? = some (node, nodeIndex) :=
    List.getElem?_zip_eq_some.mpr ⟨atNode, atIndex⟩
  rw [fillEmptyNodes, List.getElem?_mapIdx, zipped]
  rfl

end Placement

end DasIndexer
