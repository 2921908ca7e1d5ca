import DasIndexer.Api.KeyedListings
import DasIndexer.Bubblegum.LedgerRows
import DasIndexer.Lib.Loops

/-! The transactions that the API lists for an asset of the ledger. -/

namespace DasIndexer
open Sql Bubblegum

section Audits
variable {db : Db} {tree : Pubkey} {leafIdx : Int} {sortDirection : Option AssetSortDirection}

/-- The rows of a leaf are those that are stored for it. -/
theorem mem_auditSelect {order : Order} {audit : Audit} : audit ∈ (auditSelect db tree leafIdx order).rows ↔
    db.clAuditsV2.lookup audit.1 = some audit.2 ∧ audit.1.1 = tree ∧ (audit.1.2.1 : Int) = leafIdx := by
  rw [(Select.rows_perm _).mem_iff, List.mem_filter]
  refine and_congr ?_ ?_
  · rw [← Table.mem_entries_iff]
    constructor
    · intro member
      obtain ⟨entry, stored, isAudit⟩ := List.mem_map.mp member
      rw [← isAudit]
      exact stored
    · intro stored
      exact List.mem_map.mpr ⟨_, stored, rfl⟩
  · simp [auditSelect, Select.keeps]

theorem auditSelect_nodup (order : Order) : (auditSelect db tree leafIdx order).rows.Nodup := by
  rw [(Select.rows_perm _).nodup_iff]
  refine List.Nodup.filter _ (List.Nodup.map ?_ db.clAuditsV2.nodupKeys.nodup)
  intro entry other same
  obtain ⟨sameKey, sameRow⟩ := Prod.mk.inj same
  exact Sigma.ext sameKey (heq_of_eq sameRow)

/-- The order of the sequence numbers, repetitions allowed. -/
def seqWithin (order : Order) (audit other : Audit) : Prop :=
  match order with
  | .asc => audit.seq ≤ other.seq
  | .desc => other.seq ≤ audit.seq

/-- The rows stand in the order that `ORDER BY` decides. -/
theorem rows_pairwise {R : Type} {stmt : Select R} {below : R → R → Bool} {r : R → R → Prop}
    [total : Std.Total r] [trans : IsTrans R r] (orderBy : stmt.orderBy = some below)
    (isBelow : ∀ x y, below x y = true ↔ r x y) : stmt.rows.Pairwise r := by
  have totalBelow : Std.Total (fun x y => below x y = true) := by
    refine ⟨fun x y => ?_⟩
    rw [isBelow, isBelow]
    exact total.total x y
  have transBelow : IsTrans R (fun x y => below x y = true) := by
    refine ⟨fun x y z first second => ?_⟩
    rw [isBelow] at first second ⊢
    exact trans.trans x y z first second
  rw [Select.rows, orderBy]
  refine (List.pairwise_insertionSort (fun x y => below x y = true) _).imp (fun {x y} ordered => ?_)
  exact (isBelow x y).mp ordered

theorem auditSelect_sorted (order : Order) :
    (auditSelect db tree leafIdx order).rows.Pairwise (seqWithin order) := by
  cases order with
  | asc =>
    have total : Std.Total (seqWithin .asc) := ⟨fun audit other => Nat.le_total audit.seq other.seq⟩
    have trans : IsTrans Audit (seqWithin .asc) := ⟨fun _ _ _ first second => Nat.le_trans first second⟩
    exact rows_pairwise rfl (fun audit other => decide_eq_true_iff)
  | desc =>
    have total : Std.Total (seqWithin .desc) := ⟨fun audit other => Nat.le_total other.seq audit.seq⟩
    have trans : IsTrans Audit (seqWithin .desc) := ⟨fun _ _ _ first second => Nat.le_trans second first⟩
    exact rows_pairwise rfl (fun audit other => decide_eq_true_iff)

/-- A page of a list, as the answers name it. -/
def pageOf {α : Type} (page : Option Nat) (limit : Nat) (items : List α) : List α :=
  (items.drop ((page.getD 1 - 1) * limit)).take limit

theorem map_pageOf {α β : Type} (f : α → β) (page : Option Nat) (limit : Nat) (items : List α) :
    (pageOf page limit items).map f = pageOf page limit (items.map f) := by
  rw [pageOf, pageOf, List.map_take, List.map_drop]

theorem pageOf_sublist {α : Type} (page : Option Nat) (limit : Nat) (items : List α) :
    (pageOf page limit items).Sublist items := (List.take_sublist ..).trans (List.drop_sublist ..)

/-- A listing by number cannot be bounded by keys, so it is listed by pages. -/
theorem paginate_bigint {R : Type} {pagination : Pagination} {limit : Nat} {stmt paged : Select R} {order : Order}
    {read : R → Int} (unpaged : stmt.offset = 0)
    (accepted : paginate pagination limit stmt order (.bigint read) = .ok paged) :
    paged.all = pageOf (Rpc.echo pagination).1 limit stmt.rows := by
  have first : ({ stmt with limit := some limit } : Select R).all = pageOf none limit stmt.rows := by
    show (stmt.rows.drop stmt.offset).take limit = _
    rw [unpaged, pageOf]
    simp
  cases pagination with
  | keyset before after =>
    cases before with
    | some bound => cases accepted
    | none =>
      cases after with
      | some bound => cases accepted
      | none => rw [← Except.ok.inj accepted, first, Rpc.echo]
  | page page =>
    rw [← Except.ok.inj accepted]
    by_cases positive : 0 < page
    · rw [if_pos positive]
      rfl
    · have zero : page = 0 := by omega
      rw [if_neg positive, first, zero, Rpc.echo, pageOf, pageOf]
      simp
  | cursor cursor =>
    obtain ⟨id⟩ := cursor
    cases order <;> cases id with
    | some bound => cases accepted
    | none => rw [← Except.ok.inj accepted, first, Rpc.echo]

theorem fetchTransactions_ok {pagination : Pagination} {limit : Nat} {items : List (String × String)}
    (fetched : fetchTransactions db tree leafIdx pagination limit sortDirection = .ok items) :
    items = (pageOf (Rpc.echo pagination).1 limit
      (auditSelect db tree leafIdx (signatureOrder sortDirection)).rows).map Audit.transaction := by
  simp only [fetchTransactions, findAudits] at fetched
  cases paged : paginate pagination limit (auditSelect db tree leafIdx (signatureOrder sortDirection))
      (signatureOrder sortDirection) (.bigint (fun audit => (audit.seq : Int))) with
  | error problem =>
    rw [paged] at fetched
    cases fetched
  | ok stmt =>
    rw [paged] at fetched
    rw [← paginate_bigint rfl paged]
    exact (Except.ok.inj fetched).symm

/-- An asset that is stored is answered by its leaf. -/
theorem getAssetSignatures_ofAsset {id : Pubkey} {index : Option Int} {pagination : Pagination} {limit : Nat}
    {items : List (String × String)}
    (found : getAssetSignatures db (some id) none index pagination limit sortDirection = .ok items) :
    db.asset.lookup id = none ∧ items = [] ∨
      ∃ row tree nonce, db.asset.lookup id = some row ∧ row.treeId = some tree ∧ row.nonce = some nonce ∧
        fetchTransactions db tree nonce pagination limit sortDirection = .ok items := by
  unfold getAssetSignatures at found
  dsimp only at found
  cases stored : db.asset.lookup id with
  | none =>
    rw [stored] at found
    exact .inl ⟨rfl, (Except.ok.inj found).symm⟩
  | some row =>
    rw [stored] at found
    dsimp only at found
    cases inTree : row.treeId with
    | none =>
      rw [inTree] at found
      cases found
    | some tree =>
      rw [inTree] at found
      dsimp only at found
      cases atLeaf : row.nonce with
      | none =>
        rw [atLeaf] at found
        cases found
      | some nonce =>
        rw [atLeaf] at found
        exact .inr ⟨row, tree, nonce, rfl, inTree, atLeaf, found⟩

theorem mapError_eq_ok {α ε ε' : Type} {f : ε → ε'} {x : Except ε α} {a : α} (mapped : x.mapError f = .ok a) :
    x = .ok a := by
  cases x with
  | error problem => cases mapped
  | ok b => rw [Except.ok.inj mapped]

/-- The request names an asset or its leaf. -/
def GetAssetSignatures.AsksFor (payload : GetAssetSignatures) (id : Pubkey) (h : Holding) : Prop :=
  payload.id = some id.toBase58 ∨
    payload.tree = some h.tree.toBase58 ∧ payload.leafIndex = some (h.leaf : Int)

/-- What is answered is read under the keys of the request. -/
theorem requestAssetSignatures_ok {payload : GetAssetSignatures} {list : TransactionSignatureList}
    (answered : requestAssetSignatures db payload = .ok list) : ∃ id tree pagination limit,
      (payload.id.isSome && payload.tree.isNone && payload.leafIndex.isNone ||
        payload.id.isNone && payload.tree.isSome && payload.leafIndex.isSome) = true ∧
      validateOptPubkey payload.id = .ok id ∧ validateOptPubkey payload.tree = .ok tree ∧
      getAssetSignatures db id tree payload.leafIndex pagination limit payload.sortDirection = .ok list.items ∧
      (Rpc.echo pagination).1 = list.page ∧ limit = list.limit := by
  simp only [requestAssetSignatures] at answered
  by_cases valid : (payload.id.isSome && payload.tree.isNone && payload.leafIndex.isNone ||
      payload.id.isNone && payload.tree.isSome && payload.leafIndex.isSome) = true
  · rw [if_neg (by simp [valid])] at answered
    obtain ⟨id, isId, answered⟩ := Loops.bind_eq_ok.mp answered
    obtain ⟨tree, isTree, answered⟩ := Loops.bind_eq_ok.mp answered
    obtain ⟨pageOptions, -, answered⟩ := Loops.bind_eq_ok.mp answered
    obtain ⟨pagination, -, answered⟩ := Loops.bind_eq_ok.mp answered
    obtain ⟨items, fetched, answered⟩ := Loops.bind_eq_ok.mp answered
    rw [← Except.ok.inj answered]
    exact ⟨id, tree, pagination, pageOptions.limit, valid, isId, isTree, mapError_eq_ok fetched, rfl, rfl⟩
  · rw [Bool.not_eq_true] at valid
    rw [valid] at answered
    cases answered

theorem validateOptPubkey_toBase58 (key : Pubkey) : validateOptPubkey (some key.toBase58) = .ok (some key) :=
  validateOptPubkey_address (some (.ofKey key))

/-- What is answered for an asset is a page of the rows of its leaf. -/
theorem GetAssetSignatures.AsksFor.rows {payload : GetAssetSignatures} {list : TransactionSignatureList} {id : Pubkey}
    {h : Holding} (asks : payload.AsksFor id h) (answered : requestAssetSignatures db payload = .ok list)
    (placed : ∀ row tree nonce, db.asset.lookup id = some row → row.treeId = some tree → row.nonce = some nonce →
      tree = h.tree ∧ nonce = h.leaf) :
    db.asset.lookup id = none ∧ list.items = [] ∨
      list.items = (pageOf list.page list.limit
        (auditSelect db h.tree h.leaf (signatureOrder payload.sortDirection)).rows).map Audit.transaction := by
  obtain ⟨idKey, treeKey, pagination, limit, valid, isId, isTree, found, isPage, isLimit⟩ :=
    requestAssetSignatures_ok answered
  rw [← isPage, ← isLimit]
  rcases asks with byId | ⟨byTree, atLeaf⟩
  · have noTree : payload.tree = none := by
      rw [byId] at valid
      cases other : payload.tree with
      | none => rfl
      | some tree =>
        rw [other] at valid
        cases valid
    rw [byId, validateOptPubkey_toBase58] at isId
    rw [noTree] at isTree
    cases isId
    cases isTree
    rcases getAssetSignatures_ofAsset found with missing | ⟨row, tree, nonce, stored, inTree, atLeaf, fetched⟩
    · exact .inl missing
    · obtain ⟨sameTree, sameLeaf⟩ := placed row tree nonce stored inTree atLeaf
      rw [← sameTree, ← sameLeaf]
      exact .inr (fetchTransactions_ok fetched)
  · rw [byTree, validateOptPubkey_toBase58] at isTree
    cases isTree
    rw [atLeaf] at found
    exact .inr (fetchTransactions_ok found)

end Audits

section Histories
variable [Programs]

/-- The transaction of an event, as the API names it. -/
def Bubblegum.Event.transaction (event : Event) : String × String :=
  (bs58Encode event.bundle.txnId, (instructionFrom event.parsingResult.instruction.ixStr).toPascalCase)

/-- A list in the order asked for. -/
def inOrder {α : Type} (order : Order) (items : List α) : List α :=
  match order with
  | .asc => items
  | .desc => items.reverse

/-- The transactions of an asset, in the order asked for. -/
def historyOf (events : List Event) (id : Pubkey) (sortDirection : Option AssetSortDirection) :
    List (String × String) :=
  inOrder (signatureOrder sortDirection) ((events.filter (fun e => e.assetId = some id)).map Event.transaction)

/-- The row of `cl_audits_v2` for an event. -/
def Bubblegum.Event.audit (event : Event) : Option Audit :=
  event.parsingResult.treeUpdate.map (fun cl => ((cl.id, cl.index, cl.seq),
    { tx := event.bundle.txnId, instruction := instructionFrom event.parsingResult.instruction.ixStr }))

/-- The rows of `cl_audits_v2` for an asset. -/
def auditsOf (events : List Event) (id : Pubkey) : List Audit :=
  (events.filter (fun e => e.assetId = some id)).filterMap Event.audit

variable {db : Db} {chain : Chain} {events : List Event} {l : Ledger} {id : Pubkey} {h : Holding}
  {part : List Statement} (sound : l.Sound chain events)
include sound

/-- The events about an asset are on its leaf. -/
theorem Bubblegum.Ledger.Sound.logged_about {e : Event} (member : e ∈ events.filter (fun e => e.assetId = some id)) :
    ∃ cl h, l.Logs e cl id h := by
  obtain ⟨inEvents, about⟩ := List.mem_filter.mp member
  obtain ⟨cl, key, h, logs⟩ := sound.logged e inEvents
  have isKey := logs.asset.symm.trans (of_decide_eq_true about)
  cases isKey
  exact ⟨cl, h, logs⟩

/-- The rows of the asset's leaf are its events. -/
theorem Bubblegum.Ledger.Sound.audit_row (included : ∀ s ∈ part, s ∈ events.flatMap Event.statements)
    (holds : l.holdings id = some h) {audit : Audit}
    (stored : (part.foldl Statement.exec {}).clAuditsV2.lookup audit.1 = some audit.2) (inTree : audit.1.1 = h.tree)
    (atLeaf : audit.1.2.1 = h.leaf) :
    audit ∈ auditsOf events id := by
  obtain ⟨⟨tree, leaf, seq⟩, row⟩ := audit
  rw [run_clAuditsV2] at stored
  obtain ⟨s, inPart, written⟩ := List.mem_filterMap.mp (List.argmax_mem stored)
  have member := included s inPart
  rw [Statement.auditWrite_eq written] at member
  obtain ⟨e, inEvents, inStatements⟩ := List.mem_flatMap.mp member
  obtain ⟨cl, update, isKey, isRow⟩ := Event.tree_of_audit inStatements
  obtain ⟨cl', key, k, logs⟩ := sound.logged e inEvents
  have sameUpdate := logs.indexes.update
  rw [update] at sameUpdate
  cases sameUpdate
  simp only [Prod.mk.injEq] at isKey
  obtain ⟨isTree, isLeaf, isSeq⟩ := isKey
  have sameAsset : key = id := by
    dsimp only at inTree atLeaf
    rw [(sound.placed key k logs.holds).1, (sound.placed id h holds).1, logs.tree, logs.leaf, isTree, isLeaf, inTree,
      atLeaf]
  refine List.mem_filterMap.mpr ⟨e, List.mem_filter.mpr ⟨inEvents, ?_⟩, ?_⟩
  · rw [logs.asset, sameAsset]
    exact decide_eq_true rfl
  · rw [Event.audit, update, Option.map_some, isTree, isLeaf, isSeq, ← isRow]

/-- The rows of an asset are at its leaf. -/
theorem Bubblegum.Ledger.Sound.audit_place (holds : l.holdings id = some h) {audit : Audit}
    (member : audit ∈ auditsOf events id) : audit.1.1 = h.tree ∧ audit.1.2.1 = h.leaf := by
  obtain ⟨e, inFilter, isAudit⟩ := List.mem_filterMap.mp member
  obtain ⟨cl, k, logs⟩ := sound.logged_about inFilter
  have sameHolding := logs.holds
  rw [holds] at sameHolding
  cases sameHolding
  rw [Event.audit, logs.indexes.update] at isAudit
  cases isAudit
  exact ⟨logs.tree.symm, logs.leaf.symm⟩

/-- The events of an asset follow the sequence numbers of its tree. -/
theorem Bubblegum.Ledger.Sound.audits_ordered (id : Pubkey) :
    (auditsOf events id).Pairwise (fun audit other => audit.seq < other.seq) := by
  rw [auditsOf, List.pairwise_filterMap]
  refine (sound.ordered.filter _).imp_of_mem (fun {e later} member memberLater earlier audit isAudit other isOther => ?_)
  have inAudits : audit ∈ auditsOf events id := List.mem_filterMap.mpr ⟨e, member, isAudit⟩
  have inAudits' : other ∈ auditsOf events id := List.mem_filterMap.mpr ⟨later, memberLater, isOther⟩
  obtain ⟨cl, h, logs⟩ := sound.logged_about member
  have sameTree := (sound.audit_place logs.holds inAudits).1.trans (sound.audit_place logs.holds inAudits').1.symm
  obtain ⟨cl, update, isAudit⟩ := Option.map_eq_some_iff.mp isAudit
  obtain ⟨cl', update', isOther⟩ := Option.map_eq_some_iff.mp isOther
  rw [← isAudit, ← isOther] at sameTree ⊢
  exact earlier.seq cl cl' update update' sameTree

/-- The transactions of an asset are those of its rows. -/
theorem Bubblegum.Ledger.Sound.historyOf_eq (id : Pubkey) (sortDirection : Option AssetSortDirection) :
    historyOf events id sortDirection =
      (inOrder (signatureOrder sortDirection) (auditsOf events id)).map Audit.transaction := by
  have history : (events.filter (fun e => e.assetId = some id)).map Event.transaction =
      (auditsOf events id).map Audit.transaction := by
    rw [auditsOf, List.map_filterMap, ← List.filterMap_eq_map]
    refine List.filterMap_congr (fun e member => ?_)
    obtain ⟨cl, k, logs⟩ := sound.logged_about member
    rw [Event.audit, logs.indexes.update]
    rfl
  rw [historyOf, history]
  cases signatureOrder sortDirection with
  | asc => rfl
  | desc => exact List.map_reverse.symm

/-- Rows of the asset in the order asked for are a part of all its rows in that order. -/
theorem Bubblegum.Ledger.Sound.rows_sublist (id : Pubkey) {order : Order} {rows : List Audit} (nodup : rows.Nodup)
    (sorted : rows.Pairwise (seqWithin order)) (recorded : ∀ audit ∈ rows, audit ∈ auditsOf events id) :
    rows.Sublist (inOrder order (auditsOf events id)) := by
  have ordered := sound.audits_ordered id
  have subperm : rows.Subperm (auditsOf events id) := List.subperm_of_subset nodup recorded
  have distinct : ((auditsOf events id).map Audit.seq).Nodup := (List.pairwise_map.mpr ordered).imp Nat.ne_of_lt
  have strict : rows.Pairwise (fun audit other => seqWithin order audit other ∧ audit.seq ≠ other.seq) := by
    refine (sorted.and nodup).imp_of_mem (fun {audit other} member memberOther both => ⟨both.1, fun same => ?_⟩)
    exact both.2 (List.inj_on_of_nodup_map distinct (recorded audit member) (recorded other memberOther) same)
  cases order with
  | asc =>
    have antisymm : Std.Antisymm (fun audit other : Audit => audit.seq < other.seq) :=
      ⟨fun audit other before after => absurd before (Nat.lt_asymm after)⟩
    have ascending : rows.Pairwise (fun audit other => audit.seq < other.seq) :=
      strict.imp (fun both => Nat.lt_of_le_of_ne both.1 both.2)
    exact List.sublist_of_subperm_of_pairwise subperm ascending ordered
  | desc =>
    have antisymm : Std.Antisymm (fun audit other : Audit => other.seq < audit.seq) :=
      ⟨fun audit other before after => absurd before (Nat.lt_asymm after)⟩
    have descending : rows.Pairwise (fun audit other => other.seq < audit.seq) :=
      strict.imp (fun both => Nat.lt_of_le_of_ne both.1 both.2.symm)
    have reversed := subperm.trans (List.reverse_perm (auditsOf events id)).symm.subperm
    exact List.sublist_of_subperm_of_pairwise reversed descending (List.pairwise_reverse.mpr ordered)

/-- All of its rows are listed where each of its events has its row. -/
theorem Bubblegum.Ledger.Sound.rows_eq (id : Pubkey) {order : Order} {rows : List Audit}
    (sublist : rows.Sublist (inOrder order (auditsOf events id)))
    (complete : ∀ audit ∈ auditsOf events id, audit ∈ rows) : rows = inOrder order (auditsOf events id) := by
  have nodup : (auditsOf events id).Nodup := by
    refine (sound.audits_ordered id).imp (fun earlier same => ?_)
    rw [same] at earlier
    exact Nat.lt_irrefl _ earlier
  refine sublist.eq_of_length_le ?_
  have length : (inOrder order (auditsOf events id)).length = (auditsOf events id).length := by
    cases order with
    | asc => rfl
    | desc => exact List.length_reverse
  rw [length]
  exact (List.subperm_of_subset nodup complete).length_le

variable (included : ∀ s ∈ part, s ∈ events.flatMap Event.statements)
include included

/-- The rows of the asset's leaf, whatever part of the statements took effect. -/
theorem Bubblegum.Ledger.Sound.leaf_rows (audits : db.clAuditsV2 = (part.foldl Statement.exec {}).clAuditsV2)
    (holds : l.holdings id = some h) (order : Order) :
    (auditSelect db h.tree h.leaf order).rows.Sublist (inOrder order (auditsOf events id)) := by
  refine sound.rows_sublist id (auditSelect_nodup _) (auditSelect_sorted _) (fun audit member => ?_)
  obtain ⟨stored, inTree, atLeaf⟩ := mem_auditSelect.mp member
  rw [audits] at stored
  exact sound.audit_row included holds stored inTree (Int.ofNat_inj.mp atLeaf)

theorem Bubblegum.Ledger.Sound.asked_rows (assets : db.asset = (part.foldl Statement.exec {}).asset)
    (holds : l.holdings id = some h) {payload : GetAssetSignatures} (asks : payload.AsksFor id h)
    {list : TransactionSignatureList} (answered : requestAssetSignatures db payload = .ok list) :
    db.asset.lookup id = none ∧ list.items = [] ∨
      list.items = (pageOf list.page list.limit
        (auditSelect db h.tree h.leaf (signatureOrder payload.sortDirection)).rows).map Audit.transaction := by
  refine asks.rows answered (fun row tree nonce stored inTree atLeaf => ?_)
  rw [assets] at stored
  obtain ⟨k, holdsToo, isTree, isLeaf⟩ := sound.asset_place included stored inTree atLeaf
  rw [holds] at holdsToo
  cases holdsToo
  exact ⟨isTree.symm, isLeaf.symm⟩

end Histories

end DasIndexer
