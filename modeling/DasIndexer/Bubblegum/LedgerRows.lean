import DasIndexer.Bubblegum.CreatorsShown
import DasIndexer.Bubblegum.LedgerRuns
import DasIndexer.ProofBatch

/-! The rows that the events of a ledger leave behind, however they were handled. -/

namespace DasIndexer.Bubblegum
open Sql Latest Merkle

/-- The items of the change logs of a history are nodes of the tree. -/
theorem mem_pathItems_of_mem_changeLogs {hash : Hash → Hash → Hash} {blank : Hash} {tree : Pubkey} {depth : Nat}
    {writes : List (Nat × Hash)} (inRange : ∀ write ∈ writes, write.1 < 2 ^ depth) {cl : ChangeLogEvent}
    (inLogs : cl ∈ changeLogs hash blank tree depth writes) {index : Nat} {item : ClItemRow}
    (inPath : (index, item) ∈ pathItems cl) : ∃ earlier write, write.1 < 2 ^ depth ∧ ∃ level ≤ depth,
      index = 2 ^ (depth - level) + write.1 / 2 ^ level ∧
        item = nodeRow hash blank earlier write level (write.1 / 2 ^ level) := by
  obtain ⟨earlier, write, later, split, isLog⟩ := mem_changeLogs.mp inLogs
  rw [isLog] at inPath
  exact ⟨earlier, write, inRange write (by rw [split]; simp), mem_pathItems.mp inPath⟩

/-- The list of creators that a statement writes for an asset. -/
def Statement.creatorListWrite (key : Pubkey) : Statement → Option CreatorsInfo
  | .creators id info => if key = id then some info else none
  | _ => none

theorem Statement.creatorListWrite_eq {key : Pubkey} {s : Statement} {info : CreatorsInfo}
    (written : s.creatorListWrite key = some info) : s = .creators key info := by
  cases s <;> simp_all [creatorListWrite]

theorem creatorLists_eq [Programs] (id : Pubkey) (events : List Event) :
    (events.flatMap Event.statements).filterMap (Statement.creatorListWrite id) = creatorsUpdates id events := by
  have bound : ∀ s : Statement, s.creatorListWrite id =
      s.creatorsInfo.bind (fun write => if id = write.1 then some write.2 else none) := by
    intro s
    cases s <;> rfl
  induction events with
  | nil => rfl
  | cons event rest ih =>
    have writes : event.statements.filterMap (Statement.creatorListWrite id) =
        (event.statements.filterMap Statement.creatorsInfo).filterMap (fun write =>
          if id = write.1 then some write.2 else none) := by
      rw [List.filterMap_filterMap]
      exact List.filterMap_congr (fun s _ => bound s)
    rw [List.flatMap_cons, List.filterMap_append, ih, writes, event.filterMap_creatorsInfo, creatorsUpdates,
      creatorsUpdates, List.filterMap_cons]
    cases written : event.creatorsUpdate with
    | none => simp
    | some write =>
      by_cases same : id = write.1
      · simp [same]
      · simp [same]

section Rows
variable [Programs] {chain : Chain} {events : List Event} {l : Ledger}

/-- The leaf schema of an asset; any for what was never minted. -/
def Ledger.schemaOf (l : Ledger) (id : Pubkey) : SchemaVersion :=
  (l.holdings id).elim .v1 (fun h => h.contents.version)

section Histories
variable (sound : l.Sound chain events)
include sound

theorem Ledger.Sound.logs_of_update {e : Event} (member : e ∈ events) {cl : ChangeLogEvent}
    (update : e.parsingResult.treeUpdate = some cl) : ∃ id h, l.Logs e cl id h := by
  obtain ⟨other, id, h, logs⟩ := sound.logged e member
  have same := logs.indexes.update
  rw [update] at same
  cases same
  exact ⟨id, h, logs⟩

theorem Ledger.Sound.histories : Histories l.schemaOf events where
  positive e member cl update := by
    obtain ⟨id, h, logs⟩ := sound.logs_of_update member update
    exact logs.positive
  distinct _ member _ member' _ _ update update' := sound.distinct member member' update update'
  oneTree e member e' member' cl cl' id update update' asset asset' := by
    obtain ⟨key, h, logs⟩ := sound.logs_of_update member update
    obtain ⟨key', h', logs'⟩ := sound.logs_of_update member' update'
    have sameKey := logs.asset
    have sameKey' := logs'.asset
    rw [asset] at sameKey
    rw [asset'] at sameKey'
    cases sameKey
    cases sameKey'
    have sameHolding := logs.holds
    rw [logs'.holds] at sameHolding
    cases sameHolding
    exact logs.tree.symm.trans logs'.tree
  ofVersion e member id asset := by
    obtain ⟨cl, key, h, logs⟩ := sound.logged e member
    have sameKey := logs.asset
    rw [asset] at sameKey
    cases sameKey
    rw [Ledger.schemaOf, logs.holds]
    exact logs.version
  oneMint := sound.oneMint

end Histories

section Parts
variable {part : List Statement} (sound : l.Sound chain events)
  (included : ∀ s ∈ part, s ∈ events.flatMap Event.statements)
include sound included

/-- A stored node is one of a change log of its tree. -/
theorem Ledger.Sound.item_row {tree : Pubkey} {index : Nat} {row : ClItemRow}
    (stored : (part.foldl Statement.exec {}).clItems.lookup (tree, index) = some row) :
    ∃ earlier write, write.1 < 2 ^ chain.depth tree ∧ ∃ level ≤ chain.depth tree,
      index = 2 ^ (chain.depth tree - level) + write.1 / 2 ^ level ∧
        row = nodeRow chain.hash (Programs.emptyNode 0) earlier write level (write.1 / 2 ^ level) := by
  rw [run_clItems _ rfl] at stored
  obtain ⟨s, inPart, written⟩ := List.mem_filterMap.mp (List.argmax_mem stored)
  have isItem := Statement.itemWrite_eq written
  subst isItem
  obtain ⟨e, inEvents, inE⟩ := List.mem_flatMap.mp (included _ inPart)
  obtain ⟨cl, indexes, inLog | inBody⟩ := Event.mem_statements inE
  · rcases mem_saveChangelogEvent inLog with ⟨entry, inPath, same⟩ | same | same
    · cases same
      have inLogs := (sound.logs cl.id cl).mp ⟨e, inEvents, indexes.update, rfl⟩
      exact mem_pathItems_of_mem_changeLogs (sound.inRange cl.id) inLogs inPath
    · cases same
    · cases same
  · exact (indexes.ofEvent _ inBody).elim

/-- A stored asset that has a place has its place in the ledger. -/
theorem Ledger.Sound.asset_place {id tree : Pubkey} {nonce : Nat} {row : AssetRow}
    (stored : (part.foldl Statement.exec {}).asset.lookup id = some row) (inTree : row.treeId = some tree)
    (atLeaf : row.nonce = some nonce) : ∃ h, l.holdings id = some h ∧ h.tree = tree ∧ h.leaf = nonce := by
  have suits : ∀ s ∈ part, s.Suits id (l.schemaOf id) := fun s member => sound.histories.suits id s (included s member)
  have columns := run_leafColumns_of_suits suits
  rw [Db.assetOrDefault, stored, Option.getD_some] at columns
  cases newest : latest LeafInfo.seq (part.filterMap (Statement.leafWrite id)) with
  | none =>
    rw [newest] at columns
    simp only [leafColumns, Prod.mk.injEq] at columns
    have absent : row.treeId = none := columns.2.1
    rw [inTree] at absent
    cases absent
  | some info =>
    obtain ⟨s, inPart, written⟩ := List.mem_filterMap.mp (latest_mem _ newest)
    have isInfo := Statement.leafWrite_eq written
    subst isInfo
    obtain ⟨h, holds, sameTree, sameLeaf⟩ := sound.places id info (included _ inPart)
    rw [newest] at columns
    simp only [leafColumns, Prod.mk.injEq] at columns
    have isTree : row.treeId = some info.treeId := columns.2.1
    have isLeaf : row.nonce = some info.nonce := columns.1
    rw [inTree] at isTree
    rw [atLeaf] at isLeaf
    cases isTree
    cases isLeaf
    exact ⟨h, holds, sameTree.symm, sameLeaf.symm⟩

/-- The queries for proofs can rely on the tables after any part of the statements. -/
theorem Ledger.Sound.proofTables {db : Db} (assets : db.asset = (part.foldl Statement.exec {}).asset)
    (items : db.clItems = (part.foldl Statement.exec {}).clItems) : ProofTables db where
  leaf_level := by
    rintro ⟨tree, index⟩ row stored
    rw [items] at stored
    obtain ⟨earlier, write, -, level, -, -, isRow⟩ := sound.item_row included stored
    rw [isRow]
    by_cases leaf : level = 0
    · simp [nodeRow, leaf]
    · simp [nodeRow, leaf]
  leaf_unique := by
    intro tree n m row other stored storedOther isLeaf same
    rw [items] at stored storedOther
    obtain ⟨earlier, write, -, level, -, index, isRow⟩ := sound.item_row included stored
    obtain ⟨earlier', write', -, level', -, index', isOther⟩ := sound.item_row included storedOther
    rw [isRow, isOther] at same
    rw [isRow] at isLeaf
    have leaf : level = 0 := by
      by_contra inner
      simp [nodeRow, inner] at isLeaf
    have leaf' : level' = 0 := by
      by_contra inner
      simp [nodeRow, leaf, inner] at same
    have positions : (write.1 : Int) = write'.1 := by simpa [nodeRow, leaf, leaf'] using same
    rw [index, index', leaf, leaf', Int.ofNat_inj.mp positions]
  asset_unique := by
    intro id other row otherRow stored storedOther hasTree hasNonce sameTree sameNonce
    rw [assets] at stored storedOther
    obtain ⟨tree, inTree⟩ := Option.isSome_iff_exists.mp hasTree
    obtain ⟨nonce, atLeaf⟩ := Option.isSome_iff_exists.mp hasNonce
    obtain ⟨h, holds, isTree, isLeaf⟩ := sound.asset_place included stored inTree atLeaf
    obtain ⟨h', holds', isTree', isLeaf'⟩ := sound.asset_place included storedOther (sameTree.symm.trans inTree)
      (sameNonce.symm.trans atLeaf)
    rw [(sound.placed id h holds).1, (sound.placed other h' holds').1, isTree, isLeaf, isTree', isLeaf']

end Parts

/-- The row of `asset` for an asset of the ledger. -/
structure Holding.Row (chain : Chain) (id : Pubkey) (h : Holding) (row : AssetRow) : Prop where
  tree : row.treeId = some h.tree
  nonce : row.nonce = some h.leaf
  leaf : h.status ≠ .burnt → leafColumns row = leafColumns (h.leafInfo chain id).model
  owner : row.owner = some h.contents.owner.bytes
  delegate : row.delegate = delegateColumn h.contents.owner h.contents.delegate
  base : ∃ slot seq, baseColumns row =
    baseColumns ((compressedBaseInfo h.contents.metadata.sellerFeeBasisPoints slot seq).model id)
  compression : compressionColumns row = (true, false, 1, none)
  seq : row.seq = some h.seq
  burnt : row.burnt = decide (h.status = .burnt)

section Whole
variable {id : Pubkey} {h : Holding} {row : AssetRow} (sound : l.Sound chain events)
include sound

theorem Ledger.Sound.recent (holds : l.holdings id = some h) {s : Statement}
    (member : s ∈ events.flatMap Event.statements) (subject : s.subject = some id) {n : Nat}
    (version : s.version = some n) : n ≤ h.seq := by
  obtain ⟨e, -, k, inE, holds', known⟩ := sound.about member subject
  rw [holds] at holds'
  cases holds'
  rw [Event.version_eq inE version]
  exact known

theorem Ledger.Sound.absent_row (absent : l.holdings id = none) : (ingest {} events).asset.lookup id = none := by
  rw [ingest_eq_statements, ← Option.not_isSome_iff_eq_none, run_isSome]
  intro present
  obtain ⟨s, member, upserts⟩ := List.any_eq_true.mp present
  have subject : s.subject = some id := by
    cases s <;> simp [Statement.assetUpsert, Statement.subject] at upserts ⊢ <;> exact upserts.symm
  obtain ⟨-, -, k, -, holds, -⟩ := sound.about member subject
  rw [absent] at holds
  cases holds

variable (holds : l.holdings id = some h) (stored : (ingest {} events).asset.lookup id = some row)
include holds

theorem Ledger.Sound.row_exists : ∃ row, (ingest {} events).asset.lookup id = some row := by
  rw [← Option.isSome_iff_exists, ingest_eq_statements, run_isSome, Bool.or_eq_true, List.any_eq_true]
  exact Or.inr ⟨_, (sound.told id h holds).seq, by simp [Statement.assetUpsert]⟩

include stored

theorem Ledger.Sound.leaf_columns (alive : h.status ≠ .burnt) :
    leafColumns row = leafColumns (h.leafInfo chain id).model := by
  have columns := run_leafColumns_of_suits (sound.histories.suits id)
  rw [← ingest_eq_statements, Db.assetOrDefault, stored, Option.getD_some] at columns
  have told : h.leafInfo chain id ∈ (events.flatMap Event.statements).filterMap (Statement.leafWrite id) :=
    List.mem_filterMap.mpr ⟨_, (sound.told id h holds).leaf alive, by simp [Statement.leafWrite]⟩
  have identifies : Identifies LeafInfo.seq ((events.flatMap Event.statements).filterMap (Statement.leafWrite id)) :=
    sound.histories.identifies id .leafInfo (fun other => by cases other) (fun s w isWritten => by
      rw [Statement.leafWrite_eq isWritten]; exact ⟨rfl, rfl, rfl⟩)
  have newest := latest_eq_of_greatest identifies told (fun info member => ?_)
  · rw [columns, newest]
    rfl
  · obtain ⟨s, inStatements, written⟩ := List.mem_filterMap.mp member
    rw [Statement.leafWrite_eq written] at inStatements
    rw [Holding.leafInfo_seq]
    exact sound.recent holds inStatements rfl rfl

/-- A burnt asset keeps its place. -/
theorem Ledger.Sound.place_columns : row.treeId = some h.tree ∧ row.nonce = some h.leaf := by
  have columns := run_leafColumns_of_suits (sound.histories.suits id)
  rw [← ingest_eq_statements, Db.assetOrDefault, stored, Option.getD_some] at columns
  obtain ⟨info, told⟩ := (sound.told id h holds).indexed
  have written : info ∈ (events.flatMap Event.statements).filterMap (Statement.leafWrite id) :=
    List.mem_filterMap.mpr ⟨_, told, by simp [Statement.leafWrite]⟩
  obtain ⟨last, newest⟩ := latest_exists LeafInfo.seq (List.ne_nil_of_mem written)
  obtain ⟨s, inStatements, isLast⟩ := List.mem_filterMap.mp (latest_mem _ newest)
  rw [Statement.leafWrite_eq isLast] at inStatements
  obtain ⟨h', holds', sameTree, sameLeaf⟩ := sound.places id last inStatements
  rw [holds] at holds'
  cases holds'
  rw [newest] at columns
  simp only [leafColumns, Prod.mk.injEq] at columns
  have isTree : row.treeId = some last.treeId := columns.2.1
  have isLeaf : row.nonce = some last.nonce := columns.1
  exact ⟨by rw [isTree, sameTree], by rw [isLeaf, sameLeaf]⟩

omit stored in
/-- The newest write of a part of the contents is the one for the state of the asset. -/
theorem Ledger.Sound.newest_part (part : Part) {W : Type} {write : Statement → Option W} {ver : W → Nat}
    (kinded : ∀ s w, write s = some w → s.kind = part.kind ∧ s.version = some (ver w) ∧ s.subject = some id)
    {value : Nat → Nat → W}
    (written : ∀ slot seq, write (h.contents.statement id slot seq part) = some (value slot seq)) :
    ∃ slot seq, latest ver ((events.flatMap Event.statements).filterMap write) = some (value slot seq) := by
  obtain ⟨slot, seq, told, greatest⟩ := (sound.told id h holds).parts part
  have noItem : part.kind ≠ .clItem := by
    cases part <;> exact fun other => by cases other
  have isSeq : ver (value slot seq) = seq := by
    have version := (kinded _ _ (written slot seq)).2.1
    rw [Contents.statement_version] at version
    exact (Option.some.inj version).symm
  refine ⟨slot, seq, latest_eq_of_greatest (sound.histories.identifies id part.kind noItem kinded)
    (List.mem_filterMap.mpr ⟨_, told, written slot seq⟩) (fun w member => ?_)⟩
  obtain ⟨s, inStatements, isWritten⟩ := List.mem_filterMap.mp member
  obtain ⟨kind, version, subject⟩ := kinded s w isWritten
  rw [isSeq]
  exact greatest s inStatements kind subject _ version

theorem Ledger.Sound.owner_columns : row.owner = some h.contents.owner.bytes ∧
    row.delegate = delegateColumn h.contents.owner h.contents.delegate := by
  have columns := run_ownerColumns id sound.histories.statements_positive
  rw [← ingest_eq_statements, Db.assetOrDefault, stored, Option.getD_some] at columns
  obtain ⟨slot, seq, newest⟩ := @Ledger.Sound.newest_part _ chain events l id h sound holds .owner _
    (Statement.ownerWrite id) OwnerInfo.seq (fun s w isWritten => by
      rw [Statement.ownerWrite_eq isWritten]; exact ⟨rfl, rfl, rfl⟩)
    (fun _ seq => ownerInfoOf h.contents.owner h.contents.delegate seq) (fun _ _ => if_pos rfl)
  rw [newest] at columns
  simp only [ownerColumns, Prod.mk.injEq] at columns
  exact ⟨columns.1, columns.2.1⟩

theorem Ledger.Sound.base_columns : ∃ slot seq, baseColumns row =
    baseColumns ((compressedBaseInfo h.contents.metadata.sellerFeeBasisPoints slot seq).model id) := by
  have columns := run_baseColumns id sound.histories.statements_positive
  rw [← ingest_eq_statements, Db.assetOrDefault, stored, Option.getD_some] at columns
  obtain ⟨slot, seq, newest⟩ := @Ledger.Sound.newest_part _ chain events l id h sound holds .base _
    (Statement.baseWrite id) BaseInfo.seq (fun s w isWritten => by
      rw [Statement.baseWrite_eq isWritten]; exact ⟨rfl, rfl, rfl⟩)
    (fun slot seq => compressedBaseInfo h.contents.metadata.sellerFeeBasisPoints slot seq) (fun _ _ => if_pos rfl)
  rw [newest] at columns
  exact ⟨slot, seq, columns⟩

theorem Ledger.Sound.compression_columns : compressionColumns row = (true, false, 1, none) := by
  have columns := run_compressionColumns id sound.histories.statements_positive
  rw [← ingest_eq_statements, Db.assetOrDefault, stored, Option.getD_some] at columns
  obtain ⟨info, told⟩ := (sound.told id h holds).compression
  have written : info ∈ (events.flatMap Event.statements).filterMap (Statement.compressionWrite id) :=
    List.mem_filterMap.mpr ⟨_, told, if_pos rfl⟩
  obtain ⟨last, newest⟩ := latest_exists (fun _ => 0) (List.ne_nil_of_mem written)
  obtain ⟨s, inStatements, isLast⟩ := List.mem_filterMap.mp (latest_mem _ newest)
  have suits := sound.histories.suits id s inStatements
  have isCompressed := suits.compression id last (Statement.compressionWrite_eq isLast)
  rw [columns, newest, isCompressed]
  rfl

theorem Ledger.Sound.seq_column : row.seq = some h.seq := by
  have column := run_seq id sound.histories.statements_positive
  rw [← ingest_eq_statements, Db.assetOrDefault, stored, Option.getD_some] at column
  have written : h.seq ∈ (events.flatMap Event.statements).filterMap (Statement.seqWrite id) :=
    List.mem_filterMap.mpr ⟨_, (sound.told id h holds).seq, by simp [Statement.seqWrite]⟩
  rw [column]
  refine latest_eq_of_greatest (fun _ _ _ _ same => same) written (fun n member => ?_)
  obtain ⟨s, inStatements, isSeq⟩ := List.mem_filterMap.mp member
  rw [Statement.seqWrite_eq isSeq] at inStatements
  exact sound.recent holds inStatements rfl rfl

theorem Ledger.Sound.burnt_column : row.burnt = decide (h.status = .burnt) := by
  have column := @run_burnt _ id (events.flatMap Event.statements)
  rw [← ingest_eq_statements, Db.assetOrDefault, stored, Option.getD_some] at column
  rw [column, Bool.eq_iff_iff, decide_eq_true_iff, ← (sound.told id h holds).burnt, Option.isSome_iff_ne_none, ne_eq,
    List.argmax_eq_none]
  constructor
  · intro nonempty
    obtain ⟨u, member⟩ := List.exists_mem_of_ne_nil _ nonempty
    obtain ⟨s, inStatements, isBurnt⟩ := List.mem_filterMap.mp member
    rwa [Statement.burntWrite_eq isBurnt] at inStatements
  · intro told
    exact List.ne_nil_of_mem (List.mem_filterMap.mpr ⟨_, told, if_pos rfl⟩)

theorem Ledger.Sound.shown_row : h.Row chain id row where
  tree := (sound.place_columns holds stored).1
  nonce := (sound.place_columns holds stored).2
  leaf := sound.leaf_columns holds stored
  owner := (sound.owner_columns holds stored).1
  delegate := (sound.owner_columns holds stored).2
  base := sound.base_columns holds stored
  compression := sound.compression_columns holds stored
  seq := sound.seq_column holds stored
  burnt := sound.burnt_column holds stored

omit stored

theorem Ledger.Sound.data_row : ∃ slot seq, (ingest {} events).assetData.lookup id =
    some (h.contents.metadata.dataInfo slot seq).model := by
  obtain ⟨slot, seq, newest⟩ := @Ledger.Sound.newest_part _ chain events l id h sound holds .data _
    (Statement.dataWrite id) AssetDataInfo.seq (fun s w isWritten => by
      rw [Statement.dataWrite_eq isWritten]; exact ⟨rfl, rfl, rfl⟩)
    (fun slot seq => h.contents.metadata.dataInfo slot seq) (fun _ _ => if_pos rfl)
  refine ⟨slot, seq, ?_⟩
  rw [ingest_eq_statements, run_assetData_of_suits (sound.histories.suits id), newest]
  rfl

theorem Ledger.Sound.collection_row : ∃ slot seq, (ingest {} events).assetGrouping.lookup (id, "collection") =
      some ({ collection := h.contents.metadata.collection, slotUpdated := slot, seq := seq } :
        CollectionInfo).model := by
  obtain ⟨slot, seq, newest⟩ := @Ledger.Sound.newest_part _ chain events l id h sound holds .collection _
    (Statement.groupWrite (id, "collection")) CollectionInfo.seq (fun s w isWritten => by
      rw [(Statement.groupWrite_eq isWritten).2]; exact ⟨rfl, rfl, rfl⟩)
    (fun slot seq => { collection := h.contents.metadata.collection, slotUpdated := slot, seq := seq })
    (fun _ _ => if_pos rfl)
  refine ⟨slot, seq, ?_⟩
  rw [ingest_eq_statements, run_assetGrouping id sound.histories.statements_positive, newest]
  rfl

omit holds in
theorem Ledger.Sound.no_other_group {group : String} (other : group ≠ "collection") :
    (ingest {} events).assetGrouping.lookup (id, group) = none := by
  rw [ingest_eq_statements, run_assetGrouping id sound.histories.statements_positive, Option.map_eq_none_iff,
    latest_eq_none, List.filterMap_eq_nil_iff]
  intro s _
  cases written : s.groupWrite (id, group) with
  | none => rfl
  | some info =>
    have key := (Statement.groupWrite_eq written).1
    exact absurd (Prod.mk.inj key).2 other

theorem Ledger.Sound.authority_row : ((ingest {} events).assetAuthority.lookup id).map AssetAuthorityRow.authority =
    some h.authority.bytes := by
  obtain ⟨slot, seq, told⟩ := (sound.told id h holds).authority
  have written : ({ authority := h.authority, slotUpdated := seq, seq := slot } : AuthorityInfo) ∈
      (events.flatMap Event.statements).filterMap (Statement.authorityWrite id) :=
    List.mem_filterMap.mpr ⟨_, told, if_pos rfl⟩
  rw [ingest_eq_statements, run_assetAuthority]
  cases first : ((events.flatMap Event.statements).filterMap (Statement.authorityWrite id)).argmax (fun _ => 0) with
  | none =>
    rw [List.argmax_eq_none.mp first] at written
    cases written
  | some info =>
    have same := sound.histories.authority_unique id info (List.argmax_mem first) _ written
    rw [same]
    rfl

end Whole

/-- What the tables show of an asset of the ledger. -/
structure Holding.Shown (chain : Chain) (id : Pubkey) (h : Holding) (db : Db) : Prop where
  row : ∃ row, db.asset.lookup id = some row ∧ h.Row chain id row
  data : ∃ slot seq, db.assetData.lookup id = some (h.contents.metadata.dataInfo slot seq).model
  creators : (shownCreators db id).map AssetCreatorRow.shown = h.contents.metadata.creators.entries.map Creator.shown
  collection : ∃ slot seq, db.assetGrouping.lookup (id, "collection") =
    some ({ collection := h.contents.metadata.collection, slotUpdated := slot, seq := seq } : CollectionInfo).model
  noGroup : ∀ group, group ≠ "collection" → db.assetGrouping.lookup (id, group) = none
  authority : (db.assetAuthority.lookup id).map AssetAuthorityRow.authority = some h.authority.bytes

/-- The tables show the assets of a ledger and no others. -/
structure Ledger.Shown (chain : Chain) (l : Ledger) (db : Db) : Prop where
  absent : ∀ id, l.holdings id = none → db.asset.lookup id = none
  holding : ∀ id h, l.holdings id = some h → h.Shown chain id db

section Shown
variable {db : Db} {id : Pubkey} {h : Holding} (sound : l.Sound chain events)
  (same : SameButAudits db (ingest {} events))
include sound same

theorem Ledger.Sound.absent (absent : l.holdings id = none) : db.asset.lookup id = none := by
  have rows := same.asset id
  rw [sound.absent_row absent, Option.map_none, Option.map_eq_none_iff] at rows
  exact rows

variable (holds : l.holdings id = some h)
include holds

theorem Ledger.Sound.shown_asset : ∃ row, db.asset.lookup id = some row ∧ h.Row chain id row := by
  have rows := same.asset id
  obtain ⟨other, stored⟩ := sound.row_exists holds
  have shown := sound.shown_row holds stored
  rw [stored, Option.map_some, Option.map_eq_some_iff] at rows
  obtain ⟨row, found, agrees⟩ := rows
  have columns : h.Row chain id { row with slotUpdated := none } := by
    rw [agrees]
    exact { shown with }
  exact ⟨row, found, { columns with }⟩

omit same holds in
/-- Events of one asset come in the order of their slots. -/
theorem Ledger.Sound.creator_slots : ∀ i ∈ creatorsUpdates id events, ∀ j ∈ creatorsUpdates id events,
    i.seq ≤ j.seq → i.slotUpdated ≤ j.slotUpdated := by
  intro i memberI j memberJ older
  obtain ⟨e, inEvents, writtenI⟩ := mem_creatorsUpdates.mp memberI
  obtain ⟨e', inEvents', writtenJ⟩ := mem_creatorsUpdates.mp memberJ
  obtain ⟨cl, key, k, logs⟩ := sound.logged e inEvents
  obtain ⟨cl', key', k', logs'⟩ := sound.logged e' inEvents'
  have about : ∀ {event : Event} {info : CreatorsInfo}, event.creatorsUpdate = some (id, info) →
      event.assetId = some id := by
    intro event info written
    have member : (id, info) ∈ event.statements.filterMap Statement.creatorsInfo := by
      rw [event.filterMap_creatorsInfo, written]
      exact List.mem_singleton_self _
    obtain ⟨s, inStatements, isCreators⟩ := List.mem_filterMap.mp member
    refine Event.assetId_of_subject inStatements ?_
    cases s <;> simp_all [Statement.creatorsInfo, Statement.subject]
  have sameTree := sound.histories.oneTree e inEvents e' inEvents' cl cl' id logs.indexes.update logs'.indexes.update
    (about writtenI) (about writtenJ)
  rw [(Event.creatorsUpdate_seq writtenI).1, (Event.creatorsUpdate_seq writtenJ).1,
    Event.seq_of_treeUpdate logs.indexes.update, Event.seq_of_treeUpdate logs'.indexes.update] at older
  rw [(Event.creatorsUpdate_seq writtenI).2, (Event.creatorsUpdate_seq writtenJ).2]
  exact sound.slots inEvents inEvents' logs.indexes.update logs'.indexes.update sameTree older

theorem Ledger.Sound.shown_creators : (shownCreators db id).map AssetCreatorRow.shown =
    h.contents.metadata.creators.entries.map Creator.shown := by
  have kinded : ∀ (s : Statement) info, s.creatorListWrite id = some info →
      s.kind = .creators ∧ s.version = some info.seq ∧ s.subject = some id := by
    intro s info isWritten
    rw [Statement.creatorListWrite_eq isWritten]
    exact ⟨rfl, rfl, rfl⟩
  obtain ⟨slot, seq, newest⟩ := @Ledger.Sound.newest_part _ chain events l id h sound holds .creators _
    (Statement.creatorListWrite id) CreatorsInfo.seq kinded
    (fun slot seq => { creators := h.contents.metadata.creators, slotUpdated := slot, seq := seq })
    (fun _ _ => if_pos rfl)
  have identifies := sound.histories.identifies id .creators (fun other => by cases other) kinded
  rw [creatorLists_eq] at newest identifies
  have positive := sound.histories.statements_positive
  have cells : ∀ position, db.assetCreators.lookup (id, position) =
      latest AssetCreatorRow.version ((creatorsUpdates id events).filterMap (fun info => info.rowAt position)) := by
    intro position
    rw [same.assetCreators, ingest_eq_statements, run_assetCreators id positive, creatorWrites_eq]
  rw [shownCreators_newest cells ?_ identifies sound.creator_slots newest, List.map_map]
  · rfl
  · intro info member
    rw [← creatorLists_eq] at member
    obtain ⟨s, inStatements, written⟩ := List.mem_filterMap.mp member
    exact positive s inStatements info.seq (kinded s info written).2.1

theorem Ledger.Sound.shown_holding : h.Shown chain id db where
  row := sound.shown_asset same holds
  data := by
    rw [same.assetData]
    exact sound.data_row holds
  creators := sound.shown_creators same holds
  collection := by
    rw [same.assetGrouping]
    exact sound.collection_row holds
  noGroup group other := by
    rw [same.assetGrouping]
    exact sound.no_other_group other
  authority := by
    rw [same.assetAuthority]
    exact sound.authority_row holds

omit holds in
theorem Ledger.Sound.shown : l.Shown chain db where
  absent _ := sound.absent same
  holding _ _ := sound.shown_holding same

end Shown

end Rows

end DasIndexer.Bubblegum
