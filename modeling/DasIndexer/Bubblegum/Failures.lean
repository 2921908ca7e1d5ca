import DasIndexer.Bubblegum.Events
import DasIndexer.Lib.Runs
import DasIndexer.Mainnet
import DasIndexer.Versions

namespace DasIndexer.Bubblegum
open Sql Latest

/-- A call of a handler on a database that may fail. `fails i` says that the
statement at position `i` of `insert_change_log` fails, with the query for the
rows of the tree counted to the insertion into `backfill_items`; `aborts` that
the transaction cannot be begun, one of its statements fails or the commit
does. -/
structure HandlerRun where
  event : Event
  fails : Nat → Bool
  aborts : Bool

section Exec
variable [Programs]

/-- Statements on the connection commit one by one. A failure ends the handler,
except that the handler goes on after an error from `cl_audits_v2`. -/
def execOnConnection (fails : Nat → Bool) : Nat → Db → List Statement → Db × Bool
  | _, db, [] => (db, true)
  | i, db, s :: rest =>
    if fails i then
      match s with
      | .clAudit .. => execOnConnection fails (i + 1) db rest
      | _ => (db, false)
    else execOnConnection fails (i + 1) (s.exec db) rest

/-- The transaction is begun after the last statement on the connection, and is
rolled back as a whole. -/
def HandlerRun.exec (db : Db) (run : HandlerRun) : Db :=
  let (db, finished) := execOnConnection run.fails 0 db run.event.plan.onConnection
  if finished && !run.aborts then run.event.plan.body.foldl Statement.exec db else db

def ingestRuns (db : Db) (runs : List HandlerRun) : Db := runs.foldl HandlerRun.exec db

theorem execOnConnection_faultless (i : Nat) (db : Db) (statements : List Statement) :
    execOnConnection (fun _ => false) i db statements = (statements.foldl Statement.exec db, true) := by
  induction statements generalizing i db with
  | nil => rfl
  | cons s rest ih => exact ih (i + 1) (s.exec db)

/-- Without failures the handler does what it does on a database that works. -/
theorem HandlerRun.exec_faultless (db : Db) (event : Event) :
    HandlerRun.exec db ⟨event, fun _ => false, false⟩ = (handleBubblegumInstruction db event).1 := by
  rw [HandlerRun.exec, execOnConnection_faultless, handleBubblegumInstruction, Event.statements, Plan.statements,
    List.foldl_append]
  rfl

/-- The asset that an event is about. -/
def Event.assetId (event : Event) : Option Pubkey :=
  match event.handler with
  | none => none
  | some .redeem | some .burn =>
    event.parsingResult.treeUpdate.map (fun cl => Programs.findAssetAddress cl.id cl.index)
  | some _ => event.parsingResult.leafUpdate.map (fun le => (NormalizedLeafFields.from le.schema).id)

/-- An event that writes asset data: its handler found everything it needs and
starts with the change log. -/
structure Event.Writes (event : Event) (cl : ChangeLogEvent) (id : Pubkey) : Prop where
  indexes : event.plan.Indexes event cl
  asset : event.assetId = some id

end Exec

/-- The sequence number of a tree is in one of the tables that the search for
gaps reads. -/
def Recorded (db : Db) (tree : Pubkey) (seq : Nat) : Prop :=
  (∃ item ∈ db.backfillItems, item.tree = tree ∧ item.seq = seq) ∨
    ∃ leafIdx, (db.clAuditsV2.lookup (tree, leafIdx, seq)).isSome

/-- The asset has a sequence number from the event on, or 0 as decompressed. -/
def Applied (db : Db) (id : Pubkey) (seq : Nat) : Prop :=
  ∃ n, (db.assetOrDefault id).seq = some n ∧ (n = 0 ∨ seq ≤ n)

/-- Only events whose effects have been applied are recorded. -/
def Sound [Programs] (history : Set Event) (db : Db) : Prop :=
  ∀ event ∈ history, ∀ cl id, event.Writes cl id → Recorded db cl.id cl.seq → Applied db id cl.seq

/-- The path is written and one of the two insertions after it succeeds. -/
def HandlerRun.Records (run : HandlerRun) (cl : ChangeLogEvent) : Prop :=
  (∀ i < cl.path.length, run.fails i = false) ∧
    (run.fails cl.path.length = false ∨ run.fails (cl.path.length + 1) = false)

/-- The handler gets to its transaction, which is not one that refuses the leaf
schema, and the transaction is committed. -/
def HandlerRun.Commits [Programs] (run : HandlerRun) (cl : ChangeLogEvent) : Prop :=
  (∀ i < cl.path.length, run.fails i = false) ∧ run.fails (cl.path.length + 1) = false ∧
    run.aborts = false ∧ run.event.plan.inTransaction.toOption.isSome

/-- A run that records its event also commits, or finds it applied. -/
def HandlerRun.Safe [Programs] (db : Db) (run : HandlerRun) : Prop :=
  ∀ cl id, run.event.Writes cl id → run.Records cl → run.Commits cl ∨ Applied db id cl.seq

section ChangeLog
variable [Programs] {fails : Nat → Bool}

/-- The rows of the path are no part of what is recorded, nor of the asset. -/
theorem execOnConnection_items (tree : Pubkey) (items : List (Nat × ClItemRow)) (i : Nat) (db : Db)
    (rest : List Statement) :
    ∃ between : Db, between.asset = db.asset ∧ between.backfillItems = db.backfillItems ∧
      between.clAuditsV2 = db.clAuditsV2 ∧
      execOnConnection fails i db (items.map (fun entry => .clItem tree entry.1 entry.2) ++ rest) =
        if ∀ j < items.length, fails (i + j) = false then execOnConnection fails (i + items.length) between rest
        else (between, false) := by
  induction items generalizing i db with
  | nil => exact ⟨db, rfl, rfl, rfl, by simp⟩
  | cons entry later ih =>
    have first : execOnConnection fails i db
        ((entry :: later).map (fun entry => .clItem tree entry.1 entry.2) ++ rest) =
        if fails i then (db, false)
        else execOnConnection fails (i + 1) (upsertClItem db tree entry.1 entry.2)
          (later.map (fun entry => .clItem tree entry.1 entry.2) ++ rest) := rfl
    rw [first]
    by_cases failed : fails i = true
    · refine ⟨db, rfl, rfl, rfl, ?_⟩
      rw [if_pos failed, if_neg]
      intro succeed
      have here := succeed 0 (by simp)
      rw [Nat.add_zero, failed] at here
      cases here
    · obtain ⟨between, asset, backfill, audits, executed⟩ := ih (i + 1) (upsertClItem db tree entry.1 entry.2)
      refine ⟨between, asset, backfill, audits, ?_⟩
      have split : (∀ j < later.length, fails (i + 1 + j) = false) ↔
          ∀ j < later.length + 1, fails (i + j) = false := by
        constructor
        · intro succeed j small
          cases j with
          | zero => simpa using failed
          | succ j =>
            have next := succeed j (by omega)
            rwa [Nat.add_assoc, Nat.add_comm 1 j] at next
        · intro succeed j small
          have next := succeed (j + 1) (by omega)
          rwa [Nat.add_assoc, Nat.add_comm 1 j]
      rw [if_neg failed, executed, List.length_cons, Nat.add_assoc, Nat.add_comm 1 later.length]
      exact if_congr split rfl rfl

omit [Programs] in
theorem recorded_audit (db : Db) (tree : Pubkey) (leafIdx seq : Nat) (audit : ClAuditRow) (key : Pubkey) (n : Nat) :
    Recorded (insertClAudit db tree leafIdx seq audit) key n ↔ Recorded db key n ∨ (key = tree ∧ n = seq) := by
  have lookups : (∃ j, ((insertClAudit db tree leafIdx seq audit).clAuditsV2.lookup (key, j, n)).isSome) ↔
      (∃ j, (db.clAuditsV2.lookup (key, j, n)).isSome) ∨ (key = tree ∧ n = seq) := by
    constructor
    · rintro ⟨j, present⟩
      by_cases same : (key, j, n) = (tree, leafIdx, seq)
      · obtain ⟨sameTree, rest⟩ := Prod.mk.inj same
        exact Or.inr ⟨sameTree, (Prod.mk.inj rest).2⟩
      · rw [insertClAudit, Table.lookup_upsert_ne _ same] at present
        exact Or.inl ⟨j, present⟩
    · rintro (⟨j, present⟩ | ⟨sameTree, sameSeq⟩)
      · refine ⟨j, ?_⟩
        rw [insertClAudit, Table.lookup_upsert]
        split
        · rfl
        · exact present
      · refine ⟨leafIdx, ?_⟩
        rw [sameTree, sameSeq, insertClAudit, Table.lookup_upsert_self]
        rfl
  exact (or_congr Iff.rfl lookups).trans or_assoc.symm

omit [Programs] in
theorem recorded_backfill (db : Db) (tree : Pubkey) (seq slot : Nat) (key : Pubkey) (n : Nat) :
    Recorded (insertBackfillItem db tree seq slot) key n ↔ Recorded db key n ∨ (key = tree ∧ n = seq) := by
  have rows : (∃ item ∈ (insertBackfillItem db tree seq slot).backfillItems, item.tree = key ∧ item.seq = n) ↔
      (∃ item ∈ db.backfillItems, item.tree = key ∧ item.seq = n) ∨ (key = tree ∧ n = seq) := by
    simp only [insertBackfillItem, List.mem_append, List.mem_singleton]
    constructor
    · rintro ⟨item, old | new, sameTree, sameSeq⟩
      · exact Or.inl ⟨item, old, sameTree, sameSeq⟩
      · subst new
        exact Or.inr ⟨sameTree.symm, sameSeq.symm⟩
    · rintro (⟨item, old, sameTree, sameSeq⟩ | ⟨sameTree, sameSeq⟩)
      · exact ⟨item, Or.inl old, sameTree, sameSeq⟩
      · exact ⟨_, Or.inr rfl, sameTree.symm, sameSeq.symm⟩
  exact (or_congr rows Iff.rfl).trans or_right_comm

omit [Programs] in
theorem recorded_congr {db other : Db} (backfill : other.backfillItems = db.backfillItems)
    (audits : other.clAuditsV2 = db.clAuditsV2) (tree : Pubkey) (seq : Nat) :
    Recorded other tree seq ↔ Recorded db tree seq := by
  rw [Recorded, Recorded, backfill, audits]

/-- The insertions after the path. Only the second one stops the handler. -/
theorem execOnConnection_records (i : Nat) (db : Db) (tree : Pubkey) (leafIdx seq slot : Nat) (audit : ClAuditRow) :
    ∃ after, after.asset = db.asset ∧
      (∀ key n, Recorded after key n ↔ Recorded db key n ∨
        ((key = tree ∧ n = seq) ∧ (fails i = false ∨ fails (i + 1) = false))) ∧
      execOnConnection fails i db [.clAudit tree leafIdx seq audit, .backfillItem tree seq slot] =
        (after, !fails (i + 1)) := by
  cases auditFails : fails i with
  | true =>
    cases backfillFails : fails (i + 1) with
    | true =>
      refine ⟨db, rfl, fun key n => by simp, ?_⟩
      simp [execOnConnection, auditFails, backfillFails]
    | false =>
      refine ⟨insertBackfillItem db tree seq slot, rfl, fun key n => ?_, ?_⟩
      · rw [recorded_backfill]
        simp
      · simp [execOnConnection, auditFails, backfillFails, Statement.exec]
  | false =>
    cases backfillFails : fails (i + 1) with
    | true =>
      refine ⟨insertClAudit db tree leafIdx seq audit, rfl, fun key n => ?_, ?_⟩
      · rw [recorded_audit]
        simp
      · simp [execOnConnection, auditFails, backfillFails, Statement.exec]
    | false =>
      refine ⟨insertBackfillItem (insertClAudit db tree leafIdx seq audit) tree seq slot, rfl, fun key n => ?_, ?_⟩
      · rw [recorded_backfill, recorded_audit, or_assoc, or_self]
        simp
      · simp [execOnConnection, auditFails, backfillFails, Statement.exec]

/-- What `insert_change_log` leaves behind, and whether the handler goes on. -/
theorem saveChangelogEvent_exec (db : Db) (cl : ChangeLogEvent) (bundle : InstructionBundle) (instruction : String) :
    ∃ after, after.asset = db.asset ∧
      (∀ tree seq, Recorded after tree seq ↔ Recorded db tree seq ∨ ((tree = cl.id ∧ seq = cl.seq) ∧
        (∀ i < cl.path.length, fails i = false) ∧
        (fails cl.path.length = false ∨ fails (cl.path.length + 1) = false))) ∧
      ∃ finished, execOnConnection fails 0 db (saveChangelogEvent cl bundle instruction) = (after, finished) ∧
        (finished = true ↔ (∀ i < cl.path.length, fails i = false) ∧ fails (cl.path.length + 1) = false) := by
  have length : (pathItems cl).length = cl.path.length := by simp [pathItems]
  obtain ⟨written, asset, backfill, audits, executed⟩ := @execOnConnection_items _ fails cl.id (pathItems cl) 0 db
    [.clAudit cl.id cl.index cl.seq { tx := bundle.txnId, instruction := instructionFrom instruction },
      .backfillItem cl.id cl.seq bundle.slot]
  have logged := recorded_congr backfill audits
  have changeLog : execOnConnection fails 0 db (saveChangelogEvent cl bundle instruction) = _ := executed
  rw [changeLog, length]
  simp only [Nat.zero_add]
  by_cases path : ∀ i < cl.path.length, fails i = false
  · obtain ⟨after, sameAsset, recorded, inserted⟩ := @execOnConnection_records _ fails cl.path.length written cl.id
      cl.index cl.seq bundle.slot { tx := bundle.txnId, instruction := instructionFrom instruction }
    refine ⟨after, sameAsset.trans asset, fun tree seq => ?_, _, (if_pos path).trans inserted, ?_⟩
    · rw [recorded, logged, and_iff_right path]
    · rw [and_iff_right path, Bool.not_eq_true']
  · refine ⟨written, asset, fun tree seq => ?_, _, if_neg path, ?_⟩
    · rw [logged]
      exact ⟨Or.inl, fun recorded => recorded.resolve_right (fun inserted => path inserted.2.1)⟩
    · exact ⟨fun never => absurd never Bool.false_ne_true, fun finished => absurd finished.1 path⟩

end ChangeLog

section Transaction
variable [Programs] {event : Event} {cl : ChangeLogEvent}

omit [Programs] in
/-- Nothing takes an applied event back. -/
theorem Applied.forward {db later : Db} {id : Pubkey} {seq : Nat} (forward : db.Forward later id)
    (applied : Applied db id seq) : Applied later id seq := by
  obtain ⟨n, stored, reached⟩ := applied
  obtain ⟨m, storedLater, change⟩ := forward.seq n stored
  exact ⟨m, storedLater, by omega⟩

theorem Applied.statements {db : Db} {id : Pubkey} {seq : Nat} (applied : Applied db id seq)
    (statements : List Statement) : Applied (statements.foldl Statement.exec db) id seq :=
  applied.forward (Db.Forward.foldl (fun db s => exec_forward db id s) db statements)

theorem Applied.assetSeq (db : Db) (id : Pubkey) (seq : Nat) :
    Applied ((Statement.assetSeq id seq).exec db) id seq := by
  by_cases decompressed : (db.assetOrDefault id).seq = some 0
  · exact Applied.forward (exec_forward db id _) ⟨0, decompressed, Or.inl rfl⟩
  · have put := @Statement.exec_seq_put _ db id seq decompressed
    refine ⟨_, put, ?_⟩
    cases (db.assetOrDefault id).seq with
    | none => exact Or.inr le_rfl
    | some n =>
      simp only [newer, id_eq]
      split
      · exact Or.inr (by omega)
      · exact Or.inr le_rfl

theorem Applied.of_mem {id : Pubkey} {seq : Nat} {statements : List Statement}
    (member : .assetSeq id seq ∈ statements) (db : Db) : Applied (statements.foldl Statement.exec db) id seq := by
  obtain ⟨before, after, split⟩ := List.append_of_mem member
  rw [split, List.foldl_append, List.foldl_cons]
  exact (Applied.assetSeq _ id seq).statements after

/-- The transaction leaves the tables of the change log alone. -/
theorem Plan.Indexes.body_recorded (indexes : event.plan.Indexes event cl) (db : Db) (tree : Pubkey) (seq : Nat) :
    Recorded (event.plan.body.foldl Statement.exec db) tree seq ↔ Recorded db tree seq := by
  have tables : (event.plan.body.foldl Statement.exec db).backfillItems = db.backfillItems ∧
      (event.plan.body.foldl Statement.exec db).clAuditsV2 = db.clAuditsV2 := by
    refine @foldl_invariant _ _ Statement.exec
      (fun state => state.backfillItems = db.backfillItems ∧ state.clAuditsV2 = db.clAuditsV2)
      (Statement.OfEvent event) ?_ _ indexes.ofEvent _ ⟨rfl, rfl⟩
    intro state s ofEvent same
    cases s with
    | clItem | clAudit | backfillItem => exact ofEvent.elim
    | _ => exact same
  exact recorded_congr tables.1 tables.2 tree seq

/-- The rows of `asset` that a transaction upserts. -/
def Plan.assetKeys (plan : Plan) : List Pubkey := plan.body.filterMap Statement.assetKey

/-- A transaction upserts no row of another asset, and moves the sequence number of
its asset when it is not refused. -/
theorem Event.plan_asset (event : Event) : event.plan.onConnection = [] ∨
    ∃ cl id, event.parsingResult.treeUpdate = some cl ∧ event.assetId = some id ∧
      (∀ key ∈ event.plan.assetKeys, key = id) ∧
      (event.plan.inTransaction.toOption.isSome → .assetSeq id cl.seq ∈ event.plan.body) := by
  unfold Event.plan Event.assetId
  cases handler : event.handler with
  | none => exact Or.inl rfl
  | some h =>
    cases h with
    | transfer | delegate =>
      simp only [transfer, delegationFreezingNontransferability, leafAndOwner]
      split
      · rename_i le cl leafUpdate treeUpdate
        exact Or.inr ⟨cl, _, treeUpdate, by rw [leafUpdate]; rfl,
          by simp [Plan.assetKeys, Plan.body, Statement.assetKey], fun _ => by simp [Plan.body]⟩
      · exact Or.inl rfl
    | mint =>
      simp only [mint]
      split
      · rename_i le cl metadata authority treeId leafUpdate treeUpdate payload
        exact Or.inr ⟨cl, _, treeUpdate, by rw [leafUpdate]; rfl,
          by simp [Plan.assetKeys, Plan.body, Statement.assetKey], fun _ => by simp [Plan.body]⟩
      · exact Or.inl rfl
    | updateMetadata =>
      simp only [updateMetadata]
      split
      · rename_i le cl currentMetadata updateArgs treeId leafUpdate treeUpdate payload
        exact Or.inr ⟨cl, _, treeUpdate, by rw [leafUpdate]; rfl,
          by simp [Plan.assetKeys, Plan.body, Statement.assetKey], fun _ => by simp [Plan.body]⟩
      · exact Or.inl rfl
    | redeem =>
      simp only [redeem]
      split
      · rename_i cl treeUpdate
        exact Or.inr ⟨cl, _, treeUpdate, by rw [treeUpdate]; rfl,
          by simp [Plan.assetKeys, Plan.body, Statement.assetKey], fun _ => by simp [Plan.body]⟩
      · exact Or.inl rfl
    | cancelRedeem =>
      simp only [cancelRedeem]
      split
      · rename_i le cl leafUpdate treeUpdate
        refine Or.inr ⟨cl, _, treeUpdate, by rw [leafUpdate]; rfl, ?_⟩
        cases schema : le.schema with
        | v1 =>
          exact ⟨by simp [Plan.assetKeys, Plan.body, Statement.assetKey, NormalizedLeafFields.from, schema],
            fun _ => by simp [Plan.body, NormalizedLeafFields.from, schema]⟩
        | v2 =>
          refine ⟨List.forall_mem_nil _, fun refused => ?_⟩
          cases refused
      · exact Or.inl rfl
    | creatorVerification =>
      simp only [creatorVerification]
      split
      · rename_i le cl metadata creator verify leafUpdate treeUpdate payload
        exact Or.inr ⟨cl, _, treeUpdate, by rw [leafUpdate]; rfl,
          by simp [Plan.assetKeys, Plan.body, Statement.assetKey], fun _ => by simp [Plan.body]⟩
      · exact Or.inl rfl
    | collectionVerification =>
      simp only [collectionVerification]
      split
      · rename_i le cl collection verify leafUpdate treeUpdate payload
        exact Or.inr ⟨cl, _, treeUpdate, by rw [leafUpdate]; rfl,
          by simp [Plan.assetKeys, Plan.body, Statement.assetKey], fun _ => by simp [Plan.body]⟩
      · exact Or.inl rfl
    | burn =>
      simp only [burn]
      split
      · rename_i cl treeUpdate
        exact Or.inr ⟨cl, _, treeUpdate, by rw [treeUpdate]; rfl,
          by simp [Plan.assetKeys, Plan.body, Statement.assetKey], fun _ => by simp [Plan.body]⟩
      · exact Or.inl rfl

theorem Plan.Indexes.connected (indexes : event.plan.Indexes event cl) : event.plan.onConnection ≠ [] := by
  rw [indexes.changeLog, saveChangelogEvent, insertChangeLog]
  simp

theorem Event.Writes.assetSeq {id : Pubkey} (writes : event.Writes cl id)
    (accepted : event.plan.inTransaction.toOption.isSome) : .assetSeq id cl.seq ∈ event.plan.body := by
  rcases event.plan_asset with idle | ⟨cl', id', treeUpdate, asset, -, member⟩
  · exact absurd idle writes.indexes.connected
  · have sameLog : cl' = cl := Option.some_inj.mp (treeUpdate.symm.trans writes.indexes.update)
    have sameAsset : id' = id := Option.some_inj.mp (asset.symm.trans writes.asset)
    rw [← sameLog, ← sameAsset]
    exact member accepted

omit [Programs] in
theorem Plan.body_refused {plan : Plan} (refused : ¬ plan.inTransaction.toOption.isSome) : plan.body = [] := by
  rw [Plan.body]
  cases result : plan.inTransaction with
  | error problem => rfl
  | ok body =>
    rw [result] at refused
    exact absurd rfl refused

end Transaction

section Step
variable [Programs] {db : Db} {run : HandlerRun} {cl : ChangeLogEvent} {id : Pubkey}

theorem HandlerRun.exec_idle (idle : run.event.plan.statements = []) : run.exec db = db := by
  obtain ⟨onConnection, body⟩ := List.append_eq_nil_iff.mp idle
  rw [HandlerRun.exec, onConnection, body]
  exact ite_self db

/-- What a run does to the tables of the change log and to the asset. -/
theorem HandlerRun.exec_writes (db : Db) (writes : run.event.Writes cl id) :
    (∀ tree seq, Recorded (run.exec db) tree seq ↔
      Recorded db tree seq ∨ ((tree = cl.id ∧ seq = cl.seq) ∧ run.Records cl)) ∧
    (∀ other seq, Applied db other seq → Applied (run.exec db) other seq) ∧
    (run.Commits cl → Applied (run.exec db) id cl.seq) ∧
    (¬ run.Commits cl → (run.exec db).asset = db.asset) := by
  obtain ⟨after, asset, recorded, finished, executed, finishes⟩ := @saveChangelogEvent_exec _ run.fails db cl
    run.event.bundle run.event.parsingResult.instruction.ixStr
  have applied : ∀ other seq, Applied db other seq → Applied after other seq := by
    intro other seq before
    rwa [Applied, Db.assetOrDefault_congr asset]
  have ran : run.exec db =
      if finished && !run.aborts then run.event.plan.body.foldl Statement.exec after else after := by
    rw [HandlerRun.exec, writes.indexes.changeLog, executed]
  rw [ran]
  by_cases reached : (finished && !run.aborts) = true
  · rw [if_pos reached]
    simp only [Bool.and_eq_true, Bool.not_eq_true', finishes] at reached
    obtain ⟨⟨path, backfill⟩, committed⟩ := reached
    refine ⟨fun tree seq => (writes.indexes.body_recorded after tree seq).trans (recorded tree seq),
      fun other seq before => (applied other seq before).statements _, fun commits => ?_, fun rolledBack => ?_⟩
    · exact Applied.of_mem (writes.assetSeq commits.2.2.2) after
    · have refused : run.event.plan.body = [] :=
        Plan.body_refused (fun accepted => rolledBack ⟨path, backfill, committed, accepted⟩)
      rw [refused]
      exact asset
  · rw [if_neg reached]
    refine ⟨recorded, applied, fun commits => ?_, fun _ => asset⟩
    obtain ⟨path, backfill, committed, -⟩ := commits
    simp [finishes.mpr ⟨path, backfill⟩, committed] at reached

/-- A run keeps the tables sound exactly when it is safe. -/
theorem Sound.exec_iff {history : Set Event}
    (oneAsset : ∀ e ∈ history, ∀ e' ∈ history, ∀ cl id cl' id', e.Writes cl id → e'.Writes cl' id' →
      cl.id = cl'.id → cl.seq = cl'.seq → id = id')
    (sound : Sound history db) (happened : run.event ∈ history) :
    Sound history (run.exec db) ↔ run.Safe db := by
  rcases run.event.plan_cases with idle | ⟨cl, indexes⟩
  · rw [HandlerRun.exec_idle idle]
    refine ⟨fun _ cl id writes => ?_, fun _ => sound⟩
    exact absurd (List.append_eq_nil_iff.mp idle).1 writes.indexes.connected
  · obtain ⟨id, asset⟩ : ∃ id, run.event.assetId = some id := by
      rcases run.event.plan_asset with idle | ⟨_, id, -, asset, -⟩
      · exact absurd idle indexes.connected
      · exact ⟨id, asset⟩
    have writes : run.event.Writes cl id := ⟨indexes, asset⟩
    obtain ⟨recorded, kept, commits, rolledBack⟩ := run.exec_writes db writes
    constructor
    · intro soundAfter cl' id' writes' records
      have sameLog : cl' = cl := Option.some_inj.mp (writes'.indexes.update.symm.trans indexes.update)
      subst sameLog
      have applied := soundAfter run.event happened cl' id' writes' ((recorded _ _).mpr (Or.inr ⟨⟨rfl, rfl⟩, records⟩))
      by_cases committed : run.Commits cl'
      · exact Or.inl committed
      · rw [Applied, Db.assetOrDefault_congr (rolledBack committed)] at applied
        exact Or.inr applied
    · intro safe event inHistory cl' id' writes' inTables
      rcases (recorded _ _).mp inTables with before | ⟨⟨sameTree, sameSeq⟩, records⟩
      · exact kept id' cl'.seq (sound event inHistory cl' id' writes' before)
      · have sameAsset := oneAsset event inHistory run.event happened cl' id' cl id writes' writes sameTree sameSeq
        rw [sameAsset, sameSeq]
        rcases safe cl id writes records with committed | applied
        · exact commits committed
        · exact kept id cl.seq applied

end Step

/-- The sequence numbers that the search for gaps sees stand for applied events
all along a run exactly when no handler stops after it recorded its event and
before it applied it. -/
theorem recorded_applied_iff [Programs] (history : Set Event)
    (oneAsset : ∀ e ∈ history, ∀ e' ∈ history, ∀ cl id cl' id', e.Writes cl id → e'.Writes cl' id' →
      cl.id = cl'.id → cl.seq = cl'.seq → id = id')
    (db : Db) (sound : Sound history db) (runs : List HandlerRun) (happened : ∀ run ∈ runs, run.event ∈ history) :
    (∀ earlier, earlier <+: runs → Sound history (ingestRuns db earlier)) ↔
      ∀ earlier run, earlier ++ [run] <+: runs → run.Safe (ingestRuns db earlier) := by
  refine @Runs.holds_iff_allowed _ _ HandlerRun.exec (fun _ state => Sound history state)
    (fun state run => run.Safe state) db runs sound (fun earlier run begins soundBefore => ?_)
  have member : run ∈ runs := begins.subset (List.mem_append_right _ List.mem_cons_self)
  exact Sound.exec_iff oneAsset soundBefore (happened run member)

namespace Example

def minted : Event := mint 1 10 (.fill 2) oneCreator none

/-- The transaction of the handler is rolled back. -/
def rolledBack : HandlerRun where
  event := minted
  fails _ := false
  aborts := true

/-- The first node of the path is not written; the event is delivered again. -/
def retried : List HandlerRun :=
  [{ event := minted, fails := fun i => i == 0, aborts := false },
    { event := minted, fails := fun _ => false, aborts := false }]

theorem minted_writes {cl : ChangeLogEvent} {id : Pubkey} (writes : minted.Writes cl id) :
    cl = changeLog 1 ∧ id = asset := by
  have sameLog := writes.indexes.update
  have sameAsset := writes.asset
  exact ⟨(Option.some_inj.mp sameLog).symm, (Option.some_inj.mp sameAsset).symm⟩

theorem writes_minted : minted.Writes (changeLog 1) asset := by
  rcases minted.plan_cases with idle | ⟨cl, indexes⟩
  · exact absurd idle (List.cons_ne_nil _ _)
  · have sameLog : cl = changeLog 1 := (Option.some_inj.mp indexes.update).symm
    subst sameLog
    exact ⟨indexes, rfl⟩

theorem unrecorded : Sound {minted} {} := by
  intro event happened cl id writes recorded
  rcases recorded with ⟨item, member, -⟩ | ⟨leafIdx, present⟩
  · exact absurd member List.not_mem_nil
  · cases present

end Example

theorem recorded_applied_after_retry :
    Sound {Example.minted} {} ∧
      ∀ earlier, earlier <+: Example.retried → Sound {Example.minted} (ingestRuns {} earlier) := by
  have oneAsset : ∀ e ∈ ({Example.minted} : Set Event), ∀ e' ∈ ({Example.minted} : Set Event), ∀ cl id cl' id',
      e.Writes cl id → e'.Writes cl' id' → cl.id = cl'.id → cl.seq = cl'.seq → id = id' := by
    rintro e rfl e' rfl cl id cl' id' writes writes' - -
    rw [(Example.minted_writes writes).2, (Example.minted_writes writes').2]
  have happened : ∀ run ∈ Example.retried, run.event ∈ ({Example.minted} : Set Event) := by
    intro run member
    simp only [Example.retried, List.mem_cons, List.not_mem_nil, or_false] at member
    rcases member with first | second
    · rw [first]
      rfl
    · rw [second]
      rfl
  refine ⟨Example.unrecorded, (recorded_applied_iff _ oneAsset {} Example.unrecorded Example.retried happened).mpr
    (fun earlier run begins cl id writes records => ?_)⟩
  have member : run ∈ Example.retried := begins.subset (List.mem_append_right _ List.mem_cons_self)
  simp only [Example.retried, List.mem_cons, List.not_mem_nil, or_false] at member
  rcases member with first | second
  · subst first
    have sameLog := (Example.minted_writes writes).1
    subst sameLog
    have written := records.1 0 (by decide)
    cases written
  · subst second
    exact Or.inl ⟨fun _ _ => rfl, rfl, rfl, rfl⟩

theorem recorded_not_applied : ¬ Sound {Example.minted} (ingestRuns {} [Example.rolledBack]) := by
  intro sound
  have recorded : Recorded (ingestRuns {} [Example.rolledBack]) (.fill 8) 1 := by
    refine Or.inl ⟨{
      tree := .fill 8, seq := 1, slot := 10, forceChk := false, backfilled := false, failed := false }, ?_,
      rfl, rfl⟩
    exact List.mem_cons_self
  obtain ⟨n, stored, -⟩ := sound Example.minted rfl _ _ Example.writes_minted recorded
  cases stored

end DasIndexer.Bubblegum
