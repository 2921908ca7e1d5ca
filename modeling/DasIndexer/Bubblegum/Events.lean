import DasIndexer.Bubblegum.Tables

namespace DasIndexer.Bubblegum
open Sql Latest

inductive SchemaVersion where
  | v1
  | v2
  deriving DecidableEq, Repr

def LeafSchema.version : LeafSchema → SchemaVersion
  | .v1 .. => .v1
  | .v2 .. => .v2

/-- The sequence number of an event; on chain they start at 1. -/
def Event.seq (event : Event) : Nat := (event.parsingResult.treeUpdate.map ChangeLogEvent.seq).getD 0

/-- Redeeming exists for the first leaf schema only. -/
def Event.OfVersion (version : SchemaVersion) (event : Event) : Prop :=
  (∀ le, event.parsingResult.leafUpdate = some le → le.schema.version = version) ∧
    (event.handler = some .redeem → version = .v1)

inductive Kind where
  | clItem
  | clAudit
  | backfillItem
  | leafInfo
  | ownerInfo
  | compressionInfo
  | assetSeq
  | collectionInfo
  | assetData
  | baseInfo
  | creators
  | authority
  | burnt
  deriving DecidableEq

def Statement.kind : Statement → Kind
  | .clItem .. => .clItem
  | .clAudit .. => .clAudit
  | .backfillItem .. => .backfillItem
  | .leafInfo .. => .leafInfo
  | .ownerInfo .. => .ownerInfo
  | .compressionInfo .. => .compressionInfo
  | .assetSeq .. => .assetSeq
  | .collectionInfo .. => .collectionInfo
  | .assetData .. => .assetData
  | .baseInfo .. => .baseInfo
  | .creators .. => .creators
  | .authority .. => .authority
  | .burnt .. => .burnt

/-- What the statements inside a transaction share with the event they come
from. -/
def Statement.OfEvent [Programs] (event : Event) : Statement → Prop
  | .leafInfo _ info => info.seq = event.seq ∧
      ∀ version, event.OfVersion version → info.flags.isSome = decide (version = .v2)
  | .ownerInfo _ info => info.seq = event.seq
  | .compressionInfo _ info =>
      info = { compressed := true, compressible := false, supply := 1, supplyMint := none }
  | .assetSeq _ seq => seq = event.seq
  | .collectionInfo _ info => info.seq = event.seq ∧ info.slotUpdated = event.bundle.slot
  | .assetData _ info =>
      info.seq = event.seq ∧ info.slotUpdated = event.bundle.slot ∧ info.metadata = .str "processing"
  | .baseInfo _ info => info.seq = event.seq ∧ info.slotUpdated = event.bundle.slot
  | .creators _ info => info.seq = event.seq ∧ info.slotUpdated = event.bundle.slot
  | .authority _ _ => event.handler = some .mint
  | .burnt _ => event.handler = some .burn
  | .clItem .. | .clAudit .. | .backfillItem .. => False

/-- The plan of an event that is indexed: its change log, then a transaction
with at most one statement of each kind. -/
structure Plan.Indexes [Programs] (plan : Plan) (event : Event) (cl : ChangeLogEvent) : Prop where
  update : event.parsingResult.treeUpdate = some cl
  changeLog : plan.onConnection =
    saveChangelogEvent cl event.bundle event.parsingResult.instruction.ixStr
  kinds : (plan.body.map Statement.kind).Nodup
  ofEvent : ∀ s ∈ plan.body, s.OfEvent event

theorem NormalizedLeafFields.from_flags (schema : LeafSchema) :
    (NormalizedLeafFields.from schema).flags.isSome = decide (schema.version = .v2) := by
  cases schema <;> rfl

theorem Event.seq_of_treeUpdate {event : Event} {cl : ChangeLogEvent}
    (update : event.parsingResult.treeUpdate = some cl) : event.seq = cl.seq := by
  rw [Event.seq, update]
  rfl

theorem leafInfoOf_ofEvent [Programs] {event : Event} {le : LeafSchemaEvent} {seq : Nat}
    (leafUpdate : event.parsingResult.leafUpdate = some le) (same : seq = event.seq) (id : Pubkey)
    (nonce : Nat) (treeId : Pubkey) :
    Statement.OfEvent event
      (.leafInfo id (leafInfoOf (.from le.schema) le.leafHash nonce treeId seq)) := by
  refine ⟨same, fun version ofVersion => ?_⟩
  rw [← ofVersion.1 le leafUpdate]
  exact NormalizedLeafFields.from_flags le.schema

theorem Event.plan_cases [Programs] (event : Event) :
    event.plan.statements = [] ∨ ∃ cl, event.plan.Indexes event cl := by
  unfold Event.plan
  cases handler : event.handler with
  | none => exact Or.inl rfl
  | some h =>
    cases h with
    | transfer | delegate =>
      simp only [transfer, delegationFreezingNontransferability, leafAndOwner]
      split
      · rename_i le cl leafUpdate treeUpdate
        have seq := (Event.seq_of_treeUpdate treeUpdate).symm
        refine Or.inr ⟨cl, treeUpdate, rfl, by simp [Plan.body, Statement.kind], ?_⟩
        simp only [Plan.body, List.forall_mem_cons]
        exact ⟨leafInfoOf_ofEvent leafUpdate seq _ _ _, seq, seq, by simp⟩
      · exact Or.inl rfl
    | mint =>
      simp only [mint]
      split
      · rename_i le cl metadata authority treeId leafUpdate treeUpdate payload
        have seq := (Event.seq_of_treeUpdate treeUpdate).symm
        refine Or.inr ⟨cl, treeUpdate, rfl, by simp [Plan.body, Statement.kind], ?_⟩
        simp only [Plan.body, List.forall_mem_cons]
        exact ⟨⟨seq, rfl, rfl⟩, ⟨seq, rfl⟩, rfl, leafInfoOf_ofEvent leafUpdate seq _ _ _, seq, seq, ⟨seq, rfl⟩,
          handler, ⟨seq, rfl⟩, by simp⟩
      · exact Or.inl rfl
    | updateMetadata =>
      simp only [updateMetadata]
      split
      · rename_i le cl currentMetadata updateArgs treeId leafUpdate treeUpdate payload
        have seq := (Event.seq_of_treeUpdate treeUpdate).symm
        refine Or.inr ⟨cl, treeUpdate, rfl, by simp [Plan.body, Statement.kind], ?_⟩
        simp only [Plan.body, List.forall_mem_cons]
        exact ⟨⟨seq, rfl, rfl⟩, ⟨seq, rfl⟩, leafInfoOf_ofEvent leafUpdate seq _ _ _, seq, ⟨seq, rfl⟩, by simp⟩
      · exact Or.inl rfl
    | redeem =>
      simp only [redeem]
      split
      · rename_i cl treeUpdate
        have seq := (Event.seq_of_treeUpdate treeUpdate).symm
        refine Or.inr ⟨cl, treeUpdate, rfl, by simp [Plan.body, Statement.kind], ?_⟩
        simp only [Plan.body, List.forall_mem_cons]
        exact ⟨⟨seq, fun version ofVersion => by rw [ofVersion.2 handler]; rfl⟩, seq, by simp⟩
      · exact Or.inl rfl
    | cancelRedeem =>
      simp only [cancelRedeem]
      split
      · rename_i le cl leafUpdate treeUpdate
        have seq := (Event.seq_of_treeUpdate treeUpdate).symm
        refine Or.inr ⟨cl, ?_⟩
        cases schema : le.schema with
        | v1 =>
          refine ⟨treeUpdate, rfl, by simp [Plan.body, Statement.kind], ?_⟩
          simp only [Plan.body, List.forall_mem_cons]
          refine ⟨⟨seq, fun version ofVersion => ?_⟩, seq, seq, by simp⟩
          rw [← ofVersion.1 le leafUpdate, schema]
          rfl
        | v2 => exact ⟨treeUpdate, rfl, by simp [Plan.body], by simp [Plan.body]⟩
      · exact Or.inl rfl
    | creatorVerification =>
      simp only [creatorVerification]
      split
      · rename_i le cl metadata creator verify leafUpdate treeUpdate payload
        have seq := (Event.seq_of_treeUpdate treeUpdate).symm
        refine Or.inr ⟨cl, treeUpdate, rfl, by simp [Plan.body, Statement.kind], ?_⟩
        simp only [Plan.body, List.forall_mem_cons]
        exact ⟨leafInfoOf_ofEvent leafUpdate seq _ _ _, seq, seq, ⟨seq, rfl⟩, by simp⟩
      · exact Or.inl rfl
    | collectionVerification =>
      simp only [collectionVerification]
      split
      · rename_i le cl collection verify leafUpdate treeUpdate payload
        have seq := (Event.seq_of_treeUpdate treeUpdate).symm
        refine Or.inr ⟨cl, treeUpdate, rfl, by simp [Plan.body, Statement.kind], ?_⟩
        simp only [Plan.body, List.forall_mem_cons]
        exact ⟨leafInfoOf_ofEvent leafUpdate seq _ _ _, seq, ⟨seq, rfl⟩, by simp⟩
      · exact Or.inl rfl
    | burn =>
      simp only [burn]
      split
      · rename_i cl treeUpdate
        have seq := (Event.seq_of_treeUpdate treeUpdate).symm
        refine Or.inr ⟨cl, treeUpdate, rfl, by simp [Plan.body, Statement.kind], ?_⟩
        simp only [Plan.body, List.forall_mem_cons]
        exact ⟨handler, seq, by simp⟩
      · exact Or.inl rfl

/-- A statement of an event belongs to its change log or to its transaction. -/
theorem Event.mem_statements [Programs] {event : Event} {s : Statement} (member : s ∈ event.statements) :
    ∃ cl, event.plan.Indexes event cl ∧
      (s ∈ saveChangelogEvent cl event.bundle event.parsingResult.instruction.ixStr ∨ s ∈ event.plan.body) := by
  unfold Event.statements at member
  rcases event.plan_cases with idle | ⟨cl, indexes⟩
  · rw [idle] at member
    cases member
  · rw [Plan.statements, indexes.changeLog, List.mem_append] at member
    exact ⟨cl, indexes, member⟩

def Statement.version : Statement → Option Nat
  | .clItem _ _ item => some item.seq
  | .clAudit _ _ seq _ | .assetSeq _ seq => some seq
  | .leafInfo _ info => some info.seq
  | .ownerInfo _ info => some info.seq
  | .collectionInfo _ info => some info.seq
  | .assetData _ info => some info.seq
  | .baseInfo _ info => some info.seq
  | .creators _ info => some info.seq
  | .backfillItem .. | .compressionInfo .. | .authority .. | .burnt .. => none

theorem mem_saveChangelogEvent {cl : ChangeLogEvent} {bundle : InstructionBundle} {instruction : String}
    {s : Statement} (member : s ∈ saveChangelogEvent cl bundle instruction) :
    (∃ entry ∈ pathItems cl, s = .clItem cl.id entry.1 entry.2) ∨
      s = .clAudit cl.id cl.index cl.seq { tx := bundle.txnId, instruction := instructionFrom instruction } ∨
      s = .backfillItem cl.id cl.seq bundle.slot := by
  simp only [saveChangelogEvent, insertChangeLog, List.mem_append, List.mem_map, List.mem_cons,
    List.not_mem_nil, or_false] at member
  rcases member with ⟨entry, inPath, rfl⟩ | audit | backfill
  · exact Or.inl ⟨entry, inPath, rfl⟩
  · exact Or.inr (Or.inl audit)
  · exact Or.inr (Or.inr backfill)

theorem pathItems_seq {cl : ChangeLogEvent} {entry : Nat × ClItemRow} (member : entry ∈ pathItems cl) :
    entry.2.seq = cl.seq := by
  obtain ⟨⟨p, i⟩, -, rfl⟩ := List.mem_map.mp member
  rfl

/-- Every versioned statement of an event carries the event's sequence number. -/
theorem Event.version_eq [Programs] {event : Event} {s : Statement} {n : Nat}
    (member : s ∈ event.statements) (versioned : s.version = some n) : n = event.seq := by
  obtain ⟨cl, indexes, inLog | inBody⟩ := Event.mem_statements member
  · rw [Event.seq_of_treeUpdate indexes.update]
    rcases mem_saveChangelogEvent inLog with ⟨entry, inPath, rfl⟩ | rfl | rfl
    · cases versioned
      exact pathItems_seq inPath
    · cases versioned
      rfl
    · cases versioned
  · have ofEvent := indexes.ofEvent s inBody
    cases s with
    | clItem | clAudit | backfillItem => exact ofEvent.elim
    | compressionInfo | authority | burnt => cases versioned
    | leafInfo | collectionInfo | assetData | baseInfo | creators => cases versioned; exact ofEvent.1
    | ownerInfo | assetSeq => cases versioned; exact ofEvent

/-- Apart from the nodes of the path, an event has one statement of a kind. -/
theorem Event.statement_unique [Programs] {event : Event} {s t : Statement} (first : s ∈ event.statements)
    (second : t ∈ event.statements) (sameKind : s.kind = t.kind) (noItem : s.kind ≠ .clItem) : s = t := by
  obtain ⟨cl, indexes, firstPart⟩ := Event.mem_statements first
  obtain ⟨cl', indexes', secondPart⟩ := Event.mem_statements second
  have sameLog : cl' = cl := Option.some.inj (indexes'.update.symm.trans indexes.update)
  subst sameLog
  have logKind : ∀ {x : Statement}, x ∈ event.plan.body → x.kind ≠ .clAudit ∧ x.kind ≠ .backfillItem := by
    intro x inBody
    have ofEvent := indexes.ofEvent x inBody
    cases x <;> first | exact ofEvent.elim | exact ⟨by simp [Statement.kind], by simp [Statement.kind]⟩
  rcases firstPart with inLog | inBody <;> rcases secondPart with inLog' | inBody'
  · rcases mem_saveChangelogEvent inLog with ⟨entry, -, rfl⟩ | rfl | rfl
    · exact absurd rfl noItem
    · rcases mem_saveChangelogEvent inLog' with ⟨entry, -, rfl⟩ | rfl | rfl
      · cases sameKind
      · rfl
      · cases sameKind
    · rcases mem_saveChangelogEvent inLog' with ⟨entry, -, rfl⟩ | rfl | rfl
      · cases sameKind
      · cases sameKind
      · rfl
  · rcases mem_saveChangelogEvent inLog with ⟨entry, -, rfl⟩ | rfl | rfl
    · exact absurd rfl noItem
    · exact absurd sameKind.symm (logKind inBody').1
    · exact absurd sameKind.symm (logKind inBody').2
  · rcases mem_saveChangelogEvent inLog' with ⟨entry, -, rfl⟩ | rfl | rfl
    · exact absurd sameKind noItem
    · exact absurd sameKind (logKind inBody).1
    · exact absurd sameKind (logKind inBody).2
  · exact List.inj_on_of_nodup_map indexes.kinds inBody inBody' sameKind

namespace Example

/-- An asset in the only leaf of a tree of depth 0, for concrete histories. -/
def asset : Pubkey := .fill 7

def changeLog (seq : Nat) : ChangeLogEvent where
  id := .fill 8
  path := [{ node := .fill 9, index := 1 }]
  seq := seq
  index := 0
  rooted := by simp

def leafUpdate (owner : Pubkey) : LeafSchemaEvent where
  schema := .v1 asset owner owner 0 .zero .zero
  leafHash := .fill 9

def metadata (creators : CreatorList) (collection : Option Collection) : MetadataArgs where
  name := "example"
  symbol := "EX"
  uri := "https://example.com"
  sellerFeeBasisPoints := 500
  primarySaleHappened := false
  isMutable := true
  editionNonce := none
  uses := none
  collection := collection
  creators := creators

def mint (seq slot : Nat) (owner : Pubkey) (creators : CreatorList) (collection : Option Collection) :
    Event where
  parsingResult :=
    { instruction := .mintV1
      treeUpdate := some (changeLog seq)
      leafUpdate := some (leafUpdate owner)
      payload := some (.mint (metadata creators collection) owner (.fill 8)) }
  bundle := { txnId := [], slot := slot }

def oneCreator : CreatorList := ⟨[{ address := .fill 3, verified := false, share := 100 }], by simp⟩

def twoCreators : CreatorList :=
  ⟨[{ address := .fill 3, verified := false, share := 50 }, { address := .fill 4, verified := false, share := 50 }],
    by simp⟩

def verifyCreator (seq slot : Nat) (creators : CreatorList) (creator : Pubkey) : Event where
  parsingResult :=
    { instruction := .verifyCreator
      treeUpdate := some (changeLog seq)
      leafUpdate := some (leafUpdate (.fill 2))
      payload := some (.creatorVerification (metadata creators none) creator true) }
  bundle := { txnId := [], slot := slot }

def transfer (seq slot : Nat) (owner : Pubkey) : Event where
  parsingResult :=
    { instruction := .transfer
      treeUpdate := some (changeLog seq)
      leafUpdate := some (leafUpdate owner)
      payload := none }
  bundle := { txnId := [], slot := slot }

end Example

end DasIndexer.Bubblegum
