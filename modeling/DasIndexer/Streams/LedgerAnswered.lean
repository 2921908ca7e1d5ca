import DasIndexer.Api.IgnoredCursors
import DasIndexer.Api.LedgerHistories
import DasIndexer.Api.LedgerListings
import DasIndexer.Streams.LedgerShown

/-! The API over the tables of the ingester answers the ledger of the Bubblegum program. -/

namespace DasIndexer.Streams
open Blockbuster Bubblegum Sql Rpc

/-- When the transactions of the ledger are acknowledged, the endpoint for one asset answers it
as it is on the chain, and finds no others. -/
theorem ledger_answered [BubblegumCrates] [Programs] [PlerkleCrate] [Rpc.Crates] (selects : SelectsFields)
    (chain : Chain) (events : List Event) (l : Ledger) (ledger : Ledger.Run chain events l) (streams : List String)
    (acker : Bool) (actions : List Action) (s : Ingester)
    (run : Runs.Reaches Ingester.step (.empty streams acker) actions s) (same : ∀ e, e ∈ s.events ↔ e ∈ events)
    (acked : ∀ message ∈ s.published, message.events ≠ [] → (message.streamKey, message.id) ∈ s.acked)
    (createdAt : Pubkey → Option Int) (options : Option Options) (id : Pubkey) :
    (l.holdings id = none → requestAsset { toDb := s.db, createdAt } id.toBase58 options =
      .error (.databaseError (.recordNotFound "Asset Not Found"))) ∧
    ∀ h, l.holdings id = some h → ∃ asset, requestAsset { toDb := s.db, createdAt } id.toBase58 options = .ok asset ∧
      Answered chain id h false asset := by
  obtain ⟨trace, sound⟩ := (Ingester.sound_empty streams acker).reaches run
  have shown := sound.shown ledger.sound same acked
  constructor
  · intro absent
    have noRow := shown.absent id absent
    exact requestAsset_absent noRow options
  · intro h holds
    have holding := shown.holding id h holds
    exact holding.requested selects options

namespace Example

/-- The selection of a field of an object. -/
def selectField (value : Json) (path : String) : Option (List Json) :=
  match value with
  | .obj fields => some (((["name", "symbol", "token_standard", "primary_sale_happened", "edition_nonce"].find?
      (fun name => "$." ++ name = path)).bind (fun name => Json.field name fields)).toList)
  | _ => some []

@[reducible] def fieldCrates : Rpc.Crates := { Rpc.Crates.bare with select := selectField }

theorem fieldCrates_selects : @SelectsFields fieldCrates := by
  intro name listed fields value found
  show selectField (.obj fields) ("$." ++ name) = some [value]
  simp only [List.mem_cons, List.not_mem_nil, or_false] at listed
  rcases listed with isName | isSymbol | isSale
  · simp [selectField, isName ▸ found, isName]
  · simp [selectField, isSymbol ▸ found, isSymbol]
  · simp [selectField, isSale ▸ found, isSale]

end Example

theorem ledger_answered_moved :
    ∃ s, Runs.Reaches (@Ingester.step Example.mintCrates _ Example.ledgerPlerkle) (.empty ["TXN"] true) Example.shown s ∧
      ∃ asset, @requestAsset Example.fieldCrates { toDb := s.db } Example.key.toBase58 none = .ok asset ∧
        Answered Example.chain Example.key { Example.owned (.fill 2) with seq := 2 } false asset := by
  obtain ⟨s, run, published, acked⟩ := Example.shown_run
  refine ⟨s, run, ?_⟩
  refine (@ledger_answered Example.mintCrates _ Example.ledgerPlerkle Example.fieldCrates Example.fieldCrates_selects
    Example.chain _ _ Example.ledger_run ["TXN"] true _ s run (fun e => by rw [Example.events_eq published])
    (fun message member _ => ?_) (fun _ => none) none Example.key).2 _ Example.moved_holds
  exact Example.acked_all published acked message member

/-- Then following the cursors of a listing shows every asset that it asks for once. -/
theorem ledger_listed [BubblegumCrates] [Programs] [PlerkleCrate] [Rpc.Crates] [Postgres] (selects : SelectsFields)
    (chain : Chain) (events : List Event) (l : Ledger) (ledger : Ledger.Run chain events l) (streams : List String)
    (acker : Bool) (actions : List Action) (s : Ingester)
    (run : Runs.Reaches Ingester.step (.empty streams acker) actions s) (same : ∀ e, e ∈ s.events ↔ e ∈ events)
    (acked : ∀ message ∈ s.published, message.events ≠ [] → (message.streamKey, message.id) ∈ s.acked)
    (createdAt : Pubkey → Option Int) (options : Options) (limit : Nat) (positive : 0 < limit) (accepted : limit ≤ 1000)
    (sorting : Option AssetSortDirection) (listing : Listing) (noCreator : listing.requiredCreator = none) :
    ∃ answers, Paging.Enumerates (fun cursor => listing.request { toDb := s.db, createdAt }
        (Listing.fromCursor options limit sorting cursor)) AssetList.cursor none answers ∧
      ∃ ids : List Pubkey, ids.Pairwise (sortsBefore { toDb := s.db, createdAt } .id (Listing.directionOf sorting)) ∧
        (∀ id, id ∈ ids ↔ ∃ h, l.holdings id = some h ∧ listing.AsksFor options h) ∧
        answers.flatMap AssetList.errors = [] ∧
        List.Forall₂ (fun id item => ∃ h, l.holdings id = some h ∧
          Answered chain id h options.showUnverifiedCollections item) ids (answers.flatMap AssetList.items) := by
  obtain ⟨trace, sound⟩ := (Ingester.sound_empty streams acker).reaches run
  have shown : l.Shown chain ({ toDb := s.db, createdAt } : ReadDb).toDb := sound.shown ledger.sound same acked
  exact shown.listed selects options positive accepted sorting noCreator

/-- The assets of the new owner. -/
theorem ledger_listed_moved :
    ∃ s, Runs.Reaches (@Ingester.step Example.mintCrates _ Example.ledgerPlerkle) (.empty ["TXN"] true) Example.shown s ∧
      ∃ answers, Paging.Enumerates (fun cursor => @Listing.request Example.fieldCrates .refusing { toDb := s.db }
          (.byOwner (.ofKey (.fill 2))) (Listing.fromCursor {} 1 none cursor)) AssetList.cursor none answers ∧
        ∃ ids : List Pubkey, ids.Pairwise (sortsBefore { toDb := s.db } .id (Listing.directionOf none)) ∧
          (∀ id, id ∈ ids ↔ ∃ h, Example.movedLedger.holdings id = some h ∧
            (Listing.byOwner (.ofKey (.fill 2))).AsksFor {} h) ∧
          answers.flatMap AssetList.errors = [] ∧
          List.Forall₂ (fun id item => ∃ h, Example.movedLedger.holdings id = some h ∧
            Answered Example.chain id h false item) ids (answers.flatMap AssetList.items) := by
  obtain ⟨s, run, published, acked⟩ := Example.shown_run
  refine ⟨s, run, ?_⟩
  refine @ledger_listed Example.mintCrates _ Example.ledgerPlerkle Example.fieldCrates .refusing
    Example.fieldCrates_selects Example.chain _ _ Example.ledger_run ["TXN"] true _ s run
    (fun e => by rw [Example.events_eq published]) (fun message member _ => ?_) (fun _ => none) {} 1 (by decide)
    (by decide) none (.byOwner (.ofKey (.fill 2))) rfl
  exact Example.acked_all published acked message member

/-- In every state of every run, whatever was handled, lost or handled again so far, the
transactions that are answered for an asset are from its history, in the order asked for. -/
theorem ledger_history [BubblegumCrates] [Programs] [PlerkleCrate] (chain : Chain) (events : List Event) (l : Ledger)
    (ledger : Ledger.Run chain events l) (streams : List String) (acker : Bool) (actions : List Action) (s : Ingester)
    (run : Runs.Reaches Ingester.step (.empty streams acker) actions s) (included : ∀ e ∈ s.events, e ∈ events)
    (id : Pubkey) (h : Holding) (holds : l.holdings id = some h) (payload : GetAssetSignatures)
    (asks : payload.AsksFor id h) (list : TransactionSignatureList)
    (answered : requestAssetSignatures s.db payload = .ok list) :
    list.items.Sublist (historyOf events id payload.sortDirection) := by
  obtain ⟨trace, sound⟩ := (Ingester.sound_empty streams acker).reaches run
  rw [List.nil_append] at sound
  obtain ⟨accounts, state⟩ := sound.effects.state
  have part := sound.part included
  have audits : s.db.clAuditsV2 = (trace.foldl Statement.exec {}).clAuditsV2 := by rw [state]
  have rows := ledger.sound.leaf_rows part audits holds (signatureOrder payload.sortDirection)
  rw [ledger.sound.historyOf_eq]
  rcases ledger.sound.asked_rows part (by rw [state]) holds asks answered with ⟨-, nothing⟩ | isPage
  · rw [nothing]
    exact List.nil_sublist _
  · rw [isPage]
    exact ((pageOf_sublist ..).trans rows).map Audit.transaction

namespace Example

def signatures : SignatureTarget := .ofAsset (.ofKey key)

theorem signatures_answered {db : Db} (hasLeaf : (signatures.leaf db).isOk = true) :
    ∃ list, requestAssetSignatures db (signatures.payload 10 none none) = .ok list ∧
      list.items = ((signatures.audits db none).map Audit.transaction).take 10 := by
  rw [SignatureTarget.requestAssetSignatures_eq, SignatureTarget.answered_eq _ _ _ (by decide)]
  cases found : signatures.leaf db with
  | error problem =>
    rw [found] at hasLeaf
    cases hasLeaf
  | ok leaf => exact ⟨_, rfl, List.map_take⟩

set_option maxRecDepth 4000

theorem history_halfway : ((shown.take 11).foldlM (@Ingester.step mintCrates _ ledgerPlerkle)
    (.empty ["TXN"] true)).map (fun s => (s.published, (signatures.leaf s.db).isOk,
      (signatures.audits s.db none).map Audit.transaction)) =
    some ([first, second], true, [("", "Transfer")]) := by
  rfl

theorem history_ended : (shown.foldlM (@Ingester.step mintCrates _ ledgerPlerkle) (.empty ["TXN"] true)).map
    (fun s => (s.published, s.acked, (signatures.leaf s.db).isOk,
      (auditsOf [minting, moving] key).all (fun audit => s.db.clAuditsV2.lookup audit.1 = some audit.2))) =
    some ([first, second], [("TXN", "1"), ("TXN", "2")], true, true) := by
  rfl

end Example

/-- The transfer is handled, and the mint is not yet. -/
theorem ledger_history_halfway :
    ∃ s, Runs.Reaches (@Ingester.step Example.mintCrates _ Example.ledgerPlerkle) (.empty ["TXN"] true)
        (Example.shown.take 11) s ∧
      ∃ list, requestAssetSignatures s.db (Example.signatures.payload 10 none none) = .ok list ∧
        list.items = [("", "Transfer")] ∧
        list.items.Sublist (historyOf [Example.minting, Example.moving] Example.key none) := by
  obtain ⟨s, ran, same⟩ := Option.map_eq_some_iff.mp Example.history_halfway
  simp only [Prod.mk.injEq] at same
  obtain ⟨published, hasLeaf, listed⟩ := same
  have run := Runs.Reaches.of_foldlM ran
  obtain ⟨list, answered, isItems⟩ := Example.signatures_answered hasLeaf
  rw [listed] at isItems
  refine ⟨s, run, list, answered, isItems, ?_⟩
  exact @ledger_history Example.mintCrates _ Example.ledgerPlerkle Example.chain _ _ Example.ledger_run ["TXN"] true _ s
    run (fun e member => by rwa [Example.events_eq published] at member) Example.key _ Example.moved_holds _ (.inl rfl)
    list answered

/-- When the transactions are acknowledged and none of the rows of `cl_audits_v2` was lost,
the answer is a page of that history. -/
theorem ledger_history_complete [BubblegumCrates] [Programs] [PlerkleCrate] (chain : Chain) (events : List Event)
    (l : Ledger) (ledger : Ledger.Run chain events l) (streams : List String) (acker : Bool) (actions : List Action)
    (s : Ingester) (run : Runs.Reaches Ingester.step (.empty streams acker) actions s)
    (same : ∀ e, e ∈ s.events ↔ e ∈ events)
    (acked : ∀ message ∈ s.published, message.events ≠ [] → (message.streamKey, message.id) ∈ s.acked)
    (id : Pubkey) (h : Holding) (holds : l.holdings id = some h)
    (recorded : ∀ audit ∈ auditsOf events id, s.db.clAuditsV2.lookup audit.1 = some audit.2)
    (payload : GetAssetSignatures) (asks : payload.AsksFor id h) (list : TransactionSignatureList)
    (answered : requestAssetSignatures s.db payload = .ok list) :
    list.items = pageOf list.page list.limit (historyOf events id payload.sortDirection) := by
  obtain ⟨trace, sound⟩ := (Ingester.sound_empty streams acker).reaches run
  rw [List.nil_append] at sound
  obtain ⟨accounts, state⟩ := sound.effects.state
  have part := sound.part (fun e member => (same e).mp member)
  have audits : s.db.clAuditsV2 = (trace.foldl Statement.exec {}).clAuditsV2 := by rw [state]
  have rows := ledger.sound.leaf_rows part audits holds (signatureOrder payload.sortDirection)
  have all := ledger.sound.rows_eq id rows (fun audit member => by
    obtain ⟨inTree, atLeaf⟩ := ledger.sound.audit_place holds member
    exact mem_auditSelect.mpr ⟨recorded audit member, inTree, congrArg Int.ofNat atLeaf⟩)
  rcases ledger.sound.asked_rows part (by rw [state]) holds asks answered with ⟨missing, -⟩ | isPage
  · obtain ⟨row, stored, -⟩ := ((sound.shown ledger.sound same acked).holding id h holds).row
    rw [stored] at missing
    cases missing
  · rw [isPage, all, ledger.sound.historyOf_eq, map_pageOf]

theorem ledger_history_moved :
    ∃ s, Runs.Reaches (@Ingester.step Example.mintCrates _ Example.ledgerPlerkle) (.empty ["TXN"] true)
        Example.shown s ∧
      ∃ list, requestAssetSignatures s.db (Example.signatures.payload 10 none none) = .ok list ∧
        list.items = pageOf list.page list.limit
          (historyOf [Example.minting, Example.moving] Example.key none) := by
  obtain ⟨s, ran, same⟩ := Option.map_eq_some_iff.mp Example.history_ended
  simp only [Prod.mk.injEq] at same
  obtain ⟨published, acked, hasLeaf, stored⟩ := same
  have run := Runs.Reaches.of_foldlM ran
  obtain ⟨list, answered, -⟩ := Example.signatures_answered hasLeaf
  refine ⟨s, run, list, answered, ?_⟩
  exact @ledger_history_complete Example.mintCrates _ Example.ledgerPlerkle Example.chain _ _ Example.ledger_run ["TXN"]
    true _ s run (fun e => by rw [Example.events_eq published])
    (fun message member _ => Example.acked_all published acked message member) Example.key _ Example.moved_holds
    (fun audit member => of_decide_eq_true (List.all_eq_true.mp stored audit member)) _ (.inl rfl) list answered

end DasIndexer.Streams
