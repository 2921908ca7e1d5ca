import DasIndexer.Bubblegum.Ledger

namespace DasIndexer.Bubblegum
open Sql Latest Merkle

section Statements
variable [Programs] {chain : Chain} {l : Ledger} {event : Event} {handler : Handler} {id key : Pubkey} {h : Holding}

theorem Event.mem_body {s : Statement} (member : s ∈ event.statements) (subject : s.subject = some key) :
    s ∈ event.plan.body := by
  obtain ⟨cl, indexes, inLog | inBody⟩ := Event.mem_statements member
  · rcases mem_saveChangelogEvent inLog with ⟨entry, -, same⟩ | same | same
    · rw [same] at subject
      cases subject
    · rw [same] at subject
      cases subject
    · rw [same] at subject
      cases subject
  · exact inBody

theorem Event.mem_statements_iff {s : Statement} (subject : s.subject = some key) :
    s ∈ event.statements ↔ s ∈ event.plan.body :=
  ⟨fun member => Event.mem_body member subject, fun member => List.mem_append_right _ member⟩

theorem Ledger.Moves.indexes (moves : l.Moves chain event handler id h) :
    event.plan.Indexes event (l.log chain h (h.value chain id)) := by
  rcases event.plan_cases with idle | ⟨cl, indexes⟩
  · have member : Statement.assetSeq id ((l.writes h.tree).length + 1) ∈ event.plan.statements :=
      List.mem_append_right _ (by rw [moves.body]; exact Handler.mem_body_seq)
    rw [idle] at member
    cases member
  · have update := indexes.update
    rw [moves.treeUpdate] at update
    cases update
    exact indexes

/-- No statement of the event is about another asset. -/
theorem Ledger.Moves.others (moves : l.Moves chain event handler id h) {s : Statement} (other : key ≠ id)
    (subject : s.subject = some key) : s ∉ event.statements := by
  intro member
  have about := Event.assetId_of_subject member subject
  rw [moves.asset] at about
  exact other (Option.some.inj about).symm

end Statements

section Writes
variable {l : Ledger} {id key : Pubkey} {h : Holding} {value : Hash}

@[simp] theorem Ledger.write_holdings_self : (l.write id h value).holdings id =
    some { h with seq := (l.writes h.tree).length + 1 } := Function.update_self ..

theorem Ledger.write_holdings_other (other : key ≠ id) : (l.write id h value).holdings key = l.holdings key :=
  Function.update_of_ne other ..

@[simp] theorem Ledger.write_writes_self : (l.write id h value).writes h.tree = l.writes h.tree ++ [(h.leaf, value)] :=
  Function.update_self ..

theorem Ledger.write_writes_other {tree : Pubkey} (other : tree ≠ h.tree) :
    (l.write id h value).writes tree = l.writes tree := Function.update_of_ne other ..

theorem Ledger.write_writes_length (tree : Pubkey) :
    (l.writes tree).length ≤ ((l.write id h value).writes tree).length := by
  by_cases same : tree = h.tree
  · rw [same, Ledger.write_writes_self, List.length_append]
    omega
  · rw [Ledger.write_writes_other same]

theorem Ledger.write_cases {k : Holding} (holds : (l.write id h value).holdings key = some k) :
    (key = id ∧ k = { h with seq := (l.writes h.tree).length + 1 }) ∨ (key ≠ id ∧ l.holdings key = some k) := by
  by_cases same : key = id
  · rw [same, Ledger.write_holdings_self] at holds
    exact .inl ⟨same, (Option.some.inj holds).symm⟩
  · rw [Ledger.write_holdings_other same] at holds
    exact .inr ⟨same, holds⟩

end Writes

/-- The last write of a history adds its change log. -/
theorem mem_changeLogs_concat {hash : Hash → Hash → Hash} {blank : Hash} {tree : Pubkey} {depth : Nat}
    {writes : List (Nat × Hash)} {write : Nat × Hash} {cl : ChangeLogEvent} :
    cl ∈ changeLogs hash blank tree depth (writes ++ [write]) ↔
      cl ∈ changeLogs hash blank tree depth writes ∨ cl = changeLogOf hash blank tree depth writes write := by
  rw [mem_changeLogs, mem_changeLogs]
  constructor
  · rintro ⟨earlier, other, later, split, same⟩
    rcases List.eq_nil_or_concat' later with none | ⟨front, last, isLast⟩
    · rw [none] at split
      obtain ⟨sameEarlier, sameWrite⟩ := List.append_inj' split rfl
      cases sameWrite
      rw [sameEarlier]
      exact .inr same
    · rw [isLast, ← List.cons_append, ← List.append_assoc] at split
      obtain ⟨before, -⟩ := List.append_inj' split rfl
      exact .inl ⟨earlier, other, front, before, same⟩
  · rintro (⟨earlier, other, later, split, same⟩ | same)
    · exact ⟨earlier, other, later ++ [write], by rw [split, List.append_assoc, List.cons_append], same⟩
    · exact ⟨writes, write, [], rfl, same⟩

section Runs
variable [Programs] {chain : Chain} {events : List Event} {l : Ledger} {event : Event} {handler : Handler}
  {id : Pubkey} {h : Holding}

/-- What the events of a run have said about an asset: the newest statement for each part of
its contents is the one for its state. -/
structure Holding.Told (chain : Chain) (events : List Event) (id : Pubkey) (h : Holding) : Prop where
  indexed : ∃ info, .leafInfo id info ∈ events.flatMap Event.statements
  leaf : h.status ≠ .burnt → .leafInfo id (h.leafInfo chain id) ∈ events.flatMap Event.statements
  parts : ∀ part, ∃ slot seq, h.contents.statement id slot seq part ∈ events.flatMap Event.statements ∧
    ∀ s ∈ events.flatMap Event.statements, s.kind = part.kind → s.subject = some id →
      ∀ n, s.version = some n → n ≤ seq
  compression : ∃ info, .compressionInfo id info ∈ events.flatMap Event.statements
  authority : ∃ slot seq, .authority id { authority := h.authority, slotUpdated := seq, seq := slot } ∈
    events.flatMap Event.statements
  seq : .assetSeq id h.seq ∈ events.flatMap Event.statements
  burnt : .burnt id ∈ events.flatMap Event.statements ↔ h.status = .burnt

/-- The event is the instruction of an asset, under the sequence number of its tree. -/
structure Ledger.Logs (l : Ledger) (event : Event) (cl : ChangeLogEvent) (id : Pubkey) (h : Holding) : Prop where
  indexes : event.plan.Indexes event cl
  asset : event.assetId = some id
  holds : l.holdings id = some h
  tree : h.tree = cl.id
  leaf : h.leaf = cl.index
  positive : 0 < cl.seq
  known : cl.seq ≤ h.seq
  version : event.OfVersion h.contents.version

/-- An event before another one of the run. -/
structure Event.Earlier (e later : Event) : Prop where
  slot : e.bundle.slot ≤ later.bundle.slot
  seq : ∀ cl cl', e.parsingResult.treeUpdate = some cl → later.parsingResult.treeUpdate = some cl' →
    cl.id = cl'.id → cl.seq < cl'.seq

/-- What holds after every run of the program. -/
structure Ledger.Sound (chain : Chain) (events : List Event) (l : Ledger) : Prop where
  placed : l.Placed chain
  bounded : ∀ id h, l.holdings id = some h → h.seq ≤ (l.writes h.tree).length
  logged : ∀ e ∈ events, ∃ cl id h, l.Logs e cl id h
  ordered : events.Pairwise Event.Earlier
  oneMint : ∀ e ∈ events, ∀ e' ∈ events, e.handler = some .mint → e'.handler = some .mint →
    e.assetId = e'.assetId → e = e'
  logs : ∀ tree cl, (∃ e ∈ events, e.parsingResult.treeUpdate = some cl ∧ cl.id = tree) ↔
    cl ∈ changeLogs chain.hash (Programs.emptyNode 0) tree (chain.depth tree) (l.writes tree)
  inRange : ∀ tree, ∀ write ∈ l.writes tree, write.1 < 2 ^ chain.depth tree
  written : ∀ id h, l.holdings id = some h → ∃ write ∈ l.writes h.tree, write.1 = h.leaf
  value : ∀ id h, l.holdings id = some h →
    leavesAfter (Programs.emptyNode 0) (l.writes h.tree) h.leaf = h.value chain id
  told : ∀ id h, l.holdings id = some h → h.Told chain events id
  places : ∀ id info, .leafInfo id info ∈ events.flatMap Event.statements →
    ∃ h, l.holdings id = some h ∧ info.treeId = h.tree ∧ info.nonce = h.leaf

omit [Programs] in
theorem Holding.leafInfo_place (chain : Chain) (id : Pubkey) (h : Holding) :
    (h.leafInfo chain id).treeId = h.tree ∧ (h.leafInfo chain id).nonce = h.leaf := by
  unfold Holding.leafInfo
  cases h.status with
  | held | redeemed | burnt => exact ⟨rfl, rfl⟩

omit [Programs] in
theorem Holding.leafInfo_seq (chain : Chain) (id : Pubkey) (h : Holding) : (h.leafInfo chain id).seq = h.seq := by
  unfold Holding.leafInfo
  cases h.status with
  | held | redeemed | burnt => rfl

theorem Ledger.sound_empty : Ledger.empty.Sound chain [] where
  placed _ _ holds := by cases holds
  bounded _ _ holds := by cases holds
  logged := List.forall_mem_nil _
  ordered := .nil
  oneMint := List.forall_mem_nil _
  logs tree cl := by simp [changeLogs, Ledger.empty]
  inRange tree := List.forall_mem_nil _
  written _ _ holds := by cases holds
  value _ _ holds := by cases holds
  told _ _ holds := by cases holds
  places _ _ member := by cases member

/-- The asset of an instruction was in the same tree and leaf before, if it was there. -/
theorem Ledger.Moves.before (moves : l.Moves chain event handler id h) {old : Holding}
    (holds : l.holdings id = some old) :
    old.Follows handler h := by
  rcases moves.origin with ⟨absent, -⟩ | ⟨other, holdsOther, follows⟩
  · rw [absent] at holds
    cases holds
  · rw [holds] at holdsOther
    cases holdsOther
    exact follows

theorem Ledger.Moves.seq (moves : l.Moves chain event handler id h) : event.seq = (l.writes h.tree).length + 1 :=
  Event.seq_of_treeUpdate moves.treeUpdate

theorem Ledger.Moves.told_now (moves : l.Moves chain event handler id h) {s : Statement}
    (member : s ∈ handler.body chain id { h with seq := (l.writes h.tree).length + 1 } event.bundle.slot) :
    s ∈ (events ++ [event]).flatMap Event.statements := by
  rw [List.flatMap_append, List.flatMap_singleton]
  refine List.mem_append_right _ (List.mem_append_right _ ?_)
  rw [moves.body]
  exact member

/-- What was said once about an asset stays said; a mint says it. -/
theorem Ledger.Moves.once (moves : l.Moves chain event handler id h) {Said : Statement → Prop}
    (now : handler = .mint → ∃ statement ∈ handler.body chain id { h with seq := (l.writes h.tree).length + 1 }
      event.bundle.slot, Said statement)
    (before : ∀ old, l.holdings id = some old → old.Follows handler h →
      ∃ statement ∈ events.flatMap Event.statements, Said statement) :
    ∃ statement ∈ (events ++ [event]).flatMap Event.statements, Said statement := by
  rcases moves.origin with ⟨-, isMint⟩ | ⟨old, holds, follows⟩
  · obtain ⟨statement, member, said⟩ := now isMint
    exact ⟨statement, moves.told_now member, said⟩
  · obtain ⟨statement, member, said⟩ := before old holds follows
    rw [List.flatMap_append]
    exact ⟨statement, List.mem_append_left _ member, said⟩

section Bounds
variable (sound : l.Sound chain events)
include sound

/-- The events of a tree carry the numbers of its writes. -/
theorem Ledger.Sound.seq_le {e : Event} (member : e ∈ events) {cl : ChangeLogEvent}
    (update : e.parsingResult.treeUpdate = some cl) : cl.seq ≤ (l.writes cl.id).length := by
  obtain ⟨other, key, k, logs⟩ := sound.logged e member
  have same := logs.indexes.update
  rw [update] at same
  cases same
  have inLedger := sound.bounded key k logs.holds
  rw [logs.tree] at inLedger
  have known := logs.known
  omega

theorem Ledger.Sound.same_or_earlier {e e' : Event} (member : e ∈ events) (member' : e' ∈ events) :
    e = e' ∨ e.Earlier e' ∨ e'.Earlier e := by
  have forth : events.Pairwise (fun x y => x = y ∨ x.Earlier y ∨ y.Earlier x) :=
    sound.ordered.imp (fun earlier => .inr (.inl earlier))
  have back : events.Pairwise (flip (fun x y : Event => x = y ∨ x.Earlier y ∨ y.Earlier x)) :=
    sound.ordered.imp (fun earlier => .inr (.inr earlier))
  exact List.Pairwise.forall_of_forall_of_flip (fun _ _ => .inl rfl) forth back member member'

theorem Ledger.Sound.distinct {e e' : Event} (member : e ∈ events) (member' : e' ∈ events) {cl cl' : ChangeLogEvent}
    (update : e.parsingResult.treeUpdate = some cl) (update' : e'.parsingResult.treeUpdate = some cl')
    (sameTree : cl.id = cl'.id) (sameSeq : cl.seq = cl'.seq) : e = e' := by
  rcases sound.same_or_earlier member member' with same | earlier | later
  · exact same
  · have less := earlier.seq cl cl' update update' sameTree
    omega
  · have less := later.seq cl' cl update' update sameTree.symm
    omega

/-- Within a tree, slots follow the sequence numbers. -/
theorem Ledger.Sound.slots {e e' : Event} (member : e ∈ events) (member' : e' ∈ events) {cl cl' : ChangeLogEvent}
    (update : e.parsingResult.treeUpdate = some cl) (update' : e'.parsingResult.treeUpdate = some cl')
    (sameTree : cl.id = cl'.id) (older : cl.seq ≤ cl'.seq) : e.bundle.slot ≤ e'.bundle.slot := by
  rcases sound.same_or_earlier member member' with same | earlier | later
  · rw [same]
  · exact earlier.slot
  · have less := later.seq cl' cl update' update sameTree.symm
    omega

/-- The statements about an asset come from its tree, up to its last change. -/
theorem Ledger.Sound.about {s : Statement} (member : s ∈ events.flatMap Event.statements)
    (subject : s.subject = some id) : ∃ e ∈ events, ∃ k, s ∈ e.statements ∧ l.holdings id = some k ∧ e.seq ≤ k.seq := by
  obtain ⟨e, inEvents, inE⟩ := List.mem_flatMap.mp member
  obtain ⟨cl, key, k, logs⟩ := sound.logged e inEvents
  have asset := logs.asset
  rw [Event.assetId_of_subject inE subject] at asset
  cases asset
  have seq := Event.seq_of_treeUpdate logs.indexes.update
  have known := logs.known
  exact ⟨e, inEvents, k, inE, logs.holds, by omega⟩

end Bounds

section Steps
variable (sound : l.Sound chain events) (moves : l.Moves chain event handler id h)
include moves

theorem Ledger.Moves.logs_new : (l.write id h (h.value chain id)).Logs event (l.log chain h (h.value chain id)) id
    { h with seq := (l.writes h.tree).length + 1 } where
  indexes := moves.indexes
  asset := moves.asset
  holds := Ledger.write_holdings_self
  tree := rfl
  leaf := rfl
  positive := Nat.succ_pos _
  known := Nat.le_refl _
  version := moves.version

include sound

/-- A write keeps what earlier instructions said about the trees. -/
theorem Ledger.Sound.logs_old {e : Event} {cl : ChangeLogEvent} {key : Pubkey} {k : Holding}
    (logs : l.Logs e cl key k) : ∃ k', (l.write id h (h.value chain id)).Logs e cl key k' := by
  by_cases same : key = id
  · subst same
    have follows := moves.before logs.holds
    have inLedger := sound.bounded key k logs.holds
    have known := logs.known
    rw [follows.tree] at inLedger
    exact ⟨{ h with seq := (l.writes h.tree).length + 1 },
      { indexes := logs.indexes
        asset := logs.asset
        holds := Ledger.write_holdings_self
        tree := follows.tree.symm.trans logs.tree
        leaf := follows.leaf.symm.trans logs.leaf
        positive := logs.positive
        known := by
          show cl.seq ≤ (l.writes h.tree).length + 1
          omega
        version := by
          rw [← show k.contents.version = h.contents.version from follows.version]
          exact logs.version }⟩
  · have holds : (l.write id h (h.value chain id)).holdings key = some k := by
      rw [Ledger.write_holdings_other same]
      exact logs.holds
    exact ⟨k, { logs with holds }⟩

theorem Ledger.Sound.logged_write : ∀ e ∈ events ++ [event], ∃ cl key k,
    (l.write id h (h.value chain id)).Logs e cl key k := by
  intro e member
  rcases List.mem_append.mp member with old | new
  · obtain ⟨cl, key, k, logs⟩ := sound.logged e old
    obtain ⟨k', logs'⟩ := sound.logs_old moves logs
    exact ⟨cl, key, k', logs'⟩
  · rw [List.mem_singleton.mp new]
    exact ⟨_, _, _, moves.logs_new⟩

/-- The number of a new event is greater than all those of its tree. -/
theorem Ledger.Sound.seq_lt {e : Event} (member : e ∈ events) {cl cl' : ChangeLogEvent}
    (update : e.parsingResult.treeUpdate = some cl) (update' : event.parsingResult.treeUpdate = some cl')
    (sameTree : cl.id = cl'.id) : cl.seq < cl'.seq := by
  have bound := sound.seq_le member update
  rw [moves.treeUpdate] at update'
  cases update'
  have tree : cl.id = h.tree := sameTree
  rw [tree] at bound
  show cl.seq < (l.writes h.tree).length + 1
  omega

theorem Ledger.Sound.ordered_write (later : ∀ e ∈ events, e.bundle.slot ≤ event.bundle.slot) :
    (events ++ [event]).Pairwise Event.Earlier := by
  refine List.pairwise_append.mpr ⟨sound.ordered, List.pairwise_singleton _ _, fun e member e' member' => ?_⟩
  rw [List.mem_singleton.mp member']
  exact ⟨later e member, fun cl cl' update update' => sound.seq_lt moves member update update'⟩

/-- An asset that earlier events are about is not minted. -/
theorem Ledger.Sound.noMint {e : Event} (member : e ∈ events) (isMint : event.handler = some .mint)
    (sameAsset : e.assetId = event.assetId) : False := by
  obtain ⟨cl, key, k, logs⟩ := sound.logged e member
  have asset := logs.asset
  rw [sameAsset, moves.asset] at asset
  cases asset
  have sameHandler := moves.isHandler
  rw [isMint] at sameHandler
  exact (moves.before logs.holds).notMint (Option.some.inj sameHandler).symm

theorem Ledger.Sound.oneMint_write : ∀ e ∈ events ++ [event], ∀ e' ∈ events ++ [event], e.handler = some .mint →
    e'.handler = some .mint → e.assetId = e'.assetId → e = e' := by
  intro e member e' member' isMint isMint' sameAsset
  rcases List.mem_append.mp member with old | new
  · rcases List.mem_append.mp member' with old' | new'
    · exact sound.oneMint e old e' old' isMint isMint' sameAsset
    · rw [List.mem_singleton.mp new'] at isMint' sameAsset
      exact (sound.noMint moves old isMint' sameAsset).elim
  · rcases List.mem_append.mp member' with old' | new'
    · rw [List.mem_singleton.mp new] at isMint sameAsset
      exact (sound.noMint moves old' isMint sameAsset.symm).elim
    · rw [List.mem_singleton.mp new, List.mem_singleton.mp new']

theorem Ledger.Sound.logs_write (tree : Pubkey) (cl : ChangeLogEvent) :
    (∃ e ∈ events ++ [event], e.parsingResult.treeUpdate = some cl ∧ cl.id = tree) ↔
      cl ∈ changeLogs chain.hash (Programs.emptyNode 0) tree (chain.depth tree)
        ((l.write id h (h.value chain id)).writes tree) := by
  have split : (∃ e ∈ events ++ [event], e.parsingResult.treeUpdate = some cl ∧ cl.id = tree) ↔
      (∃ e ∈ events, e.parsingResult.treeUpdate = some cl ∧ cl.id = tree) ∨
        (l.log chain h (h.value chain id) = cl ∧ cl.id = tree) := by
    simp [or_and_right, exists_or, moves.treeUpdate]
  rw [split, sound.logs tree cl]
  by_cases same : tree = h.tree
  · subst same
    rw [Ledger.write_writes_self, mem_changeLogs_concat]
    constructor
    · rintro (old | ⟨new, -⟩)
      · exact .inl old
      · exact .inr new.symm
    · rintro (old | new)
      · exact .inl old
      · rw [new]
        exact .inr ⟨rfl, rfl⟩
  · rw [Ledger.write_writes_other same]
    constructor
    · rintro (old | ⟨new, inTree⟩)
      · exact old
      · rw [← new] at inTree
        exact absurd inTree.symm same
    · exact .inl

theorem Ledger.Sound.inRange_write (tree : Pubkey) :
    ∀ write ∈ (l.write id h (h.value chain id)).writes tree, write.1 < 2 ^ chain.depth tree := by
  by_cases same : tree = h.tree
  · subst same
    rw [Ledger.write_writes_self]
    intro write member
    rcases List.mem_append.mp member with old | new
    · exact sound.inRange h.tree write old
    · rw [List.mem_singleton.mp new]
      exact moves.inTree
  · rw [Ledger.write_writes_other same]
    exact sound.inRange tree

omit moves in
theorem Ledger.Sound.written_write {key : Pubkey} {k : Holding}
    (holds : (l.write id h (h.value chain id)).holdings key = some k) :
    ∃ write ∈ (l.write id h (h.value chain id)).writes k.tree, write.1 = k.leaf := by
  rcases Ledger.write_cases holds with ⟨-, same⟩ | ⟨-, before⟩
  · rw [same]
    show ∃ write ∈ (l.write id h (h.value chain id)).writes h.tree, write.1 = h.leaf
    rw [Ledger.write_writes_self]
    exact ⟨(h.leaf, h.value chain id), List.mem_append_right _ (List.mem_singleton_self _), rfl⟩
  · obtain ⟨write, member, atLeaf⟩ := sound.written key k before
    by_cases same : k.tree = h.tree
    · rw [same, Ledger.write_writes_self]
      rw [same] at member
      exact ⟨write, List.mem_append_left _ member, atLeaf⟩
    · rw [Ledger.write_writes_other same]
      exact ⟨write, member, atLeaf⟩

/-- The leaf of another asset is another leaf, and stays. -/
theorem Ledger.Sound.value_write {key : Pubkey} {k : Holding}
    (holds : (l.write id h (h.value chain id)).holdings key = some k) :
    leavesAfter (Programs.emptyNode 0) ((l.write id h (h.value chain id)).writes k.tree) k.leaf =
      k.value chain key := by
  rcases Ledger.write_cases holds with ⟨sameKey, same⟩ | ⟨other, before⟩
  · rw [same, sameKey]
    show leavesAfter (Programs.emptyNode 0) ((l.write id h (h.value chain id)).writes h.tree) h.leaf = h.value chain id
    rw [Ledger.write_writes_self, leavesAfter_concat, Function.update_self]
  · have value := sound.value key k before
    by_cases same : k.tree = h.tree
    · have leaf : k.leaf ≠ h.leaf := by
        intro sameLeaf
        rw [(sound.placed key k before).1, moves.placed, same, sameLeaf] at other
        exact other rfl
      rw [same, Ledger.write_writes_self, leavesAfter_concat, Function.update_of_ne leaf, ← same]
      exact value
    · rw [Ledger.write_writes_other same]
      exact value

theorem Ledger.Sound.told_other {key : Pubkey} {k : Holding} (other : key ≠ id) (holds : l.holdings key = some k) :
    k.Told chain (events ++ [event]) key := by
  have told := sound.told key k holds
  have only : ∀ {s : Statement}, s.subject = some key →
      (s ∈ (events ++ [event]).flatMap Event.statements ↔ s ∈ events.flatMap Event.statements) := by
    intro s subject
    rw [List.flatMap_append, List.mem_append, List.flatMap_singleton]
    exact or_iff_left (moves.others other subject)
  obtain ⟨info, indexed⟩ := told.indexed
  obtain ⟨compression, isCompressed⟩ := told.compression
  obtain ⟨slot, seq, authority⟩ := told.authority
  exact
    { indexed := ⟨info, (only rfl).mpr indexed⟩
      leaf := fun alive => (only rfl).mpr (told.leaf alive)
      parts := fun part => by
        obtain ⟨slot, seq, isTold, greatest⟩ := told.parts part
        refine ⟨slot, seq, (only (Contents.statement_subject ..)).mpr isTold, fun s member kind subject => ?_⟩
        exact greatest s ((only subject).mp member) kind subject
      compression := ⟨compression, (only rfl).mpr isCompressed⟩
      authority := ⟨slot, seq, (only rfl).mpr authority⟩
      seq := (only rfl).mpr told.seq
      burnt := (only rfl).trans told.burnt }

/-- What is said about the asset now has the greatest number of its tree. -/
theorem Ledger.Sound.newest {s : Statement} (member : s ∈ (events ++ [event]).flatMap Event.statements)
    (subject : s.subject = some id) {n : Nat} (version : s.version = some n) : n ≤ (l.writes h.tree).length + 1 := by
  rw [List.flatMap_append, List.mem_append, List.flatMap_singleton] at member
  rcases member with earlier | now
  · obtain ⟨e, -, k, inE, holds, known⟩ := sound.about earlier subject
    have bound := sound.bounded id k holds
    rw [(moves.before holds).tree] at bound
    have isSeq := Event.version_eq inE version
    omega
  · have isSeq := Event.version_eq now version
    rw [moves.seq] at isSeq
    omega

/-- A part of the contents that the handler does not write is left as it was told. -/
theorem Ledger.Sound.part_kept {part : Part} (silent : handler.writes part = false) :
    ∃ slot seq, h.contents.statement id slot seq part ∈ (events ++ [event]).flatMap Event.statements ∧
      ∀ s ∈ (events ++ [event]).flatMap Event.statements, s.kind = part.kind → s.subject = some id →
        ∀ n, s.version = some n → n ≤ seq := by
  rcases moves.origin with ⟨-, isMint⟩ | ⟨old, holds, follows⟩
  · rw [isMint] at silent
    cases silent
  · obtain ⟨slot, seq, isTold, greatest⟩ := (sound.told id old holds).parts part
    rw [follows.kept part silent] at isTold
    refine ⟨slot, seq, ?_, fun s member kind subject => ?_⟩
    · rw [List.flatMap_append]
      exact List.mem_append_left _ isTold
    · rw [List.flatMap_append, List.mem_append, List.flatMap_singleton] at member
      rcases member with earlier | now
      · exact greatest s earlier kind subject
      · have inBody := Event.mem_body now subject
        rw [moves.body] at inBody
        exact absurd kind (Handler.body_silent silent s inBody)

theorem Ledger.Sound.part_told (part : Part) :
    ∃ slot seq, h.contents.statement id slot seq part ∈ (events ++ [event]).flatMap Event.statements ∧
      ∀ s ∈ (events ++ [event]).flatMap Event.statements, s.kind = part.kind → s.subject = some id →
        ∀ n, s.version = some n → n ≤ seq := by
  cases writes : handler.writes part with
  | true =>
    refine ⟨event.bundle.slot, (l.writes h.tree).length + 1, moves.told_now (Handler.mem_body_part writes), ?_⟩
    exact fun s member _ subject n version => sound.newest moves member subject version
  | false => exact sound.part_kept moves writes

theorem Ledger.Sound.told_self :
    Holding.Told chain (events ++ [event]) id { h with seq := (l.writes h.tree).length + 1 } where
  indexed := by
    obtain ⟨statement, member, info, isInfo⟩ := @Ledger.Moves.once _ chain events l event handler id h moves
      (fun s => ∃ info, s = Statement.leafInfo id info)
      (fun isMint => ⟨_, Handler.mem_body_leaf (by rw [isMint]; exact fun other => by cases other), _, rfl⟩)
      (fun old holds _ => by
        obtain ⟨info, before⟩ := (sound.told id old holds).indexed
        exact ⟨_, before, info, rfl⟩)
    rw [isInfo] at member
    exact ⟨info, member⟩
  leaf alive := by
    have status : handler.status ≠ .burnt := by
      rw [← moves.status]
      exact alive
    exact moves.told_now (Handler.mem_body_leaf status)
  parts part := by
    have told := sound.part_told moves part
    exact told
  compression := by
    obtain ⟨statement, member, info, isInfo⟩ := @Ledger.Moves.once _ chain events l event handler id h moves
      (fun s => ∃ info, s = Statement.compressionInfo id info) (fun isMint => by
        rw [isMint]
        exact ⟨_, Handler.mem_mint_compression, _, rfl⟩)
      (fun old holds _ => by
        obtain ⟨info, before⟩ := (sound.told id old holds).compression
        exact ⟨_, before, info, rfl⟩)
    rw [isInfo] at member
    exact ⟨info, member⟩
  authority := by
    obtain ⟨statement, member, slot, seq, isInfo⟩ := @Ledger.Moves.once _ chain events l event handler id h moves
      (fun s => ∃ slot seq, s = Statement.authority id { authority := h.authority, slotUpdated := seq, seq := slot })
      (fun isMint => by
        rw [isMint]
        exact ⟨_, Handler.mem_mint_authority, _, _, rfl⟩)
      (fun old holds follows => by
        obtain ⟨slot, seq, before⟩ := (sound.told id old holds).authority
        rw [follows.authority] at before
        exact ⟨_, before, slot, seq, rfl⟩)
    rw [isInfo] at member
    exact ⟨slot, seq, member⟩
  seq := moves.told_now Handler.mem_body_seq
  burnt := by
    show _ ↔ h.status = .burnt
    rw [moves.status, ← Handler.burnt_mem_body, ← moves.body, List.flatMap_append, List.mem_append,
      List.flatMap_singleton, Event.mem_statements_iff rfl]
    refine or_iff_right (fun earlier => ?_)
    obtain ⟨-, -, k, -, holds, -⟩ := sound.about earlier rfl
    exact (moves.before holds).alive ((sound.told id k holds).burnt.mp earlier)

/-- The leaf columns that the events state name the place of the asset. -/
theorem Ledger.Sound.places_write {key : Pubkey} {info : LeafInfo}
    (member : .leafInfo key info ∈ (events ++ [event]).flatMap Event.statements) :
    ∃ k, (l.write id h (h.value chain id)).holdings key = some k ∧ info.treeId = k.tree ∧ info.nonce = k.leaf := by
  rw [List.flatMap_append, List.mem_append, List.flatMap_singleton] at member
  rcases member with earlier | now
  · obtain ⟨k, holds, inTree, atLeaf⟩ := sound.places key info earlier
    by_cases same : key = id
    · subst same
      have follows := moves.before holds
      exact ⟨_, Ledger.write_holdings_self, inTree.trans follows.tree, atLeaf.trans follows.leaf⟩
    · rw [Ledger.write_holdings_other same]
      exact ⟨k, holds, inTree, atLeaf⟩
  · have same : key = id := by
      by_contra other
      exact moves.others other rfl now
    subst same
    have inBody := Event.mem_body now rfl
    rw [moves.body] at inBody
    rw [Handler.leaf_of_mem_body inBody]
    exact ⟨_, Ledger.write_holdings_self, Holding.leafInfo_place ..⟩

theorem Ledger.Sound.step (later : ∀ e ∈ events, e.bundle.slot ≤ event.bundle.slot) :
    (l.write id h (h.value chain id)).Sound chain (events ++ [event]) where
  placed key k holds := by
    rcases Ledger.write_cases holds with ⟨sameKey, same⟩ | ⟨-, before⟩
    · rw [sameKey, same]
      exact ⟨moves.placed, moves.inTree⟩
    · exact sound.placed key k before
  bounded key k holds := by
    rcases Ledger.write_cases holds with ⟨-, same⟩ | ⟨-, before⟩
    · rw [same]
      show (l.writes h.tree).length + 1 ≤ ((l.write id h (h.value chain id)).writes h.tree).length
      rw [Ledger.write_writes_self, List.length_append, List.length_singleton]
    · exact (sound.bounded key k before).trans (Ledger.write_writes_length k.tree)
  logged := sound.logged_write moves
  ordered := sound.ordered_write moves later
  oneMint := sound.oneMint_write moves
  logs := sound.logs_write moves
  inRange := sound.inRange_write moves
  written _ _ := sound.written_write
  value _ _ := sound.value_write moves
  told key k holds := by
    rcases Ledger.write_cases holds with ⟨sameKey, same⟩ | ⟨other, before⟩
    · rw [sameKey, same]
      exact sound.told_self moves
    · exact sound.told_other moves other before
  places _ _ := sound.places_write moves

end Steps

theorem Ledger.Run.sound (run : Ledger.Run chain events l) : l.Sound chain events := by
  induction run with
  | start => exact Ledger.sound_empty
  | next run step slots ih =>
    obtain ⟨handler, id, h, same, moves⟩ := step.moves ih.placed
    rw [same]
    exact ih.step moves slots

end Runs

end DasIndexer.Bubblegum
