import DasIndexer.Api.Pages
import Mathlib.Data.List.Destutter

namespace DasIndexer
open Sql Rpc

section Requests
variable [Crates] (db : ReadDb)

/-- `get_asset` of `dapi`. -/
def getAsset (id : Pubkey) (options : Options) : Except DbErr Asset := do
  let full ← getById db.toDb id options
  assetToRpc id full options

def requestAsset (id : String) (options : Option Options) : Except DasApiError Asset := do
  let key ← validatePubkey id
  (getAsset db key (options.getD {})).mapError .databaseError

/-- `get_assets` of `dapi`: the assets found, under their ids. -/
def getAssetMap (ids : List Pubkey) (limit : Nat) (options : Options) : Except DbErr (List (String × Asset)) := do
  let pagination := Pagination.page 1
  let assets ← getAssets db ids pagination limit options
  let assetList := buildAssetResponse assets limit pagination options
  return assetList.items.foldl (fun map asset => IndexMap.insert asset.id asset map) []

/-- Only neighbours are compared when the ids are deduplicated. -/
def requestAssets (ids : List String) (options : Option Options) : Except DasApiError (List (Option Asset)) := do
  let ids := ids.destutter (· ≠ ·)
  let batchSize := ids.length
  if 1000 < batchSize then throw .batchSizeExceededError
  let keys ← ids.mapM validatePubkey
  let assets ← (getAssetMap db keys batchSize (options.getD {})).mapError .databaseError
  return ids.map (fun id => assets.lookup id)

end Requests

section Rendering
variable [Crates] (options : Options) {id : Pubkey} {full : FullAsset}

/-- Two assets with the same rows but for groups and inscription look the same
if the latter do. -/
theorem assetToRpc_eq_iff (renders : Renders full = true) (inscription : Option AttachmentRow)
    (groups : List (String × AssetGroupingRow × Option AssetDataRow)) :
    assetToRpc id { full with inscription, groups } options = assetToRpc id full options ↔
      toGrouping groups options = toGrouping full.groups options ∧
        (options.showInscription = true → toInscription inscription = toInscription full.inscription) := by
  obtain ⟨assetClass, isClass⟩ := Option.isSome_iff_exists.mp renders
  have known : getInterface full.asset = .ok (.ofSpecification full.asset.specificationVersion assetClass) := by
    rw [getInterface, isClass]
  cases shows : options.showInscription with
  | false => simp [assetToRpc, known, shows, bind, Except.bind, pure, Except.pure]
  | true => simp [assetToRpc, known, shows, bind, Except.bind, pure, Except.pure]

theorem assetToRpc_id {asset : Asset} (shown : assetToRpc id full options = .ok asset) : asset.id = id.toBase58 := by
  cases renders : Renders full with
  | false =>
    rw [assetToRpc_error options renders] at shown
    cases shown
  | true =>
    obtain ⟨other, isOther, sameId⟩ := assetToRpc_ok options id renders
    rw [isOther] at shown
    cases shown
    exact sameId

theorem toGrouping_length {groups : List (String × AssetGroupingRow × Option AssetDataRow)}
    (valued : ∀ group ∈ groups, group.2.1.groupValue.isSome = true) :
    (toGrouping groups options).length = groups.length := by
  refine List.filterMap_length_eq_length.mpr (fun group member => ?_)
  rw [Option.isSome_map]
  exact valued group member

end Rendering

section Groups
variable [Crates] {db : Db} {options : Options} {id : Pubkey}

omit [Crates] in
/-- `get_by_id` shows the verified ones of the groups that a listing shows. -/
theorem shownGroups_listed (options : Options) : shownGroups db id = (listedGroups db options id).filter (fun group => group.2.verified) := by
  rw [shownGroups, listedGroups, List.filter_map, List.filter_filter]
  congr 1
  refine List.filter_congr (fun entry _ => ?_)
  show _ = (entry.2.verified && _)
  cases entry.2.verified with
  | true => simp
  | false => simp

omit [Crates] in
theorem mem_listedGroups {group : String × AssetGroupingRow} (member : group ∈ listedGroups db options id) :
    db.assetGrouping.lookup (id, group.1) = some group.2 ∧ group.2.groupValue.isSome = true ∧
      (options.showUnverifiedCollections = true ∨ group.2.verified = true) := by
  rw [listedGroups] at member
  obtain ⟨entry, inFilter, rfl⟩ := List.mem_map.mp member
  obtain ⟨inTable, passes⟩ := List.mem_filter.mp inFilter
  simp only [Bool.and_eq_true, Bool.or_eq_true, decide_eq_true_eq] at passes
  obtain ⟨⟨ofAsset, valued⟩, shown⟩ := passes
  refine ⟨?_, valued, shown⟩
  rw [← ofAsset]
  exact AList.mem_lookup_iff.mpr inTable

/-- All groups of the asset with a value are verified. -/
def GroupsVerified (db : Db) (id : Pubkey) : Prop :=
  ∀ key group, db.assetGrouping.lookup (id, key) = some group → group.groupValue.isSome = true → group.verified = true

/-- The groups look the same unless unverified ones are asked for and there. -/
theorem toGrouping_eq_iff (withData : String × AssetGroupingRow → Option AssetDataRow) :
    toGrouping ((listedGroups db options id).map (fun group => (group.1, group.2, withData group))) options =
        toGrouping ((shownGroups db id).map (fun group => (group.1, group.2, withData group))) options ↔
      (options.showUnverifiedCollections = true → GroupsVerified db id) := by
  constructor
  · intro same unverified key group stored valued
    have lengths := congrArg List.length same
    have isListed : (key, group) ∈ listedGroups db options id := by
      rw [listedGroups, List.mem_map]
      refine ⟨⟨(id, key), group⟩, List.mem_filter.mpr ⟨AList.mem_lookup_iff.mp stored, ?_⟩, rfl⟩
      simp [valued, unverified]
    rw [toGrouping_length, toGrouping_length, List.length_map, List.length_map,
      shownGroups_listed options, eq_comm, List.length_filter_eq_length_iff] at lengths
    · exact lengths (key, group) isListed
    · intro shown member
      obtain ⟨group, inGroups, rfl⟩ := List.mem_map.mp member
      rw [shownGroups_listed options] at inGroups
      exact (mem_listedGroups (List.mem_filter.mp inGroups).1).2.1
    · intro shown member
      obtain ⟨group, inGroups, rfl⟩ := List.mem_map.mp member
      exact (mem_listedGroups inGroups).2.1
  · intro verified
    have all : (listedGroups db options id).filter (fun group => group.2.verified) = listedGroups db options id := by
      refine List.filter_eq_self.mpr (fun group member => ?_)
      obtain ⟨stored, valued, shown⟩ := mem_listedGroups member
      rcases shown with unverified | isVerified
      · exact verified unverified group.1 group.2 stored valued
      · exact isVerified
    rw [shownGroups_listed options, all]

end Groups

section One
variable (db : ReadDb) (id : Pubkey) (options : Options)

/-- The row of the asset, if its supply is positive. -/
def suppliedRow : Option AssetRow := (db.asset.lookup id).filter (fun row => 0 < row.supply)

theorem findAssets_one : findAssets db (idsCondition [id]) [] none .asc (.page 1) 1 =
    .ok ((suppliedRow db id).toList.map (fun row => (id, row))) := by
  have found : findAssets db (idsCondition [id]) [] none .asc (.page 1) 1 =
      .ok ((((db.assets.map (fun asset => ({ asset } : Joined))).filter
        (assetSelect db (idsCondition [id]) [] none .asc).keeps).take 1).map Joined.asset) := rfl
  have kept : (db.assets.map (fun asset => ({ asset } : Joined))).filter
      (assetSelect db (idsCondition [id]) [] none .asc).keeps =
      ((suppliedRow db id).toList.map (fun row => ({ asset := (id, row) } : Joined))) := by
    have test : ∀ entry : Sigma (fun _ : Pubkey => AssetRow),
        (assetSelect db (idsCondition [id]) [] none .asc).keeps { asset := (entry.1, entry.2) } =
          (decide (0 < entry.2.supply) && decide (entry.1 = id)) := by
      intro entry
      simp [Select.keeps, assetSelect, idsCondition, supplied, Bool.and_comm]
    have asked : db.asset.entries.filter ((assetSelect db (idsCondition [id]) [] none .asc).keeps ∘
        (fun asset => ({ asset } : Joined)) ∘ fun entry => (entry.1, entry.2)) =
        db.asset.entries.filter (fun entry => decide (0 < entry.2.supply) && decide (entry.1 = id)) :=
      List.filter_congr (fun entry _ => test entry)
    rw [Db.assets, List.map_map, List.filter_map, asked, ← List.filter_filter, entries_filter_key, suppliedRow]
    cases db.asset.lookup id with
    | none => rfl
    | some row =>
      rw [Option.map_some, Option.toList_some, Option.filter_some]
      by_cases positive : 0 < row.supply
      · simp [positive]
      · simp [positive]
  rw [found, kept]
  cases suppliedRow db id with
  | none => rfl
  | some row => rfl

/-- The asset as a listing shows it. -/
theorem getRelatedForAssets_one {row : AssetRow} (stored : db.asset.lookup id = some row) :
    getRelatedForAssets db.toDb [(id, row)] options none =
      ((bareAsset db.toDb [id] id).map (fun full => (id, relatedAsset db.toDb options [id] id full))).toList := by
  have isStored : ∀ asset ∈ [(id, row)], db.asset.lookup asset.1 = some asset.2 := by
    intro asset member
    rw [List.mem_singleton.mp member]
    exact stored
  rw [getRelatedForAssets_eq isStored, collectAssets_eq isStored]
  show (((([id].filter _).eraseDups).filterMap _).filter _).map _ = _
  cases bare : bareAsset db.toDb [id] id with
  | none => simp [bare]
  | some full => simp [bare, listsCreator, List.eraseDups_cons]

/-- The asset that is found by a request for it alone. -/
def batchAsset : Option FullAsset :=
  (suppliedRow db id).bind (fun _ => (bareAsset db.toDb [id] id).map (relatedAsset db.toDb options [id] id))

theorem getAssets_one : getAssets db [id] (.page 1) 1 options =
    .ok ((batchAsset db id options).toList.map (fun full => (id, full))) := by
  rw [getAssets, getAssetsByCondition, findAssets_one, batchAsset]
  refine congrArg Except.ok ?_
  cases found : suppliedRow db id with
  | none =>
    have stored : ∀ asset ∈ ([] : List (Pubkey × AssetRow)), db.asset.lookup asset.1 = some asset.2 := by
      intro asset member
      cases member
    show getRelatedForAssets db.toDb [] options none = []
    rw [getRelatedForAssets_eq stored, collectAssets_eq stored]
    rfl
  | some row =>
    have stored : db.asset.lookup id = some row := (Option.filter_eq_some_iff.mp found).1
    refine (getRelatedForAssets_one db id options stored).trans ?_
    rw [Option.bind_some]
    cases bareAsset db.toDb [id] id with
    | none => rfl
    | some full => rfl

/-- The endpoint answers a request for one asset with one entry. -/
theorem requestAssets_one [Crates] : requestAssets db [id.toBase58] (some options) =
    .ok [(batchAsset db id options).bind (fun full => (assetToRpc id full options).toOption)] := by
  have read : validatePubkey id.toBase58 = .ok id := validatePubkey_address (.ofKey id)
  have mapped : ∃ map, getAssetMap db [id] 1 options = .ok map ∧
      map.lookup id.toBase58 = (batchAsset db id options).bind (fun full => (assetToRpc id full options).toOption) := by
    rw [getAssetMap, getAssets_one]
    refine ⟨_, rfl, ?_⟩
    cases batchAsset db id options with
    | none => rfl
    | some full =>
      show ((assetListToRpc [(id, full)] options).1.foldl
        (fun map asset => IndexMap.insert asset.id asset map) []).lookup id.toBase58 = _
      rw [Option.bind_some]
      cases renders : assetToRpc id full options with
      | error problem =>
        simp only [assetListToRpc, List.foldl_cons, List.foldl_nil, renders]
        rfl
      | ok asset =>
        simp only [assetListToRpc, List.foldl_cons, List.foldl_nil, renders, List.nil_append]
        show List.lookup id.toBase58 [(asset.id, asset)] = some asset
        rw [assetToRpc_id options renders]
        simp
  obtain ⟨map, found, entry⟩ := mapped
  have keys : [id.toBase58].mapM validatePubkey = .ok [id] := by
    rw [List.mapM_cons, read]
    rfl
  rw [requestAssets, ← entry]
  simp only [List.destutter_singleton, keys, List.length_singleton, bind, Except.bind, Option.getD_some, found]
  rw [if_neg (by decide)]
  rfl

end One

section Agreement
variable [Crates] (db : ReadDb) (id : Pubkey) (options : Options)

/-- `getAssets` with one id answers with one entry: what `getAsset` answers, or
null where that finds no asset or no supply. -/
def Agrees : Prop :=
  ∃ entry, requestAssets db [id.toBase58] (some options) = .ok [entry] ∧
    (∀ asset, requestAsset db id.toBase58 (some options) = .ok asset → entry = some asset) ∧
    (requestAsset db id.toBase58 (some options) = .error (.databaseError (.recordNotFound "Asset Not Found")) ∨
      requestAsset db id.toBase58 (some options) = .error (.databaseError (.custom "Asset has no supply")) →
      entry = none)

/-- The inscription found by its root is also the one stored under the address
of the asset. -/
def InscribedUnderOwn : Prop :=
  toInscription (getInscriptionByMint db.toDb id) =
    toInscription ((db.attachments.lookup id).filter (fun row => row.assetId = some id))

/-- What both endpoints read of an asset that is shown is the same. -/
structure SameRows (row : AssetRow) : Prop where
  data : row.assetData = some id
  groups : options.showUnverifiedCollections = true → GroupsVerified db.toDb id
  inscription : options.showInscription = true → InscribedUnderOwn db id

theorem requestAsset_eq : requestAsset db id.toBase58 (some options) =
    (getAsset db id options).mapError .databaseError := by
  have read : validatePubkey id.toBase58 = .ok id := validatePubkey_address (.ofKey id)
  rw [requestAsset, read]
  rfl

variable {db id options}

theorem agrees_of_missing {problem : DbErr} (failed : getById db.toDb id options = .error problem)
    (unlisted : batchAsset db id options = none) : Agrees db id options := by
  have refused : requestAsset db id.toBase58 (some options) = .error (.databaseError problem) := by
    rw [requestAsset_eq, getAsset, failed]
    rfl
  refine ⟨none, ?_, fun asset answered => ?_, fun _ => rfl⟩
  · rw [requestAssets_one, unlisted]
    rfl
  · rw [refused] at answered
    cases answered

theorem agrees_of_unrendered {full : FullAsset} (found : getById db.toDb id options = .ok full)
    (fails : Renders full = false) : Agrees db id options := by
  have refused : requestAsset db id.toBase58 (some options) =
      .error (.databaseError (.custom "interface not found")) := by
    rw [requestAsset_eq, getAsset, found]
    show (assetToRpc id full options).mapError _ = _
    rw [assetToRpc_error options fails]
    rfl
  refine ⟨_, requestAssets_one db id options, fun asset answered => ?_, fun answered => ?_⟩
  · rw [refused] at answered
    cases answered
  · rw [refused] at answered
    rcases answered with missing | unsupplied
    · cases missing
    · exact absurd (DbErr.custom.inj (DasApiError.databaseError.inj (Except.error.inj unsupplied))) (by decide)

theorem agrees_iff_of_rendered {full : FullAsset} (found : getById db.toDb id options = .ok full)
    (renders : Renders full = true) :
    Agrees db id options ↔ ∃ listed, batchAsset db id options = some listed ∧
      assetToRpc id listed options = assetToRpc id full options := by
  obtain ⟨asset, shown, -⟩ := assetToRpc_ok options id renders
  have answer : requestAsset db id.toBase58 (some options) = .ok asset := by
    rw [requestAsset_eq, getAsset, found]
    show (assetToRpc id full options).mapError _ = _
    rw [shown]
    rfl
  rw [Agrees, requestAssets_one, answer, shown]
  constructor
  · rintro ⟨entry, isEntry, same, -⟩
    cases isEntry
    have isSame := same asset rfl
    obtain ⟨listed, isListed, rendered⟩ := Option.bind_eq_some_iff.mp isSame
    refine ⟨listed, isListed, ?_⟩
    cases result : assetToRpc id listed options with
    | error problem =>
      rw [result] at rendered
      cases rendered
    | ok other =>
      rw [result] at rendered
      cases rendered
      rfl
  · rintro ⟨listed, isListed, rendered⟩
    refine ⟨some asset, ?_, fun other same => ?_, fun refused => ?_⟩
    · rw [isListed, Option.bind_some, rendered]
      rfl
    · cases same
      rfl
    · rcases refused with missing | unsupplied
      · cases missing
      · cases unsupplied

omit [Crates] in
theorem batchAsset_none {row : AssetRow} (stored : db.asset.lookup id = some row)
    (unlisted : row.supply = 0 ∨ row.assetData ≠ some id ∨ db.assetData.lookup id = none) :
    batchAsset db id options = none := by
  rw [batchAsset, suppliedRow, stored, Option.filter_some]
  by_cases positive : 0 < row.supply
  · rw [if_pos (decide_eq_true positive), Option.bind_some, Option.map_eq_none_iff, bareAsset, stored,
      Option.bind_some, Option.map_eq_none_iff]
    cases link : row.assetData with
    | none => rfl
    | some dataId =>
      rw [Option.filter_some]
      by_cases own : dataId = id
      · subst own
        rcases unlisted with unsupplied | foreign | missing
        · omega
        · exact absurd link foreign
        · rw [if_pos (by simp), Option.bind_some, missing]
      · rw [if_neg (by simpa using own)]
        rfl
  · rw [if_neg (by simpa using positive)]
    rfl

omit [Crates] in
theorem batchAsset_own {row : AssetRow} {data : AssetDataRow} (stored : db.asset.lookup id = some row)
    (positive : row.supply ≠ 0) (own : row.assetData = some id) (hasData : db.assetData.lookup id = some data) :
    batchAsset db id options = some (relatedAsset db.toDb options [id] id
      { asset := row, data, tokenInfo := none, authorities := [], creators := [], inscription := none,
        groups := [] }) := by
  have supplied : decide (0 < row.supply) = true := decide_eq_true (Nat.pos_of_ne_zero positive)
  have asked : decide (id ∈ [id]) = true := by simp
  rw [batchAsset, suppliedRow, stored, Option.filter_some, if_pos supplied, Option.bind_some, bareAsset, stored,
    Option.bind_some, own, Option.filter_some, if_pos asked, Option.bind_some, hasData]
  rfl

/-- The asset that `getAsset` finds and the one that `getAssets` finds differ in
inscription and groups at most. -/
theorem agrees_iff_of_own {row : AssetRow} {data : AssetDataRow} (stored : db.asset.lookup id = some row)
    (positive : row.supply ≠ 0) (own : row.assetData = some id) (hasData : db.assetData.lookup id = some data)
    {full : FullAsset} (found : getById db.toDb id options = .ok full) (renders : Renders full = true) :
    Agrees db id options ↔ (options.showUnverifiedCollections = true → GroupsVerified db.toDb id) ∧
      (options.showInscription = true → InscribedUnderOwn db id) := by
  have isFull : full = { asset := row, data
                         tokenInfo := if options.showFungible then db.tokens.lookup id else none
                         authorities := (db.assetAuthority.lookup id).toList
                         creators := shownCreators db.toDb id
                         inscription := if options.showInscription then getInscriptionByMint db.toDb id else none
                         groups := (shownGroups db.toDb id).map (fun group => (group.1, group.2,
                           if options.showCollectionMetadata then db.assetData.lookup id else none)) } := by
    rw [getById, stored] at found
    dsimp only at found
    rw [own, Option.bind_some, hasData] at found
    dsimp only at found
    rw [if_neg positive] at found
    rw [hasData]
    exact (Except.ok.inj found).symm
  have sameOwner : (db.attachments.lookup id).filter (fun attached => attached.assetId.any (fun x => x ∈ [id])) =
      (db.attachments.lookup id).filter (fun attached => attached.assetId = some id) := by
    refine congrArg (fun p => (db.attachments.lookup id).filter p) (funext (fun attached => ?_))
    cases attached.assetId with
    | none => rfl
    | some owner => simp
  have shape : batchAsset db id options = some { full with
      inscription := if options.showInscription then
        (db.attachments.lookup id).filter (fun attached => attached.assetId = some id) else none
      groups := (listedGroups db.toDb options id).map (fun group => (group.1, group.2,
        if options.showCollectionMetadata then db.assetData.lookup id else none)) } := by
    rw [batchAsset_own stored positive own hasData, relatedAsset, sameOwner, isFull]
  have only : ∀ listed, (∃ other, some listed = some other ∧
      assetToRpc id other options = assetToRpc id full options) ↔
      assetToRpc id listed options = assetToRpc id full options := by
    intro listed
    simp
  rw [agrees_iff_of_rendered found renders, shape, only, assetToRpc_eq_iff options renders, isFull]
  refine and_congr (toGrouping_eq_iff _) ?_
  rw [InscribedUnderOwn]
  refine forall_congr' (fun shows => ?_)
  rw [if_pos shows, if_pos shows]
  exact eq_comm

omit [Crates] in
theorem getById_supplied {row : AssetRow} {data : AssetDataRow} (stored : db.asset.lookup id = some row)
    (hasRow : row.assetData.bind (fun dataId => db.assetData.lookup dataId) = some data) (supplied : row.supply ≠ 0) :
    ∃ full, getById db.toDb id options = .ok full ∧ full.asset = row := by
  rw [getById, stored]
  dsimp only
  rw [hasRow]
  dsimp only
  rw [if_neg supplied]
  exact ⟨_, rfl, rfl⟩

theorem agrees_iff_of_shown {row : AssetRow} {data : AssetDataRow} (stored : db.asset.lookup id = some row)
    (hasRow : row.assetData.bind (fun dataId => db.assetData.lookup dataId) = some data) (supplied : row.supply ≠ 0)
    (hasClass : row.specificationAssetClass.isSome = true) : Agrees db id options ↔ SameRows db id options row := by
  obtain ⟨full, found, isRow⟩ := @getById_supplied db id options _ _ stored hasRow supplied
  have renders : Renders full = true := by rwa [Renders, isRow]
  by_cases own : row.assetData = some id
  · have hasData : db.assetData.lookup id = some data := by rwa [own, Option.bind_some] at hasRow
    rw [agrees_iff_of_own stored supplied own hasData found renders]
    exact ⟨fun both => ⟨own, both.1, both.2⟩, fun same => ⟨same.groups, same.inscription⟩⟩
  · rw [agrees_iff_of_rendered found renders, batchAsset_none stored (.inr (.inl own))]
    constructor
    · rintro ⟨listed, isListed, -⟩
      cases isListed
    · intro same
      exact absurd same.data own

/-- Where `getAsset` shows nothing, the endpoints agree. -/
theorem agrees_of_hidden
    (hidden : ∀ row data, db.asset.lookup id = some row →
      row.assetData.bind (fun dataId => db.assetData.lookup dataId) = some data → row.supply ≠ 0 →
      row.specificationAssetClass.isSome = false) : Agrees db id options := by
  cases stored : db.asset.lookup id with
  | none =>
    refine @agrees_of_missing _ _ _ _ (.recordNotFound "Asset Not Found") ?_ ?_
    · rw [getById, stored]
    · rw [batchAsset, suppliedRow, stored]
      rfl
  | some row =>
    cases hasRow : row.assetData.bind (fun dataId => db.assetData.lookup dataId) with
    | none =>
      refine @agrees_of_missing _ _ _ _ (.recordNotFound "Asset Not Found") ?_ (batchAsset_none stored (.inr ?_))
      · rw [getById, stored]
        dsimp only
        rw [hasRow]
      · by_cases own : row.assetData = some id
        · rw [own, Option.bind_some] at hasRow
          exact .inr hasRow
        · exact .inl own
    | some data =>
      by_cases unsupplied : row.supply = 0
      · refine @agrees_of_missing _ _ _ _ (.custom "Asset has no supply") ?_ (batchAsset_none stored (.inl unsupplied))
        rw [getById, stored]
        dsimp only
        rw [hasRow]
        dsimp only
        rw [if_pos unsupplied]
      · obtain ⟨full, found, isRow⟩ := @getById_supplied db id options _ _ stored hasRow unsupplied
        refine agrees_of_unrendered found ?_
        rw [Renders, isRow]
        exact hidden row data stored hasRow unsupplied

variable (db id options)

/-- The two endpoints agree exactly when an asset that is shown is shown from
the same rows. -/
theorem getAssets_agrees_iff : Agrees db id options ↔
    ∀ row data, db.asset.lookup id = some row →
      row.assetData.bind (fun dataId => db.assetData.lookup dataId) = some data → row.supply ≠ 0 →
      row.specificationAssetClass.isSome = true → SameRows db id options row := by
  constructor
  · intro agrees row data stored hasRow supplied hasClass
    exact (agrees_iff_of_shown stored hasRow supplied hasClass).mp agrees
  · intro same
    by_cases shown : ∃ row data, db.asset.lookup id = some row ∧
        row.assetData.bind (fun dataId => db.assetData.lookup dataId) = some data ∧ row.supply ≠ 0 ∧
        row.specificationAssetClass.isSome = true
    · obtain ⟨row, data, stored, hasRow, supplied, hasClass⟩ := shown
      exact (agrees_iff_of_shown stored hasRow supplied hasClass).mpr (same row data stored hasRow supplied hasClass)
    · refine agrees_of_hidden (fun row data stored hasRow supplied => Bool.eq_false_iff.mpr (fun hasClass => ?_))
      exact shown ⟨row, data, stored, hasRow, supplied, hasClass⟩

end Agreement

namespace OneAsset.Example

/-- An asset of a collection that is not verified. -/
def db : ReadDb where
  asset := AList.insert (.fill 2) { specificationAssetClass := some .nft, assetData := some (.fill 2) } ∅
  assetData := AList.insert (.fill 2)
    { chainData := .obj [], metadataUrl := "", metadata := .obj [], slotUpdated := 5 } ∅
  assetGrouping := AList.insert (.fill 2, "collection")
    { groupValue := some (Bytes32.fill 5).toBase58, verified := false } ∅

/-- `getAsset` leaves the collection out, `getAssets` does not. -/
theorem unverified_collection_disagrees :
    ¬ @Agrees .bare db (.fill 2) { showUnverifiedCollections := true } := by
  intro agrees
  have same := (@agrees_iff_of_shown .bare db (.fill 2) { showUnverifiedCollections := true } _ _ rfl rfl (by decide)
    rfl).mp agrees
  have verified := same.groups rfl "collection" _ rfl rfl
  cases verified

end OneAsset.Example

end DasIndexer
