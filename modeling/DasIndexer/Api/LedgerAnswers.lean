import DasIndexer.Api.ContentFiles
import DasIndexer.Api.OneAsset
import DasIndexer.Bubblegum.LedgerRows
import DasIndexer.Tasks.StoredUrl

/-! What the API answers about an asset of the ledger. -/

namespace DasIndexer
open Sql Rpc Bubblegum Programs

/-- There is nothing to trim from the text of a key. -/
theorem trim_toBase58 (key : Bytes32) : trim key.toBase58 = key.toBase58 := by
  have printable : bs58Alphabet.all (fun c => !isWhitespace c) = true := by decide
  have valid : ∀ c ∈ key.toBase58.toList, isWhitespace c = false := by
    intro c member
    rw [Bytes32.toBase58, bs58Encode, String.toList_ofList] at member
    rcases List.mem_append.mp member with one | digit
    · obtain ⟨_, _, isOne⟩ := List.mem_map.mp one
      rw [← isOne]
      decide
    · simpa using List.all_eq_true.mp printable c (bs58Digits_alphabet _ _ c digit)
  rw [trim_eq_self_iff]
  exact ⟨fun c member => valid c (List.mem_of_mem_head? member), fun c member => valid c (List.mem_of_getLast? member)⟩

/-- The selection of the fields of an object that the rendering asks for. -/
def SelectsFields [Crates] : Prop :=
  ∀ name ∈ ["name", "symbol", "primary_sale_happened"], ∀ fields value, Json.field name fields = some value →
    Crates.select (.obj fields) ("$." ++ name) = some [value]

/-- The groups of an asset on the chain, verified or asked for. -/
def Bubblegum.Holding.groups (h : Holding) (unverified : Bool) : List (String × Option String) :=
  (h.contents.metadata.collection.filter (fun c => unverified || c.verified)).toList.map
    (fun c => ("collection", some c.key.toBase58))

/-- The answer shows the asset as it is on the chain. -/
structure Answered [Programs] (chain : Chain) (key : Pubkey) (h : Holding) (unverified : Bool) (asset : Asset) :
    Prop where
  id : asset.id = key.toBase58
  interface : asset.interface = .v1Nft
  uri : asset.content.map Content.jsonUri = some (removeNul h.contents.metadata.uri)
  names : asset.content.map (fun content => (Json.field "name" content.metadata, Json.field "symbol" content.metadata)) =
    some (some (.str (removeNul h.contents.metadata.name)), some (.str (removeNul h.contents.metadata.symbol)))
  isMutable : asset.isMutable = h.contents.metadata.isMutable
  authorities : asset.authorities.map Authority.address = [h.authority.toBase58]
  creators : asset.creators.map (fun c => (c.address, c.share, c.verified)) =
    h.contents.metadata.creators.entries.map (fun c => (c.address.toBase58, c.share, c.verified))
  grouping : asset.grouping.map (fun group => (group.groupKey, group.groupValue)) = h.groups unverified
  basisPoints : asset.royalty.basisPoints = h.contents.metadata.sellerFeeBasisPoints
  primarySaleHappened : asset.royalty.primarySaleHappened = h.contents.metadata.primarySaleHappened
  owner : asset.ownership.owner = h.contents.owner.toBase58
  delegate : asset.ownership.delegate = (delegateColumn h.contents.owner h.contents.delegate).map bs58Encode
  compressed : asset.compression.compressed = true ∧ asset.compression.eligible = false
  tree : asset.compression.tree = h.tree.toBase58
  leafId : asset.compression.leafId = h.leaf
  seq : asset.compression.seq = h.seq
  assetHash : h.status ≠ .burnt → asset.compression.assetHash = (h.value chain key).toBase58
  hashes : h.status = .held → asset.compression.dataHash = h.contents.dataHash.toBase58 ∧
    asset.compression.creatorHash = h.contents.creatorHash.toBase58
  second : h.status = .held → asset.compression.collectionHash = h.contents.second.map (fun s => s.1.toBase58) ∧
    asset.compression.assetDataHash = h.contents.second.map (fun s => s.2.1.toBase58) ∧
    asset.compression.flags = h.contents.second.map (fun s => s.2.2) ∧
    asset.ownership.frozen = h.contents.second.any (fun s => assetLvlFrozen s.2.2 || permanentLvlFrozen s.2.2) ∧
    asset.ownership.nonTransferable = h.contents.second.map (fun s => nonTransferable s.2.2)
  burnt : asset.burnt = decide (h.status = .burnt)

section Shown
variable [Programs] {chain : Chain} {id : Pubkey} {h : Holding} {row : AssetRow}

/-- The columns of the row that `get_by_id` and the rendering look at. -/
theorem Bubblegum.Holding.Row.rendered (shown : h.Row chain id row) :
    row.assetData = some id ∧ row.supply = 1 ∧ row.specificationVersion = some .v1 ∧
      row.specificationAssetClass = some .nft ∧ row.royaltyAmount = h.contents.metadata.sellerFeeBasisPoints ∧
      row.compressed = true ∧ row.compressible = false ∧ row.ownerType = .single := by
  obtain ⟨slot, seq, base⟩ := shown.base
  have compression := shown.compression
  simp only [baseColumns, compressionColumns, compressedBaseInfo, BaseInfo.model, Prod.mk.injEq] at base compression
  obtain ⟨ownerType, version, assetClass, -, -, royalty, data, -, -⟩ := base
  obtain ⟨compressed, compressible, supply, -⟩ := compression
  exact ⟨data, supply, version, assetClass, royalty, compressed, compressible, ownerType⟩

theorem Bubblegum.Holding.Row.compression_shown (shown : h.Row chain id row) :
    (toCompression row).compressed = true ∧ (toCompression row).eligible = false ∧
      (toCompression row).tree = h.tree.toBase58 ∧ (toCompression row).leafId = h.leaf ∧
      (toCompression row).seq = h.seq := by
  obtain ⟨-, -, -, -, -, compressed, compressible, -⟩ := shown.rendered
  simp [toCompression, shown.tree, shown.nonce, shown.seq, compressed, compressible]

/-- The hashes of the leaf, as they are on the chain. -/
theorem Bubblegum.Holding.Row.leaf_shown (shown : h.Row chain id row) (alive : h.status ≠ .burnt) :
    (toCompression row).assetHash = (h.value chain id).toBase58 := by
  have columns := shown.leaf alive
  simp only [leafColumns, Prod.mk.injEq] at columns
  obtain ⟨-, -, leaf, -⟩ := columns
  rw [toCompression, leaf]
  cases status : h.status with
  | held =>
    have value : h.value chain id = chain.leafHash (h.contents.schema id h.leaf) := by rw [Holding.value, status]
    simp [Holding.leafInfo, status, leafInfoOf, LeafInfo.model, value]
  | redeemed =>
    have value : h.value chain id = .zero := by rw [Holding.value, status]
    simp [Holding.leafInfo, status, LeafInfo.model, value]
  | burnt => exact absurd status alive

theorem Bubblegum.Holding.Row.hashes_shown (shown : h.Row chain id row) (isHeld : h.status = .held) :
    ((toCompression row).dataHash = h.contents.dataHash.toBase58 ∧
      (toCompression row).creatorHash = h.contents.creatorHash.toBase58) ∧
    (toCompression row).collectionHash = h.contents.second.map (fun s => s.1.toBase58) ∧
      (toCompression row).assetDataHash = h.contents.second.map (fun s => s.2.1.toBase58) ∧
      (toCompression row).flags = h.contents.second.map (fun s => s.2.2) ∧
      row.frozen = h.contents.second.any (fun s => assetLvlFrozen s.2.2 || permanentLvlFrozen s.2.2) ∧
      row.nonTransferable = h.contents.second.map (fun s => nonTransferable s.2.2) := by
  obtain ⟨-, -, -, -, -, compressed, -⟩ := shown.rendered
  have alive : h.status ≠ .burnt := by
    rw [isHeld]
    exact fun other => by cases other
  have columns := shown.leaf alive
  simp only [leafColumns, Prod.mk.injEq] at columns
  obtain ⟨-, -, -, data, creator, -, frozen, collection, assetData, flags, nonTransferable⟩ := columns
  cases second : h.contents.second with
  | none =>
    simp [toCompression, shownHash, compressed, data, creator, frozen, collection, assetData, flags, nonTransferable,
      Holding.leafInfo, isHeld, leafInfoOf, LeafInfo.model, hashText, trim_toBase58, Contents.schema, second,
      NormalizedLeafFields.from]
  | some hashes =>
    simp [toCompression, shownHash, compressed, data, creator, frozen, collection, assetData, flags, nonTransferable,
      Holding.leafInfo, isHeld, leafInfoOf, LeafInfo.model, hashText, trim_toBase58, Contents.schema, second,
      NormalizedLeafFields.from]

section Rendering
variable [Crates]

omit [Programs] in
theorem select_dataInfo (selects : SelectsFields) (metadata : MetadataArgs) (slot seq : Nat) :
    safeSelect (metadata.dataInfo slot seq).model.chainData "$.name" = some (.str (removeNul metadata.name)) ∧
      safeSelect (metadata.dataInfo slot seq).model.chainData "$.symbol" = some (.str (removeNul metadata.symbol)) ∧
      safeSelect (metadata.dataInfo slot seq).model.chainData "$.primary_sale_happened" =
        some (.bool metadata.primarySaleHappened) := by
  have chosen : ∀ name ∈ ["name", "symbol", "primary_sale_happened"], ∀ fields value,
      Json.field name fields = some value → safeSelect (.obj fields) ("$." ++ name) = some value := by
    intro name listed fields value found
    exact safeSelect_toList (selects name listed fields value found)
  refine ⟨chosen "name" (by simp) _ _ rfl, chosen "symbol" (by simp) _ _ rfl,
    chosen "primary_sale_happened" (by simp) _ _ ?_⟩
  cases metadata.editionNonce with
  | none => simp [chainDataOf, ChainDataV1.sanitize, Json.field]
  | some n => simp [chainDataOf, ChainDataV1.sanitize, Json.field]

omit [Programs] in
/-- What the content of an answer takes from the chain. -/
theorem content_names (selects : SelectsFields) (metadata : MetadataArgs) (slot seq : Nat) :
    Json.field "name" (v1ContentFromJson (metadata.dataInfo slot seq).model).metadata =
        some (.str (removeNul metadata.name)) ∧
      Json.field "symbol" (v1ContentFromJson (metadata.dataInfo slot seq).model).metadata =
        some (.str (removeNul metadata.symbol)) := by
  obtain ⟨name, symbol, -⟩ := select_dataInfo selects metadata slot seq
  constructor
  · rw [v1ContentFromJson, field_setItems, field_setItems, field_setItems]
    simp [name]
  · rw [v1ContentFromJson, field_setItems, field_setItems, field_setItems]
    simp [symbol]

omit [Programs] [Crates] in
theorem toCreators_shown (rows : List AssetCreatorRow) :
    (toCreators rows).map (fun c => (c.address, c.share, c.verified)) =
      (rows.map AssetCreatorRow.shown).map (fun c => (bs58Encode c.1, c.2.1, c.2.2)) := by
  rw [toCreators, List.map_map, List.map_map]
  rfl

omit [Programs] in
theorem toGrouping_shown (groups : List (String × AssetGroupingRow × Option AssetDataRow)) (options : Options) :
    (toGrouping groups options).map (fun group => (group.groupKey, group.groupValue)) =
      (groups.map (fun group => (group.1, group.2.1.groupValue))).filterMap
        (fun group => group.2.map (fun value => (group.1, some value))) := by
  rw [toGrouping, List.map_filterMap, List.filterMap_map]
  refine List.filterMap_congr (fun group _ => ?_)
  rw [Option.map_map]
  rfl

end Rendering

section Groups
variable {db : Db} (shown : h.Shown chain id db)
include shown

theorem Bubblegum.Holding.Shown.listedGroups (options : Options) :
    (listedGroups db options id).map (fun group => (group.1, group.2.groupValue)) =
      h.groups options.showUnverifiedCollections := by
  obtain ⟨slot, seq, stored⟩ := shown.collection
  have keyed : db.assetGrouping.entries.filter (fun entry => entry.1.1 = id && entry.2.groupValue.isSome &&
        (options.showUnverifiedCollections || entry.2.verified)) =
      (db.assetGrouping.entries.filter (fun entry => entry.1 = (id, "collection"))).filter (fun entry =>
        entry.2.groupValue.isSome && (options.showUnverifiedCollections || entry.2.verified)) := by
    rw [List.filter_filter]
    refine List.filter_congr (fun entry member => ?_)
    have named : entry.1.1 = id ↔ entry.1 = (id, "collection") := by
      refine ⟨fun same => ?_, fun same => by rw [same]⟩
      by_contra other
      have found := AList.mem_lookup_iff.mpr member
      have absent := shown.noGroup entry.1.2 (fun group => other (Prod.ext same group))
      rw [← same, Prod.mk.eta, Option.mem_def.mp found] at absent
      cases absent
    rw [Bool.and_assoc, Bool.and_comm, decide_eq_decide.mpr named]
  rw [DasIndexer.listedGroups, keyed, entries_filter_key, stored, Holding.groups]
  cases h.contents.metadata.collection with
  | none => simp [CollectionInfo.model]
  | some c =>
    cases kept : (options.showUnverifiedCollections || c.verified) with
    | true => simp [CollectionInfo.model, Option.filter_some, kept]
    | false => simp [CollectionInfo.model, Option.filter_some, kept]

theorem Bubblegum.Holding.Shown.shownGroups :
    (shownGroups db id).map (fun group => (group.1, group.2.groupValue)) = h.groups false :=
  shown.listedGroups { showUnverifiedCollections := false }

end Groups

section Rendered
variable [Crates] {db : ReadDb} (selects : SelectsFields) (shown : h.Shown chain id db.toDb) {full : FullAsset}
  (stored : db.asset.lookup id = some full.asset) (data : db.assetData.lookup id = some full.data)
  (authorities : full.authorities = (db.assetAuthority.lookup id).toList)
  (creators : full.creators = shownCreators db.toDb id) {unverified : Bool}
  (groups : full.groups.map (fun group => (group.1, group.2.1.groupValue)) = h.groups unverified)
include selects shown stored data authorities creators groups

/-- What is rendered from the rows of the asset. -/
theorem rendered_answered (options : Options) :
    ∃ asset, assetToRpc id full options = .ok asset ∧ Answered chain id h unverified asset := by
  obtain ⟨row, isRow, columns⟩ := shown.row
  obtain ⟨slot, seq, isData⟩ := shown.data
  rw [stored, Option.some.injEq] at isRow
  rw [data, Option.some.injEq] at isData
  subst isRow
  obtain ⟨-, -, version, assetClass, royalty, -⟩ := columns.rendered
  obtain ⟨name, symbol⟩ := content_names selects h.contents.metadata slot seq
  obtain ⟨-, -, sale⟩ := select_dataInfo selects h.contents.metadata slot seq
  obtain ⟨compressed, eligible, tree, leafId, lastSeq⟩ := columns.compression_shown
  have interface : getInterface full.asset = .ok .v1Nft := by
    rw [getInterface, assetClass, version]
    rfl
  rw [assetToRpc, interface]
  refine ⟨_, rfl, ?_⟩
  exact
    { id := rfl
      interface := rfl
      uri := by simp [isData, v1ContentFromJson, MetadataArgs.dataInfo, AssetDataInfo.model]
      names := by rw [isData, Option.map_some, name, symbol]
      isMutable := by
        rw [isData]
        cases mutability : h.contents.metadata.isMutable with
        | true => simp [MetadataArgs.dataInfo, AssetDataInfo.model, chainMutability, mutability]
        | false => simp [MetadataArgs.dataInfo, AssetDataInfo.model, chainMutability, mutability]
      authorities := by
        obtain ⟨authority, inTable, same⟩ := Option.map_eq_some_iff.mp shown.authority
        simp [toAuthority, authorities, inTable, same, Bytes32.toBase58]
      creators := by
        rw [toCreators_shown, creators, shown.creators, List.map_map]
        rfl
      grouping := by
        rw [toGrouping_shown, groups, Holding.groups, List.filterMap_map, ← List.filterMap_eq_map]
        rfl
      basisPoints := royalty
      primarySaleHappened := by simp [isData, sale, asBool]
      owner := by simp [toOwnership, columns.owner, Bytes32.toBase58]
      delegate := by simp [toOwnership, columns.delegate]
      compressed := ⟨compressed, eligible⟩
      tree
      leafId
      seq := lastSeq
      assetHash := columns.leaf_shown
      hashes isHeld := (columns.hashes_shown isHeld).1
      second isHeld := (columns.hashes_shown isHeld).2
      burnt := columns.burnt }

end Rendered

section OneAsset
variable [Crates] {db : ReadDb}

omit [Crates] in
/-- The rows that `get_by_id` puts together. -/
theorem Bubblegum.Holding.Shown.full (shown : h.Shown chain id db.toDb) (options : Options) :
    ∃ full, getById db.toDb id options = .ok full ∧ db.asset.lookup id = some full.asset ∧
      db.assetData.lookup id = some full.data ∧ full.authorities = (db.assetAuthority.lookup id).toList ∧
      full.creators = shownCreators db.toDb id ∧
      full.groups.map (fun group => (group.1, group.2.1.groupValue)) = h.groups false := by
  obtain ⟨row, stored, columns⟩ := shown.row
  obtain ⟨slot, seq, data⟩ := shown.data
  obtain ⟨linked, supply, -⟩ := columns.rendered
  rw [getById, stored]
  simp only [linked, Option.bind_some, data, supply]
  refine ⟨_, rfl, rfl, rfl, rfl, rfl, ?_⟩
  rw [← shown.shownGroups, List.map_map]
  rfl

/-- What the endpoint for one asset answers. -/
theorem Bubblegum.Holding.Shown.requested (selects : SelectsFields) (shown : h.Shown chain id db.toDb)
    (options : Option Options) :
    ∃ asset, requestAsset db id.toBase58 options = .ok asset ∧ Answered chain id h false asset := by
  obtain ⟨full, found, stored, data, authorities, creators, groups⟩ := shown.full (options.getD {})
  obtain ⟨asset, rendered, answered⟩ :=
    rendered_answered selects shown stored data authorities creators groups (options.getD {})
  have answer : getAsset db id (options.getD {}) = .ok asset := by
    rw [getAsset, found]
    exact rendered
  refine ⟨asset, ?_, answered⟩
  rw [requestAsset, show validatePubkey id.toBase58 = .ok id from validatePubkey_address (.ofKey id)]
  show (getAsset db id (options.getD {})).mapError DasApiError.databaseError = .ok asset
  rw [answer]
  rfl

omit [Programs] in
theorem requestAsset_absent (absent : db.asset.lookup id = none) (options : Option Options) :
    requestAsset db id.toBase58 options = .error (.databaseError (.recordNotFound "Asset Not Found")) := by
  have answer : getAsset db id (options.getD {}) = .error (.recordNotFound "Asset Not Found") := by
    rw [getAsset, getById, absent]
    rfl
  rw [requestAsset, show validatePubkey id.toBase58 = .ok id from validatePubkey_address (.ofKey id)]
  show (getAsset db id (options.getD {})).mapError DasApiError.databaseError = _
  rw [answer]
  rfl

end OneAsset

end Shown

end DasIndexer
