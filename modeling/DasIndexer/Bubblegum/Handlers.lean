import DasIndexer.Bubblegum.Db

namespace DasIndexer.Bubblegum
open Sql

/-- What a handler does: the statements it runs on the connection, before it
opens a transaction, and then either the error it returns or the statements of
the transaction with its result. No statement of a handler reads the database
back, so the statements are determined by the delivered instruction. -/
structure Plan where
  onConnection : List Statement
  inTransaction : Except ProgramTransformerError (List Statement × Option DownloadMetadataInfo)

def Plan.fail (error : ProgramTransformerError) : Plan := ⟨[], .error error⟩

def notParsed : ProgramTransformerError := .parsingError "Ix not parsed correctly"

/-- The statements of the transaction that is committed. -/
def Plan.body (plan : Plan) : List Statement :=
  match plan.inTransaction with
  | .ok (body, _) => body
  | .error _ => []

/-- The statements that take effect. An error undoes nothing that was run on
the connection. -/
def Plan.statements (plan : Plan) : List Statement := plan.onConnection ++ plan.body

section Handlers
variable [Programs]

def uriResult (id : Pubkey) (uri : String) : Option DownloadMetadataInfo :=
  if uri = "" then none else some (.new id uri)

def chainMutability (isMutable : Bool) : ChainMutability := if isMutable then .mutable else .immutable

/-- The base information of a compressed asset. -/
def compressedBaseInfo (sellerFeeBasisPoints slot seq : Nat) : BaseInfo :=
  { ownerType := .single
    specificationVersion := .v1
    specificationAssetClass := .nft
    royaltyTargetType := .creators
    royaltyTarget := none
    royaltyAmount := sellerFeeBasisPoints
    slotUpdated := slot
    seq := seq }

/-- The leaf columns of an update that takes the hashes from the leaf schema. -/
def leafInfoOf (leaf : NormalizedLeafFields) (leafHash : Hash) (nonce : Nat) (treeId : Pubkey) (seq : Nat) :
    LeafInfo :=
  { nonce, treeId, leaf := leafHash
    dataHash := leaf.dataHash
    creatorHash := leaf.creatorHash
    collectionHash := leaf.collectionHash
    assetDataHash := leaf.assetDataHash
    flags := leaf.flags
    seq }

def ownerInfoOf (owner delegate : Pubkey) (seq : Nat) : OwnerInfo :=
  { owner, delegate := delegateColumn owner delegate, seq }

def chainDataOf (name symbol : String) (editionNonce : Option Nat) (primarySaleHappened : Bool)
    (uses : Option Uses) : ChainDataV1 :=
  ChainDataV1.sanitize
    { name, symbol, editionNonce, primarySaleHappened, tokenStandard := some .nonFungible, uses }

def saveChangelogEvent (cl : ChangeLogEvent) (bundle : InstructionBundle) (instruction : String) :
    List Statement :=
  insertChangeLog cl bundle.slot bundle.txnId instruction

/-- The call of `upsert_asset_authority` passes the sequence number as the
slot and the slot as the sequence number. -/
def mint (parsingResult : BubblegumInstruction) (bundle : InstructionBundle) (instruction : String) : Plan :=
  match parsingResult.leafUpdate, parsingResult.treeUpdate, parsingResult.payload with
  | some le, some cl, some (.mint metadata authority treeId) =>
    let leaf := NormalizedLeafFields.from le.schema
    let uri := removeNul metadata.uri
    let chainData := chainDataOf metadata.name metadata.symbol metadata.editionNonce
      metadata.primarySaleHappened metadata.uses
    { onConnection := saveChangelogEvent cl bundle instruction
      inTransaction := .ok
        ([.assetData leaf.id
            { chainDataMutability := chainMutability metadata.isMutable
              chainData := chainData.toJson
              metadataUrl := uri
              metadataMutability := .mutable
              metadata := .str "processing"
              slotUpdated := bundle.slot
              reindex := some true
              rawName := utf8 metadata.name
              rawSymbol := utf8 metadata.symbol
              seq := cl.seq },
          .baseInfo leaf.id (compressedBaseInfo metadata.sellerFeeBasisPoints bundle.slot cl.seq),
          .compressionInfo leaf.id
            { compressed := true, compressible := false, supply := 1, supplyMint := none },
          .leafInfo leaf.id (leafInfoOf leaf le.leafHash leaf.nonce treeId cl.seq),
          .ownerInfo leaf.id (ownerInfoOf leaf.owner leaf.delegate cl.seq),
          .assetSeq leaf.id cl.seq,
          .creators leaf.id { creators := metadata.creators, slotUpdated := bundle.slot, seq := cl.seq },
          .authority leaf.id { authority, slotUpdated := cl.seq, seq := bundle.slot },
          .collectionInfo leaf.id
            { collection := metadata.collection, slotUpdated := bundle.slot, seq := cl.seq }],
          uriResult leaf.id uri) }
  | _, _, _ => .fail notParsed

def updateMetadata (parsingResult : BubblegumInstruction) (bundle : InstructionBundle)
    (instruction : String) : Plan :=
  match parsingResult.leafUpdate, parsingResult.treeUpdate, parsingResult.payload with
  | some le, some cl, some (.updateMetadata currentMetadata updateArgs treeId) =>
    let leaf := NormalizedLeafFields.from le.schema
    let uri := removeNul (updateArgs.uri.getD currentMetadata.uri)
    let name := updateArgs.name.getD currentMetadata.name
    let symbol := updateArgs.symbol.getD currentMetadata.symbol
    let chainData := chainDataOf name symbol currentMetadata.editionNonce
      (updateArgs.primarySaleHappened.getD currentMetadata.primarySaleHappened) currentMetadata.uses
    { onConnection := saveChangelogEvent cl bundle instruction
      inTransaction := .ok
        ([.assetData leaf.id
            { chainDataMutability := chainMutability (updateArgs.isMutable.getD currentMetadata.isMutable)
              chainData := chainData.toJson
              metadataUrl := uri
              metadataMutability := .mutable
              metadata := .str "processing"
              slotUpdated := bundle.slot
              reindex := some true
              rawName := utf8 name
              rawSymbol := utf8 symbol
              seq := cl.seq },
          .baseInfo leaf.id (compressedBaseInfo
            (updateArgs.sellerFeeBasisPoints.getD currentMetadata.sellerFeeBasisPoints) bundle.slot cl.seq),
          .leafInfo leaf.id (leafInfoOf leaf le.leafHash leaf.nonce treeId cl.seq),
          .assetSeq leaf.id cl.seq,
          .creators leaf.id
            { creators := updateArgs.creators.getD currentMetadata.creators
              slotUpdated := bundle.slot
              seq := cl.seq }],
          uriResult leaf.id uri) }
  | _, _, _ => .fail notParsed

/-- The body shared by `transfer` and `delegation_freezing_nontransferability`. -/
def leafAndOwner (parsingResult : BubblegumInstruction) (bundle : InstructionBundle)
    (instruction : String) : Plan :=
  match parsingResult.leafUpdate, parsingResult.treeUpdate with
  | some le, some cl =>
    let leaf := NormalizedLeafFields.from le.schema
    { onConnection := saveChangelogEvent cl bundle instruction
      inTransaction := .ok
        ([.leafInfo leaf.id (leafInfoOf leaf le.leafHash cl.index cl.id cl.seq),
          .ownerInfo leaf.id (ownerInfoOf leaf.owner leaf.delegate cl.seq),
          .assetSeq leaf.id cl.seq], none) }
  | _, _ => .fail notParsed

def transfer (parsingResult : BubblegumInstruction) (bundle : InstructionBundle) (instruction : String) :
    Plan :=
  leafAndOwner parsingResult bundle instruction

def delegationFreezingNontransferability (parsingResult : BubblegumInstruction)
    (bundle : InstructionBundle) (instruction : String) : Plan :=
  leafAndOwner parsingResult bundle instruction

/-- A redeemed leaf is empty; the columns of the second leaf schema are left
alone. -/
def redeem (parsingResult : BubblegumInstruction) (bundle : InstructionBundle) (instruction : String) :
    Plan :=
  match parsingResult.treeUpdate with
  | some cl =>
    let assetId := Programs.findAssetAddress cl.id cl.index
    { onConnection := saveChangelogEvent cl bundle instruction
      inTransaction := .ok
        ([.leafInfo assetId
            { nonce := cl.index
              treeId := cl.id
              leaf := .zero
              dataHash := .zero
              creatorHash := .zero
              collectionHash := none
              assetDataHash := none
              flags := none
              seq := cl.seq },
          .assetSeq assetId cl.seq], none) }
  | none => .fail notParsed

def cancelRedeem (parsingResult : BubblegumInstruction) (bundle : InstructionBundle)
    (instruction : String) : Plan :=
  match parsingResult.leafUpdate, parsingResult.treeUpdate with
  | some le, some cl =>
    { onConnection := saveChangelogEvent cl bundle instruction
      inTransaction := match le.schema with
        | .v1 id owner delegate _ dataHash creatorHash => .ok
          ([.leafInfo id
              { nonce := cl.index
                treeId := cl.id
                leaf := le.leafHash
                dataHash
                creatorHash
                collectionHash := none
                assetDataHash := none
                flags := none
                seq := cl.seq },
            .ownerInfo id (ownerInfoOf owner delegate cl.seq),
            .assetSeq id cl.seq], none)
        | .v2 .. => .error (.parsingError "LeafSchema V2 not possible for ix") }
  | _, _ => .fail notParsed

def updatedCreators (creators : CreatorList) (creator : Pubkey) (verify : Bool) : CreatorList :=
  creators.map (fun c => if c.address = creator then { c with verified := verify } else c)

/-- `creator_verification::process`. -/
def creatorVerification (parsingResult : BubblegumInstruction) (bundle : InstructionBundle)
    (instruction : String) : Plan :=
  match parsingResult.leafUpdate, parsingResult.treeUpdate, parsingResult.payload with
  | some le, some cl, some (.creatorVerification metadata creator verify) =>
    let leaf := NormalizedLeafFields.from le.schema
    { onConnection := saveChangelogEvent cl bundle instruction
      inTransaction := .ok
        ([.leafInfo leaf.id (leafInfoOf leaf le.leafHash cl.index cl.id cl.seq),
          .ownerInfo leaf.id (ownerInfoOf leaf.owner leaf.delegate cl.seq),
          .assetSeq leaf.id cl.seq,
          .creators leaf.id
            { creators := updatedCreators metadata.creators creator verify
              slotUpdated := bundle.slot
              seq := cl.seq }], none) }
  | _, _, _ => .fail notParsed

/-- The Bubblegum program as collection stands for no collection at all. -/
def verifiedCollection (collection : Pubkey) (verify : Bool) : Option Collection :=
  if collection = Programs.bubblegumId then none else some { key := collection, verified := verify }

/-- `collection_verification::process`. -/
def collectionVerification (parsingResult : BubblegumInstruction) (bundle : InstructionBundle)
    (instruction : String) : Plan :=
  match parsingResult.leafUpdate, parsingResult.treeUpdate, parsingResult.payload with
  | some le, some cl, some (.collectionVerification collection verify) =>
    let leaf := NormalizedLeafFields.from le.schema
    { onConnection := saveChangelogEvent cl bundle instruction
      inTransaction := .ok
        ([.leafInfo leaf.id (leafInfoOf leaf le.leafHash cl.index cl.id cl.seq),
          .assetSeq leaf.id cl.seq,
          .collectionInfo leaf.id
            { collection := verifiedCollection collection verify
              slotUpdated := bundle.slot
              seq := cl.seq }], none) }
  | _, _, _ => .fail notParsed

def burn (parsingResult : BubblegumInstruction) (bundle : InstructionBundle) (instruction : String) : Plan :=
  match parsingResult.treeUpdate with
  | some cl =>
    let assetId := Programs.findAssetAddress cl.id cl.index
    { onConnection := saveChangelogEvent cl bundle instruction
      inTransaction := .ok ([.burnt assetId, .assetSeq assetId cl.seq], none) }
  | none => .fail notParsed

/-- The handlers that `handle_bubblegum_instruction` chooses from. -/
inductive Handler where
  | transfer
  | burn
  | delegate
  | mint
  | redeem
  | cancelRedeem
  | creatorVerification
  | collectionVerification
  | updateMetadata
  deriving DecidableEq, Repr

/-- The other instructions are accepted and nothing is indexed for them. -/
def InstructionName.handler : InstructionName → Option Handler
  | .transfer | .transferV2 => some .transfer
  | .burn | .burnV2 => some .burn
  | .delegate | .delegateV2 | .delegateAndFreezeV2 | .freezeV2 | .setNonTransferableV2 | .thawV2
  | .thawAndRevokeV2 => some .delegate
  | .mintV1 | .mintToCollectionV1 | .mintV2 => some .mint
  | .redeem => some .redeem
  | .cancelRedeem => some .cancelRedeem
  | .verifyCreator | .unverifyCreator | .verifyCreatorV2 | .unverifyCreatorV2 => some .creatorVerification
  | .verifyCollection | .unverifyCollection | .setAndVerifyCollection | .setCollectionV2 =>
    some .collectionVerification
  | .updateMetadata | .updateMetadataV2 => some .updateMetadata
  | .unknown | .decompressV1 | .compress | .createTree | .setDecompressibleState => none
  | .collectV2 | .createTreeV2 | .updateAssetDataV2 => none

def Event.handler (event : Event) : Option Handler := event.parsingResult.instruction.handler

def Event.plan (event : Event) : Plan :=
  let instruction := event.parsingResult.instruction.ixStr
  match event.handler with
  | some .transfer => transfer event.parsingResult event.bundle instruction
  | some .burn => burn event.parsingResult event.bundle instruction
  | some .delegate => delegationFreezingNontransferability event.parsingResult event.bundle instruction
  | some .mint => mint event.parsingResult event.bundle instruction
  | some .redeem => redeem event.parsingResult event.bundle instruction
  | some .cancelRedeem => cancelRedeem event.parsingResult event.bundle instruction
  | some .creatorVerification => creatorVerification event.parsingResult event.bundle instruction
  | some .collectionVerification => collectionVerification event.parsingResult event.bundle instruction
  | some .updateMetadata => updateMetadata event.parsingResult event.bundle instruction
  | none => { onConnection := [], inTransaction := .ok ([], none) }

def Event.statements (event : Event) : List Statement := event.plan.statements

/-- The database after the call, and what the call returns: the download task
handed to the notifier, if any. -/
def handleBubblegumInstruction (db : Db) (event : Event) :
    Db × Except ProgramTransformerError (Option DownloadMetadataInfo) :=
  (event.statements.foldl Statement.exec db, event.plan.inTransaction.map Prod.snd)

/-- The database after a sequence of deliveries, whatever the calls return. -/
def ingest (db : Db) (deliveries : List Event) : Db :=
  deliveries.foldl (fun db event => (handleBubblegumInstruction db event).1) db

theorem ingest_eq_statements (db : Db) (deliveries : List Event) :
    ingest db deliveries = (deliveries.flatMap Event.statements).foldl Statement.exec db := by
  rw [List.foldl_flatMap]
  rfl

end Handlers

end DasIndexer.Bubblegum
