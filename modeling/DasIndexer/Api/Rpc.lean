import DasIndexer.Api.Pagination
import DasIndexer.Lib.IndexMap

namespace DasIndexer.Rpc
open Sql

/-- What the crates `jsonpath_lib`, `serde_json`, `url` and `mime_guess` do. -/
class Crates where
  /-- `jsonpath_lib::selector(value)(path)`, `none` being the error. -/
  select : Json → String → Option (List Json)
  /-- `serde_json::to_string`. -/
  jsonText : Json → String
  /-- `to_uri(uri).and_then(get_mime)`. -/
  mimeOfUri : String → Option String

/-- The crates on values without fields. -/
@[reducible] def Crates.bare : Crates where
  select _ _ := some []
  jsonText _ := "null"
  mimeOfUri _ := none

section Values

def asStr : Json → Option String
  | .str s => some s
  | _ => none

def asBool : Json → Option Bool
  | .bool b => some b
  | _ => none

def asU64 : Json → Option Nat
  | .num n => if 0 ≤ n ∧ n < 2 ^ 64 then some n.toNat else none
  | _ => none

/-- `Value::get` with a key. -/
def get (key : String) : Json → Option Json
  | .obj entries => Json.field key entries
  | _ => none

/-- The last of the values selected. -/
def safeSelect [Crates] (value : Json) (path : String) : Option Json :=
  (Crates.select value path).bind List.getLast?

/-- A map from the names to what the paths `$.name` select. -/
def setItems [Crates] (value : Json) (names : List String) (items : List (String × Json)) : List (String × Json) :=
  names.foldl (fun items name => match safeSelect value ("$." ++ name) with
    | some found => Json.insertField name found items
    | none => items) items

end Values

section Content

structure File where
  uri : String
  mime : String

structure Content where
  schema : String
  jsonUri : String
  files : List File
  metadata : List (String × Json)
  links : List (String × Json)

def getMimeTypeFromUri [Crates] (uri : String) : String := (Crates.mimeOfUri uri).getD "image/png"

def fileFromStr [Crates] (uri : String) : File := { uri, mime := getMimeTypeFromUri uri }

def trackTopLevelFile [Crates] (files : List (String × File)) (topLevel : Option Json) : List (String × File) :=
  match topLevel.bind asStr with
  | some uri => if files.any (fun entry => entry.1 = uri) then files else IndexMap.insert uri (fileFromStr uri) files
  | none => files

/-- One entry of `properties.files`. Without a type, the address is the JSON
text of its value. -/
def trackFile [Crates] (files : List (String × File)) (value : Json) : List (String × File) :=
  match value with
  | .obj _ => match (get "uri" value).or (get "url" value), get "type" value with
    | some uri, some mime => match asStr uri with
      | some uri => IndexMap.insert uri (match asStr mime with
        | some mime => { uri, mime }
        | none => fileFromStr uri) files
      | none => files
    | some uri, none => IndexMap.insert (Crates.jsonText uri) (fileFromStr (Crates.jsonText uri)) files
    | none, _ => files
  | .str uri => IndexMap.insert uri (fileFromStr uri) files
  | _ => files

/-- The files are those of a hash map, whose order is not defined; here they
come as they were inserted, the image first. -/
def v1ContentFromJson [Crates] (data : AssetDataRow) : Content :=
  let metadata := setItems data.chainData ["name", "symbol"] []
  let metadata := setItems data.metadata ["description", "attributes"] metadata
  let metadata := setItems data.chainData ["token_standard"] metadata
  let links := setItems data.metadata ["image", "animation_url", "external_url"] []
  let listed := ((Crates.select data.metadata "$.properties.files[*]").getD []).foldl trackFile []
  let listed := trackTopLevelFile listed (Json.field "image" links)
  let files := (trackTopLevelFile listed (Json.field "animation_url" links)).map Prod.snd
  let isImage := fun file : File => ((Json.field "image" links).bind asStr) == some file.uri
  { schema := "https://schema.metaplex.com/nft1.0.json"
    jsonUri := data.metadataUrl
    files := files.filter isImage ++ files.filter (fun file => !isImage file)
    metadata
    links }

end Content

inductive Interface where
  | v1Nft
  | v1Print
  | nft
  | legacyNft
  | fungibleAsset
  | fungibleToken
  | identity
  | executable
  | programmableNft
  | mplCoreAsset
  | mplCoreCollection
  | custom
  deriving DecidableEq, Repr

def Interface.ofSpecification : Option SpecificationVersions → SpecificationAssetClass → Interface
  | some .v1, .nft => .v1Nft
  | some .v1, .printableNft => .v1Nft
  | some .v0, .nft => .legacyNft
  | some .v1, .programmableNft => .programmableNft
  | _, .mplCoreAsset => .mplCoreAsset
  | _, .mplCoreCollection => .mplCoreCollection
  | _, .fungibleAsset => .fungibleAsset
  | _, .fungibleToken => .fungibleToken
  | _, _ => .custom

inductive Scope where
  | full
  deriving DecidableEq, Repr

structure Authority where
  address : String
  scopes : List Scope

structure Creator where
  address : String
  share : Nat
  verified : Bool

structure Group where
  groupKey : String
  groupValue : Option String
  verified : Option Bool
  collectionMetadata : Option (List (String × Json))

structure Compression where
  eligible : Bool
  compressed : Bool
  dataHash : String
  creatorHash : String
  collectionHash : Option String
  assetDataHash : Option String
  flags : Option UInt8
  assetHash : String
  tree : String
  seq : Nat
  leafId : Nat

inductive RoyaltyModel where
  | creators
  | fanout
  | single
  deriving DecidableEq, Repr

def RoyaltyModel.ofTarget : RoyaltyTargetType → RoyaltyModel
  | .creators => .creators
  | .fanout => .fanout
  | .single => .single
  | .unknown => .creators

structure Royalty where
  royaltyModel : RoyaltyModel
  target : Option String
  basisPoints : Nat
  primarySaleHappened : Bool
  locked : Bool

inductive OwnershipModel where
  | single
  | token
  deriving DecidableEq, Repr

def OwnershipModel.ofOwner : OwnerType → OwnershipModel
  | .token => .token
  | .single => .single
  | .unknown => .single

structure Ownership where
  frozen : Bool
  nonTransferable : Option Bool
  delegated : Bool
  delegate : Option String
  ownershipModel : OwnershipModel
  owner : String

structure Supply where
  printMaxSupply : Nat
  printCurrentSupply : Nat
  editionNonce : Option Nat

structure MplCoreInfo where
  numMinted : Option Int
  currentSize : Option Int
  pluginsJsonVersion : Option Int

structure TokenInscriptionInfo where
  authority : String
  root : String
  inscriptionData : String
  content : String
  encoding : String
  order : Nat
  size : Nat
  validationHash : Option String
  deriving DecidableEq

structure TokenInfo where
  supply : Nat
  decimals : Nat
  tokenProgram : String
  mintAuthority : Option String
  freezeAuthority : Option String

structure Asset where
  interface : Interface
  id : String
  content : Option Content
  authorities : List Authority
  compression : Compression
  grouping : List Group
  royalty : Royalty
  creators : List Creator
  ownership : Ownership
  uses : Option Uses
  supply : Option Supply
  isMutable : Bool
  burnt : Bool
  mintExtensions : Option Json
  inscription : Option TokenInscriptionInfo
  tokenInfo : Option TokenInfo
  plugins : Option Json
  unknownPlugins : Option Json
  mplCoreInfo : Option MplCoreInfo
  externalPlugins : Option Json
  unknownExternalPlugins : Option Json

structure DasError where
  id : String
  error : String

structure AssetList where
  total : Nat
  limit : Nat
  page : Option Nat
  before : Option String
  after : Option String
  cursor : Option String
  items : List Asset
  errors : List DasError

section Parts

def toAuthority (authorities : List AssetAuthorityRow) : List Authority :=
  authorities.map (fun a => { address := bs58Encode a.authority, scopes := [.full] })

def toCreators (creators : List AssetCreatorRow) : List Creator :=
  creators.map (fun a => { address := bs58Encode a.creator, share := a.share, verified := a.verified })

/-- Groups without a value are left out. -/
def toGrouping [Crates] (groups : List (String × AssetGroupingRow × Option AssetDataRow)) (options : Options) :
    List Group :=
  groups.filterMap (fun (groupKey, group, data) => group.groupValue.map (fun value =>
    { groupKey
      groupValue := some value
      verified := if options.showUnverifiedCollections then some group.verified else none
      collectionMetadata := data.map (fun data =>
        setItems data.metadata ["name", "symbol", "image", "external_url"] []) }))

def getInterface (asset : AssetRow) : Except DbErr Interface :=
  match asset.specificationAssetClass with
  | some assetClass => .ok (.ofSpecification asset.specificationVersion assetClass)
  | none => .error (.custom "interface not found")

def UseMethod.ofString (s : String) : UseMethod :=
  if s = "Burn" then .burn else if s = "Multiple" then .multiple else .single

def toUses (uses : Json) : Uses where
  useMethod := UseMethod.ofString (((get "use_method" uses).bind asStr).getD "Single")
  total := ((get "total" uses).bind asU64).getD 0
  remaining := ((get "remaining" uses).bind asU64).getD 0

def asU32 (value : Json) : Option Nat := (asU64 value).filter (fun n => n < 2 ^ 32)

/-- An optional string field: `null` and a missing field are `None`. -/
def asOptStr : Option Json → Option (Option String)
  | none => some none
  | some .null => some none
  | some (.str s) => some (some s)
  | some _ => none

/-- `serde_json::from_value::<InscriptionData>`: a derived reader takes the
fields from an object, or in their order from an array. -/
def readInscription (value : Json) : Option TokenInscriptionInfo :=
  let fields := match value with
    | .obj _ => some (fun name => get name value)
    | .arr items => if items.length = 8 then some (fun name => items[["authority", "root", "content", "encoding",
        "inscription_data", "order", "size", "validation_hash"].idxOf name]?) else none
    | _ => none
  fields.bind (fun field => do
    let authority ← (field "authority").bind asStr
    let root ← (field "root").bind asStr
    let content ← (field "content").bind asStr
    let encoding ← (field "encoding").bind asStr
    let inscriptionData ← (field "inscription_data").bind asStr
    let order ← (field "order").bind asU64
    let size ← (field "size").bind asU32
    let validationHash ← asOptStr (field "validation_hash")
    return { authority, root, inscriptionData, content, encoding, order, size, validationHash })

def toInscription (inscription : Option AttachmentRow) : Option TokenInscriptionInfo :=
  (inscription.bind AttachmentRow.data).bind readInscription

def toTokenInfo (token : TokenRow) : TokenInfo where
  supply := if token.supply < 2 ^ 64 then token.supply else 0
  decimals := token.decimals % 2 ^ 8
  tokenProgram := token.tokenProgram.toBase58
  mintAuthority := token.mintAuthority.map Bytes32.toBase58
  freezeAuthority := token.freezeAuthority.map Bytes32.toBase58

/-- A hash column, blank unless the asset is compressed. -/
def shownHash (asset : AssetRow) (hash : String) : String := if asset.compressed then trim hash else ""

def toCompression (asset : AssetRow) : Compression where
  eligible := asset.compressible
  compressed := asset.compressed
  leafId := asset.nonce.getD 0
  seq := asset.seq.getD 0
  tree := (asset.treeId.map Bytes32.toBase58).getD ""
  assetHash := (asset.leaf.map Bytes32.toBase58).getD ""
  dataHash := (asset.dataHash.map (shownHash asset)).getD ""
  creatorHash := (asset.creatorHash.map (shownHash asset)).getD ""
  collectionHash := asset.collectionHash.map (shownHash asset)
  assetDataHash := asset.assetDataHash.map (shownHash asset)
  flags := asset.bubblegumFlags

def toOwnership (asset : AssetRow) : Ownership where
  frozen := asset.frozen
  nonTransferable := asset.nonTransferable
  delegated := asset.delegate.isSome
  delegate := asset.delegate.map bs58Encode
  ownershipModel := .ofOwner asset.ownerType
  owner := (asset.owner.map bs58Encode).getD ""

end Parts

def assetToRpc [Crates] (id : Pubkey) (full : FullAsset) (options : Options) : Except DbErr Asset := do
  let asset := full.asset
  let data := full.data
  let interface ← getInterface asset
  let isCore := interface = .mplCoreAsset ∨ interface = .mplCoreCollection
  let isNft := interface ∈ [Interface.v1Nft, .legacyNft, .nft, .programmableNft, .custom]
  return {
    interface
    id := id.toBase58
    content := some (v1ContentFromJson data)
    authorities := toAuthority full.authorities
    isMutable := data.chainDataMutability ≠ .immutable
    compression := toCompression asset
    grouping := toGrouping full.groups options
    royalty := {
      royaltyModel := .ofTarget asset.royaltyTargetType
      target := asset.royaltyTarget.map bs58Encode
      basisPoints := asset.royaltyAmount
      primarySaleHappened := ((safeSelect data.chainData "$.primary_sale_happened").bind asBool).getD false
      locked := false }
    creators := toCreators full.creators
    ownership := toOwnership asset
    supply := if isNft then some {
        editionNonce := (safeSelect data.chainData "$.edition_nonce").bind asU64
        printCurrentSupply := 0
        printMaxSupply := 0 } else none
    uses := (get "uses" data.chainData).map toUses
    burnt := asset.burnt
    tokenInfo := if options.showFungible then full.tokenInfo.map toTokenInfo else none
    mintExtensions := asset.mintExtensions
    inscription := if options.showInscription then toInscription full.inscription else none
    plugins := asset.mplCorePlugins
    unknownPlugins := asset.mplCoreUnknownPlugins
    mplCoreInfo := if isCore then some {
        numMinted := asset.mplCoreCollectionNumMinted
        currentSize := asset.mplCoreCollectionCurrentSize
        pluginsJsonVersion := asset.mplCorePluginsJsonVersion } else none
    externalPlugins := asset.mplCoreExternalPlugins
    unknownExternalPlugins := asset.mplCoreUnknownExternalPlugins }

def assetListToRpc [Crates] (assets : List (Pubkey × FullAsset)) (options : Options) : List Asset × List DasError :=
  assets.foldl (fun (items, errors) (id, full) => match assetToRpc id full options with
    | .ok asset => (items ++ [asset], errors)
    | .error problem => (items, errors ++ [{ id := id.toBase58, error := dbErrText problem }])) ([], [])

/-- `String::from_utf8(..).ok()`. -/
def utf8Text (bytes : Bytes) : Option String := String.fromUTF8? ⟨bytes.toArray⟩

/-- The part of a response that echoes the page or the bounds of the request. -/
def echo (pagination : Pagination) : Option Nat × Option String × Option String :=
  match pagination with
  | .keyset before after => (none, before.bind utf8Text, after.bind utf8Text)
  | .page page => (some page, none, none)
  | .cursor _ => (none, none, none)

/-- With a cursor, the next one is the last asset found. -/
def buildAssetResponse [Crates] (assets : List (Pubkey × FullAsset)) (limit : Nat) (pagination : Pagination)
    (options : Options) : AssetList :=
  let (page, before, after) := echo pagination
  let (items, errors) := assetListToRpc assets options
  { total := assets.length
    limit
    page
    before
    after
    cursor := match pagination with
      | .cursor _ => assets.getLast?.map (fun entry => bs58Encode entry.1.bytes)
      | _ => none
    items
    errors }

section Lists
variable [Crates] (options : Options)

/-- Whether an asset is rendered depends on its row alone. -/
def Renders (full : FullAsset) : Bool := full.asset.specificationAssetClass.isSome

theorem assetToRpc_ok (id : Pubkey) {full : FullAsset} (renders : Renders full = true) :
    ∃ asset, assetToRpc id full options = .ok asset ∧ asset.id = id.toBase58 := by
  obtain ⟨assetClass, isClass⟩ := Option.isSome_iff_exists.mp renders
  have known : getInterface full.asset = .ok (.ofSpecification full.asset.specificationVersion assetClass) := by
    rw [getInterface, isClass]
  rw [assetToRpc, known]
  exact ⟨_, rfl, rfl⟩

theorem assetToRpc_error {id : Pubkey} {full : FullAsset} (fails : Renders full = false) :
    assetToRpc id full options = .error (.custom "interface not found") := by
  have unknown : getInterface full.asset = .error (.custom "interface not found") := by
    rw [getInterface, Option.not_isSome_iff_eq_none.mp (Bool.eq_false_iff.mp fails)]
  rw [assetToRpc, unknown]
  rfl

theorem assetListToRpc_concat_ok {assets : List (Pubkey × FullAsset)} {last : Pubkey × FullAsset} {asset : Asset}
    (rendered : assetToRpc last.1 last.2 options = .ok asset) :
    assetListToRpc (assets ++ [last]) options =
      ((assetListToRpc assets options).1 ++ [asset], (assetListToRpc assets options).2) := by
  rw [assetListToRpc, List.foldl_append]
  simp only [List.foldl_cons, List.foldl_nil, rendered]
  rfl

theorem assetListToRpc_concat_error {assets : List (Pubkey × FullAsset)} {last : Pubkey × FullAsset} {problem : DbErr}
    (failed : assetToRpc last.1 last.2 options = .error problem) :
    assetListToRpc (assets ++ [last]) options = ((assetListToRpc assets options).1,
      (assetListToRpc assets options).2 ++ [{ id := last.1.toBase58, error := dbErrText problem }]) := by
  rw [assetListToRpc, List.foldl_append]
  simp only [List.foldl_cons, List.foldl_nil, failed]
  rfl

/-- Every asset found is in the response once, rendered or as an error. -/
theorem assetListToRpc_ids (assets : List (Pubkey × FullAsset)) :
    (assetListToRpc assets options).1.map Asset.id =
        (assets.filter (fun entry => Renders entry.2)).map (fun entry => entry.1.toBase58) ∧
      (assetListToRpc assets options).2.map DasError.id =
        (assets.filter (fun entry => !Renders entry.2)).map (fun entry => entry.1.toBase58) := by
  induction assets using List.reverseRecOn with
  | nil => exact ⟨rfl, rfl⟩
  | append_singleton earlier last ih =>
    obtain ⟨items, errors⟩ := ih
    rw [List.filter_append, List.filter_append]
    cases renders : Renders last.2 with
    | true =>
      obtain ⟨asset, rendered, sameId⟩ := assetToRpc_ok options last.1 renders
      rw [assetListToRpc_concat_ok options rendered]
      simp [items, errors, renders, sameId]
    | false =>
      rw [assetListToRpc_concat_error options (assetToRpc_error options renders)]
      simp [items, errors, renders]

end Lists

end DasIndexer.Rpc
