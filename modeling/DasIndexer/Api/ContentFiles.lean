import DasIndexer.Api.Rpc

namespace DasIndexer.Rpc
open Sql

section Documents
variable (metadata : Json)

/-- The entries of `properties.files`: the items of an array, or the values of the
members of an object. -/
def fileEntries : List Json :=
  match (get "properties" metadata).bind (get "files") with
  | some (.arr items) => items
  | some (.obj entries) => entries.map Prod.snd
  | _ => []

/-- A link of the metadata, if it is a string. -/
def linkUri (name : String) : Option String := (get name metadata).bind asStr

/-- The `uri` of an entry, or its `url` when it has none. -/
def fileAddress (entry : Json) : Option Json := (get "uri" entry).or (get "url" entry)

/-- The uri that an entry names. -/
def entryUri (entry : Json) : Option String := (asStr entry).or ((fileAddress entry).bind asStr)

/-- The uris that the metadata names. -/
def Named (uri : String) : Prop :=
  (∃ entry ∈ fileEntries metadata, entryUri entry = some uri) ∨
    linkUri metadata "image" = some uri ∨ linkUri metadata "animation_url" = some uri

/-- Each file once, those that the metadata names, and the image first. -/
structure ListsFiles (files : List File) : Prop where
  distinct : (files.map File.uri).Nodup
  named : ∀ uri, uri ∈ files.map File.uri ↔ Named metadata uri
  imageFirst : ∀ uri, linkUri metadata "image" = some uri → (files.map File.uri).head? = some uri

/-- The addresses of the entries that have no type. -/
def untyped : List Json :=
  ((fileEntries metadata).filter (fun entry => (get "type" entry).isNone)).filterMap fileAddress

/-- A uri of a link, of an entry that is a string or of one that has a type. -/
def NamedPlainly (uri : String) : Prop :=
  (∃ entry ∈ fileEntries metadata, ((asStr entry).isSome ∨ (get "type" entry).isSome) ∧ entryUri entry = some uri) ∨
    linkUri metadata "image" = some uri ∨ linkUri metadata "animation_url" = some uri

variable [Crates]

/-- The JSON texts of the addresses without a type are uris that the metadata names
anyway, and where these are strings they are listed on account of something else. -/
structure TextsNamed : Prop where
  text : ∀ value ∈ untyped metadata, Named metadata (Crates.jsonText value)
  uri : ∀ uri, .str uri ∈ untyped metadata →
    NamedPlainly metadata uri ∨ ∃ other ∈ untyped metadata, Crates.jsonText other = uri

/-- The selector finds the nodes of the paths, in document order. -/
structure FollowsPaths : Prop where
  files : Crates.select metadata "$.properties.files[*]" = some (fileEntries metadata)
  image : Crates.select metadata "$.image" = some (get "image" metadata).toList
  animation : Crates.select metadata "$.animation_url" = some (get "animation_url" metadata).toList

end Documents

section Entries
variable {entry : Json} {uri : String} {metadata : Json}

theorem asStr_eq_some {value : Json} : asStr value = some uri ↔ value = .str uri := by
  cases value with
  | str text => simp [asStr]
  | null | bool | num | arr | obj => simp [asStr]

theorem get_of_asStr (key : String) (isText : (asStr entry).isSome) : get key entry = none := by
  cases entry with
  | str text => rfl
  | null | bool | num | arr | obj => cases isText

theorem entryUri_of_notText (notText : asStr entry = none) :
    entryUri entry = some uri ↔ fileAddress entry = some (.str uri) := by
  rw [entryUri, notText, Option.none_or, Option.bind_eq_some_iff]
  constructor
  · intro found
    obtain ⟨value, address, isUri⟩ := found
    rwa [asStr_eq_some.mp isUri] at address
  · exact fun address => ⟨.str uri, address, rfl⟩

theorem asStr_of_address {value : Json} (address : fileAddress entry = some value) : asStr entry = none := by
  rw [← Option.not_isSome_iff_eq_none]
  intro isText
  rw [fileAddress, get_of_asStr "uri" isText, get_of_asStr "url" isText] at address
  cases address

theorem mem_untyped {value : Json} : value ∈ untyped metadata ↔
    ∃ entry ∈ fileEntries metadata, (get "type" entry).isNone ∧ fileAddress entry = some value := by
  simp [untyped, and_assoc]

theorem named_iff : Named metadata uri ↔ NamedPlainly metadata uri ∨ .str uri ∈ untyped metadata := by
  rw [mem_untyped]
  constructor
  · intro named
    rcases named with ⟨entry, member, names⟩ | link
    · cases isText : asStr entry with
      | some text => exact Or.inl (Or.inl ⟨entry, member, Or.inl (by rw [isText]; rfl), names⟩)
      | none =>
        cases typed : get "type" entry with
        | some mime => exact Or.inl (Or.inl ⟨entry, member, Or.inr (by rw [typed]; rfl), names⟩)
        | none =>
          have without : (get "type" entry).isNone := by rw [typed]; rfl
          exact Or.inr ⟨entry, member, without, (entryUri_of_notText isText).mp names⟩
    · exact Or.inl (Or.inr link)
  · intro either
    rcases either with (⟨entry, member, -, names⟩ | link) | ⟨entry, member, without, address⟩
    · exact Or.inl ⟨entry, member, names⟩
    · exact Or.inr link
    · exact Or.inl ⟨entry, member, (entryUri_of_notText (asStr_of_address address)).mpr address⟩

end Entries

section Tracking

/-- A map of files: each stands under its own uri. -/
structure Keyed (files : List (String × File)) : Prop where
  distinct : (files.map Prod.fst).Nodup
  own : ∀ entry ∈ files, entry.2.uri = entry.1

theorem Keyed.uris {files : List (String × File)} (keyed : Keyed files) :
    (files.map Prod.snd).map File.uri = files.map Prod.fst := by
  rw [List.map_map]
  exact List.map_congr_left keyed.own

theorem Keyed.insert {files : List (String × File)} (keyed : Keyed files) (file : File) :
    Keyed (IndexMap.insert file.uri file files) := by
  refine ⟨IndexMap.nodup_keys_insert keyed.distinct, fun entry member => ?_⟩
  rcases IndexMap.mem_insert member with new | old
  · rw [new]
  · exact keyed.own entry old

variable [Crates]

/-- The uri under which an entry is tracked. -/
def trackedUri (entry : Json) : Option String :=
  match entry with
  | .obj _ => match fileAddress entry, get "type" entry with
    | some uri, some _ => asStr uri
    | some uri, none => some (Crates.jsonText uri)
    | none, _ => none
  | .str uri => some uri
  | _ => none

theorem trackFile_eq (files : List (String × File)) (entry : Json) :
    (trackedUri entry = none ∧ trackFile files entry = files) ∨
      ∃ file : File, trackedUri entry = some file.uri ∧ trackFile files entry = IndexMap.insert file.uri file files := by
  cases entry with
  | null | bool | num | arr => exact Or.inl ⟨rfl, rfl⟩
  | str uri => exact Or.inr ⟨fileFromStr uri, rfl, rfl⟩
  | obj entries =>
    dsimp only [trackedUri, trackFile, fileAddress]
    cases (get "uri" (.obj entries)).or (get "url" (.obj entries)) with
    | none => exact Or.inl ⟨rfl, rfl⟩
    | some address =>
      cases get "type" (.obj entries) with
      | none => exact Or.inr ⟨fileFromStr (Crates.jsonText address), rfl, rfl⟩
      | some mime =>
        cases isUri : asStr address with
        | none => exact Or.inl ⟨isUri, by simp [isUri]⟩
        | some uri =>
          cases isMime : asStr mime with
          | none => exact Or.inr ⟨fileFromStr uri, isUri, by simp [isUri, isMime, fileFromStr]⟩
          | some mime => exact Or.inr ⟨{ uri, mime }, isUri, by simp [isUri, isMime]⟩

theorem Keyed.trackFile {files : List (String × File)} (keyed : Keyed files) (entry : Json) :
    Keyed (Rpc.trackFile files entry) := by
  rcases trackFile_eq files entry with ⟨-, same⟩ | ⟨file, -, same⟩
  · rwa [same]
  · rw [same]
    exact keyed.insert file

theorem mem_trackFile {files : List (String × File)} {entry : Json} {uri : String} :
    uri ∈ (trackFile files entry).map Prod.fst ↔ uri ∈ files.map Prod.fst ∨ trackedUri entry = some uri := by
  rcases trackFile_eq files entry with ⟨untracked, same⟩ | ⟨file, tracked, same⟩
  · rw [same, untracked]
    simp
  · rw [same, tracked, IndexMap.mem_keys_insert, Option.some_inj, or_comm, eq_comm]

/-- The whole loop over the entries. -/
theorem foldl_trackFile {files : List (String × File)} (keyed : Keyed files) (entries : List Json) :
    Keyed (entries.foldl trackFile files) ∧ ∀ uri, uri ∈ (entries.foldl trackFile files).map Prod.fst ↔
      uri ∈ files.map Prod.fst ∨ ∃ entry ∈ entries, trackedUri entry = some uri := by
  induction entries generalizing files with
  | nil => exact ⟨keyed, fun uri => by simp⟩
  | cons entry rest ih =>
    obtain ⟨still, members⟩ := ih (keyed.trackFile entry)
    refine ⟨still, fun uri => ?_⟩
    rw [List.foldl_cons, members, mem_trackFile, List.exists_mem_cons_iff, or_assoc]

theorem trackTopLevelFile_keyed {files : List (String × File)} (keyed : Keyed files) (link : Option Json) :
    Keyed (trackTopLevelFile files link) ∧ ∀ uri, uri ∈ (trackTopLevelFile files link).map Prod.fst ↔
      uri ∈ files.map Prod.fst ∨ link.bind asStr = some uri := by
  unfold trackTopLevelFile
  cases link.bind asStr with
  | none => exact ⟨keyed, fun uri => by simp⟩
  | some top =>
    dsimp only
    split
    · rename_i known
      refine ⟨keyed, fun uri => ?_⟩
      have present : top ∈ files.map Prod.fst := by simpa using known
      refine ⟨Or.inl, fun either => ?_⟩
      rcases either with old | same
      · exact old
      · rwa [← Option.some.inj same]
    · refine ⟨keyed.insert (fileFromStr top), fun uri => ?_⟩
      have members := @IndexMap.mem_keys_insert _ _ _ top uri (fileFromStr top) files
      rw [members, Option.some_inj, or_comm, eq_comm]

theorem trackedUri_plain {entry : Json} (plain : (asStr entry).isSome ∨ (get "type" entry).isSome) :
    trackedUri entry = entryUri entry := by
  cases entry with
  | str uri => rfl
  | null | bool | num | arr => rcases plain with none | none <;> cases none
  | obj entries =>
    obtain ⟨mime, typed⟩ := Option.isSome_iff_exists.mp (plain.resolve_left (by simp [asStr]))
    dsimp only [trackedUri]
    rw [typed, entryUri, show asStr (.obj entries) = none from rfl, Option.none_or]
    cases fileAddress (.obj entries) with
    | none => rfl
    | some address => rfl

theorem trackedUri_untyped {entry : Json} (notText : asStr entry = none) (without : get "type" entry = none) :
    trackedUri entry = (fileAddress entry).map Crates.jsonText := by
  cases entry with
  | str uri => cases notText
  | null | bool | num | arr => rfl
  | obj entries =>
    dsimp only [trackedUri]
    rw [without]
    cases fileAddress (.obj entries) with
    | none => rfl
    | some address => rfl

theorem tracked_iff {metadata : Json} {uri : String} :
    (∃ entry ∈ fileEntries metadata, trackedUri entry = some uri) ↔
      (∃ entry ∈ fileEntries metadata,
        ((asStr entry).isSome ∨ (get "type" entry).isSome) ∧ entryUri entry = some uri) ∨
      ∃ value ∈ untyped metadata, Crates.jsonText value = uri := by
  constructor
  · intro found
    obtain ⟨entry, member, tracked⟩ := found
    by_cases plain : (asStr entry).isSome ∨ (get "type" entry).isSome
    · rw [trackedUri_plain plain] at tracked
      exact Or.inl ⟨entry, member, plain, tracked⟩
    · simp only [not_or, Option.not_isSome_iff_eq_none] at plain
      rw [trackedUri_untyped plain.1 plain.2] at tracked
      obtain ⟨value, address, text⟩ := Option.map_eq_some_iff.mp tracked
      exact Or.inr ⟨value, mem_untyped.mpr ⟨entry, member, by rw [plain.2]; rfl, address⟩, text⟩
  · intro either
    rcases either with ⟨entry, member, plain, names⟩ | ⟨value, isUntyped, text⟩
    · exact ⟨entry, member, (trackedUri_plain plain).trans names⟩
    · obtain ⟨entry, member, without, address⟩ := mem_untyped.mp isUntyped
      refine ⟨entry, member, ?_⟩
      rw [trackedUri_untyped (asStr_of_address address) (Option.isNone_iff_eq_none.mp without), address, ← text]
      rfl

end Tracking

section Content

/-- The closure that the files are sorted by looks at the first of them only. -/
def compareFiles (image : Option Json) (a _b : File) : Ordering :=
  if image.bind asStr = some a.uri then .lt else .eq

theorem compareFiles_lt {image : Option Json} {a b : File} :
    compareFiles image a b = .lt ↔ image.bind asStr = some a.uri := by
  unfold compareFiles
  split
  · rename_i same
    exact iff_of_true rfl same
  · rename_i different
    exact iff_of_false (by decide) different

variable [Crates]

/-- The links of a content. -/
def contentLinks (data : AssetDataRow) : List (String × Json) :=
  setItems data.metadata ["image", "animation_url", "external_url"] []

/-- The map of the files of a content. -/
def contentFiles (data : AssetDataRow) : List (String × File) :=
  trackTopLevelFile
    (trackTopLevelFile (((Crates.select data.metadata "$.properties.files[*]").getD []).foldl trackFile [])
      (Json.field "image" (contentLinks data)))
    (Json.field "animation_url" (contentLinks data))

/-- What the call may return: the values of a hash map come in any order, and the
sort leaves no file behind one that it is less than. -/
structure Returned (data : AssetDataRow) (files : List File) : Prop where
  perm : files.Perm (v1ContentFromJson data).files
  sorted : files.Pairwise (fun earlier later =>
    compareFiles (Json.field "image" (v1ContentFromJson data).links) later earlier ≠ .lt)

/-- The last of the values under the paths of a name. -/
theorem field_setItems (value : Json) (names : List String) (items : List (String × Json)) (key : String) :
    Json.field key (setItems value names items) =
      (if key ∈ names then safeSelect value ("$." ++ key) else none).or (Json.field key items) := by
  induction names generalizing items with
  | nil => rfl
  | cons name rest ih =>
    unfold setItems at ih ⊢
    rw [List.foldl_cons, ih]
    by_cases same : key = name
    · subst same
      rw [if_pos List.mem_cons_self]
      cases selected : safeSelect value ("$." ++ key) with
      | none => simp
      | some found =>
        rw [Json.field_insertField, if_pos rfl]
        split
        · rfl
        · rfl
    · have others : key ∈ name :: rest ↔ key ∈ rest := by simp [same]
      simp only [others]
      cases safeSelect value ("$." ++ name) with
      | none => rfl
      | some found => rw [Json.field_insertField, if_neg same]

theorem safeSelect_toList {value : Json} {path : String} {found : Option Json}
    (selects : Crates.select value path = some found.toList) : safeSelect value path = found := by
  rw [safeSelect, selects]
  cases found with
  | none => rfl
  | some node => rfl

theorem contentFiles_keyed (data : AssetDataRow) :
    Keyed (contentFiles data) ∧ ∀ uri, uri ∈ (contentFiles data).map Prod.fst ↔
      ((∃ entry ∈ (Crates.select data.metadata "$.properties.files[*]").getD [], trackedUri entry = some uri) ∨
        (Json.field "image" (contentLinks data)).bind asStr = some uri) ∨
        (Json.field "animation_url" (contentLinks data)).bind asStr = some uri := by
  have start : Keyed [] := ⟨List.nodup_nil, List.forall_mem_nil _⟩
  obtain ⟨entries, inEntries⟩ := foldl_trackFile start
    ((Crates.select data.metadata "$.properties.files[*]").getD [])
  obtain ⟨image, inImage⟩ := trackTopLevelFile_keyed entries (Json.field "image" (contentLinks data))
  obtain ⟨animation, inAnimation⟩ := trackTopLevelFile_keyed image (Json.field "animation_url" (contentLinks data))
  refine ⟨animation, fun uri => ?_⟩
  rw [contentFiles, inAnimation, inImage, inEntries]
  simp

def isImage (data : AssetDataRow) (file : File) : Bool :=
  (Json.field "image" (contentLinks data)).bind asStr == some file.uri

theorem v1ContentFromJson_files (data : AssetDataRow) : (v1ContentFromJson data).files =
    ((contentFiles data).map Prod.snd).filter (isImage data) ++
      ((contentFiles data).map Prod.snd).filter (fun file => !isImage data file) := rfl

theorem compareFiles_image {data : AssetDataRow} {a b : File} :
    compareFiles (Json.field "image" (v1ContentFromJson data).links) a b = .lt ↔ isImage data a = true :=
  compareFiles_lt.trans beq_iff_eq.symm

/-- The order in which the model lists the files is one that the sort admits. -/
theorem v1ContentFromJson_returned (data : AssetDataRow) : Returned data (v1ContentFromJson data).files := by
  refine ⟨.refl _, ?_⟩
  have keyed := (contentFiles_keyed data).1
  have different : ((contentFiles data).map Prod.snd).Pairwise (fun a b => a.uri ≠ b.uri) := by
    rw [← List.pairwise_map, keyed.uris]
    exact keyed.distinct
  have notImage : ∀ file ∈ ((contentFiles data).map Prod.snd).filter (fun file => !isImage data file),
      ∀ earlier, compareFiles (Json.field "image" (v1ContentFromJson data).links) file earlier ≠ .lt := by
    intro file member earlier less
    have filtered := (List.mem_filter.mp member).2
    rw [compareFiles_image.mp less] at filtered
    cases filtered
  rw [v1ContentFromJson_files]
  refine List.pairwise_append.mpr ⟨?_, ?_, fun a _ b member => notImage b member a⟩
  · refine (different.filter _).imp_of_mem (fun first second distinct _ => distinct ?_)
    have image := beq_iff_eq.mp (List.mem_filter.mp first).2
    have alsoImage := beq_iff_eq.mp (List.mem_filter.mp second).2
    exact Option.some.inj (image.symm.trans alsoImage)
  · exact List.pairwise_of_forall_mem_list (fun a _ b member => notImage b member a)

section Follows
variable {data : AssetDataRow} {uri : String} (follows : FollowsPaths data.metadata)

theorem link_of_selects {name : String} (listed : name ∈ ["image", "animation_url", "external_url"])
    (selects : Crates.select data.metadata ("$." ++ name) = some (get name data.metadata).toList) :
    (Json.field name (contentLinks data)).bind asStr = linkUri data.metadata name := by
  have linked : Json.field name (contentLinks data) = get name data.metadata := by
    rw [contentLinks, field_setItems, if_pos listed, show Json.field name [] = none from rfl, Option.or_none]
    exact safeSelect_toList selects
  rw [linked, linkUri]

include follows

theorem mem_contentFiles : uri ∈ (contentFiles data).map Prod.fst ↔
    NamedPlainly data.metadata uri ∨ ∃ value ∈ untyped data.metadata, Crates.jsonText value = uri := by
  rw [(contentFiles_keyed data).2, follows.files, Option.getD_some, tracked_iff,
    link_of_selects (by decide) follows.image, link_of_selects (by decide) follows.animation, NamedPlainly]
  rw [or_assoc, or_right_comm]

/-- Every file of the metadata is listed once, with the image first, exactly if the
JSON texts of the addresses without a type are named as well. -/
theorem content_files_iff {files : List File} (returned : Returned data files) :
    ListsFiles data.metadata files ↔ TextsNamed data.metadata := by
  have keyed := (contentFiles_keyed data).1
  have uris : (files.map File.uri).Perm ((contentFiles data).map Prod.fst) := by
    rw [← keyed.uris]
    have values : (v1ContentFromJson data).files.Perm ((contentFiles data).map Prod.snd) :=
      List.filter_append_perm (isImage data) _
    exact (returned.perm.trans values).map File.uri
  have listed : ∀ uri, uri ∈ files.map File.uri ↔
      NamedPlainly data.metadata uri ∨ ∃ value ∈ untyped data.metadata, Crates.jsonText value = uri :=
    fun uri => uris.mem_iff.trans (mem_contentFiles follows)
  constructor
  · intro lists
    refine ⟨fun value member => (lists.named _).mp ((listed _).mpr (Or.inr ⟨value, member, rfl⟩)), ?_⟩
    intro uri member
    exact (listed uri).mp ((lists.named uri).mpr (named_iff.mpr (Or.inr member)))
  · intro texts
    refine ⟨uris.nodup_iff.mpr keyed.distinct, fun uri => ?_, fun uri isImage => ?_⟩
    · rw [listed]
      constructor
      · intro either
        rcases either with plainly | ⟨value, member, text⟩
        · exact named_iff.mpr (Or.inl plainly)
        · rw [← text]
          exact texts.text value member
      · intro named
        rcases named_iff.mp named with plainly | member
        · exact Or.inl plainly
        · exact texts.uri uri member
    · have member := (listed uri).mpr (Or.inl (Or.inr (Or.inl isImage)))
      have sorted := returned.sorted
      cases files with
      | nil => cases member
      | cons first rest =>
        rcases List.mem_cons.mp member with same | later
        · rw [same]
          rfl
        · obtain ⟨file, inRest, isFile⟩ := List.mem_map.mp later
          refine absurd (compareFiles_lt.mpr ?_) ((List.pairwise_cons.mp sorted).1 file inRest)
          rw [isFile, ← isImage]
          exact link_of_selects (by decide) follows.image

end Follows

end Content

namespace ContentFiles.Example

/-- The crates on the documents below: paths of one name, and strings that need no
escapes. -/
@[reducible] def crates : Crates where
  select value path :=
    some (if path = "$.properties.files[*]" then fileEntries value
      else (get (String.ofList (path.toList.drop 2)) value).toList)
  jsonText value := match value with
    | .str text => "\"" ++ text ++ "\""
    | _ => "null"
  mimeOfUri uri := if uri = "https://example.com/2.mp4" then some "video/mp4" else none

/-- The metadata of an asset with an image and the given files. -/
def data (files : List Json) : AssetDataRow where
  chainDataMutability := .mutable
  chainData := .obj []
  metadataUrl := "https://example.com/1.json"
  metadataMutability := .mutable
  metadata := .obj [("image", .str "https://example.com/1.png"), ("properties", .obj [("files", .arr files)])]
  slotUpdated := 1
  reindex := none
  rawName := none
  rawSymbol := none
  baseInfoSeq := none

theorem followsPaths (metadata : Json) : @FollowsPaths metadata crates := by
  have image : String.ofList ("$.image".toList.drop 2) = "image" := by decide
  have animation : String.ofList ("$.animation_url".toList.drop 2) = "animation_url" := by decide
  refine @FollowsPaths.mk metadata crates ?_ ?_ ?_
  · rfl
  · show some (if "$.image" = "$.properties.files[*]" then _ else (get (String.ofList _) metadata).toList) = _
    rw [if_neg (by decide), image]
  · show some (if "$.animation_url" = "$.properties.files[*]" then _ else (get (String.ofList _) metadata).toList) = _
    rw [if_neg (by decide), animation]

/-- A typed entry with a url, a string, and a number that names no file. -/
def typedFiles : List Json :=
  [.obj [("url", .str "https://example.com/2.mp4"), ("type", .str "video/mp4")], .str "https://example.com/3.png", .num 4]

theorem typed_files_listed :
    ListsFiles (data typedFiles).metadata (@v1ContentFromJson crates (data typedFiles)).files := by
  have allTyped : untyped (data typedFiles).metadata = [] := rfl
  refine (@content_files_iff crates (data typedFiles) (followsPaths _) _
    (@v1ContentFromJson_returned crates (data typedFiles))).mpr (@TextsNamed.mk _ crates ?_ ?_)
  · intro value member
    rw [allTyped] at member
    cases member
  · intro uri member
    rw [allTyped] at member
    cases member

/-- One entry with a uri and no type. -/
def untypedFiles : List Json := [.obj [("uri", .str "https://example.com/2.mp4")]]

/-- The uri of the entry is listed with the quotes of its JSON text, after the image. -/
theorem untyped_file_quoted :
    (@v1ContentFromJson crates (data untypedFiles)).files.map File.uri =
        ["https://example.com/1.png", "\"https://example.com/2.mp4\""] ∧
      ¬ ListsFiles (data untypedFiles).metadata (@v1ContentFromJson crates (data untypedFiles)).files := by
  have listed : (@v1ContentFromJson crates (data untypedFiles)).files.map File.uri =
      ["https://example.com/1.png", "\"https://example.com/2.mp4\""] := by decide
  refine ⟨listed, fun lists => ?_⟩
  have named : Named (data untypedFiles).metadata "https://example.com/2.mp4" :=
    Or.inl ⟨_, List.mem_cons_self, rfl⟩
  have member := (lists.named _).mpr named
  rw [listed] at member
  revert member
  decide

end ContentFiles.Example

end DasIndexer.Rpc
