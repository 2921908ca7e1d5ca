import DasIndexer.Api.Requests
import DasIndexer.Api.SearchDefaults
import DasIndexer.Lib.Like

namespace DasIndexer
open Sql

def likeLead : List Char := "chain_data->>'name' LIKE '".toList

/-- The pattern of a text that is one `LIKE` on the name, with nothing behind the
literal. -/
def readLike (text : String) : Option (List Like.Token) :=
  if likeLead.isPrefixOf text.toList then Like.readPattern (text.toList.drop likeLead.length) else none

/-- `chain_data->>'name'`, with the text of values that are neither text nor null. -/
def chainName (jsonText : Json → String) (row : Joined) : Option String :=
  match row.data.bind (fun data => Rpc.get "name" data.chainData) with
  | none => none
  | some .null => none
  | some (.str name) => some name
  | some other => some (jsonText other)

/-- What Postgres does with conditions that are one `LIKE` on the name. A statement
cannot hold the character zero. -/
class LikePostgres extends Postgres where
  jsonText : Json → String
  custom_like : ∀ text pattern, '\x00' ∉ text.toList → readLike text = some pattern →
    custom text = some (fun row => Like.like (chainName jsonText row) pattern)
  custom_nul : ∀ text, '\x00' ∈ text.toList → custom text = none

section Names
variable [LikePostgres]

def nameText (row : Joined) : Option String := chainName LikePostgres.jsonText row

/-- Whether the name of a row contains a text. -/
def nameContains (name : String) (row : Joined) : Truth :=
  match nameText row with
  | some shown => .ofBool (decide (name.toList <:+: shown.toList))
  | none => .null

end Names

namespace SearchAssetsQuery

/-- What a search says of a row of whose name it is known whether it matches. -/
def judge (query : SearchAssetsQuery) (named : Truth) (row : Joined) : Truth :=
  if query.negate = some true then (query.combine (query.terms row ++ [named])).not
  else query.combine (query.terms row ++ [named])

/-- No character of the name means anything to the statement it is pasted into. -/
def Searchable (name : String) : Prop := Like.Plain name.toList ∧ '\x00' ∉ name.toList

theorem nameExpr_toList (name : String) :
    (nameExpr name).toList = likeLead ++ '%' :: (name.toList ++ ['%', '\'']) := by
  have lead : "chain_data->>'name' LIKE '%".toList = likeLead ++ ['%'] := by decide
  have tail : "%'".toList = ['%', '\''] := by decide
  unfold nameExpr
  rw [String.toList_append, String.toList_append, lead, tail, List.append_assoc]
  exact List.append_assoc _ _ _

theorem readLike_nameExpr (name : String) :
    readLike (nameExpr name) = Like.readPattern ('%' :: (name.toList ++ ['%', '\''])) := by
  rw [readLike, nameExpr_toList, if_pos (List.isPrefixOf_iff_prefix.mpr (List.prefix_append _ _)), List.drop_left]

theorem nameExpr_nul {name : String} : '\x00' ∈ (nameExpr name).toList ↔ '\x00' ∈ name.toList := by
  have unmarked : '\x00' ∉ likeLead := by decide
  rw [nameExpr_toList, List.mem_append, or_iff_right unmarked, List.mem_cons, or_iff_right (by decide),
    List.mem_append]
  exact or_iff_left (by decide)

theorem utf8Text_utf8 (s : String) : Rpc.utf8Text (utf8 s) = some s := by
  have bytes : (⟨(utf8 s).toArray⟩ : ByteArray) = s.toByteArray := by
    simp [utf8]
  rw [Rpc.utf8Text, bytes, String.fromUTF8?, dif_pos s.isValidUTF8]
  rfl

section Names
variable [LikePostgres]

/-- The name a search asks for is a text to look for and nothing else. -/
structure NameIsData (name : String) (bytes : Bytes) : Prop where
  oneLike : (readLike (nameExpr name)).isSome = true
  finds : ∃ condition, nameCondition bytes = .ok condition ∧
    ∀ row, (condition row).holds = true ↔ ∃ shown, nameText row = some shown ∧ name.toList <:+: shown.toList
  searches : ∀ query : SearchAssetsQuery, query.validate = .ok () →
    conditions { query with name := some bytes } =
      .ok (fun row => query.judge (nameContains name row) row, joins { query with name := some [] })

theorem holds_like {row : Joined} {pattern : List Like.Token} :
    (Like.like (nameText row) pattern).holds = true ↔
      ∃ shown, nameText row = some shown ∧ Like.fits pattern shown.toList = true := by
  cases named : nameText row with
  | none => simp [Like.like, Truth.holds]
  | some shown => simp [Like.like]

/-- A row of the given name. -/
def rowNamed (shown : String) : Joined where
  asset := (.fill 0, {})
  data := some { chainData := .obj [("name", .str shown)], metadataUrl := "", metadata := .null, slotUpdated := 0 }

theorem nameText_rowNamed (shown : String) : nameText (rowNamed shown) = some shown := rfl

theorem nameCondition_like {name : String} {pattern : List Like.Token} (terminated : '\x00' ∉ name.toList)
    (reads : readLike (nameExpr name) = some pattern) :
    nameCondition (utf8 name) = .ok (fun row => Like.like (nameText row) pattern) := by
  have isCustom : Postgres.custom (nameExpr name) = some (fun row => Like.like (nameText row) pattern) :=
    LikePostgres.custom_like _ pattern (fun nul => terminated (nameExpr_nul.mp nul)) reads
  simp only [nameCondition, utf8Text_utf8, isCustom]

theorem nameCondition_nul {name : String} (nul : '\x00' ∈ name.toList) :
    nameCondition (utf8 name) = .error (.query "syntax error") := by
  have refused := LikePostgres.custom_nul (nameExpr name) (nameExpr_nul.mpr nul)
  simp only [nameCondition, utf8Text_utf8, refused]

theorem like_contains {name : String} (row : Joined) :
    Like.like (nameText row) (.any :: (name.toList.map .char ++ [.any])) = nameContains name row := by
  unfold nameContains
  cases nameText row with
  | none => rfl
  | some shown =>
    refine congrArg Truth.ofBool ?_
    rw [Bool.eq_iff_iff, decide_eq_true_eq]
    exact Like.fits_infix

theorem conditions_named {query : SearchAssetsQuery} {bytes : Bytes} {condition : Joined → Truth}
    (valid : query.validate = .ok ()) (named : nameCondition bytes = .ok condition) :
    conditions { query with name := some bytes } =
      .ok (fun row => query.judge (condition row) row, joins { query with name := some [] }) := by
  have valid' : ({ query with name := some bytes } : SearchAssetsQuery).validate = .ok () := valid
  have isName : (some bytes).mapM nameCondition = .ok (some condition) := Loops.map_eq_ok.mpr ⟨condition, named, rfl⟩
  have terms : ∀ row, ({ query with name := some bytes } : SearchAssetsQuery).terms row = query.terms row := fun row => rfl
  refine (conditions_of_valid valid' isName).trans (congrArg Except.ok (Prod.ext (funext fun row => ?_) rfl))
  simp only [terms, judge, combine, Option.map_some, Option.toList_some]

/-- A name is looked for as it is exactly when none of its characters means anything
to the statement. -/
theorem name_is_data_iff {name : String} {owner : Option Pubkey} {bytes : Bytes}
    (accepted : validateSearchWithName (some name) owner = .ok (some bytes)) :
    NameIsData name bytes ↔ Searchable name := by
  have isBytes : bytes = utf8 name := by
    rw [validateSearchWithName] at accepted
    split at accepted
    · cases accepted
    · exact (Option.some.inj (Except.ok.inj accepted)).symm
  subst isBytes
  constructor
  · rintro ⟨oneLike, ⟨condition, isCondition, finds⟩, -⟩
    have terminated : '\x00' ∉ name.toList := by
      intro nul
      rw [nameCondition_nul nul] at isCondition
      cases isCondition
    obtain ⟨pattern, reads⟩ := Option.isSome_iff_exists.mp oneLike
    rw [nameCondition_like terminated reads] at isCondition
    rw [← Except.ok.inj isCondition] at finds
    rw [readLike_nameExpr] at reads
    refine ⟨Like.readPattern_infix_iff.mp ⟨pattern, reads, fun text => ?_⟩, terminated⟩
    have found := (holds_like.symm.trans (finds (rowNamed (String.ofList text))))
    simpa [nameText_rowNamed] using found
  · rintro ⟨plain, terminated⟩
    have reads := (readLike_nameExpr name).trans (Like.readPattern_plain plain)
    have isCondition := nameCondition_like terminated reads
    refine ⟨by rw [reads]; rfl, ⟨_, isCondition, fun row => ?_⟩, fun query valid => ?_⟩
    · rw [holds_like]
      simp only [Like.fits_infix]
    · rw [conditions_named valid isCondition]
      simp only [like_contains]

end Names

section Examples

/-- The text of numbers and truth values; lists and objects are shown as empty. -/
def scalarText : Json → String
  | .num n => toString n
  | .bool true => "true"
  | .bool false => "false"
  | .arr _ => "[]"
  | _ => "\x7b\x7d"

/-- A Postgres that reads no other conditions than the names searched for. -/
@[reducible] def likesOnly : LikePostgres where
  custom text := if '\x00' ∈ text.toList then none
    else (readLike text).map (fun pattern row => Like.like (chainName scalarText row) pattern)
  jsonText := scalarText
  custom_like text pattern terminated reads := by rw [if_neg terminated, reads]; rfl
  custom_nul text nul := if_pos nul

theorem name_is_data_plain :
    validateSearchWithName (some "Mad Lads") (some (.fill 0)) = .ok (some (utf8 "Mad Lads")) ∧
      @NameIsData likesOnly "Mad Lads" (utf8 "Mad Lads") :=
  ⟨rfl, (@name_is_data_iff likesOnly "Mad Lads" (some (.fill 0)) _ rfl).mpr ⟨by decide, by decide⟩⟩

/-- A percent sign finds every name, and a quote ends the literal. -/
theorem name_is_no_data :
    (validateSearchWithName (some "%") (some (.fill 0)) = .ok (some (utf8 "%")) ∧
      (∃ condition, @nameCondition likesOnly.toPostgres (utf8 "%") = .ok condition ∧
        (condition (rowNamed "Mad Lads")).holds = true ∧ ¬ "%".toList <:+: "Mad Lads".toList) ∧
      ¬ @NameIsData likesOnly "%" (utf8 "%")) ∧
    validateSearchWithName (some "' OR 'a' LIKE 'a") (some (.fill 0)) = .ok (some (utf8 "' OR 'a' LIKE 'a")) ∧
      readLike (nameExpr "' OR 'a' LIKE 'a") = none ∧
      ¬ @NameIsData likesOnly "' OR 'a' LIKE 'a" (utf8 "' OR 'a' LIKE 'a") := by
  have everything : readLike (nameExpr "%") = some [.any, .any, .any] := by decide
  have isCondition := @nameCondition_like likesOnly _ _ (by decide) everything
  have found : (Like.like (@nameText likesOnly (rowNamed "Mad Lads")) [.any, .any, .any]).holds = true := by
    decide
  have absent : ¬ "%".toList <:+: "Mad Lads".toList := by decide
  have broken : readLike (nameExpr "' OR 'a' LIKE 'a") = none := by decide
  refine ⟨⟨rfl, ⟨_, isCondition, found, absent⟩, fun data => ?_⟩, rfl, broken, fun data => ?_⟩
  · obtain ⟨condition, sameCondition, finds⟩ := @NameIsData.finds likesOnly _ _ data
    cases isCondition.symm.trans sameCondition
    obtain ⟨shown, isShown, contains⟩ := (finds (rowNamed "Mad Lads")).mp found
    cases isShown
    exact absent contains
  · have one := @NameIsData.oneLike likesOnly _ _ data
    rw [broken] at one
    cases one

end Examples

end SearchAssetsQuery

end DasIndexer
