import DasIndexer.Lib.Select
import Mathlib.Data.List.Infix

namespace Sql

namespace Literal

/-- Where a reader of a string literal stands. -/
inductive Place where
  | inside
  /-- Just behind a quote: the literal may end here, the quote may be doubled, or
  another part may follow on a later line. -/
  | quote
  | gap (newline : Bool)
  | dash
  | comment
  deriving DecidableEq, Repr

def isNewline (c : Char) : Bool := c = '\n' || c = '\r'

def isSpace (c : Char) : Bool := c = ' ' || c = '\t' || c = '\x0b' || c = '\x0c' || isNewline c

/-- Only white space with a line break and comments stand between two parts of one
literal. -/
def behind (newline : Bool) (c : Char) : Option Place :=
  if isSpace c then some (.gap (newline || isNewline c))
  else if c = '-' then some .dash
  else none

/-- What a text says that is one literal to its end, its first quote left out. -/
def read : Place → List Char → Option (List Char)
  | .quote, [] => some []
  | _, [] => none
  | .inside, c :: rest => if c = '\'' then read .quote rest else (read .inside rest).map (c :: ·)
  | .quote, c :: rest =>
    if c = '\'' then (read .inside rest).map ('\'' :: ·) else (behind false c).bind (fun place => read place rest)
  | .gap newline, c :: rest =>
    if c = '\'' then if newline then read .inside rest else none
    else (behind newline c).bind (fun place => read place rest)
  | .dash, c :: rest => if c = '-' then read .comment rest else none
  | .comment, c :: rest => if isNewline c then read (.gap true) rest else read .comment rest

theorem read_plain {text : List Char} (unquoted : '\'' ∉ text) : read .inside (text ++ ['\'']) = some text := by
  induction text with
  | nil => rfl
  | cons c rest ih =>
    rw [List.mem_cons, not_or] at unquoted
    rw [List.cons_append, read, if_neg (fun same => unquoted.1 same.symm), ih unquoted.2]
    rfl

/-- The quotes that are still to come. -/
def Place.pending : Place → Nat
  | .quote => 0
  | _ => 1

theorem behind_pending {newline : Bool} {c : Char} {place : Place} (next : behind newline c = some place) :
    place.pending = 1 := by
  unfold behind at next
  split at next
  · cases next
    rfl
  · split at next
    · cases next
      rfl
    · cases next

theorem read_length {place : Place} {text said : List Char} (reads : read place text = some said) :
    said.length + place.pending ≤ text.length := by
  induction text generalizing place said with
  | nil =>
    cases place with
    | quote =>
      cases reads
      exact Nat.le_refl 0
    | inside => cases reads
    | gap _ => cases reads
    | dash => cases reads
    | comment => cases reads
  | cons c rest ih =>
    have follows : ∀ {newline said}, (behind newline c).bind (fun place => read place rest) = some said →
        said.length + 1 ≤ rest.length := by
      intro newline said reads
      obtain ⟨next, isNext, reads⟩ := Option.bind_eq_some_iff.mp reads
      have shorter := ih reads
      rwa [behind_pending isNext] at shorter
    have kept : ∀ {first said}, (read .inside rest).map (first :: ·) = some said → said.length ≤ rest.length := by
      intro first said reads
      obtain ⟨tail, readsTail, same⟩ := Option.map_eq_some_iff.mp reads
      rw [← same]
      exact ih readsTail
    rw [List.length_cons]
    cases place with
    | inside =>
      rw [read] at reads
      show said.length + 1 ≤ rest.length + 1
      split at reads
      · have shorter := ih reads
        exact Nat.succ_le_succ shorter
      · exact Nat.succ_le_succ (kept reads)
    | quote =>
      rw [read] at reads
      show said.length ≤ rest.length + 1
      split at reads
      · exact (kept reads).trans (Nat.le_succ _)
      · have shorter := follows reads
        omega
    | gap newline =>
      rw [read] at reads
      show said.length + 1 ≤ rest.length + 1
      split at reads
      · split at reads
        · have shorter := ih reads
          exact shorter.trans (Nat.le_succ _)
        · cases reads
      · have shorter := follows reads
        omega
    | dash =>
      rw [read] at reads
      show said.length + 1 ≤ rest.length + 1
      split at reads
      · have shorter := ih reads
        exact shorter.trans (Nat.le_succ _)
      · cases reads
    | comment =>
      rw [read] at reads
      show said.length + 1 ≤ rest.length + 1
      split at reads
      · have shorter := ih reads
        exact shorter.trans (Nat.le_succ _)
      · have shorter := ih reads
        exact shorter.trans (Nat.le_succ _)

/-- A literal without quotes says its own text, any other says less. -/
theorem read_cases {text said : List Char} (reads : read .inside text = some said) :
    (text = said ++ ['\''] ∧ '\'' ∉ said) ∨ said.length + 2 ≤ text.length := by
  induction text generalizing said with
  | nil => cases reads
  | cons c rest ih =>
    rw [read] at reads
    split at reads
    · rename_i quote
      cases rest with
      | nil =>
        cases reads
        exact Or.inl ⟨by rw [quote, List.nil_append], nofun⟩
      | cons next rest =>
        right
        have shorter : said.length ≤ rest.length := by
          rw [read] at reads
          split at reads
          · obtain ⟨tail, readsTail, same⟩ := Option.map_eq_some_iff.mp reads
            rw [← same]
            exact read_length readsTail
          · obtain ⟨place, isNext, reads⟩ := Option.bind_eq_some_iff.mp reads
            have shorter := read_length reads
            rw [behind_pending isNext] at shorter
            omega
        rw [List.length_cons, List.length_cons]
        omega
    · rename_i notQuote
      obtain ⟨tail, readsTail, same⟩ := Option.map_eq_some_iff.mp reads
      subst same
      rcases ih readsTail with ⟨own, unquoted⟩ | shorter
      · left
        rw [own, List.cons_append, List.mem_cons, not_or]
        exact ⟨rfl, fun same => notQuote same.symm, unquoted⟩
      · right
        rw [List.length_cons, List.length_cons]
        omega

/-- What stands before the last quote is the end of what is said. -/
theorem read_ends {place : Place} {text said : List Char} {last : Char} (printed : last ≠ '\'')
    (spaced : isSpace last = false) (dashed : last ≠ '-') (reads : read place (text ++ [last, '\'']) = some said) :
    ∃ front, said = front ++ [last] := by
  have notNewline : isNewline last = false := by
    unfold isSpace at spaced
    simp only [Bool.or_eq_false_iff] at spaced
    exact spaced.2
  have stops : ∀ newline, behind newline last = none := by
    intro newline
    rw [behind, spaced, if_neg nofun, if_neg dashed]
  induction text generalizing place said with
  | nil =>
    rw [List.nil_append] at reads
    cases place with
    | inside =>
      rw [read, if_neg printed] at reads
      cases reads
      exact ⟨[], rfl⟩
    | quote =>
      rw [read, if_neg printed, stops] at reads
      cases reads
    | gap newline =>
      rw [read, if_neg printed, stops] at reads
      cases reads
    | dash =>
      rw [read, if_neg dashed] at reads
      cases reads
    | comment =>
      rw [read, notNewline] at reads
      cases reads
  | cons c rest ih =>
    have follows : ∀ {newline said}, (behind newline c).bind (fun place => read place (rest ++ [last, '\''])) = some said →
        ∃ front, said = front ++ [last] := by
      intro newline said reads
      obtain ⟨next, -, reads⟩ := Option.bind_eq_some_iff.mp reads
      exact ih reads
    have kept : ∀ {first said}, (read .inside (rest ++ [last, '\''])).map (first :: ·) = some said →
        ∃ front, said = front ++ [last] := by
      intro first said reads
      obtain ⟨tail, readsTail, same⟩ := Option.map_eq_some_iff.mp reads
      obtain ⟨front, isFront⟩ := ih readsTail
      exact ⟨first :: front, by rw [← same, isFront, List.cons_append]⟩
    rw [List.cons_append] at reads
    cases place with
    | inside =>
      rw [read] at reads
      split at reads
      · exact ih reads
      · exact kept reads
    | quote =>
      rw [read] at reads
      split at reads
      · exact kept reads
      · exact follows reads
    | gap newline =>
      rw [read] at reads
      split at reads
      · split at reads
        · exact ih reads
        · cases reads
      · exact follows reads
    | dash =>
      rw [read] at reads
      split at reads
      · exact ih reads
      · cases reads
    | comment =>
      rw [read] at reads
      split at reads
      · exact ih reads
      · exact ih reads

end Literal

namespace Like

inductive Token where
  /-- `%`: any text. -/
  | any
  /-- `_`: any character. -/
  | one
  | char (c : Char)
  deriving DecidableEq, Repr

def token (c : Char) : Token := if c = '%' then .any else if c = '_' then .one else .char c

/-- A backslash takes the next character as it is; it may not come last. -/
def parse : (escaped : Bool) → List Char → Option (List Token)
  | escaped, [] => if escaped then none else some []
  | true, c :: rest => (parse false rest).map (.char c :: ·)
  | false, c :: rest => if c = '\\' then parse true rest else (parse false rest).map (token c :: ·)

def fits : List Token → List Char → Bool
  | [], text => text.isEmpty
  | .any :: pattern, text => text.tails.any (fits pattern)
  | .one :: pattern, text => match text with
    | [] => false
    | _ :: rest => fits pattern rest
  | .char c :: pattern, text => match text with
    | [] => false
    | d :: rest => c = d && fits pattern rest

/-- `value LIKE pattern`. -/
def like (value : Option String) (pattern : List Token) : Truth :=
  match value with
  | some value => .ofBool (fits pattern value.toList)
  | none => .null

theorem fits_any {pattern : List Token} {text : List Char} :
    fits (.any :: pattern) text = true ↔ ∃ front rest, text = front ++ rest ∧ fits pattern rest = true := by
  rw [fits, List.any_eq_true]
  constructor
  · rintro ⟨rest, isTail, fitsRest⟩
    obtain ⟨front, same⟩ := (List.mem_tails _ _).mp isTail
    exact ⟨front, rest, same.symm, fitsRest⟩
  · rintro ⟨front, rest, same, fitsRest⟩
    exact ⟨rest, (List.mem_tails _ _).mpr ⟨front, same.symm⟩, fitsRest⟩

theorem fits_chars {chars : List Char} {pattern : List Token} {text : List Char} :
    fits (chars.map .char ++ pattern) text = true ↔ ∃ rest, text = chars ++ rest ∧ fits pattern rest = true := by
  induction chars generalizing text with
  | nil => simp
  | cons c chars ih =>
    rw [List.map_cons, List.cons_append]
    cases text with
    | nil => simp [fits]
    | cons d text =>
      rw [fits, Bool.and_eq_true, decide_eq_true_eq, ih]
      constructor
      · rintro ⟨same, rest, isRest, fitsRest⟩
        exact ⟨rest, by rw [same, isRest, List.cons_append], fitsRest⟩
      · rintro ⟨rest, same, fitsRest⟩
        rw [List.cons_append] at same
        exact ⟨(List.cons.inj same).1.symm, rest, (List.cons.inj same).2, fitsRest⟩

theorem fits_infix {chars text : List Char} :
    fits (.any :: (chars.map .char ++ [.any])) text = true ↔ chars <:+: text := by
  have ends : ∀ rest, fits [.any] rest = true := fun rest => fits_any.mpr ⟨rest, [], by simp, rfl⟩
  rw [fits_any]
  constructor
  · rintro ⟨front, rest, same, fitsRest⟩
    obtain ⟨back, isBack, -⟩ := fits_chars.mp fitsRest
    exact ⟨front, back, by rw [same, isBack, List.append_assoc]⟩
  · rintro ⟨front, back, same⟩
    exact ⟨front, chars ++ back, by rw [← same, List.append_assoc], fits_chars.mpr ⟨back, rfl, ends back⟩⟩

/-- A shortest text that fits: nothing for `%`, and one letter for `_`. -/
def shortest (letter : Char) : List Token → List Char
  | [] => []
  | .any :: pattern => shortest letter pattern
  | .one :: pattern => letter :: shortest letter pattern
  | .char c :: pattern => c :: shortest letter pattern

theorem fits_shortest (letter : Char) (pattern : List Token) : fits pattern (shortest letter pattern) = true := by
  induction pattern with
  | nil => rfl
  | cons token pattern ih =>
    cases token with
    | any => exact fits_any.mpr ⟨[], _, rfl, ih⟩
    | one => exact ih
    | char c => simpa [shortest, fits] using ih

/-- The characters that do not stand for themselves. -/
def special : List Char := ['%', '_', '\\']

theorem parse_plain {chars : List Char} (plain : ∀ c ∈ chars, c ∉ special) :
    parse false (chars ++ ['%']) = some (chars.map .char ++ [.any]) := by
  induction chars with
  | nil => rfl
  | cons c chars ih =>
    have own := plain c List.mem_cons_self
    simp only [special, List.mem_cons, List.not_mem_nil, or_false, not_or] at own
    have isChar : token c = .char c := by rw [token, if_neg own.1, if_neg own.2.1]
    rw [List.cons_append, parse, if_neg own.2.2, ih (fun d member => plain d (List.mem_cons_of_mem c member)), isChar]
    rfl

/-- A pattern that ends in `%` fits a text that is no longer than what stands before,
and that is another text when something special stands there. -/
theorem parse_shortest {letter : Char} (other : letter ≠ '_') {escaped : Bool} {chars : List Char}
    {pattern : List Token} (parses : parse escaped (chars ++ ['%']) = some pattern) :
    (escaped = false → (shortest letter pattern).length ≤ chars.length ∧
      (shortest letter pattern = chars → ∀ c ∈ chars, c ∉ special)) ∧
    (escaped = true → (shortest letter pattern).length ≤ chars.length + 1 ∧
      shortest letter pattern ≠ '\\' :: chars) := by
  induction chars generalizing escaped pattern with
  | nil =>
    cases escaped with
    | false =>
      cases parses
      exact ⟨fun _ => ⟨Nat.le_refl 0, fun _ => nofun⟩, nofun⟩
    | true =>
      cases parses
      exact ⟨nofun, fun _ => ⟨Nat.le_refl 1, by simp [shortest]⟩⟩
  | cons c rest ih =>
    rw [List.cons_append] at parses
    cases escaped with
    | true =>
      rw [parse] at parses
      obtain ⟨tail, parsesTail, same⟩ := Option.map_eq_some_iff.mp parses
      subst same
      have shorter := ((ih parsesTail).1 rfl).1
      refine ⟨nofun, fun _ => ⟨?_, fun same => ?_⟩⟩
      · rw [shortest, List.length_cons, List.length_cons]
        omega
      · have lengths := congrArg List.length same
        rw [shortest, List.length_cons, List.length_cons, List.length_cons] at lengths
        omega
    | false =>
      refine ⟨fun _ => ?_, nofun⟩
      rw [parse] at parses
      split at parses
      · rename_i backslash
        obtain ⟨shorter, different⟩ := (ih parses).2 rfl
        exact ⟨shorter, fun same => absurd (backslash ▸ same) different⟩
      · rename_i notBackslash
        obtain ⟨tail, parsesTail, same⟩ := Option.map_eq_some_iff.mp parses
        subst same
        obtain ⟨shorter, plain⟩ := (ih parsesTail).1 rfl
        rw [List.length_cons]
        by_cases percent : c = '%'
        · rw [token, if_pos percent, shortest]
          refine ⟨shorter.trans (Nat.le_succ _), fun same => ?_⟩
          have lengths := congrArg List.length same
          rw [List.length_cons] at lengths
          omega
        · by_cases underscore : c = '_'
          · rw [token, if_neg percent, if_pos underscore, shortest, List.length_cons]
            refine ⟨Nat.succ_le_succ shorter, fun same => ?_⟩
            exact absurd ((List.cons.inj same).1.trans underscore) other
          · rw [token, if_neg percent, if_neg underscore, shortest, List.length_cons]
            refine ⟨Nat.succ_le_succ shorter, fun same d member => ?_⟩
            rcases List.mem_cons.mp member with own | later
            · simp [own, special, percent, underscore, notBackslash]
            · exact plain (List.cons.inj same).2 d later

/-- The pattern of a literal whose first quote is left out. -/
def readPattern (text : List Char) : Option (List Token) := (Literal.read .inside text).bind (parse false)

/-- Text that stands for itself in the pattern of a literal. -/
def Plain (chars : List Char) : Prop := ∀ c ∈ chars, c ≠ '\'' ∧ c ∉ special

instance (chars : List Char) : Decidable (Plain chars) := List.decidableBAll _ _

theorem readPattern_plain {chars : List Char} (plain : Plain chars) :
    readPattern ('%' :: (chars ++ ['%', '\''])) = some (.any :: (chars.map .char ++ [.any])) := by
  have unquoted : '\'' ∉ '%' :: (chars ++ ['%']) := by
    intro quoted
    rcases List.mem_cons.mp quoted with same | quoted
    · exact absurd same (by decide)
    · rcases List.mem_append.mp quoted with quoted | last
      · exact (plain _ quoted).1 rfl
      · exact absurd (List.mem_singleton.mp last) (by decide)
  have whole : '%' :: (chars ++ ['%', '\'']) = '%' :: (chars ++ ['%']) ++ ['\''] := by simp
  rw [readPattern, whole, Literal.read_plain unquoted, Option.bind_some, parse, if_neg (by decide),
    parse_plain (fun c member => (plain c member).2)]
  rfl

/-- `'%text%'` looks for the text exactly when no character of it means anything to
the reader of the literal or of the pattern. -/
theorem readPattern_infix_iff {chars : List Char} :
    (∃ pattern, readPattern ('%' :: (chars ++ ['%', '\''])) = some pattern ∧
      ∀ text, fits pattern text = true ↔ chars <:+: text) ↔ Plain chars := by
  constructor
  · rintro ⟨pattern, isPattern, finds⟩
    obtain ⟨said, reads, parses⟩ := Option.bind_eq_some_iff.mp isPattern
    rw [Literal.read, if_neg (by decide)] at reads
    obtain ⟨tail, readsTail, same⟩ := Option.map_eq_some_iff.mp reads
    subst same
    obtain ⟨front, isFront⟩ := Literal.read_ends (by decide) (by decide) (by decide) readsTail
    subst isFront
    rw [parse, if_neg (by decide)] at parses
    obtain ⟨rest, parsesRest, same⟩ := Option.map_eq_some_iff.mp parses
    subst same
    obtain ⟨short, plain⟩ := (@parse_shortest 'a' (by decide) _ _ _ parsesRest).1 rfl
    have found := (finds _).mp (fits_shortest 'a' _)
    have long := found.length_le
    change chars.length ≤ (shortest 'a' rest).length at long
    rcases Literal.read_cases readsTail with ⟨own, unquoted⟩ | shorter
    · have isFront : chars = front := by simpa using own
      subst isFront
      have same := found.eq_of_length (by change _ = (shortest 'a' rest).length; omega)
      intro c member
      refine ⟨fun quote => unquoted ?_, plain same.symm c member⟩
      rw [← quote]
      exact List.mem_append_left _ member
    · simp only [List.length_append, List.length_cons, List.length_nil] at shorter
      omega
  · intro plain
    exact ⟨_, readPattern_plain plain, fun text => fits_infix⟩

end Like

end Sql
