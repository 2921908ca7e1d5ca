import DasIndexer.Base58
import DasIndexer.Blockbuster.Bubblegum
import DasIndexer.Lib.Layout

namespace DasIndexer.Blockbuster
open Layout Loops

structure InscriptionData where
  authority : String
  root : String
  content : String
  encoding : String
  inscriptionData : String
  order : UInt64
  size : UInt32
  validationHash : Option String
  deriving DecidableEq

/-- What stops the parser without a result. -/
inductive Panic where
  | overflow
  | outOfBounds
  | unwrappedSize
  | unwrappedUtf8
  deriving DecidableEq

namespace InscriptionData

def baseSize : Nat := 121

def inscriptionAccDataDisc : Bytes := [232, 120, 205, 47, 153, 239, 229, 224]

/-- `&data[start..stop]` with bounds that are sums of `usize` numbers. -/
def index (data : Bytes) (start stop : Nat) : Except Panic Bytes :=
  if 2 ^ 64 ≤ stop then .error .overflow
  else match slice data start stop with
    | some field => .ok field
    | none => .error .outOfBounds

/-- `Pubkey::try_from(..).unwrap()`. -/
def pubkey (bytes : Bytes) : Except Panic Pubkey :=
  match Bytes32.ofBytes? bytes with
  | some key => .ok key
  | none => .error .unwrappedSize

/-- `String::from_utf8(..).unwrap()`. -/
def text (bytes : Bytes) : Except Panic String :=
  match String.fromUTF8? ⟨bytes.toArray⟩ with
  | some text => .ok text
  | none => .error .unwrappedUtf8

/-- The hash behind its option byte. -/
def validationHashAt (data : Bytes) (contentTypeLen encodingLen : Nat) (present : Bool) : Except Panic (Option String) :=
  if present then do
    let validationHashLen := littleEndian (← index data (124 + contentTypeLen + encodingLen + 1)
      (128 + contentTypeLen + encodingLen + 1))
    let hash ← text (← index data (128 + contentTypeLen + encodingLen + 1)
      (128 + contentTypeLen + encodingLen + 1 + validationHashLen))
    return some hash
  else return none

/-- The fields behind the discriminator. -/
def unpackFields (data : Bytes) : Except Panic InscriptionData := do
  let authority ← pubkey (← index data 8 40)
  let mint ← pubkey (← index data 40 72)
  let inscriptionData ← pubkey (← index data 72 104)
  let order := littleEndian (← index data 104 112)
  let size := littleEndian (← index data 112 116)
  let contentTypeLen := littleEndian (← index data 116 120)
  let content ← text (← index data 120 (120 + contentTypeLen))
  let encodingLen := littleEndian (← index data (120 + contentTypeLen) (124 + contentTypeLen))
  let encoding ← text (← index data (124 + contentTypeLen) (124 + contentTypeLen + encodingLen))
  let validationExists ← index data (124 + contentTypeLen + encodingLen) (124 + contentTypeLen + encodingLen + 1)
  let validationHash ← validationHashAt data contentTypeLen encodingLen (validationExists = [1])
  return {
    authority := authority.toBase58
    root := mint.toBase58
    content
    encoding
    inscriptionData := inscriptionData.toBase58
    order := UInt64.ofNat order
    size := UInt32.ofNat size
    validationHash }

def tryUnpackData (data : Bytes) : Except Panic (Except BlockbusterError InscriptionData) := do
  let accDisc ← index data 0 8
  if accDisc ≠ inscriptionAccDataDisc then return .error .invalidAccountType
  else if data.length < baseSize then
    return .error (.customDeserializationError "Inscription Data is too short")
  else return .ok (← unpackFields data)

end InscriptionData

/-- What the account of an inscription holds. -/
structure Inscription where
  authority : Pubkey
  root : Pubkey
  inscriptionData : Pubkey
  order : UInt64
  size : UInt32
  content : String
  encoding : String
  validationHash : Option String
  contentFits : (utf8 content).length < 2 ^ 32
  encodingFits : (utf8 encoding).length < 2 ^ 32
  hashFits : ∀ hash ∈ validationHash, (utf8 hash).length < 2 ^ 32

/-- A text behind the length of its bytes. -/
def lengthPrefixed (s : String) : Bytes := toLittleEndian 4 (utf8 s).length ++ utf8 s

namespace Inscription

/-- The option byte and, where there is one, the hash. -/
def hashLayout (absent : UInt8) : Option String → Bytes
  | some hash => 1 :: lengthPrefixed hash
  | none => [absent]

/-- The bytes of an inscription, with the option byte that it has without a hash. -/
def layoutAs (inscription : Inscription) (absent : UInt8) : Bytes :=
  InscriptionData.inscriptionAccDataDisc ++ inscription.authority.bytes ++ inscription.root.bytes ++
    inscription.inscriptionData.bytes ++ toLittleEndian 8 inscription.order.toNat ++
    toLittleEndian 4 inscription.size.toNat ++ lengthPrefixed inscription.content ++
    lengthPrefixed inscription.encoding ++ hashLayout absent inscription.validationHash

def layout (inscription : Inscription) : Bytes := inscription.layoutAs 0

/-- The inscription with its keys as base58 text. -/
def toData (inscription : Inscription) : InscriptionData where
  authority := inscription.authority.toBase58
  root := inscription.root.toBase58
  content := inscription.content
  encoding := inscription.encoding
  inscriptionData := inscription.inscriptionData.toBase58
  order := inscription.order
  size := inscription.size
  validationHash := inscription.validationHash

end Inscription

section Fields
variable {data field rest : Bytes} {start middle stop : Nat} {s : String}

theorem index_eq_ok : InscriptionData.index data start stop = .ok field ↔
    stop < 2 ^ 64 ∧ slice data start stop = some field := by
  unfold InscriptionData.index
  by_cases large : 2 ^ 64 ≤ stop
  · rw [if_pos large]
    exact ⟨nofun, fun ⟨small, _⟩ => absurd small (Nat.not_lt.mpr large)⟩
  · rw [if_neg large]
    cases slice data start stop with
    | none => simp
    | some found =>
      simp
      omega

theorem index_field (stands : Behind data start (field ++ rest)) (ends : stop = start + field.length)
    (fits : stop < 2 ^ 64) : InscriptionData.index data start stop = .ok field :=
  index_eq_ok.mpr ⟨fits, stands.slice_eq ends⟩

theorem index_le (read : InscriptionData.index data start stop = .ok field) : stop ≤ data.length :=
  (Option.ite_none_right_eq_some.mp (index_eq_ok.mp read).2).1.2

/-- A field that was read stands at its offset. -/
theorem of_index (stands : Behind data start rest) (read : InscriptionData.index data start stop = .ok field) :
    ∃ later, rest = field ++ later ∧ stop = start + field.length ∧ Behind data stop later := by
  obtain ⟨later, parts, ends⟩ := stands.of_slice (index_eq_ok.mp read).2
  subst parts
  exact ⟨later, rfl, ends, stands.next ends⟩

theorem pubkey_eq_ok {key : Pubkey} : InscriptionData.pubkey field = .ok key ↔ field = key.bytes := by
  unfold InscriptionData.pubkey
  constructor
  · intro read
    split at read
    · rename_i found isKey
      cases read
      unfold Bytes32.ofBytes? at isKey
      split at isKey
      · cases isKey
        rfl
      · cases isKey
    · cases read
  · rintro rfl
    rw [Bytes32.ofBytes?_bytes]

theorem text_eq_ok : InscriptionData.text field = .ok s ↔ field = utf8 s := by
  unfold InscriptionData.text String.fromUTF8?
  constructor
  · intro read
    by_cases valid : ByteArray.IsValidUTF8 ⟨field.toArray⟩
    · rw [dif_pos valid] at read
      cases read
      rfl
    · rw [dif_neg valid] at read
      cases read
  · rintro rfl
    have bytes : (⟨(utf8 s).toArray⟩ : ByteArray) = s.toByteArray := by
      simp [utf8]
    rw [bytes, dif_pos s.isValidUTF8]
    rfl

@[simp] theorem pubkey_bytes (key : Pubkey) : InscriptionData.pubkey key.bytes = .ok key := pubkey_eq_ok.mpr rfl

@[simp] theorem text_utf8 (s : String) : InscriptionData.text (utf8 s) = .ok s := text_eq_ok.mpr rfl

/-- A text is read by its length. -/
theorem read_lengthPrefixed (stands : Behind data start (lengthPrefixed s ++ rest)) (fits : (utf8 s).length < 2 ^ 32)
    (bodyAt : middle = start + 4) (small : middle < 2 ^ 63) :
    InscriptionData.index data start middle = .ok (toLittleEndian 4 (utf8 s).length) ∧
      littleEndian (toLittleEndian 4 (utf8 s).length) = (utf8 s).length ∧
      InscriptionData.index data middle (middle + (utf8 s).length) = .ok (utf8 s) ∧
      Behind data (middle + (utf8 s).length) rest := by
  rw [lengthPrefixed, List.append_assoc] at stands
  have body : Behind data middle (utf8 s ++ rest) := stands.next (by rw [toLittleEndian_length, bodyAt])
  refine ⟨index_field stands (by rw [toLittleEndian_length, bodyAt]) (by omega), littleEndian_toLittleEndian fits,
    index_field body rfl (by omega), body.next rfl⟩

/-- A text that was read stands behind its length. -/
theorem of_lengthPrefixed {size : Bytes} (stands : Behind data start rest)
    (readSize : InscriptionData.index data start middle = .ok size) (bodyAt : middle = start + 4)
    (readBody : InscriptionData.index data middle (middle + littleEndian size) = .ok field)
    (isText : InscriptionData.text field = .ok s) :
    ∃ later, rest = lengthPrefixed s ++ later ∧ (utf8 s).length = littleEndian size ∧ (utf8 s).length < 2 ^ 32 ∧
      Behind data (middle + littleEndian size) later := by
  obtain ⟨body, rfl, sizeEnds, atBody⟩ := of_index stands readSize
  obtain ⟨later, rfl, bodyEnds, atLater⟩ := of_index atBody readBody
  have four : size.length = 4 := by omega
  have isBody := text_eq_ok.mp isText
  subst isBody
  have length : (utf8 s).length = littleEndian size := by omega
  have bound := littleEndian_lt size
  rw [four] at bound
  have written := toLittleEndian_littleEndian size
  rw [four, ← length] at written
  refine ⟨later, ?_, length, by omega, atLater⟩
  rw [lengthPrefixed, written, List.append_assoc]

end Fields

section Layouts
variable {data : Bytes} {start : Nat}

/-- The option byte and the hash are read, whatever byte says that there is none. -/
theorem read_hashLayout {hash : Option String} {absent : UInt8} {trailing : Bytes} {contentTypeLen encodingLen : Nat}
    (stands : Behind data (124 + contentTypeLen + encodingLen) (Inscription.hashLayout absent hash ++ trailing))
    (noHash : absent ≠ 1) (fits : ∀ text ∈ hash, (utf8 text).length < 2 ^ 32)
    (small : contentTypeLen < 2 ^ 32 ∧ encodingLen < 2 ^ 32) :
    ∃ validationExists, InscriptionData.index data (124 + contentTypeLen + encodingLen)
        (124 + contentTypeLen + encodingLen + 1) = .ok validationExists ∧
      InscriptionData.validationHashAt data contentTypeLen encodingLen (validationExists = [1]) = .ok hash := by
  cases hash with
  | none =>
    refine ⟨[absent], index_field stands rfl (by omega), ?_⟩
    simp [InscriptionData.validationHashAt, noHash, pure, Except.pure]
  | some text =>
    rw [Inscription.hashLayout, ← List.singleton_append, List.append_assoc] at stands
    obtain ⟨size, length, body, -⟩ := read_lengthPrefixed (stands.next rfl) (fits text rfl)
      (show 128 + contentTypeLen + encodingLen + 1 = _ by rw [List.length_singleton]; omega) (by omega)
    refine ⟨[1], index_field stands rfl (by omega), ?_⟩
    rw [List.length_singleton] at size
    simp only [InscriptionData.validationHashAt, size, length, body, text_utf8, decide_true, if_true, bind,
      Except.bind, pure, Except.pure]

/-- The layout of an inscription is read back, whatever follows it. -/
theorem tryUnpackData_layoutAs (inscription : Inscription) {absent : UInt8} (noHash : absent ≠ 1) (trailing : Bytes) :
    InscriptionData.tryUnpackData (inscription.layoutAs absent ++ trailing) = .ok (.ok inscription.toData) := by
  generalize whole : inscription.layoutAs absent ++ trailing = data
  have order64 := inscription.order.toNat_lt
  have size32 := inscription.size.toNat_lt
  have contentFits := inscription.contentFits
  have encodingFits := inscription.encodingFits
  have at0 : Behind data 0 (InscriptionData.inscriptionAccDataDisc ++ (inscription.authority.bytes ++
      (inscription.root.bytes ++ (inscription.inscriptionData.bytes ++ (toLittleEndian 8 inscription.order.toNat ++
        (toLittleEndian 4 inscription.size.toNat ++ (lengthPrefixed inscription.content ++
          (lengthPrefixed inscription.encoding ++
            (Inscription.hashLayout absent inscription.validationHash ++ trailing))))))))) := by
    refine ⟨[], ?_, rfl⟩
    rw [← whole, Inscription.layoutAs]
    simp only [List.append_assoc, List.nil_append]
  have at8 := at0.next (show 8 = _ from rfl)
  have at40 := at8.next (show 40 = _ by rw [inscription.authority.size])
  have at72 := at40.next (show 72 = _ by rw [inscription.root.size])
  have at104 := at72.next (show 104 = _ by rw [inscription.inscriptionData.size])
  have at112 := at104.next (show 112 = _ by rw [toLittleEndian_length])
  have at116 := at112.next (show 116 = _ by rw [toLittleEndian_length])
  have disc := index_field at0 (show 8 = _ from rfl) (by omega)
  have authority := index_field at8 (show 40 = _ by rw [inscription.authority.size]) (by omega)
  have root := index_field at40 (show 72 = _ by rw [inscription.root.size]) (by omega)
  have inscriptionData := index_field at72 (show 104 = _ by rw [inscription.inscriptionData.size]) (by omega)
  have order := index_field at104 (show 112 = _ by rw [toLittleEndian_length]) (by omega)
  have size := index_field at112 (show 116 = _ by rw [toLittleEndian_length]) (by omega)
  obtain ⟨contentSize, contentLength, content, atEncoding⟩ :=
    read_lengthPrefixed at116 contentFits (show 120 = _ from rfl) (by omega)
  obtain ⟨encodingSize, encodingLength, encoding, atHash⟩ := read_lengthPrefixed atEncoding encodingFits
    (show 124 + (utf8 inscription.content).length = _ by omega) (by omega)
  obtain ⟨validationExists, option, hash⟩ := read_hashLayout atHash noHash inscription.hashFits
    ⟨contentFits, encodingFits⟩
  have long : ¬ data.length < InscriptionData.baseSize := by
    have inBounds := index_le option
    rw [InscriptionData.baseSize]
    omega
  have order8 := littleEndian_toLittleEndian (show inscription.order.toNat < 256 ^ 8 by omega)
  have size4 := littleEndian_toLittleEndian (show inscription.size.toNat < 256 ^ 4 by omega)
  simp only [InscriptionData.tryUnpackData, InscriptionData.unpackFields, disc, long, authority, root, inscriptionData, order, size, contentSize,
    contentLength, content, encodingSize, encodingLength, encoding, option, hash, pubkey_bytes, text_utf8, order8, size4,
    ne_eq, not_true_eq_false, if_false, bind, Except.bind, pure, Except.pure, UInt64.ofNat_toNat, UInt32.ofNat_toNat]
  rfl

/-- What was read as the option byte and the hash is their layout. -/
theorem of_hashLayout {hash : Option String} {rest validationExists : Bytes} {contentTypeLen encodingLen : Nat}
    (stands : Behind data (124 + contentTypeLen + encodingLen) rest)
    (readOption : InscriptionData.index data (124 + contentTypeLen + encodingLen)
      (124 + contentTypeLen + encodingLen + 1) = .ok validationExists)
    (readHash : InscriptionData.validationHashAt data contentTypeLen encodingLen (validationExists = [1]) = .ok hash) :
    (∀ text ∈ hash, (utf8 text).length < 2 ^ 32) ∧
      ∃ absent trailing, absent ≠ 1 ∧ rest = Inscription.hashLayout absent hash ++ trailing := by
  obtain ⟨later, rfl, ends, atLater⟩ := of_index stands readOption
  obtain ⟨tag, rfl⟩ := List.length_eq_one_iff.mp (show validationExists.length = 1 by omega)
  unfold InscriptionData.validationHashAt at readHash
  by_cases present : tag = 1
  · subst present
    rw [decide_eq_true rfl, if_pos rfl] at readHash
    obtain ⟨size, readSize, readHash⟩ := bind_eq_ok.mp readHash
    obtain ⟨body, readBody, readHash⟩ := bind_eq_ok.mp readHash
    obtain ⟨text, isText, same⟩ := bind_eq_ok.mp readHash
    cases same
    obtain ⟨trailing, rfl, -, fits, -⟩ := of_lengthPrefixed atLater readSize (by omega) readBody isText
    refine ⟨fun other isOther => ?_, 0, trailing, by decide, ?_⟩
    · cases isOther
      exact fits
    · rw [Inscription.hashLayout, List.singleton_append, List.cons_append]
  · have other : ([tag] : Bytes) ≠ [1] := fun same => present (List.singleton_inj.mp same)
    rw [decide_eq_false other, if_neg Bool.false_ne_true] at readHash
    cases readHash
    exact ⟨nofun, tag, later, present, rfl⟩

/-- Whatever is read behind the discriminator was the layout of an inscription. -/
theorem layoutAs_of_unpackFields {result : InscriptionData}
    (isDisc : InscriptionData.index data 0 8 = .ok InscriptionData.inscriptionAccDataDisc)
    (unpacked : InscriptionData.unpackFields data = .ok result) :
    ∃ inscription : Inscription, ∃ absent trailing, absent ≠ 1 ∧
      data = inscription.layoutAs absent ++ trailing ∧ result = inscription.toData := by
  obtain ⟨authorityField, readAuthority, unpacked⟩ := bind_eq_ok.mp unpacked
  obtain ⟨authority, isAuthority, unpacked⟩ := bind_eq_ok.mp unpacked
  obtain ⟨rootField, readRoot, unpacked⟩ := bind_eq_ok.mp unpacked
  obtain ⟨root, isRoot, unpacked⟩ := bind_eq_ok.mp unpacked
  obtain ⟨dataField, readData, unpacked⟩ := bind_eq_ok.mp unpacked
  obtain ⟨inscriptionData, isData, unpacked⟩ := bind_eq_ok.mp unpacked
  obtain ⟨order, readOrder, unpacked⟩ := bind_eq_ok.mp unpacked
  obtain ⟨size, readSize, unpacked⟩ := bind_eq_ok.mp unpacked
  obtain ⟨contentSize, readContentSize, unpacked⟩ := bind_eq_ok.mp unpacked
  obtain ⟨contentField, readContent, unpacked⟩ := bind_eq_ok.mp unpacked
  obtain ⟨content, isContent, unpacked⟩ := bind_eq_ok.mp unpacked
  obtain ⟨encodingSize, readEncodingSize, unpacked⟩ := bind_eq_ok.mp unpacked
  obtain ⟨encodingField, readEncoding, unpacked⟩ := bind_eq_ok.mp unpacked
  obtain ⟨encoding, isEncoding, unpacked⟩ := bind_eq_ok.mp unpacked
  obtain ⟨option, readOption, unpacked⟩ := bind_eq_ok.mp unpacked
  obtain ⟨validationHash, readHash, same⟩ := bind_eq_ok.mp unpacked
  cases same
  cases pubkey_eq_ok.mp isAuthority
  cases pubkey_eq_ok.mp isRoot
  cases pubkey_eq_ok.mp isData
  obtain ⟨rest8, parts0, -, at8⟩ := of_index (behind_zero data) isDisc
  obtain ⟨rest40, parts8, -, at40⟩ := of_index at8 readAuthority
  obtain ⟨rest72, parts40, -, at72⟩ := of_index at40 readRoot
  obtain ⟨rest104, parts72, -, at104⟩ := of_index at72 readData
  obtain ⟨rest112, parts104, orderEnds, at112⟩ := of_index at104 readOrder
  obtain ⟨rest116, parts112, sizeEnds, at116⟩ := of_index at112 readSize
  obtain ⟨restContent, parts116, -, contentFits, atContent⟩ :=
    of_lengthPrefixed at116 readContentSize rfl readContent isContent
  obtain ⟨restEncoding, partsContent, -, encodingFits, atEncoding⟩ :=
    of_lengthPrefixed atContent readEncodingSize (by omega) readEncoding isEncoding
  obtain ⟨hashFits, absent, trailing, noHash, partsHash⟩ := of_hashLayout atEncoding readOption readHash
  have orderBytes := toLittleEndian_littleEndian order
  have sizeBytes := toLittleEndian_littleEndian size
  have orderBound := littleEndian_lt order
  have sizeBound := littleEndian_lt size
  rw [show order.length = 8 by omega] at orderBytes orderBound
  rw [show size.length = 4 by omega] at sizeBytes sizeBound
  refine ⟨⟨authority, root, inscriptionData, UInt64.ofNat (littleEndian order), UInt32.ofNat (littleEndian size),
    content, encoding, validationHash, contentFits, encodingFits, hashFits⟩, absent, trailing, noHash, ?_, rfl⟩
  simp only [Inscription.layoutAs, UInt64.toNat_ofNat', UInt32.toNat_ofNat', List.append_assoc]
  rw [Nat.mod_eq_of_lt (by omega), Nat.mod_eq_of_lt (by omega), orderBytes, sizeBytes, parts0, parts8, parts40, parts72,
    parts104, parts112, parts116, partsContent, partsHash]

end Layouts

/-- Decoding undoes encoding: the fields come back from their layout, whatever
bytes follow it. -/
theorem inscription_round_trip (inscription : Inscription) (absent : UInt8) (noHash : absent ≠ 1) (trailing : Bytes) :
    InscriptionData.tryUnpackData (inscription.layoutAs absent ++ trailing) = .ok (.ok inscription.toData) :=
  tryUnpackData_layoutAs inscription noHash trailing

/-- An inscription with a hash and one without. -/
def Example.inscription (hash : Option String) (fits : ∀ text ∈ hash, (utf8 text).length < 2 ^ 32) : Inscription where
  authority := .fill 1
  root := .fill 2
  inscriptionData := .fill 3
  order := 7
  size := 300
  content := "image/svg"
  encoding := "base64"
  validationHash := hash
  contentFits := by decide
  encodingFits := by decide
  hashFits := fits

theorem inscription_round_trip_absent :
    InscriptionData.tryUnpackData ((Example.inscription none nofun).layoutAs 0 ++ [9, 9]) =
      .ok (.ok (Example.inscription none nofun).toData) :=
  inscription_round_trip (Example.inscription none nofun) 0 (by decide) [9, 9]

theorem index_disc {data : Bytes} (long : 8 ≤ data.length) : InscriptionData.index data 0 8 = .ok (data.take 8) := by
  refine index_eq_ok.mpr ⟨by omega, ?_⟩
  rw [slice, if_pos ⟨Nat.zero_le 8, long⟩]
  rfl

/-- An account that is tested against the discriminator and the base size is
rejected or unpacked. -/
theorem tryUnpackData_eq {data : Bytes} (long : 8 ≤ data.length) :
    InscriptionData.tryUnpackData data =
      if data.take 8 ≠ InscriptionData.inscriptionAccDataDisc then .ok (.error .invalidAccountType)
      else if data.length < InscriptionData.baseSize then
        .ok (.error (.customDeserializationError "Inscription Data is too short"))
      else (InscriptionData.unpackFields data).map .ok := by
  rw [InscriptionData.tryUnpackData, index_disc long]
  rfl

/-- The parser answers exactly for accounts that hold a discriminator which is not
that of an inscription, or less than the base size, or the layout of an
inscription. -/
theorem inscription_answered_iff (data : Bytes) :
    (∃ result, InscriptionData.tryUnpackData data = .ok result) ↔ 8 ≤ data.length ∧
      (data.take 8 ≠ InscriptionData.inscriptionAccDataDisc ∨ data.length < InscriptionData.baseSize ∨
        ∃ inscription : Inscription, ∃ absent trailing, absent ≠ 1 ∧ data = inscription.layoutAs absent ++ trailing) := by
  constructor
  · rintro ⟨result, answered⟩
    obtain ⟨accDisc, readDisc, -⟩ := bind_eq_ok.mp answered
    have inBounds := index_le readDisc
    refine ⟨inBounds, ?_⟩
    rw [tryUnpackData_eq inBounds] at answered
    split at answered
    · rename_i other
      exact .inl other
    rename_i isDisc
    split at answered
    · rename_i short
      exact .inr (.inl short)
    · cases unpacked : InscriptionData.unpackFields data with
      | error panic =>
        rw [unpacked] at answered
        cases answered
      | ok fields =>
        rw [not_not] at isDisc
        have disc := index_disc inBounds
        rw [isDisc] at disc
        obtain ⟨inscription, absent, trailing, noHash, whole, -⟩ := layoutAs_of_unpackFields disc unpacked
        exact .inr (.inr ⟨inscription, absent, trailing, noHash, whole⟩)
  · rintro ⟨inBounds, cases⟩
    rcases cases with other | short | ⟨inscription, absent, trailing, noHash, rfl⟩
    · exact ⟨_, (tryUnpackData_eq inBounds).trans (if_pos other)⟩
    · rw [tryUnpackData_eq inBounds, if_pos short]
      split
      · exact ⟨_, rfl⟩
      · exact ⟨_, rfl⟩
    · exact ⟨_, tryUnpackData_layoutAs inscription noHash trailing⟩

set_option maxRecDepth 8000

/-- No bytes at all, an account that passes the test of the base size and ends behind
the length of its content, and one whose content is no text. -/
theorem inscription_panics :
    InscriptionData.tryUnpackData [] = .error .outOfBounds ∧
      InscriptionData.tryUnpackData (InscriptionData.inscriptionAccDataDisc ++ List.replicate 113 0) =
        .error .outOfBounds ∧
      InscriptionData.tryUnpackData (InscriptionData.inscriptionAccDataDisc ++ List.replicate 108 0 ++
        [1, 0, 0, 0, 255]) = .error .unwrappedUtf8 := by
  decide

end DasIndexer.Blockbuster
