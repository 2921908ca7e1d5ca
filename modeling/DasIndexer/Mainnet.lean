import DasIndexer.Programs

namespace DasIndexer.Mainnet

section Sha256

def sha256Constants : List UInt32 :=
  [0x428a2f98, 0x71374491, 0xb5c0fbcf, 0xe9b5dba5, 0x3956c25b, 0x59f111f1, 0x923f82a4, 0xab1c5ed5,
    0xd807aa98, 0x12835b01, 0x243185be, 0x550c7dc3, 0x72be5d74, 0x80deb1fe, 0x9bdc06a7, 0xc19bf174,
    0xe49b69c1, 0xefbe4786, 0x0fc19dc6, 0x240ca1cc, 0x2de92c6f, 0x4a7484aa, 0x5cb0a9dc, 0x76f988da,
    0x983e5152, 0xa831c66d, 0xb00327c8, 0xbf597fc7, 0xc6e00bf3, 0xd5a79147, 0x06ca6351, 0x14292967,
    0x27b70a85, 0x2e1b2138, 0x4d2c6dfc, 0x53380d13, 0x650a7354, 0x766a0abb, 0x81c2c92e, 0x92722c85,
    0xa2bfe8a1, 0xa81a664b, 0xc24b8b70, 0xc76c51a3, 0xd192e819, 0xd6990624, 0xf40e3585, 0x106aa070,
    0x19a4c116, 0x1e376c08, 0x2748774c, 0x34b0bcb5, 0x391c0cb3, 0x4ed8aa4a, 0x5b9cca4f, 0x682e6ff3,
    0x748f82ee, 0x78a5636f, 0x84c87814, 0x8cc70208, 0x90befffa, 0xa4506ceb, 0xbef9a3f7, 0xc67178f2]

def rotateRight32 (x : UInt32) (n : UInt32) : UInt32 := (x >>> n) ||| (x <<< (32 - n))

/-- Big-endian bytes of the low `count` bytes of a number. -/
def bigEndian (count n : Nat) : Bytes :=
  ((List.range count).map (fun i => UInt8.ofNat (n / 256 ^ i))).reverse

def sha256Pad (message : Bytes) : Bytes :=
  message ++ [0x80] ++ List.replicate ((119 - message.length % 64) % 64) 0 ++
    bigEndian 8 (8 * message.length)

def bigEndianWord (bytes : Bytes) : UInt32 := bytes.foldl (fun w b => (w <<< 8) ||| b.toUInt32) 0

def sha256Schedule (block : List UInt32) : List UInt32 :=
  (List.range 48).foldl (fun w i =>
    let at' := fun k => w.getD (16 + i - k) 0
    let s0 := rotateRight32 (at' 15) 7 ^^^ rotateRight32 (at' 15) 18 ^^^ (at' 15 >>> 3)
    let s1 := rotateRight32 (at' 2) 17 ^^^ rotateRight32 (at' 2) 19 ^^^ (at' 2 >>> 10)
    w ++ [at' 16 + s0 + at' 7 + s1]) block

def sha256Compress (state block : List UInt32) : List UInt32 :=
  let final := ((sha256Schedule block).zip sha256Constants).foldl (fun v (w, k) =>
    match v with
    | [a, b, c, d, e, f, g, h] =>
      let s1 := rotateRight32 e 6 ^^^ rotateRight32 e 11 ^^^ rotateRight32 e 25
      let t1 := h + s1 + ((e &&& f) ^^^ (~~~e &&& g)) + k + w
      let s0 := rotateRight32 a 2 ^^^ rotateRight32 a 13 ^^^ rotateRight32 a 22
      let t2 := s0 + ((a &&& b) ^^^ (a &&& c) ^^^ (b &&& c))
      [t1 + t2, a, b, c, d + t1, e, f, g]
    | other => other) state
  state.zipWith (· + ·) final

def sha256 (message : Bytes) : Bytes :=
  let words := (sha256Pad message).toChunks 4 |>.map bigEndianWord
  let initial : List UInt32 :=
    [0x6a09e667, 0xbb67ae85, 0x3c6ef372, 0xa54ff53a, 0x510e527f, 0x9b05688c, 0x1f83d9ab, 0x5be0cd19]
  ((words.toChunks 16).foldl sha256Compress initial).flatMap (fun w => bigEndian 4 w.toNat)

end Sha256

section Keccak

def keccakRounds : List UInt64 :=
  [0x0000000000000001, 0x0000000000008082, 0x800000000000808a, 0x8000000080008000, 0x000000000000808b,
    0x0000000080000001, 0x8000000080008081, 0x8000000000008009, 0x000000000000008a, 0x0000000000000088,
    0x0000000080008009, 0x000000008000000a, 0x000000008000808b, 0x800000000000008b, 0x8000000000008089,
    0x8000000000008003, 0x8000000000008002, 0x8000000000000080, 0x000000000000800a, 0x800000008000000a,
    0x8000000080008081, 0x8000000000008080, 0x0000000080000001, 0x8000000080008008]

def keccakRotations : List UInt64 :=
  [0, 1, 62, 28, 27, 36, 44, 6, 55, 20, 3, 10, 43, 25, 39, 41, 45, 15, 21, 8, 18, 2, 61, 56, 14]

def rotateLeft64 (x n : UInt64) : UInt64 := if n = 0 then x else (x <<< n) ||| (x >>> (64 - n))

/-- One round on the 25 lanes; the lane in column `x` and row `y` is at `x + 5 * y`. -/
def keccakRound (lanes : List UInt64) (constant : UInt64) : List UInt64 :=
  let lane := fun (x y : Nat) => lanes.getD (x % 5 + 5 * (y % 5)) 0
  let column := fun x => lane x 0 ^^^ lane x 1 ^^^ lane x 2 ^^^ lane x 3 ^^^ lane x 4
  let theta := fun x y => lane x y ^^^ column (x + 4) ^^^ rotateLeft64 (column (x + 1)) 1
  let rho := fun (x y : Nat) => rotateLeft64 (theta x y) (keccakRotations.getD (x % 5 + 5 * (y % 5)) 0)
  let pi := fun (x y : Nat) => rho (x + 3 * y) x
  let chi := (List.range 25).map (fun i =>
    let (x, y) := (i % 5, i / 5)
    pi x y ^^^ (~~~pi (x + 1) y &&& pi (x + 2) y))
  chi.modify 0 (· ^^^ constant)

def littleEndianWord (bytes : Bytes) : UInt64 := bytes.reverse.foldl (fun w b => (w <<< 8) ||| b.toUInt64) 0

/-- Keccak-256 of a message shorter than one block of 136 bytes. -/
def keccak256 (message : Bytes) : Bytes :=
  let padded := (message ++ [1] ++ List.replicate (135 - message.length) 0).modify 135 (· ||| 0x80)
  let lanes := (padded.toChunks 8).map littleEndianWord ++ List.replicate 8 0
  ((keccakRounds.foldl keccakRound lanes).take 4).flatMap (fun w => (bigEndian 8 w.toNat).reverse)

end Keccak

/-- Bytes as a 32-byte value, cut or filled with zeros to the size. -/
def toBytes32 (bytes : Bytes) : Bytes32 :=
  ⟨(bytes ++ List.replicate 32 0).take 32, by simp⟩

section ProgramAddresses

def curvePrime : Nat := 2 ^ 255 - 19

def powMod : Nat → Nat → Nat → Nat
  | 0, _, _ => 1
  | fuel + 1, base, exponent =>
    if exponent = 0 then 1
    else
      let half := powMod fuel (base * base % curvePrime) (exponent / 2)
      if exponent % 2 = 1 then half * base % curvePrime else half

/-- Whether 32 bytes decompress to a point of edwards25519. -/
def isOnCurve (bytes : Bytes) : Bool :=
  let y := (bytes.reverse.foldl (fun n b => n * 256 + b.toNat) 0) % 2 ^ 255 % curvePrime
  let d := (curvePrime - 121665) * powMod 256 121666 (curvePrime - 2) % curvePrime
  let u := (y * y + curvePrime - 1) % curvePrime
  let v := (d * y * y + 1) % curvePrime
  let ratio := u * powMod 256 v (curvePrime - 2) % curvePrime
  ratio = 0 || powMod 256 ratio ((curvePrime - 1) / 2) = 1

/-- `Pubkey::find_program_address`: the first bump from 255 down whose hash is
off the curve. -/
def findProgramAddress (seeds : List Bytes) (program : Pubkey) : Pubkey :=
  let candidate := fun (bump : Nat) => sha256 (seeds.flatten ++ [UInt8.ofNat bump] ++ program.bytes ++
    utf8 "ProgramDerivedAddress")
  let bump := ((List.range 256).reverse.find? (fun bump => !isOnCurve (candidate bump))).getD 0
  toBytes32 (candidate bump)

/-- `BGUMAp9Gq7iTEuizy4pqaxsTyUCBK68MDfK752saRPUY`. -/
def bubblegumId : Pubkey where
  bytes := [152, 139, 128, 235, 121, 53, 40, 105, 178, 36, 116, 95, 89, 221, 191, 138,
    38, 88, 202, 19, 220, 104, 129, 33, 38, 53, 28, 174, 7, 193, 165, 165]
  size := rfl

/-- `metaqbxxUerdq28cj1RbAWkYQm3ybzjb6a8bt518x1s`. -/
def tokenMetadataId : Pubkey where
  bytes := [11, 112, 101, 177, 227, 209, 124, 69, 56, 157, 82, 127, 107, 4, 195, 205,
    88, 184, 108, 115, 26, 160, 253, 181, 73, 182, 209, 188, 3, 248, 41, 70]
  size := rfl

end ProgramAddresses

section SnakeCase

inductive WordMode where
  | boundary
  | lowercase
  | uppercase
  deriving DecidableEq

/-- The words of an alphanumeric run: a new one starts before an upper-case
letter that follows a lower-case one, and before the last letter of an
upper-case run that a lower-case letter follows. -/
def splitWords : WordMode → List Char → List Char → List (List Char)
  | _, word, [] => [word]
  | _, word, [c] => [word ++ [c]]
  | mode, word, c :: next :: rest =>
    let nextMode := if c.isLower then .lowercase else if c.isUpper then .uppercase else mode
    if nextMode = .lowercase ∧ next.isUpper then (word ++ [c]) :: splitWords .boundary [] (next :: rest)
    else if mode = .uppercase ∧ c.isUpper ∧ next.isLower then
      word :: splitWords .boundary [c] (next :: rest)
    else splitWords nextMode (word ++ [c]) (next :: rest)

def toSnakeCase (s : String) : String :=
  let words := (s.toList.splitOnP (fun c => !c.isAlphanum)).filter (fun word => !word.isEmpty)
  String.ofList (((words.flatMap (splitWords .boundary [])).map (List.map Char.toLower)).intersperse ['_']).flatten

end SnakeCase

def emptyNode : Nat → Hash
  | 0 => .zero
  | level + 1 => toBytes32 (keccak256 ((emptyNode level).bytes ++ (emptyNode level).bytes))

/-- The functions of the deployed programs. -/
instance programs : Programs where
  findAssetAddress tree leafIndex :=
    findProgramAddress [utf8 "asset", tree.bytes, (bigEndian 8 (leafIndex % 2 ^ 32)).reverse] bubblegumId
  findMasterEdition mint :=
    findProgramAddress [utf8 "metadata", tokenMetadataId.bytes, mint.bytes, utf8 "edition"] tokenMetadataId
  bubblegumId := bubblegumId
  assetLvlFrozen flags := flags.toNat.testBit 0
  permanentLvlFrozen flags := flags.toNat.testBit 1
  nonTransferable flags := flags.toNat.testBit 2
  toSnakeCase := toSnakeCase
  emptyNode := emptyNode

end DasIndexer.Mainnet
