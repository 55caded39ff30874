import ConstraintRouting.Fabric.Codec

/-!
# Digests and integrity

Streaming SHA-256, CRC-32C and the field feeder of semantic digests.  Everything
here runs, so a digest of a concrete record can be evaluated.
-/

namespace ConstraintRouting.Fabric

theorem length_zeroBytes : (List.replicate 32 (0 : UInt8)).length = 32 := rfl

/-- A 256-bit digest: its 32 bytes. -/
structure Digest256 where
  bytes : List UInt8 := List.replicate 32 0
  size : bytes.length = 32 := by exact length_zeroBytes
deriving DecidableEq

namespace Digest256

def isZero (digest : Digest256) : Bool := digest.bytes.all (· == 0)

/-- The digest of exactly 32 bytes. -/
def read : ByteReader.Reader Digest256 := do
  let bytes ← ByteReader.raw 32
  StateT.lift (if size : bytes.length = 32 then some { bytes, size } else none)

/-- The characters of hexadecimal digits. -/
def kHex : List UInt8 :=
  [48, 49, 50, 51, 52, 53, 54, 55, 56, 57, 97, 98, 99, 100, 101, 102]

/-- The digest as text: two lower-case digits a byte, the high one first. -/
def toHex (digest : Digest256) : List UInt8 :=
  digest.bytes.flatMap fun (raw : UInt8) =>
    [kHex.getD ((raw >>> 4) &&& 0x0f).toNat 0, kHex.getD (raw &&& 0x0f).toNat 0]

/-- The value of a hexadecimal digit of either case. -/
def hexDigit (character : UInt8) : Option UInt8 :=
  if 48 ≤ character ∧ character ≤ 57 then some (character - 48)
  else if 97 ≤ character ∧ character ≤ 102 then some (character - 97 + 10)
  else if 65 ≤ character ∧ character ≤ 70 then some (character - 65 + 10)
  else none

/-- The bytes that pairs of digits stand for. -/
def hexBytes : List UInt8 → Option (List UInt8)
  | high :: low :: rest => do
      let high ← hexDigit high
      let low ← hexDigit low
      let bytes ← hexBytes rest
      return ((high <<< 4) ||| low) :: bytes
  | [] => some []
  | [_] => none

/-- The digest that a text of 64 digits stands for. -/
def fromHex (text : List UInt8) : Option Digest256 :=
  if text.length != 64 then none
  else
    (hexBytes text).bind fun bytes =>
      if size : bytes.length = 32 then some { bytes, size } else none

/-- First eight bytes as a big-endian unsigned integer. -/
def leadingU64 (digest : Digest256) : UInt64 :=
  (digest.bytes.take 8).foldl (fun value byte => (value <<< 8) ||| byte.toUInt64) 0

end Digest256

/-- Streaming SHA-256 state: the chaining words, the bytes buffered for the next
block and the number of bytes absorbed. -/
structure Sha256 where
  a : UInt32 := 0x6a09e667
  b : UInt32 := 0xbb67ae85
  c : UInt32 := 0x3c6ef372
  d : UInt32 := 0xa54ff53a
  e : UInt32 := 0x510e527f
  f : UInt32 := 0x9b05688c
  g : UInt32 := 0x1f83d9ab
  h : UInt32 := 0x5be0cd19
  buffer : List UInt8 := []
  totalBytes : UInt64 := 0

namespace Sha256

def kRoundConstants : List UInt32 := [
  0x428a2f98, 0x71374491, 0xb5c0fbcf, 0xe9b5dba5, 0x3956c25b, 0x59f111f1, 0x923f82a4,
  0xab1c5ed5, 0xd807aa98, 0x12835b01, 0x243185be, 0x550c7dc3, 0x72be5d74, 0x80deb1fe,
  0x9bdc06a7, 0xc19bf174, 0xe49b69c1, 0xefbe4786, 0x0fc19dc6, 0x240ca1cc, 0x2de92c6f,
  0x4a7484aa, 0x5cb0a9dc, 0x76f988da, 0x983e5152, 0xa831c66d, 0xb00327c8, 0xbf597fc7,
  0xc6e00bf3, 0xd5a79147, 0x06ca6351, 0x14292967, 0x27b70a85, 0x2e1b2138, 0x4d2c6dfc,
  0x53380d13, 0x650a7354, 0x766a0abb, 0x81c2c92e, 0x92722c85, 0xa2bfe8a1, 0xa81a664b,
  0xc24b8b70, 0xc76c51a3, 0xd192e819, 0xd6990624, 0xf40e3585, 0x106aa070, 0x19a4c116,
  0x1e376c08, 0x2748774c, 0x34b0bcb5, 0x391c0cb3, 0x4ed8aa4a, 0x5b9cca4f, 0x682e6ff3,
  0x748f82ee, 0x78a5636f, 0x84c87814, 0x8cc70208, 0x90befffa, 0xa4506ceb, 0xbef9a3f7,
  0xc67178f2]

def rotateRight (value amount : UInt32) : UInt32 :=
  (value >>> amount) ||| (value <<< (32 - amount))

/-- The big-endian 32-bit words of a byte string. -/
def readBigEndianU32 : List UInt8 → List UInt32
  | b0 :: b1 :: b2 :: b3 :: rest =>
      ((b0.toUInt32 <<< 24) ||| (b1.toUInt32 <<< 16) ||| (b2.toUInt32 <<< 8) |||
        b3.toUInt32) :: readBigEndianU32 rest
  | _ => []

def writeBigEndianU32 (value : UInt32) : List UInt8 :=
  [(value >>> 24).toUInt8, (value >>> 16).toUInt8, (value >>> 8).toUInt8, value.toUInt8]

/-- The next schedule word; the words computed so far are held newest first. -/
def scheduleNext (newestFirst : List UInt32) : UInt32 :=
  let w15 := newestFirst.getD 14 0
  let w2 := newestFirst.getD 1 0
  let s0 := rotateRight w15 7 ^^^ rotateRight w15 18 ^^^ (w15 >>> 3)
  let s1 := rotateRight w2 17 ^^^ rotateRight w2 19 ^^^ (w2 >>> 10)
  newestFirst.getD 15 0 + s0 + newestFirst.getD 6 0 + s1

def extendSchedule : Nat → List UInt32 → List UInt32
  | 0, newestFirst => newestFirst
  | n + 1, newestFirst => extendSchedule n (scheduleNext newestFirst :: newestFirst)

/-- One round on the working variables. -/
def round (sha : Sha256) (constant word : UInt32) : Sha256 :=
  let s1 := rotateRight sha.e 6 ^^^ rotateRight sha.e 11 ^^^ rotateRight sha.e 25
  let choose := (sha.e &&& sha.f) ^^^ ((~~~ sha.e) &&& sha.g)
  let temp1 := sha.h + s1 + choose + constant + word
  let s0 := rotateRight sha.a 2 ^^^ rotateRight sha.a 13 ^^^ rotateRight sha.a 22
  let majority := (sha.a &&& sha.b) ^^^ (sha.a &&& sha.c) ^^^ (sha.b &&& sha.c)
  let temp2 := s0 + majority
  { sha with a := temp1 + temp2, b := sha.a, c := sha.b, d := sha.c,
             e := sha.d + temp1, f := sha.e, g := sha.f, h := sha.g }

/-- Absorbs one 64-byte block into the chaining words. -/
def compress (sha : Sha256) (block : List UInt8) : Sha256 :=
  let schedule := (extendSchedule 48 (readBigEndianU32 block).reverse).reverse
  let work := (kRoundConstants.zip schedule).foldl
    (fun work entry => round work entry.1 entry.2) sha
  { sha with a := sha.a + work.a, b := sha.b + work.b, c := sha.c + work.c,
             d := sha.d + work.d, e := sha.e + work.e, f := sha.f + work.f,
             g := sha.g + work.g, h := sha.h + work.h }

/-- Absorbs `n` whole blocks straight from the data. -/
def compressBlocks : Nat → Sha256 → List UInt8 → Sha256
  | 0, sha, _ => sha
  | n + 1, sha, data => compressBlocks n (compress sha (data.take 64)) (data.drop 64)

/-- First phase of `update`: a partly filled buffer takes what it needs and is
compressed once full.  Returns the data that is left. -/
def fillBuffer (sha : Sha256) (data : List UInt8) : Sha256 × List UInt8 :=
  if sha.buffer.isEmpty then (sha, data)
  else
    let needed := 64 - sha.buffer.length
    let buffer := sha.buffer ++ data.take needed
    if buffer.length = 64 then
      ({ compress sha buffer with buffer := [] }, data.drop needed)
    else ({ sha with buffer := buffer }, data.drop needed)

/-- Absorbs a byte string. -/
def update (sha : Sha256) (data : List UInt8) : Sha256 :=
  let counted := { sha with totalBytes := sha.totalBytes + UInt64.ofNat data.length }
  let (filled, rest) := fillBuffer counted data
  let blocks := rest.length / 64
  let absorbed := compressBlocks blocks filled rest
  { absorbed with buffer := absorbed.buffer ++ rest.drop (64 * blocks) }

/-- Feeds zero bytes until 56 bytes are buffered; the first argument bounds the
number of bytes, and 64 of them always suffice. -/
def padZeros : Nat → Sha256 → Sha256
  | 0, sha => sha
  | n + 1, sha => if sha.buffer.length = 56 then sha else padZeros n (update sha [0])

/-- Pads, appends the bit length and returns the digest. -/
def finish (sha : Sha256) : Digest256 :=
  let bitLength := sha.totalBytes * 8
  let padded := padZeros 64 (update sha [0x80])
  let out := update padded (ByteWriter.putU64 bitLength).reverse
  ⟨[out.a, out.b, out.c, out.d, out.e, out.f, out.g, out.h].flatMap writeBigEndianU32, rfl⟩

/-- The digest of one byte string. -/
def digest (data : List UInt8) : Digest256 := (update {} data).finish

end Sha256

/-- One table entry: eight reflected shifts with the Castagnoli polynomial. -/
def crc32cShift : Nat → UInt32 → UInt32
  | 0, value => value
  | n + 1, value =>
      crc32cShift n (if value &&& 1 != 0 then (value >>> 1) ^^^ 0x82f63b78 else value >>> 1)

def crc32cTable : List UInt32 :=
  (List.range 256).map fun index => crc32cShift 8 (UInt32.ofNat index)

def crc32c (data : List UInt8) : UInt32 :=
  let crc := data.foldl (fun (crc : UInt32) byte =>
    crc32cTable.getD ((crc ^^^ byte.toUInt32) &&& 0xff).toNat 0 ^^^ (crc >>> 8))
    0xffffffff
  crc ^^^ 0xffffffff

/-! ## Canonical field feeder

Each `put` is the bytes that it feeds to the hash. -/

namespace SemanticHasher

def putBool (value : Bool) : List UInt8 := ByteWriter.putBool value
def putU8 (value : UInt8) : List UInt8 := ByteWriter.putU8 value
def putU16 (value : UInt16) : List UInt8 := ByteWriter.putU16 value
def putU32 (value : UInt32) : List UInt8 := ByteWriter.putU32 value
def putU64 (value : UInt64) : List UInt8 := ByteWriter.putU64 value
def putI64 (value : Int64) : List UInt8 := ByteWriter.putI64 value

/-- Length-prefixed (64-bit) byte string. -/
def putBytes (data : List UInt8) : List UInt8 :=
  putU64 (UInt64.ofNat data.length) ++ data

def putString (text : String) : List UInt8 := putBytes text.toUTF8.toList

def putDigest (digest : Digest256) : List UInt8 := digest.bytes

def putId {domain : IdentityDomain} (id : StrongId domain) : List UInt8 :=
  putU64 id.value

def putGeneration {domain : GenerationDomain} (generation : Generation domain) :
    List UInt8 :=
  putU64 generation.value

/-- A collection's size as a 32-bit count. -/
def putCount {α : Type} (items : List α) : List UInt8 :=
  putU32 (UInt32.ofNat items.length)

/-- A count-prefixed collection. -/
def putAll {α : Type} (put : α → List UInt8) (items : List α) : List UInt8 :=
  putCount items ++ items.flatMap put

end SemanticHasher

/-- The digest of a domain label and the bytes fed after it. -/
def digestOf (domain : String) (fed : List UInt8) : Digest256 :=
  Sha256.digest (SemanticHasher.putString domain ++ fed)

example : (Sha256.digest [0x61, 0x62, 0x63]).leadingU64 = 0xba7816bf8f01cfea := by
  decide +kernel

end ConstraintRouting.Fabric
