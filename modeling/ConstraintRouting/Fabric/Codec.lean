import ConstraintRouting.Fabric.Identity
import ConstraintRouting.Verified.Readers

/-!
# Canonical writer and reader

The little-endian canonical writer and the bounded reader.  A writer is an
append-only byte buffer, so each `put` is the bytes that it appends and a record is
their concatenation.  A reader that failed stays failed, so a failed read ends the
whole decoding.
-/

namespace ConstraintRouting.Fabric

namespace ByteWriter

def putU8 (value : UInt8) : List UInt8 := [value]

def putU16 (value : UInt16) : List UInt8 := [value.toUInt8, (value >>> 8).toUInt8]

def putU32 (value : UInt32) : List UInt8 :=
  [value.toUInt8, (value >>> 8).toUInt8, (value >>> 16).toUInt8, (value >>> 24).toUInt8]

def putU64 (value : UInt64) : List UInt8 :=
  [value.toUInt8, (value >>> 8).toUInt8, (value >>> 16).toUInt8, (value >>> 24).toUInt8,
   (value >>> 32).toUInt8, (value >>> 40).toUInt8, (value >>> 48).toUInt8,
   (value >>> 56).toUInt8]

def putI64 (value : Int64) : List UInt8 := putU64 value.toUInt64

def putBool (value : Bool) : List UInt8 := putU8 (if value then 1 else 0)

/-- A collection's size as the 32-bit count that precedes it. -/
def putCount {α : Type} (items : List α) : List UInt8 :=
  putU32 (UInt32.ofNat items.length)

def putRaw (data : List UInt8) : List UInt8 := data

/-- Length-prefixed (32-bit) byte string. -/
def putBytes (data : List UInt8) : List UInt8 := putCount data ++ putRaw data

/-- Length-prefixed (32-bit) text. -/
def putString (text : List UInt8) : List UInt8 := putCount text ++ putRaw text

def putId {domain : IdentityDomain} (id : StrongId domain) : List UInt8 :=
  putU64 id.value

def putGeneration {domain : GenerationDomain} (generation : Generation domain) :
    List UInt8 :=
  putU64 generation.value

/-- A count-prefixed collection. -/
def putAll {α : Type} (put : α → List UInt8) (items : List α) : List UInt8 :=
  putCount items ++ items.flatMap put

end ByteWriter

namespace ByteReader

open Verified.Readers.Reader (next accept known many)

abbrev Reader (α : Type) := Verified.Readers.Reader UInt8 α

def u8 : Reader UInt8 := next

def u16 : Reader UInt16 := do
  let b0 ← next
  let b1 ← next
  return b0.toUInt16 ||| (b1.toUInt16 <<< 8)

def u32 : Reader UInt32 := do
  let b0 ← next
  let b1 ← next
  let b2 ← next
  let b3 ← next
  return b0.toUInt32 ||| (b1.toUInt32 <<< 8) ||| (b2.toUInt32 <<< 16) |||
    (b3.toUInt32 <<< 24)

def u64 : Reader UInt64 := do
  let b0 ← next
  let b1 ← next
  let b2 ← next
  let b3 ← next
  let b4 ← next
  let b5 ← next
  let b6 ← next
  let b7 ← next
  return b0.toUInt64 ||| (b1.toUInt64 <<< 8) ||| (b2.toUInt64 <<< 16) |||
    (b3.toUInt64 <<< 24) ||| (b4.toUInt64 <<< 32) ||| (b5.toUInt64 <<< 40) |||
    (b6.toUInt64 <<< 48) ||| (b7.toUInt64 <<< 56)

def i64 : Reader Int64 := do
  let raw ← u64
  return raw.toInt64

/-- A byte that is neither zero nor one is refused. -/
def boolean : Reader Bool := do
  let raw ← u8
  accept (raw ≤ 1)
  return raw = 1

/-- A listed enumerator by its protocol value. -/
def enum8 {α : Type} (enumerators : List α) (code : α → UInt8) : Reader α := do
  let raw ← u8
  known enumerators code raw

def enum16 {α : Type} (enumerators : List α) (code : α → UInt16) : Reader α := do
  let raw ← u16
  known enumerators code raw

/-- A length within the bound. -/
def boundedLength (maxLen : UInt32) : Reader UInt32 := do
  let length ← u32
  accept (length ≤ maxLen)
  return length

/-- Exactly `n` bytes. -/
def raw (n : Nat) : Reader (List UInt8) := many next n

/-- Length-prefixed (32-bit) text. -/
def string : Reader (List UInt8) := do
  let length ← u32
  raw length.toNat

def id {domain : IdentityDomain} : Reader (StrongId domain) := do
  let value ← u64
  return ⟨value⟩

def generation {domain : GenerationDomain} : Reader (Generation domain) := do
  let value ← u64
  return ⟨value⟩

/-- A generation that may be unset. -/
def generationField {domain : GenerationDomain} : Reader (Generation domain) := do
  let value : Generation domain ← generation
  accept (value.value = 0 || Generation.isRepresentable value.value)
  return value

/-- Bytes that the writer sets to zero. -/
def padding8 : Reader Unit := do
  let padding ← u8
  accept (padding = 0)

def padding16 : Reader Unit := do
  let padding ← u16
  accept (padding = 0)

def padding32 : Reader Unit := do
  let padding ← u32
  accept (padding = 0)

/-- A bounded count-prefixed collection. -/
def all {α : Type} (maxSize : UInt32) (item : Reader α) : Reader (List α) := do
  let count ← boundedLength maxSize
  many item count.toNat

end ByteReader

end ConstraintRouting.Fabric
