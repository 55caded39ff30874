import Mathlib.Algebra.Ring.Nat
import ConstraintRouting.Fabric.Digest
import ConstraintRouting.Verified.PrefixCodes

/-!
# The canonical writer is unambiguous

Every `put` of a fixed-width value is a prefix code, and so is a counted collection
whose size fits its count.  Each primitive of the reader undoes its `put`, whatever
follows.
-/

namespace ConstraintRouting.Fabric

namespace ByteWriter

open Verified.PrefixCodes

@[simp] theorem length_putU8 (value : UInt8) : (putU8 value).length = 1 := rfl

@[simp] theorem length_putU16 (value : UInt16) : (putU16 value).length = 2 := rfl

@[simp] theorem length_putU32 (value : UInt32) : (putU32 value).length = 4 := rfl

@[simp] theorem length_putU64 (value : UInt64) : (putU64 value).length = 8 := rfl

@[simp] theorem length_putI64 (value : Int64) : (putI64 value).length = 8 := rfl

@[simp] theorem length_putBool (value : Bool) : (putBool value).length = 1 := rfl

@[simp] theorem length_putId {domain : IdentityDomain} (value : StrongId domain) :
    (putId value).length = 8 := rfl

@[simp] theorem length_putGeneration {domain : GenerationDomain}
    (value : Generation domain) : (putGeneration value).length = 8 := rfl

theorem length_putAll {α : Type} (put : α → List UInt8) (items : List α) :
    (putAll put items).length = 4 + (items.flatMap put).length := by
  rw [putAll, List.length_append]
  rfl

theorem putU8_prefixCode : PrefixCode putU8 :=
  .of_length (fun _ => rfl) fun _ _ h => List.head_eq_of_cons_eq h

theorem putU16_prefixCode : PrefixCode putU16 := by
  have hlength : ∀ value, (putU16 value).length = 2 := fun _ => rfl
  refine .of_length hlength fun a b h => ?_
  simp only [putU16, List.cons.injEq, and_true, ← UInt8.toNat_inj, UInt16.toNat_toUInt8,
    UInt16.toNat_shiftRight, Nat.shiftRight_eq_div_pow, UInt16.toNat_ofNat,
    Nat.reduceMod, Nat.reducePow] at h
  have ha := a.toNat_lt
  have hb := b.toNat_lt
  exact UInt16.toNat_inj.mp (by omega)

theorem putU32_prefixCode : PrefixCode putU32 := by
  have hlength : ∀ value, (putU32 value).length = 4 := fun _ => rfl
  refine .of_length hlength fun a b h => ?_
  simp only [putU32, List.cons.injEq, and_true, ← UInt8.toNat_inj, UInt32.toNat_toUInt8,
    UInt32.toNat_shiftRight, Nat.shiftRight_eq_div_pow, UInt32.toNat_ofNat,
    Nat.reduceMod, Nat.reducePow] at h
  have ha := a.toNat_lt
  have hb := b.toNat_lt
  exact UInt32.toNat_inj.mp (by omega)

theorem putU64_prefixCode : PrefixCode putU64 := by
  have hlength : ∀ value, (putU64 value).length = 8 := fun _ => rfl
  refine .of_length hlength fun a b h => ?_
  simp only [putU64, List.cons.injEq, and_true, ← UInt8.toNat_inj, UInt64.toNat_toUInt8,
    UInt64.toNat_shiftRight, Nat.shiftRight_eq_div_pow, UInt64.toNat_ofNat,
    Nat.reduceMod, Nat.reducePow] at h
  have ha := a.toNat_lt
  have hb := b.toNat_lt
  exact UInt64.toNat_inj.mp (by omega)

theorem putI64_prefixCode : PrefixCode putI64 :=
  putU64_prefixCode.comp fun _ _ h => by simpa using congrArg UInt64.toInt64 h

theorem putId_prefixCode {domain : IdentityDomain} :
    PrefixCode (@putId domain) :=
  putU64_prefixCode.comp fun _ _ h => StrongId.ext h

theorem putGeneration_prefixCode {domain : GenerationDomain} :
    PrefixCode (@putGeneration domain) :=
  putU64_prefixCode.comp fun _ _ h => Generation.ext h

theorem putDigest_prefixCode : PrefixCode fun digest : Digest256 => putRaw digest.bytes := by
  have hlength : ∀ digest : Digest256, (putRaw digest.bytes).length = 32 :=
    fun digest => digest.size
  refine .of_length hlength fun a b h => ?_
  cases a
  cases b
  cases h
  rfl

/-- Counted collections of valid values whose sizes fit the count are determined by their
code. -/
theorem putAll_append_inj_on {α : Type} {valid : α → Prop} {put : α → List UInt8}
    (hput : PrefixCodeOn valid put) {xs ys : List α} {rest rest' : List UInt8}
    (hxs : xs.length < 2 ^ 32 ∧ ∀ x ∈ xs, valid x)
    (hys : ys.length < 2 ^ 32 ∧ ∀ y ∈ ys, valid y) :
    putAll put xs ++ rest = putAll put ys ++ rest' ↔ xs = ys ∧ rest = rest' := by
  constructor
  · intro h
    simp only [putAll, putCount, List.append_assoc] at h
    obtain ⟨hcount, hitems⟩ := putU32_prefixCode h
    have hlength : xs.length = ys.length := by
      have := congrArg UInt32.toNat hcount
      simpa only [UInt32.toNat_ofNat', Nat.mod_eq_of_lt hxs.1, Nat.mod_eq_of_lt hys.1] using this
    exact hput.flatMap hxs.2 hys.2 hlength hitems
  · rintro ⟨rfl, rfl⟩
    rfl

/-- Counted collections whose sizes fit the count are determined by their code. -/
theorem putAll_append_inj {α : Type} {put : α → List UInt8} (hput : PrefixCode put)
    {xs ys : List α} {rest rest' : List UInt8} (hxs : xs.length < 2 ^ 32)
    (hys : ys.length < 2 ^ 32) :
    putAll put xs ++ rest = putAll put ys ++ rest' ↔ xs = ys ∧ rest = rest' :=
  putAll_append_inj_on hput.on ⟨hxs, fun _ _ => trivial⟩ ⟨hys, fun _ _ => trivial⟩

end ByteWriter

namespace ByteReader

open ByteWriter
open Verified.Readers (Reads Parses)
open Verified.Readers.Reader (next bind_eq bind_iff bind_eq_some pure_eq_some accept_eq_some)

/-- A byte above the bits below it is a summand. -/
theorem or_byte {low byte modulus : Nat} (shift : Nat) (hlow : low < 2 ^ shift)
    (hbyte : byte < 2 ^ 8) (hmodulus : 2 ^ (shift + 8) ≤ modulus) :
    low ||| byte <<< shift % modulus = low + byte * 2 ^ shift := by
  have hfits : byte <<< shift < modulus := by
    rw [Nat.shiftLeft_eq]
    calc byte * 2 ^ shift < 2 ^ 8 * 2 ^ shift :=
          Nat.mul_lt_mul_of_pos_right hbyte (Nat.two_pow_pos shift)
      _ = 2 ^ (shift + 8) := by rw [Nat.pow_add, Nat.mul_comm]
      _ ≤ modulus := hmodulus
  rw [Nat.mod_eq_of_lt hfits, Nat.or_comm, ← Nat.shiftLeft_add_eq_or_of_lt hlow,
    Nat.shiftLeft_eq, Nat.add_comm]

theorem u16_putU16 (value : UInt16) (rest : List UInt8) :
    u16 (putU16 value ++ rest) = some (value, rest) := by
  have hvalue : value.toUInt8.toUInt16 ||| ((value >>> 8).toUInt8.toUInt16 <<< 8) = value := by
    have hlt := value.toNat_lt
    apply UInt16.toNat_inj.mp
    simp only [UInt16.toNat_or, UInt16.toNat_shiftLeft, UInt16.toNat_shiftRight,
      UInt8.toNat_toUInt16, UInt16.toNat_toUInt8, UInt16.toNat_ofNat, Nat.reduceMod,
      Nat.reducePow, Nat.shiftRight_eq_div_pow]
    rw [or_byte 8 (by omega) (by omega) (by decide)]
    omega
  show some (_, rest) = _
  rw [hvalue]

theorem u32_putU32 (value : UInt32) (rest : List UInt8) :
    u32 (putU32 value ++ rest) = some (value, rest) := by
  have hvalue : value.toUInt8.toUInt32 ||| ((value >>> 8).toUInt8.toUInt32 <<< 8) |||
      ((value >>> 16).toUInt8.toUInt32 <<< 16) |||
      ((value >>> 24).toUInt8.toUInt32 <<< 24) = value := by
    have hlt := value.toNat_lt
    apply UInt32.toNat_inj.mp
    simp only [UInt32.toNat_or, UInt32.toNat_shiftLeft, UInt32.toNat_shiftRight,
      UInt8.toNat_toUInt32, UInt32.toNat_toUInt8, UInt32.toNat_ofNat, Nat.reduceMod,
      Nat.reducePow, Nat.shiftRight_eq_div_pow]
    rw [or_byte 8 (by omega) (by omega) (by decide),
      or_byte 16 (by omega) (by omega) (by decide),
      or_byte 24 (by omega) (by omega) (by decide)]
    omega
  show some (_, rest) = _
  rw [hvalue]

theorem u64_putU64 (value : UInt64) (rest : List UInt8) :
    u64 (putU64 value ++ rest) = some (value, rest) := by
  have hvalue : value.toUInt8.toUInt64 ||| ((value >>> 8).toUInt8.toUInt64 <<< 8) |||
      ((value >>> 16).toUInt8.toUInt64 <<< 16) |||
      ((value >>> 24).toUInt8.toUInt64 <<< 24) |||
      ((value >>> 32).toUInt8.toUInt64 <<< 32) |||
      ((value >>> 40).toUInt8.toUInt64 <<< 40) |||
      ((value >>> 48).toUInt8.toUInt64 <<< 48) |||
      ((value >>> 56).toUInt8.toUInt64 <<< 56) = value := by
    have hlt := value.toNat_lt
    apply UInt64.toNat_inj.mp
    simp only [UInt64.toNat_or, UInt64.toNat_shiftLeft, UInt64.toNat_shiftRight,
      UInt8.toNat_toUInt64, UInt64.toNat_toUInt8, UInt64.toNat_ofNat, Nat.reduceMod,
      Nat.reducePow, Nat.shiftRight_eq_div_pow]
    rw [or_byte 8 (by omega) (by omega) (by decide),
      or_byte 16 (by omega) (by omega) (by decide),
      or_byte 24 (by omega) (by omega) (by decide),
      or_byte 32 (by omega) (by omega) (by decide),
      or_byte 40 (by omega) (by omega) (by decide),
      or_byte 48 (by omega) (by omega) (by decide),
      or_byte 56 (by omega) (by omega) (by decide)]
    omega
  show some (_, rest) = _
  rw [hvalue]

theorem u8_putU8 (value : UInt8) (rest : List UInt8) :
    u8 (putU8 value ++ rest) = some (value, rest) := rfl

theorem i64_putI64 (value : Int64) (rest : List UInt8) :
    i64 (putI64 value ++ rest) = some (value, rest) := by
  have hvalue : value.toUInt64.toInt64 = value := by simp
  rw [i64, bind_eq_some]
  exact ⟨_, _, u64_putU64 _ rest, by rw [hvalue]; rfl⟩

theorem boolean_putBool (value : Bool) (rest : List UInt8) :
    boolean (putBool value ++ rest) = some (value, rest) := by
  cases value <;> rfl

theorem id_putId {domain : IdentityDomain} (value : StrongId domain)
    (rest : List UInt8) : id (putId value ++ rest) = some (value, rest) := by
  rw [id, bind_eq_some]
  exact ⟨_, _, u64_putU64 _ rest, rfl⟩

theorem generation_putGeneration {domain : GenerationDomain}
    (value : Generation domain) (rest : List UInt8) :
    generation (putGeneration value ++ rest) = some (value, rest) := by
  rw [generation, bind_eq_some]
  exact ⟨_, _, u64_putU64 _ rest, rfl⟩

theorem generationField_putGeneration {domain : GenerationDomain}
    (value : Generation domain) (rest : List UInt8) (out : Generation domain × List UInt8) :
    generationField (putGeneration value ++ rest) = some out ↔
      value.value ≤ Generation.kMaxGeneration ∧ (value, rest) = out := by
  have hbounded : (value.value = 0 ∨ Generation.isRepresentable value.value = true) ↔
      value.value ≤ Generation.kMaxGeneration := by
    by_cases hzero : value.value = 0
    · simp [hzero]
    · simp [hzero, Generation.isRepresentable]
  simp only [generationField, bind_eq_some, pure_eq_some, accept_eq_some,
    generation_putGeneration, Option.some.injEq, Prod.mk.injEq, and_assoc, exists_and_left,
    exists_eq_left', exists_const, true_and, Bool.or_eq_true, decide_eq_true_eq, hbounded]

theorem padding8_putU8 (rest : List UInt8) :
    padding8 (putU8 0 ++ rest) = some ((), rest) := rfl

theorem padding16_putU16 (rest : List UInt8) :
    padding16 (putU16 0 ++ rest) = some ((), rest) := rfl

theorem padding32_putU32 (rest : List UInt8) :
    padding32 (putU32 0 ++ rest) = some ((), rest) := rfl

theorem raw_append {n : Nat} {bytes : List UInt8} (h : bytes.length = n)
    (rest : List UInt8) : raw n (bytes ++ rest) = some (bytes, rest) := by
  subst h
  induction bytes with
  | nil => rfl
  | cons byte bytes ih =>
      show (raw (bytes.length + 1)) (byte :: (bytes ++ rest)) = _
      simp only [raw, Verified.Readers.Reader.many, bind_eq_some, pure_eq_some]
      exact ⟨byte, bytes ++ rest, rfl, bytes, rest, ih, rfl⟩

/-- Text whose size fits the count is read back. -/
theorem string_putString {text rest : List UInt8} (h : text.length < 2 ^ 32) :
    string (putString text ++ rest) = some (text, rest) := by
  have hcount : (UInt32.ofNat text.length).toNat = text.length := by
    rw [UInt32.toNat_ofNat', Nat.mod_eq_of_lt h]
  simp only [string, putString, putCount, putRaw, List.append_assoc, bind_eq_some]
  exact ⟨_, _, u32_putU32 _ _, raw_append hcount.symm rest⟩

/-- A counted collection whose size fits the count is read back when it is within the bound
and its items are readable. -/
theorem all_bind_of_length {α γ : Type} {item : Reader α} {put : α → List UInt8}
    {readable : α → Prop} {maxSize : UInt32} {items : List α} {rest : List UInt8}
    {next : List α → Reader γ} {out : γ × List UInt8}
    (h : ∀ a ∈ items, ∀ rest out,
      item (put a ++ rest) = some out ↔ readable a ∧ (a, rest) = out)
    (hlength : items.length < 2 ^ 32) :
    (all maxSize item >>= next) (putAll put items ++ rest) = some out ↔
      (items.length ≤ maxSize.toNat ∧ ∀ a ∈ items, readable a) ∧
        next items rest = some out := by
  have hcount : (UInt32.ofNat items.length).toNat = items.length := by
    rw [UInt32.toNat_ofNat', Nat.mod_eq_of_lt hlength]
  refine bind_iff (fun read => ?_) next
  simp only [all, boundedLength, putAll, putCount, List.append_assoc, bind_eq_some,
    pure_eq_some, accept_eq_some, u32_putU32, decide_eq_true_eq, UInt32.le_iff_toNat_le,
    Option.some.injEq, Prod.mk.injEq, exists_eq_left', and_assoc, exists_and_left,
    exists_const, true_and, hcount, Reads.many_iff h]

/-- A counted collection whose code is short enough is read back when it is within the
bound and its items are readable. -/
theorem all_bind {α γ : Type} {item : Reader α} {put : α → List UInt8}
    {readable : α → Prop} (h : Reads (2 ^ 32) item put readable) (hput : ∀ a, put a ≠ [])
    {maxSize : UInt32} {items : List α} {rest : List UInt8} {next : List α → Reader γ}
    {out : γ × List UInt8} (hsize : (putAll put items).length < 2 ^ 32) :
    (all maxSize item >>= next) (putAll put items ++ rest) = some out ↔
      (items.length ≤ maxSize.toNat ∧ ∀ a ∈ items, readable a) ∧
        next items rest = some out := by
  rw [putAll, List.length_append] at hsize
  have hlength := Reads.length_le_flatMap hput items
  refine all_bind_of_length (fun a hmem rest out => h a rest out ?_) (by omega)
  have hitem := @Reads.length_le_length_flatMap _ _ put items a hmem
  omega

/-- Items that are readable whatever their size give back exactly the collections within the
bound.  A larger collection wraps its count, and then fewer items come back. -/
theorem all_putAll {α : Type} {item : Reader α} {put : α → List UInt8} {readable : α → Prop}
    (h : ∀ bound, Reads bound item put readable) {maxSize : UInt32} {items : List α}
    {rest left : List UInt8} :
    all maxSize item (putAll put items ++ rest) = some (items, left) ↔
      (items.length ≤ maxSize.toNat ∧ ∀ a ∈ items, readable a) ∧ rest = left := by
  simp only [all, boundedLength, putAll, putCount, List.append_assoc, bind_eq_some,
    pure_eq_some, accept_eq_some, u32_putU32, decide_eq_true_eq, UInt32.le_iff_toNat_le,
    Option.some.injEq, Prod.mk.injEq, exists_eq_left', and_assoc, exists_and_left,
    exists_const, true_and]
  have hmax := maxSize.toNat_lt
  by_cases hfits : items.length < 2 ^ 32
  · have hcount : (UInt32.ofNat items.length).toNat = items.length := by
      rw [UInt32.toNat_ofNat', Nat.mod_eq_of_lt hfits]
    have hmany := @Reads.many _ _ _ _ _ _ (h _) items rest (items, left) (Nat.lt_succ_self _)
    rw [hcount, hmany]
    simp
  · constructor
    · intro hread
      have hlength := Reads.length_many hread.2
      have hwrapped := (UInt32.ofNat items.length).toNat_lt
      dsimp only at hlength
      omega
    · intro hread
      omega

theorem read_digest (digest : Digest256) (rest : List UInt8) :
    Digest256.read (putRaw digest.bytes ++ rest) = some (digest, rest) := by
  rw [Digest256.read, bind_eq_some]
  refine ⟨_, _, raw_append digest.size rest, ?_⟩
  show ((if size : digest.bytes.length = 32 then
    some ({ bytes := digest.bytes, size } : Digest256) else none).bind fun a => some (a, rest)) = _
  rw [dif_pos digest.size]
  rfl

/-- The protocol value of a listed enumerator is read back. -/
theorem enum8_bind {α γ : Type} {enumerators : List α} {code : α → UInt8} {a : α}
    (h : enumerators.find? (code · == code a) = some a) (rest : List UInt8)
    (next : α → Reader γ) :
    (enum8 enumerators code >>= next) (putU8 (code a) ++ rest) = next a rest := by
  have hread : enum8 enumerators code (putU8 (code a) ++ rest) = some (a, rest) := by
    rw [enum8, bind_eq (u8_putU8 _ rest)]
    show (enumerators.find? (code · == code a)).map (·, rest) = _
    rw [h]
    rfl
  exact bind_eq hread next

theorem enum16_bind {α γ : Type} {enumerators : List α} {code : α → UInt16} {a : α}
    (h : enumerators.find? (code · == code a) = some a) (rest : List UInt8)
    (next : α → Reader γ) :
    (enum16 enumerators code >>= next) (putU16 (code a) ++ rest) = next a rest := by
  have hread : enum16 enumerators code (putU16 (code a) ++ rest) = some (a, rest) := by
    rw [enum16, bind_eq (u16_putU16 _ rest)]
    show (enumerators.find? (code · == code a)).map (·, rest) = _
    rw [h]
    rfl
  exact bind_eq hread next

/-! ### What is read was written

Each primitive accepts nothing but the code of the value that it gives back. -/

section Exactness

variable {input rest : List UInt8}

theorem u8_eq_some {value : UInt8} :
    u8 input = some (value, rest) ↔ input = putU8 value ++ rest := by
  cases input with
  | nil => exact iff_of_false (fun h => nomatch h) (fun h => nomatch h)
  | cons byte bytes =>
      show some (byte, bytes) = some (value, rest) ↔ byte :: bytes = value :: rest
      simp

theorem u16_eq_some {value : UInt16} :
    u16 input = some (value, rest) ↔ input = putU16 value ++ rest := by
  constructor
  · intro h
    match input, h with
    | b0 :: b1 :: bytes, h =>
        obtain ⟨hvalue, hrest⟩ := Prod.mk.inj (Option.some.inj h)
        have hnat := congrArg UInt16.toNat hvalue
        have h0 := b0.toNat_lt
        have h1 := b1.toNat_lt
        simp only [UInt16.toNat_or, UInt16.toNat_shiftLeft, UInt8.toNat_toUInt16,
          UInt16.toNat_ofNat, Nat.reduceMod, Nat.reducePow] at hnat
        rw [or_byte 8 (by omega) (by omega) (by decide)] at hnat
        rw [← hrest]
        show [b0, b1] ++ bytes = putU16 value ++ bytes
        congr 1
        simp only [putU16, List.cons.injEq, and_true, ← UInt8.toNat_inj, UInt16.toNat_toUInt8,
          UInt16.toNat_shiftRight, Nat.shiftRight_eq_div_pow, UInt16.toNat_ofNat,
          Nat.reduceMod, Nat.reducePow]
        omega
  · intro h
    rw [h, u16_putU16]

theorem u32_eq_some {value : UInt32} :
    u32 input = some (value, rest) ↔ input = putU32 value ++ rest := by
  constructor
  · intro h
    match input, h with
    | b0 :: b1 :: b2 :: b3 :: bytes, h =>
        obtain ⟨hvalue, hrest⟩ := Prod.mk.inj (Option.some.inj h)
        have hnat := congrArg UInt32.toNat hvalue
        have h0 := b0.toNat_lt
        have h1 := b1.toNat_lt
        have h2 := b2.toNat_lt
        have h3 := b3.toNat_lt
        simp only [UInt32.toNat_or, UInt32.toNat_shiftLeft, UInt8.toNat_toUInt32,
          UInt32.toNat_ofNat, Nat.reduceMod, Nat.reducePow] at hnat
        rw [or_byte 8 (by omega) (by omega) (by decide),
          or_byte 16 (by omega) (by omega) (by decide),
          or_byte 24 (by omega) (by omega) (by decide)] at hnat
        rw [← hrest]
        show [b0, b1, b2, b3] ++ bytes = putU32 value ++ bytes
        congr 1
        simp only [putU32, List.cons.injEq, and_true, ← UInt8.toNat_inj, UInt32.toNat_toUInt8,
          UInt32.toNat_shiftRight, Nat.shiftRight_eq_div_pow, UInt32.toNat_ofNat,
          Nat.reduceMod, Nat.reducePow]
        omega
  · intro h
    rw [h, u32_putU32]

theorem u64_eq_some {value : UInt64} :
    u64 input = some (value, rest) ↔ input = putU64 value ++ rest := by
  constructor
  · intro h
    match input, h with
    | b0 :: b1 :: b2 :: b3 :: b4 :: b5 :: b6 :: b7 :: bytes, h =>
        obtain ⟨hvalue, hrest⟩ := Prod.mk.inj (Option.some.inj h)
        have hnat := congrArg UInt64.toNat hvalue
        have h0 := b0.toNat_lt
        have h1 := b1.toNat_lt
        have h2 := b2.toNat_lt
        have h3 := b3.toNat_lt
        have h4 := b4.toNat_lt
        have h5 := b5.toNat_lt
        have h6 := b6.toNat_lt
        have h7 := b7.toNat_lt
        simp only [UInt64.toNat_or, UInt64.toNat_shiftLeft, UInt8.toNat_toUInt64,
          UInt64.toNat_ofNat, Nat.reduceMod, Nat.reducePow] at hnat
        rw [or_byte 8 (by omega) (by omega) (by decide),
          or_byte 16 (by omega) (by omega) (by decide),
          or_byte 24 (by omega) (by omega) (by decide),
          or_byte 32 (by omega) (by omega) (by decide),
          or_byte 40 (by omega) (by omega) (by decide),
          or_byte 48 (by omega) (by omega) (by decide),
          or_byte 56 (by omega) (by omega) (by decide)] at hnat
        rw [← hrest]
        show [b0, b1, b2, b3, b4, b5, b6, b7] ++ bytes = putU64 value ++ bytes
        congr 1
        simp only [putU64, List.cons.injEq, and_true, ← UInt8.toNat_inj, UInt64.toNat_toUInt8,
          UInt64.toNat_shiftRight, Nat.shiftRight_eq_div_pow, UInt64.toNat_ofNat,
          Nat.reduceMod, Nat.reducePow]
        omega
  · intro h
    rw [h, u64_putU64]

theorem i64_eq_some {value : Int64} :
    i64 input = some (value, rest) ↔ input = putI64 value ++ rest := by
  constructor
  · intro h
    simp only [i64, bind_eq_some, pure_eq_some, u64_eq_some] at h
    obtain ⟨raw, last, hinput, hout⟩ := h
    cases hout
    rw [hinput, putI64, UInt64.toUInt64_toInt64]
  · intro h
    rw [h, i64_putI64]

theorem boolean_eq_some {value : Bool} :
    boolean input = some (value, rest) ↔ input = putBool value ++ rest := by
  constructor
  · intro h
    simp only [boolean, bind_eq_some, accept_eq_some, pure_eq_some, u8_eq_some,
      decide_eq_true_eq] at h
    obtain ⟨raw, middle, hinput, _, last, ⟨hbit, hmiddle⟩, hout⟩ := h
    cases hmiddle
    cases hout
    have hraw : raw = 0 ∨ raw = 1 := by
      have hle : raw.toNat ≤ 1 := hbit
      rw [← UInt8.toNat_inj, ← UInt8.toNat_inj]
      show raw.toNat = 0 ∨ raw.toNat = 1
      omega
    rw [hinput]
    cases hraw with
    | inl hzero => rw [hzero]; rfl
    | inr hone => rw [hone]; rfl
  · intro h
    rw [h, boolean_putBool]

theorem id_eq_some {domain : IdentityDomain} {value : StrongId domain} :
    id input = some (value, rest) ↔ input = putId value ++ rest := by
  constructor
  · intro h
    simp only [id, bind_eq_some, pure_eq_some, u64_eq_some] at h
    obtain ⟨raw, last, hinput, hout⟩ := h
    cases hout
    exact hinput
  · intro h
    rw [h, id_putId]

theorem generation_eq_some {domain : GenerationDomain} {value : Generation domain} :
    generation input = some (value, rest) ↔ input = putGeneration value ++ rest := by
  constructor
  · intro h
    simp only [generation, bind_eq_some, pure_eq_some, u64_eq_some] at h
    obtain ⟨raw, last, hinput, hout⟩ := h
    cases hout
    exact hinput
  · intro h
    rw [h, generation_putGeneration]

theorem generationField_eq_some {domain : GenerationDomain} {value : Generation domain} :
    generationField input = some (value, rest) ↔
      input = putGeneration value ++ rest ∧ value.value ≤ Generation.kMaxGeneration := by
  constructor
  · intro h
    have hinput : input = putGeneration value ++ rest := by
      simp only [generationField, bind_eq_some, accept_eq_some, pure_eq_some,
        generation_eq_some] at h
      obtain ⟨raw, middle, hinput, _, last, ⟨-, hmiddle⟩, hout⟩ := h
      cases hmiddle
      cases hout
      exact hinput
    rw [hinput, generationField_putGeneration] at h
    exact ⟨hinput, h.1⟩
  · intro h
    rw [h.1, generationField_putGeneration]
    exact ⟨h.2, rfl⟩

theorem padding8_eq_some {value : Unit} :
    padding8 input = some (value, rest) ↔ input = putU8 0 ++ rest := by
  simp only [padding8, bind_eq_some, accept_eq_some, u8_eq_some, decide_eq_true_eq]
  constructor
  · intro h
    obtain ⟨raw, middle, hinput, hzero, hout⟩ := h
    cases hout
    rw [hinput, hzero]
  · intro h
    exact ⟨0, rest, h, rfl, rfl⟩

theorem padding16_eq_some {value : Unit} :
    padding16 input = some (value, rest) ↔ input = putU16 0 ++ rest := by
  simp only [padding16, bind_eq_some, accept_eq_some, u16_eq_some, decide_eq_true_eq]
  constructor
  · intro h
    obtain ⟨raw, middle, hinput, hzero, hout⟩ := h
    cases hout
    rw [hinput, hzero]
  · intro h
    exact ⟨0, rest, h, rfl, rfl⟩

theorem padding32_eq_some {value : Unit} :
    padding32 input = some (value, rest) ↔ input = putU32 0 ++ rest := by
  simp only [padding32, bind_eq_some, accept_eq_some, u32_eq_some, decide_eq_true_eq]
  constructor
  · intro h
    obtain ⟨raw, middle, hinput, hzero, hout⟩ := h
    cases hout
    rw [hinput, hzero]
  · intro h
    exact ⟨0, rest, h, rfl, rfl⟩

/-- The listed enumerator whose protocol value was read. -/
theorem enum8_eq_some {α : Type} {enumerators : List α} {code : α → UInt8} {a : α} :
    enum8 enumerators code input = some (a, rest) ↔
      input = putU8 (code a) ++ rest ∧ enumerators.find? (code · == code a) = some a := by
  constructor
  · intro h
    rw [enum8, bind_eq_some] at h
    obtain ⟨raw, middle, hraw, hknown⟩ := h
    change (enumerators.find? (code · == raw)).map (·, middle) = some (a, rest) at hknown
    obtain ⟨found, hfound, hout⟩ := Option.map_eq_some_iff.mp hknown
    cases hout
    have hcode : code a = raw := by simpa using List.find?_some hfound
    rw [hcode]
    exact ⟨u8_eq_some.mp hraw, hfound⟩
  · intro h
    rw [h.1, enum8, bind_eq (u8_putU8 _ rest)]
    show (enumerators.find? (code · == code a)).map (·, rest) = _
    rw [h.2]
    rfl

theorem enum16_eq_some {α : Type} {enumerators : List α} {code : α → UInt16} {a : α} :
    enum16 enumerators code input = some (a, rest) ↔
      input = putU16 (code a) ++ rest ∧ enumerators.find? (code · == code a) = some a := by
  constructor
  · intro h
    rw [enum16, bind_eq_some] at h
    obtain ⟨raw, middle, hraw, hknown⟩ := h
    change (enumerators.find? (code · == raw)).map (·, middle) = some (a, rest) at hknown
    obtain ⟨found, hfound, hout⟩ := Option.map_eq_some_iff.mp hknown
    cases hout
    have hcode : code a = raw := by simpa using List.find?_some hfound
    rw [hcode]
    exact ⟨u16_eq_some.mp hraw, hfound⟩
  · intro h
    rw [h.1, enum16, bind_eq (u16_putU16 _ rest)]
    show (enumerators.find? (code · == code a)).map (·, rest) = _
    rw [h.2]
    rfl

/-- Where every enumerator is listed, the code alone is read. -/
theorem enum8_exact {α : Type} {enumerators : List α} {code : α → UInt8} {a : α}
    (h : enumerators.find? (code · == code a) = some a) :
    enum8 enumerators code input = some (a, rest) ↔ input = putU8 (code a) ++ rest :=
  enum8_eq_some.trans (and_iff_left h)

theorem enum16_exact {α : Type} {enumerators : List α} {code : α → UInt16} {a : α}
    (h : enumerators.find? (code · == code a) = some a) :
    enum16 enumerators code input = some (a, rest) ↔ input = putU16 (code a) ++ rest :=
  enum16_eq_some.trans (and_iff_left h)

theorem raw_eq_some {n : Nat} {bytes : List UInt8} :
    raw n input = some (bytes, rest) ↔ input = bytes ++ rest ∧ bytes.length = n := by
  have hnext : Parses next (fun byte : UInt8 => [byte]) fun _ => True := by
    intro input byte rest
    rw [and_true]
    exact u8_eq_some
  have hflat : bytes.flatMap (fun byte => [byte]) = bytes := List.flatMap_singleton' bytes
  rw [raw, hnext.many, hflat]
  simp

/-- The text and its count. -/
theorem string_eq_some {text : List UInt8} :
    string input = some (text, rest) ↔
      input = putString text ++ rest ∧ text.length < 2 ^ 32 := by
  constructor
  · intro h
    simp only [string, bind_eq_some, u32_eq_some, raw_eq_some] at h
    obtain ⟨count, middle, hinput, hmiddle, hlength⟩ := h
    have hcount : UInt32.ofNat text.length = count := by
      rw [hlength, UInt32.ofNat_toNat]
    refine ⟨?_, by rw [hlength]; exact count.toNat_lt⟩
    rw [hinput, hmiddle, putString, putCount, hcount, putRaw, List.append_assoc]
  · intro h
    rw [h.1]
    exact string_putString h.2

/-- A parser of one item parses the counted collections within the bound. -/
theorem all_parses {α : Type} {item : Reader α} {put : α → List UInt8} {readable : α → Prop}
    (h : Parses item put readable) (maxSize : UInt32) :
    Parses (all maxSize item) (putAll put) fun items =>
      items.length ≤ maxSize.toNat ∧ ∀ a ∈ items, readable a := by
  intro input items rest
  simp only [all, boundedLength, bind_eq_some, accept_eq_some, pure_eq_some, u32_eq_some,
    h.many, decide_eq_true_eq, UInt32.le_iff_toNat_le]
  constructor
  · intro hread
    obtain ⟨count, middle, ⟨raw, last, hinput, _, left, ⟨hbound, hleft⟩, hcount⟩, hmiddle,
      hlength, hall⟩ := hread
    cases hleft
    cases hcount
    have hsize : UInt32.ofNat items.length = count := by rw [hlength, UInt32.ofNat_toNat]
    refine ⟨?_, by rw [hlength]; exact hbound, hall⟩
    rw [hinput, hmiddle, putAll, putCount, hsize, List.append_assoc]
  · intro hcode
    obtain ⟨hinput, hbound, hall⟩ := hcode
    have hmax := maxSize.toNat_lt
    have hsize : (UInt32.ofNat items.length).toNat = items.length := by
      rw [UInt32.toNat_ofNat', Nat.mod_eq_of_lt (by omega)]
    rw [putAll, putCount, List.append_assoc] at hinput
    exact ⟨_, _, ⟨_, _, hinput, (), _, ⟨by rw [hsize]; exact hbound, rfl⟩, rfl⟩, rfl,
      hsize.symm, hall⟩

theorem digest_eq_some {digest : Digest256} :
    Digest256.read input = some (digest, rest) ↔ input = putRaw digest.bytes ++ rest := by
  constructor
  · intro h
    rw [Digest256.read, bind_eq_some] at h
    obtain ⟨bytes, middle, hraw, hsized⟩ := h
    obtain ⟨hinput, hsize⟩ := raw_eq_some.mp hraw
    change ((if size : bytes.length = 32 then
      some ({ bytes, size } : Digest256) else none).bind fun a => some (a, middle)) =
        some (digest, rest) at hsized
    rw [dif_pos hsize] at hsized
    cases hsized
    exact hinput
  · intro h
    rw [h, read_digest]

/-- The 36 bytes after a body pass both integrity checks exactly when they are the checksum
and the digest. -/
theorem trailer_checks_iff {trailer : List UInt8} {checksum : UInt32} {digest : Digest256}
    (hsize : trailer.length = 36) :
    ((u32 trailer).map (·.1) = some checksum ∧ (trailer.drop 4).take 32 = digest.bytes) ↔
      trailer = putU32 checksum ++ digest.bytes := by
  constructor
  · intro h
    obtain ⟨hcrc, hdigest⟩ := h
    obtain ⟨⟨value, last⟩, hread, hvalue⟩ := Option.map_eq_some_iff.mp hcrc
    have hsplit : trailer = putU32 value ++ last := u32_eq_some.mp hread
    have hlast : last.length = 32 := by
      rw [hsplit, List.length_append, length_putU32] at hsize
      omega
    rw [hsplit, List.drop_left' (length_putU32 value), List.take_of_length_le hlast.le]
      at hdigest
    have hchecksum : value = checksum := hvalue
    rw [hsplit, hdigest, hchecksum]
  · intro h
    rw [h, u32_putU32, List.drop_left' (length_putU32 checksum),
      List.take_of_length_le digest.size.le]
    exact ⟨rfl, rfl⟩

end Exactness

/-! ### Continuations

Each read followed by what is read after it, on a code followed by the rest. -/

section Continuations

variable {γ : Type} (rest : List UInt8)

theorem u32_bind (value : UInt32) (next : UInt32 → Reader γ) :
    (u32 >>= next) (putU32 value ++ rest) = next value rest :=
  bind_eq (u32_putU32 value rest) next

theorem u64_bind (value : UInt64) (next : UInt64 → Reader γ) :
    (u64 >>= next) (putU64 value ++ rest) = next value rest :=
  bind_eq (u64_putU64 value rest) next

theorem i64_bind (value : Int64) (next : Int64 → Reader γ) :
    (i64 >>= next) (putI64 value ++ rest) = next value rest :=
  bind_eq (i64_putI64 value rest) next

theorem boolean_bind (value : Bool) (next : Bool → Reader γ) :
    (boolean >>= next) (putBool value ++ rest) = next value rest :=
  bind_eq (boolean_putBool value rest) next

theorem id_bind {domain : IdentityDomain} (value : StrongId domain)
    (next : StrongId domain → Reader γ) :
    (id >>= next) (putId value ++ rest) = next value rest :=
  bind_eq (id_putId value rest) next

theorem generation_bind {domain : GenerationDomain} (value : Generation domain)
    (next : Generation domain → Reader γ) :
    (generation >>= next) (putGeneration value ++ rest) = next value rest :=
  bind_eq (generation_putGeneration value rest) next

theorem generationField_bind {domain : GenerationDomain} (value : Generation domain)
    (next : Generation domain → Reader γ) {out : γ × List UInt8} :
    (generationField >>= next) (putGeneration value ++ rest) = some out ↔
      value.value ≤ Generation.kMaxGeneration ∧ next value rest = some out :=
  bind_iff (generationField_putGeneration value rest) next

theorem padding8_bind (next : Unit → Reader γ) :
    (padding8 >>= next) (putU8 0 ++ rest) = next () rest :=
  bind_eq (padding8_putU8 rest) next

theorem padding16_bind (next : Unit → Reader γ) :
    (padding16 >>= next) (putU16 0 ++ rest) = next () rest :=
  bind_eq (padding16_putU16 rest) next

theorem padding32_bind (next : Unit → Reader γ) :
    (padding32 >>= next) (putU32 0 ++ rest) = next () rest :=
  bind_eq (padding32_putU32 rest) next

theorem digest_bind (digest : Digest256) (next : Digest256 → Reader γ) :
    (Digest256.read >>= next) (putRaw digest.bytes ++ rest) = next digest rest :=
  bind_eq (read_digest digest rest) next

theorem string_bind {text : List UInt8} (h : text.length < 2 ^ 32)
    (next : List UInt8 → Reader γ) :
    (string >>= next) (putString text ++ rest) = next text rest :=
  bind_eq (string_putString h) next

end Continuations

end ByteReader

end ConstraintRouting.Fabric
