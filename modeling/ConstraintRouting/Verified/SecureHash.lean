import Mathlib.Data.Nat.Digits.Defs
import Mathlib.Data.Nat.Find
import Mathlib.Data.Nat.NthRoot.Defs
import Mathlib.Data.Nat.Prime.Basic
import ConstraintRouting.Verified.BlockStreams

/-!
# The secure hash standard

SHA-256 of a byte string as FIPS 180-4 defines it: the functions and constants of its
section 4, the padding and parsing of section 5 and the computation of section 6.2.
-/

namespace ConstraintRouting.Verified.SecureHash

open BlockStreams

/-! ## Functions -/

/-- `ROTR`, a circular right shift. -/
def rotr (amount x : UInt32) : UInt32 := (x >>> amount) ||| (x <<< (32 - amount))

/-- `Ch` -/
def choose (x y z : UInt32) : UInt32 := (x &&& y) ^^^ ((~~~ x) &&& z)

/-- `Maj` -/
def majority (x y z : UInt32) : UInt32 := (x &&& y) ^^^ (x &&& z) ^^^ (y &&& z)

/-- `Σ₀` -/
def bigSigma0 (x : UInt32) : UInt32 := rotr 2 x ^^^ rotr 13 x ^^^ rotr 22 x

/-- `Σ₁` -/
def bigSigma1 (x : UInt32) : UInt32 := rotr 6 x ^^^ rotr 11 x ^^^ rotr 25 x

/-- `σ₀` -/
def smallSigma0 (x : UInt32) : UInt32 := rotr 7 x ^^^ rotr 18 x ^^^ (x >>> 3)

/-- `σ₁` -/
def smallSigma1 (x : UInt32) : UInt32 := rotr 17 x ^^^ rotr 19 x ^^^ (x >>> 10)

/-! ## Constants -/

/-- The first sixty-four primes are those below 312. -/
def primes : List Nat := (List.range 312).filter fun n => n.Prime

/-- The first thirty-two bits of the fractional part of a root. -/
def fractionBits (degree n : Nat) : UInt32 :=
  UInt32.ofNat (Nat.nthRoot degree (n * 2 ^ (32 * degree)))

/-- `K_t`, from the cube root of a prime. -/
def constant (t : Nat) : UInt32 := fractionBits 3 (primes.getD t 0)

/-- The hash value of eight words, and the eight working variables. -/
structure Words where
  a : UInt32
  b : UInt32
  c : UInt32
  d : UInt32
  e : UInt32
  f : UInt32
  g : UInt32
  h : UInt32
deriving DecidableEq

/-- The initial hash value, from the square roots of the first eight primes. -/
def initial : Words where
  a := fractionBits 2 2
  b := fractionBits 2 3
  c := fractionBits 2 5
  d := fractionBits 2 7
  e := fractionBits 2 11
  f := fractionBits 2 13
  g := fractionBits 2 17
  h := fractionBits 2 19

/-! ## Padding -/

/-- A number as bytes, the most significant one first. -/
def bigEndian (count value : Nat) : List UInt8 :=
  (List.range count).map fun i => UInt8.ofNat (value / 256 ^ (count - 1 - i))

theorem exists_paddingZeros (length : Nat) : ∃ zeros, (length + 1 + zeros) % 64 = 56 :=
  ⟨119 - length % 64, by omega⟩

/-- The least number of zero bytes that leaves eight bytes of the last block. -/
def paddingZeros (length : Nat) : Nat := Nat.find (exists_paddingZeros length)

/-- The message, a one bit, zero bits and the length in bits as a 64-bit block. -/
def pad (message : List UInt8) : List UInt8 :=
  message ++ [0x80] ++ List.replicate (paddingZeros message.length) 0 ++
    bigEndian 8 (8 * message.length % 2 ^ 64)

/-! ## Computation -/

/-- `M_t`, a big-endian word of the block. -/
def blockWord (block : List UInt8) (t : Nat) : UInt32 :=
  UInt32.ofNat (Nat.ofDigits 256 (((block.drop (4 * t)).take 4).reverse.map UInt8.toNat))

/-- `W_t`, a word of the message schedule. -/
def scheduleWord (block : List UInt8) (t : Nat) : UInt32 :=
  if t < 16 then blockWord block t
  else
    smallSigma1 (scheduleWord block (t - 2)) + scheduleWord block (t - 7) +
      smallSigma0 (scheduleWord block (t - 15)) + scheduleWord block (t - 16)
termination_by t

/-- One round on the working variables. -/
def round (v : Words) (constant word : UInt32) : Words :=
  let t1 := v.h + bigSigma1 v.e + choose v.e v.f v.g + constant + word
  let t2 := bigSigma0 v.a + majority v.a v.b v.c
  { a := t1 + t2, b := v.a, c := v.b, d := v.c, e := v.d + t1, f := v.e, g := v.f, h := v.g }

/-- The working variables after the first `n` rounds. -/
def rounds (block : List UInt8) : Nat → Words → Words
  | 0, v => v
  | n + 1, v => round (rounds block n v) (constant n) (scheduleWord block n)

/-- The next hash value. -/
def compress (v : Words) (block : List UInt8) : Words :=
  let w := rounds block 64 v
  { a := v.a + w.a, b := v.b + w.b, c := v.c + w.c, d := v.d + w.d,
    e := v.e + w.e, f := v.f + w.f, g := v.g + w.g, h := v.h + w.h }

/-- The words of a hash value as a digest. -/
def Words.bytes (v : Words) : List UInt8 :=
  [v.a, v.b, v.c, v.d, v.e, v.f, v.g, v.h].flatMap fun word => bigEndian 4 word.toNat

/-- SHA-256 of a message. -/
def sha256 (message : List UInt8) : List UInt8 :=
  (absorb 64 compress initial (pad message)).bytes

/-! ## Unfolding -/

theorem scheduleWord_of_lt {block : List UInt8} {t : Nat} (h : t < 16) :
    scheduleWord block t = blockWord block t := by
  rw [scheduleWord, if_pos h]

theorem scheduleWord_of_le {block : List UInt8} {t : Nat} (h : 16 ≤ t) :
    scheduleWord block t =
      smallSigma1 (scheduleWord block (t - 2)) + scheduleWord block (t - 7) +
        smallSigma0 (scheduleWord block (t - 15)) + scheduleWord block (t - 16) := by
  rw [scheduleWord, if_neg (Nat.not_lt.mpr h)]

/-- The words of a block that starts with four bytes. -/
theorem blockWord_zero (b0 b1 b2 b3 : UInt8) (rest : List UInt8) :
    blockWord (b0 :: b1 :: b2 :: b3 :: rest) 0 =
      UInt32.ofNat (b3.toNat + 256 * (b2.toNat + 256 * (b1.toNat + 256 * b0.toNat))) := rfl

/-- Below the square of eighteen, a number that nothing smaller than eighteen divides is
prime. -/
theorem prime_iff_of_lt {n : Nat} (h : n < 324) :
    n.Prime ↔ 2 ≤ n ∧ ∀ d < 18, 2 ≤ d → d ∣ n → d = n := by
  constructor
  · intro hprime
    refine ⟨hprime.two_le, ?_⟩
    intro d _ hd hdvd
    rcases hprime.eq_one_or_self_of_dvd d hdvd with hone | hself
    · omega
    · exact hself
  · rintro ⟨htwo, hsmall⟩
    by_contra hcomposite
    have hsquare := Nat.minFac_sq_le_self (by omega) hcomposite
    have hfac : n.minFac < 18 := by nlinarith
    have hleast := Nat.minFac_prime (n := n) (by omega)
    have hself := hsmall n.minFac hfac hleast.two_le (Nat.minFac_dvd n)
    exact hcomposite (Nat.prime_def_minFac.mpr ⟨htwo, hself⟩)

theorem primes_eq : primes =
    [2, 3, 5, 7, 11, 13, 17, 19, 23, 29, 31, 37, 41, 43, 47, 53, 59, 61, 67, 71, 73, 79, 83, 89,
     97, 101, 103, 107, 109, 113, 127, 131, 137, 139, 149, 151, 157, 163, 167, 173, 179, 181,
     191, 193, 197, 199, 211, 223, 227, 229, 233, 239, 241, 251, 257, 263, 269, 271, 277, 281,
     283, 293, 307, 311] := by
  have hfilter : primes =
      (List.range 312).filter fun n => 2 ≤ n ∧ ∀ d < 18, 2 ≤ d → d ∣ n → d = n := by
    apply List.filter_congr
    intro n hn
    have hlt : n < 324 := Nat.lt_of_lt_of_le (List.mem_range.mp hn) (by decide)
    exact decide_eq_decide.mpr (prime_iff_of_lt hlt)
  rw [hfilter]
  decide +kernel

/-- The constants of the sixty-four rounds. -/
theorem map_constant_range : (List.range 64).map constant = primes.map (fractionBits 3) := by
  have hprimes : (List.range 64).map (fun t => primes.getD t 0) = primes := by
    rw [primes_eq]
    decide +kernel
  calc (List.range 64).map constant
      = ((List.range 64).map fun t => primes.getD t 0).map (fractionBits 3) :=
        List.map_map.symm
    _ = primes.map (fractionBits 3) := by rw [hprimes]

theorem paddingZeros_spec (length : Nat) : (length + 1 + paddingZeros length) % 64 = 56 :=
  Nat.find_spec (exists_paddingZeros length)

/-- Fewer zero bytes do not do. -/
theorem paddingZeros_least {length zeros : Nat} (h : zeros < paddingZeros length) :
    (length + 1 + zeros) % 64 ≠ 56 :=
  Nat.find_min (exists_paddingZeros length) h

theorem paddingZeros_lt (length : Nat) : paddingZeros length < 64 := by
  have hformula : (length + 1 + (119 - length % 64) % 64) % 64 = 56 := by omega
  have hle := Nat.find_min' (exists_paddingZeros length) hformula
  exact Nat.lt_of_le_of_lt hle (Nat.mod_lt _ (by decide))

end ConstraintRouting.Verified.SecureHash
