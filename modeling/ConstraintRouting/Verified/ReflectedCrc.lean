import Mathlib.Data.BitVec

/-!
# Reflected cyclic redundancy checks

A reflected check divides a message bit by bit, the least significant bit of a byte
first.  Both the shift and the register are linear over exclusive or, so several bits may
be absorbed at once through a table of their remainders.
-/

namespace ConstraintRouting.Verified.ReflectedCrc

variable {w : Nat}

/-! ## Bit by bit -/

/-- One shift of the register; the bit that falls out selects the polynomial. -/
def shift (polynomial register : BitVec w) : BitVec w :=
  if register.getLsbD 0 then (register >>> 1) ^^^ polynomial else register >>> 1

def shifts (polynomial : BitVec w) : Nat → BitVec w → BitVec w
  | 0, register => register
  | n + 1, register => shifts polynomial n (shift polynomial register)

/-- A message bit meets the bit that falls out of the register. -/
def absorbBit (polynomial register : BitVec w) (bit : Bool) : BitVec w :=
  if register.getLsbD 0 ^^ bit then (register >>> 1) ^^^ polynomial else register >>> 1

/-- The bits of a byte, the least significant one first. -/
def bitsOf (byte : UInt8) : List Bool := (List.range 8).map byte.toBitVec.getLsbD

/-- The check of a message: the register starts with all ones, and is complemented at the
end. -/
def checksum (polynomial : BitVec w) (message : List UInt8) : BitVec w :=
  ~~~ (message.flatMap bitsOf).foldl (absorbBit polynomial) (BitVec.allOnes w)

/-! ## Linearity -/

variable {polynomial : BitVec w}

private theorem xor_swap (x y z : BitVec w) : x ^^^ y ^^^ z = (x ^^^ z) ^^^ y := by
  rw [BitVec.xor_assoc, BitVec.xor_comm y, BitVec.xor_assoc]

theorem shift_xor (x y : BitVec w) :
    shift polynomial (x ^^^ y) = shift polynomial x ^^^ shift polynomial y := by
  have hhalves : (x ^^^ y) >>> 1 = (x >>> 1) ^^^ (y >>> 1) := BitVec.ushiftRight_xor_distrib ..
  unfold shift
  rw [BitVec.getLsbD_xor, hhalves]
  cases x.getLsbD 0 with
  | false =>
      cases y.getLsbD 0 with
      | false => rfl
      | true => exact BitVec.xor_assoc ..
  | true =>
      cases y.getLsbD 0 with
      | false => exact xor_swap ..
      | true =>
          show x >>> 1 ^^^ y >>> 1 = (x >>> 1 ^^^ polynomial) ^^^ (y >>> 1 ^^^ polynomial)
          rw [BitVec.xor_assoc, BitVec.xor_comm polynomial, BitVec.xor_assoc, BitVec.xor_self,
            BitVec.xor_zero]

theorem shifts_xor (n : Nat) (x y : BitVec w) :
    shifts polynomial n (x ^^^ y) = shifts polynomial n x ^^^ shifts polynomial n y := by
  induction n generalizing x y with
  | zero => rfl
  | succ n ih =>
      show shifts polynomial n (shift polynomial (x ^^^ y)) = _
      rw [shift_xor, ih]
      rfl

/-- A bit that is not set falls out without effect. -/
theorem shift_of_even {x : BitVec w} (h : x.getLsbD 0 = false) :
    shift polynomial x = x >>> 1 := by
  rw [shift, h, if_neg Bool.false_ne_true]

/-- Bits that are not set fall out without effect. -/
theorem shifts_of_low_clear {n : Nat} {x : BitVec w} (h : ∀ i < n, x.getLsbD i = false) :
    shifts polynomial n x = x >>> n := by
  induction n generalizing x with
  | zero => rfl
  | succ n ih =>
      show shifts polynomial n (shift polynomial x) = _
      rw [shift_of_even (h 0 (Nat.succ_pos n)), ih, ← BitVec.shiftRight_add, Nat.add_comm]
      intro i hi
      rw [BitVec.getLsbD_ushiftRight]
      exact h (1 + i) (by omega)

/-! ## Several bits at once -/

theorem absorbBit_eq (register x : BitVec w) :
    shift polynomial (register ^^^ x) =
      absorbBit polynomial register (x.getLsbD 0) ^^^ (x >>> 1) := by
  have hhalves : (register ^^^ x) >>> 1 = (register >>> 1) ^^^ (x >>> 1) :=
    BitVec.ushiftRight_xor_distrib ..
  unfold shift absorbBit
  rw [BitVec.getLsbD_xor, hhalves]
  cases (register.getLsbD 0 ^^ x.getLsbD 0) with
  | false => rfl
  | true => exact xor_swap ..

/-- Absorbing the `n` low bits of a value is `n` shifts, up to the bits that are left. -/
theorem foldl_absorbBit (n : Nat) (register x : BitVec w) :
    ((List.range n).map x.getLsbD).foldl (absorbBit polynomial) register =
      shifts polynomial n (register ^^^ x) ^^^ (x >>> n) := by
  induction n generalizing register x with
  | zero =>
      show register = (register ^^^ x) ^^^ x
      rw [BitVec.xor_assoc, BitVec.xor_self, BitVec.xor_zero]
  | succ n ih =>
      have hrest : (x.getLsbD ∘ Nat.succ) = (x >>> 1).getLsbD := by
        funext i
        rw [BitVec.getLsbD_ushiftRight, Nat.add_comm]
        rfl
      rw [List.range_succ_eq_map, List.map_cons, List.map_map, List.foldl_cons, hrest, ih,
        ← absorbBit_eq, ← BitVec.shiftRight_add, Nat.add_comm 1 n]
      rfl

/-- The low bits of the register pass through the table, the others are moved down. -/
theorem shifts_eq_low {n : Nat} {register low : BitVec w}
    (hlow : ∀ i, low.getLsbD i = (decide (i < n) && register.getLsbD i)) :
    shifts polynomial n register = shifts polynomial n low ^^^ (register >>> n) := by
  have hsplit : register = low ^^^ (low ^^^ register) := by
    rw [← BitVec.xor_assoc, BitVec.xor_self, BitVec.zero_xor]
  have hclear : ∀ i < n, (low ^^^ register).getLsbD i = false := by
    intro i hi
    rw [BitVec.getLsbD_xor, hlow, decide_eq_true hi, Bool.true_and, Bool.xor_self]
  have hmoved : (low ^^^ register) >>> n = register >>> n := by
    apply BitVec.eq_of_getLsbD_eq
    intro i hi
    rw [BitVec.getLsbD_ushiftRight, BitVec.getLsbD_ushiftRight, BitVec.getLsbD_xor, hlow,
      decide_eq_false (by omega), Bool.false_and, Bool.false_xor]
  calc shifts polynomial n register
      = shifts polynomial n (low ^^^ (low ^^^ register)) := by rw [← hsplit]
    _ = shifts polynomial n low ^^^ shifts polynomial n (low ^^^ register) := shifts_xor ..
    _ = shifts polynomial n low ^^^ (register >>> n) := by
        rw [shifts_of_low_clear hclear, hmoved]

/-- A byte is absorbed by one look into the table of the eight-bit remainders. -/
theorem foldl_absorbBit_bitsOf (hwidth : 8 ≤ w) (register : BitVec w) (byte : UInt8)
    {low : BitVec w}
    (hlow : ∀ i, low.getLsbD i =
      (decide (i < 8) && (register ^^^ byte.toBitVec.setWidth w).getLsbD i)) :
    (bitsOf byte).foldl (absorbBit polynomial) register =
      shifts polynomial 8 low ^^^ (register >>> 8) := by
  have hbits : bitsOf byte = (List.range 8).map (byte.toBitVec.setWidth w).getLsbD := by
    apply List.map_congr_left
    intro i hi
    have hbound : i < w := by
      have := List.mem_range.mp hi
      omega
    rw [BitVec.getLsbD_setWidth, decide_eq_true hbound, Bool.true_and]
  have hgone : byte.toBitVec.setWidth w >>> 8 = 0#w := by
    apply BitVec.eq_of_getLsbD_eq
    intro i hi
    rw [BitVec.getLsbD_ushiftRight, BitVec.getLsbD_setWidth, BitVec.getLsbD_zero,
      BitVec.getLsbD_of_ge _ _ (by omega), Bool.and_false]
  have hregister : (register ^^^ byte.toBitVec.setWidth w) >>> 8 = register >>> 8 := by
    rw [BitVec.ushiftRight_xor_distrib, hgone, BitVec.xor_zero]
  rw [hbits, foldl_absorbBit, hgone, BitVec.xor_zero, shifts_eq_low hlow, hregister]

end ConstraintRouting.Verified.ReflectedCrc
