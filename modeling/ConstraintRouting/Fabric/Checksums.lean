import ConstraintRouting.Fabric.Digest
import ConstraintRouting.Verified.ReflectedCrc

/-!
# What the checksum computes

The table of remainders makes `crc32c` absorb a byte at a time.  It is the reflected check
with the Castagnoli polynomial, taken bit by bit.
-/

namespace ConstraintRouting.Fabric

open Verified.ReflectedCrc

/-- The Castagnoli polynomial, its highest coefficient in the least significant bit. -/
def castagnoli : BitVec 32 := 0x82f63b78#32

example : castagnoli.reverse = 0x1edc6f41#32 := by decide +kernel

/-- CRC-32C, bit by bit. -/
def bitwiseCrc32c (data : List UInt8) : UInt32 := ⟨checksum castagnoli data⟩

/-- The test of the lowest bit. -/
private theorem odd_iff (value : UInt32) :
    (value &&& 1 != 0) = value.toBitVec.getLsbD 0 := by
  have hbit : (value &&& 1).toBitVec =
      BitVec.setWidth 32 (BitVec.ofBool (value.toBitVec.getLsbD 0)) :=
    BitVec.and_one_eq_setWidth_ofBool_getLsbD
  cases hlow : value.toBitVec.getLsbD 0 with
  | false =>
      have hzero : value &&& 1 = 0 := UInt32.toBitVec_inj.mp (hbit.trans (by rw [hlow]; rfl))
      rw [hzero]
      rfl
  | true =>
      have hone : value &&& 1 = 1 := UInt32.toBitVec_inj.mp (hbit.trans (by rw [hlow]; rfl))
      rw [hone]
      rfl

theorem crc32cShift_toBitVec (n : Nat) (value : UInt32) :
    (crc32cShift n value).toBitVec = shifts castagnoli n value.toBitVec := by
  induction n generalizing value with
  | zero => rfl
  | succ n ih =>
      show (crc32cShift n _).toBitVec = shifts castagnoli n (shift castagnoli value.toBitVec)
      rw [ih, shift, odd_iff]
      split
      · rfl
      · rfl

/-- An entry of the table is the remainder of its index. -/
theorem crc32cTable_getD (index : UInt32) (hindex : index.toNat < 256) :
    crc32cTable.getD index.toNat 0 = crc32cShift 8 index := by
  unfold crc32cTable
  rw [List.getD_eq_getElem?_getD, List.getElem?_map, List.getElem?_range hindex]
  show crc32cShift 8 (UInt32.ofNat index.toNat) = _
  rw [UInt32.ofNat_toNat]

/-- One byte through the table. -/
theorem crc32c_step (crc : UInt32) (byte : UInt8) :
    (crc32cTable.getD ((crc ^^^ byte.toUInt32) &&& 0xff).toNat 0 ^^^ (crc >>> 8)).toBitVec =
      (bitsOf byte).foldl (absorbBit castagnoli) crc.toBitVec := by
  have hbound : ((crc ^^^ byte.toUInt32) &&& 0xff).toNat < 256 := by
    rw [UInt32.toNat_and]
    exact Nat.lt_of_le_of_lt Nat.and_le_right (by decide)
  have hlow : ∀ i, ((crc ^^^ byte.toUInt32) &&& 0xff).toBitVec.getLsbD i =
      (decide (i < 8) && (crc.toBitVec ^^^ byte.toBitVec.setWidth 32).getLsbD i) := by
    intro i
    have hmask : (0xff : UInt32).toBitVec.getLsbD i = decide (i < 8) := by
      show (0xff#32).getLsbD i = decide (i < 8)
      rw [BitVec.getLsbD_ofNat, show 0xff = 2 ^ 8 - 1 by rfl, Nat.testBit_two_pow_sub_one]
      by_cases hi : i < 8
      · rw [decide_eq_true hi, decide_eq_true (by omega), Bool.true_and]
      · rw [decide_eq_false hi, Bool.and_false]
    rw [UInt32.toBitVec_and, BitVec.getLsbD_and, hmask, Bool.and_comm]
    rfl
  rw [crc32cTable_getD _ hbound, foldl_absorbBit_bitsOf (by decide) _ _ hlow,
    UInt32.toBitVec_xor, crc32cShift_toBitVec]
  rfl

/-- The checksum is the reflected CRC-32C of its bytes, taken bit by bit. -/
theorem crc32c_eq_bitwiseCrc32c (data : List UInt8) : crc32c data = bitwiseCrc32c data := by
  have hfold (crc : UInt32) :
      (data.foldl (fun (crc : UInt32) byte =>
        crc32cTable.getD ((crc ^^^ byte.toUInt32) &&& 0xff).toNat 0 ^^^ (crc >>> 8))
        crc).toBitVec =
      (data.flatMap bitsOf).foldl (absorbBit castagnoli) crc.toBitVec := by
    induction data generalizing crc with
    | nil => rfl
    | cons byte rest ih =>
        rw [List.foldl_cons, ih, crc32c_step, List.flatMap_cons, List.foldl_append]
  have hcomplement (crc : BitVec 32) : crc ^^^ BitVec.allOnes 32 = ~~~ crc :=
    BitVec.xor_allOnes
  apply UInt32.toBitVec_inj.mp
  unfold crc32c
  rw [UInt32.toBitVec_xor, hfold]
  exact hcomplement _

example : crc32c "123456789".toUTF8.toList = 0xe3069283 := by decide +kernel

end ConstraintRouting.Fabric
