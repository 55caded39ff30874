import Mathlib.Algebra.Ring.Nat
import Mathlib.Data.Fintype.EquivFin
import Mathlib.Logic.Function.Basic

/-!
# Mixers of words

The steps that hash finalizers are built from: a word exclusive-or-ed with itself shifted
down, and a product with an odd constant.  Each is a permutation of the words of its width,
so what is composed of them maps no two words to one.

A mixed word often stands for an identity that must not be zero.  Then zero is replaced by
one, and the only two words that share an identity are those that are mixed to zero and to
one.
-/

namespace ConstraintRouting.Verified.Mixers

/-! ## Shifts -/

section Shifts

variable {w k : Nat}

/-- Words with the same value of a downward shift-and-xor agree in every bit: the high bits
determine the lower ones. -/
private theorem getLsbD_of_xor_shift {x y : BitVec w} (hk : 0 < k)
    (h : x ^^^ (x >>> k) = y ^^^ (y >>> k)) (i : Nat) : x.getLsbD i = y.getLsbD i := by
  -- From the top bit down: bit `i` is masked by bit `i + k` only.
  by_cases hi : w ≤ i
  · rw [BitVec.getLsbD_of_ge x i hi, BitVec.getLsbD_of_ge y i hi]
  · have hhigh : x.getLsbD (k + i) = y.getLsbD (k + i) := getLsbD_of_xor_shift hk h (k + i)
    have hbit := congrArg (fun z : BitVec w => z.getLsbD i) h
    simp only [BitVec.getLsbD_xor, BitVec.getLsbD_ushiftRight, hhigh] at hbit
    exact Bool.xor_left_inj.mp hbit
termination_by w - i

theorem xor_shift_injective (hk : 0 < k) :
    Function.Injective fun x : BitVec w => x ^^^ (x >>> k) := by
  intro x y h
  exact BitVec.eq_of_getLsbD_eq fun i _ => getLsbD_of_xor_shift hk h i

end Shifts

/-- The same step on machine words. -/
theorem xorShift_injective {k : UInt64} (hk : 0 < k.toNat % 64) :
    Function.Injective fun x : UInt64 => x ^^^ (x >>> k) := by
  intro x y h
  have hbits := congrArg UInt64.toBitVec h
  simp only [UInt64.toBitVec_xor, UInt64.toBitVec_shiftRight, BitVec.ushiftRight_eq'] at hbits
  have hamount : (k.toBitVec % 64).toNat = k.toNat % 64 := rfl
  rw [hamount] at hbits
  exact UInt64.toBitVec_inj.mp (xor_shift_injective hk hbits)

/-! ## Products -/

/-- A constant with an inverse multiplies distinct words to distinct ones. -/
theorem mul_injective {c d : UInt64} (h : c * d = 1) :
    Function.Injective fun x : UInt64 => x * c := by
  intro x y hxy
  have hx : ∀ z : UInt64, z * c * d = z := by
    intro z
    rw [UInt64.mul_assoc, h, UInt64.mul_one]
  have hproduct : x * c * d = y * c * d := congrArg (· * d) hxy
  rw [hx, hx] at hproduct
  exact hproduct

/-- Exclusive-or with a word undoes itself. -/
theorem xor_left_injective (word : UInt64) :
    Function.Injective fun value : UInt64 => word ^^^ value := by
  intro x y h
  have hback : ∀ value : UInt64, word ^^^ (word ^^^ value) = value := by
    intro value
    rw [← UInt64.xor_assoc, UInt64.xor_self, UInt64.zero_xor]
  have hxy : word ^^^ (word ^^^ x) = word ^^^ (word ^^^ y) := congrArg (word ^^^ ·) h
  rw [hback, hback] at hxy
  exact hxy

/-- An injective map of machine words permutes them. -/
theorem bijective_of_injective {f : UInt64 → UInt64} (h : Function.Injective f) :
    Function.Bijective f :=
  have : Finite UInt64 := Finite.of_injective UInt64.toFin fun _ _ => UInt64.toFin_inj.mp
  Finite.injective_iff_bijective.mp h

/-! ## Identities that are not zero -/

section Identities

variable {α β : Type} [DecidableEq β] {zero one : β} {f : α → β}

/-- Replaces zero by one. -/
def nonzero (zero one value : β) : β := if value = zero then one else value

theorem nonzero_ne_zero (hne : one ≠ zero) (value : β) : nonzero zero one value ≠ zero := by
  unfold nonzero
  by_cases h : value = zero
  · rw [if_pos h]
    exact hne
  · rw [if_neg h]
    exact h

/-- The replacement joins zero and one, and no other two values. -/
theorem nonzero_eq_iff {x y : β} :
    nonzero zero one x = nonzero zero one y ↔
      x = y ∨ (x = zero ∧ y = one) ∨ (x = one ∧ y = zero) := by
  unfold nonzero
  by_cases hx : x = zero
  · by_cases hy : y = zero
    · simp [hx, hy]
    · have hzero : ¬ zero = y := fun h => hy h.symm
      rw [if_pos hx, if_neg hy]
      simp [hx, hy, hzero, eq_comm]
  · by_cases hy : y = zero
    · rw [if_neg hx, if_pos hy]
      simp [hx, hy]
    · simp [hx, hy]

/-- Over a permutation, exactly one pair of arguments shares an identity. -/
theorem exists_unique_clash (hf : Function.Bijective f) (hne : one ≠ zero) :
    ∃ a b, a ≠ b ∧ ∀ x y, nonzero zero one (f x) = nonzero zero one (f y) ↔
      x = y ∨ (x = a ∧ y = b) ∨ (x = b ∧ y = a) := by
  obtain ⟨a, ha⟩ := hf.surjective zero
  obtain ⟨b, hb⟩ := hf.surjective one
  refine ⟨a, b, ?_, fun x y => ?_⟩
  · intro hab
    rw [hab, hb] at ha
    exact hne ha
  · rw [nonzero_eq_iff, hf.injective.eq_iff, ← ha, ← hb, hf.injective.eq_iff,
      hf.injective.eq_iff, hf.injective.eq_iff, hf.injective.eq_iff]

end Identities

/-! ## Counters -/

/-- The counts below the size of a machine word, from a start on. -/
theorem counter_inj {start : UInt64} {i j : Nat} (hi : i < 2 ^ 64) (hj : j < 2 ^ 64) :
    start + UInt64.ofNat i = start + UInt64.ofNat j ↔ i = j := by
  rw [UInt64.add_right_inj, ← UInt64.toNat_inj, UInt64.toNat_ofNat', UInt64.toNat_ofNat',
    Nat.mod_eq_of_lt hi, Nat.mod_eq_of_lt hj]

theorem exists_counter (start value : UInt64) :
    ∃ i, i < 2 ^ 64 ∧ start + UInt64.ofNat i = value := by
  refine ⟨(value - start).toNat, UInt64.toNat_lt _, ?_⟩
  rw [UInt64.ofNat_toNat, UInt64.add_comm, UInt64.sub_add_cancel]

/-- Identities drawn from a permuted counter repeat once in a whole turn of the counter. -/
theorem exists_unique_repetition {f : UInt64 → UInt64} (hf : Function.Bijective f)
    (start : UInt64) :
    ∃ a b : Nat, a < b ∧ b < 2 ^ 64 ∧ ∀ i j, i < 2 ^ 64 → j < 2 ^ 64 →
      (nonzero 0 1 (f (start + UInt64.ofNat i)) = nonzero 0 1 (f (start + UInt64.ofNat j)) ↔
        i = j ∨ (i = a ∧ j = b) ∨ (i = b ∧ j = a)) := by
  have hone : (1 : UInt64) ≠ 0 := by decide
  obtain ⟨x, y, hne, hclash⟩ := exists_unique_clash hf hone
  obtain ⟨a, ha, hx⟩ := exists_counter start x
  obtain ⟨b, hb, hy⟩ := exists_counter start y
  have hclash : ∀ i j, i < 2 ^ 64 → j < 2 ^ 64 →
      (nonzero 0 1 (f (start + UInt64.ofNat i)) = nonzero 0 1 (f (start + UInt64.ofNat j)) ↔
        i = j ∨ (i = a ∧ j = b) ∨ (i = b ∧ j = a)) := by
    intro i j hi hj
    rw [hclash, ← hx, ← hy, counter_inj hi hj, counter_inj hi ha, counter_inj hj hb,
      counter_inj hi hb, counter_inj hj ha]
  have hdistinct : a ≠ b := by
    intro hab
    rw [hab, hy] at hx
    exact hne hx.symm
  by_cases hlt : a < b
  · exact ⟨a, b, hlt, hb, hclash⟩
  · refine ⟨b, a, by omega, ha, fun i j hi hj => ?_⟩
    rw [hclash i j hi hj]
    exact or_congr Iff.rfl or_comm

end ConstraintRouting.Verified.Mixers
