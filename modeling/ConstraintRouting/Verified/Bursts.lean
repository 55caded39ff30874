import ConstraintRouting.Verified.ReflectedCrc

/-!
# Bursts

A reflected check of `w` bits notices every burst of at most `w` bits: two messages that
carry their checks and differ only within a window of that size are the same message.  All
that it takes of the polynomial is that its last coefficient is set.
-/

namespace ConstraintRouting.Verified.ReflectedCrc

/-! ## Windows -/

section Windows

variable {α : Type} {n : Nat} {one other : List α}

/-- Two words of one length that differ only within a window of `n` letters. -/
def Burst (n : Nat) (one other : List α) : Prop :=
  one.length = other.length ∧
    ∃ start, ∀ i, one[i]? ≠ other[i]? → start ≤ i ∧ i < start + n

theorem Burst.take (h : Burst n one other) (k : Nat) :
    Burst n (one.take k) (other.take k) := by
  obtain ⟨hlength, start, hwindow⟩ := h
  refine ⟨by rw [List.length_take, List.length_take, hlength], start, ?_⟩
  intro i hne
  apply hwindow i
  intro heq
  by_cases hi : i < k
  · rw [List.getElem?_take_of_lt hi, List.getElem?_take_of_lt hi] at hne
    exact hne heq
  · apply hne
    rw [List.getElem?_eq_none (by rw [List.length_take]; omega),
      List.getElem?_eq_none (by rw [List.length_take]; omega)]

theorem Burst.drop (h : Burst n one other) (k : Nat) :
    Burst n (one.drop k) (other.drop k) := by
  obtain ⟨hlength, start, hwindow⟩ := h
  refine ⟨by rw [List.length_drop, List.length_drop, hlength], start - k, ?_⟩
  intro i hne
  rw [List.getElem?_drop, List.getElem?_drop] at hne
  have hbounds := hwindow (k + i) hne
  omega

/-- Words that agree but for one part of at most `n` letters. -/
theorem Burst.of_parts {before damaged altered after : List α}
    (hlength : damaged.length = altered.length) (hfits : damaged.length ≤ n) :
    Burst n (before ++ (damaged ++ after)) (before ++ (altered ++ after)) := by
  refine ⟨by simp only [List.length_append, hlength], before.length, ?_⟩
  intro i hne
  by_cases hbefore : i < before.length
  · rw [List.getElem?_append_left hbefore, List.getElem?_append_left hbefore] at hne
    exact absurd rfl hne
  · have hrest (part : List α) :
        (before ++ (part ++ after))[i]? = (part ++ after)[i - before.length]? :=
      List.getElem?_append_right (by omega)
    rw [hrest, hrest] at hne
    by_cases hafter : damaged.length ≤ i - before.length
    · rw [List.getElem?_append_right hafter, List.getElem?_append_right (by omega),
        hlength] at hne
      exact absurd rfl hne
    · omega

/-- Outside of the window the words agree. -/
theorem Burst.parts (h : Burst n one other) :
    ∃ before damaged altered after,
      one = before ++ (damaged ++ after) ∧ other = before ++ (altered ++ after) ∧
      damaged.length = altered.length ∧ damaged.length ≤ n := by
  obtain ⟨hlength, start, hwindow⟩ := h
  have hagree {i : Nat} (hi : i < start ∨ start + n ≤ i) : one[i]? = other[i]? := by
    by_contra hne
    have hbounds := hwindow i hne
    omega
  have hbefore : one.take start = other.take start := by
    apply List.ext_getElem?
    intro i
    by_cases hi : i < start
    · rw [List.getElem?_take_of_lt hi, List.getElem?_take_of_lt hi, hagree (.inl hi)]
    · rw [List.getElem?_eq_none (by rw [List.length_take]; omega),
        List.getElem?_eq_none (by rw [List.length_take]; omega)]
  have hafter : one.drop (start + n) = other.drop (start + n) := by
    apply List.ext_getElem?
    intro i
    rw [List.getElem?_drop, List.getElem?_drop, hagree (.inr (by omega))]
  have hsplit (word : List α) : word =
      word.take start ++ ((word.drop start).take n ++ word.drop (start + n)) := by
    rw [← List.drop_drop, List.take_append_drop, List.take_append_drop]
  refine ⟨one.take start, (one.drop start).take n, (other.drop start).take n,
    one.drop (start + n), hsplit one, ?_, ?_, ?_⟩
  · rw [hbefore, hafter]
    exact hsplit other
  · rw [List.length_take, List.length_take, List.length_drop, List.length_drop, hlength]
  · rw [List.length_take]
    exact Nat.min_le_left ..

end Windows

/-! ## The register -/

variable {w : Nat} {polynomial : BitVec w}

/-- The highest bit of the register says what fell out of it. -/
theorem getLsbD_absorbBit_top (htop : polynomial.getLsbD (w - 1) = true)
    (register : BitVec w) (bit : Bool) :
    (absorbBit polynomial register bit).getLsbD (w - 1) = (register.getLsbD 0 ^^ bit) := by
  have hwidth : 0 < w := by
    by_contra hzero
    rw [BitVec.getLsbD_of_ge _ _ (by omega)] at htop
    cases htop
  have hmoved : (register >>> 1).getLsbD (w - 1) = false := by
    rw [BitVec.getLsbD_ushiftRight, BitVec.getLsbD_of_ge _ _ (by omega)]
  unfold absorbBit
  cases register.getLsbD 0 ^^ bit with
  | false => exact hmoved
  | true =>
      show ((register >>> 1) ^^^ polynomial).getLsbD (w - 1) = true
      rw [BitVec.getLsbD_xor, hmoved, htop, Bool.false_xor]

/-- Bits that fell out alike leave registers that differ where they differed before. -/
theorem getLsbD_of_absorbBit {one other : BitVec w} {bit bit' : Bool} {i : Nat}
    (hout : (one.getLsbD 0 ^^ bit) = (other.getLsbD 0 ^^ bit'))
    (h : (absorbBit polynomial one bit).getLsbD i =
      (absorbBit polynomial other bit').getLsbD i) :
    one.getLsbD (i + 1) = other.getLsbD (i + 1) := by
  unfold absorbBit at h
  rw [hout] at h
  have hmoved : (one >>> 1).getLsbD i = (other >>> 1).getLsbD i := by
    cases hfell : other.getLsbD 0 ^^ bit' with
    | false =>
        rw [hfell] at h
        exact h
    | true =>
        rw [hfell] at h
        have hxor : ((one >>> 1) ^^^ polynomial).getLsbD i =
            ((other >>> 1) ^^^ polynomial).getLsbD i := h
        rw [BitVec.getLsbD_xor, BitVec.getLsbD_xor] at hxor
        exact Bool.xor_left_inj.mp hxor
  rw [BitVec.getLsbD_ushiftRight, BitVec.getLsbD_ushiftRight] at hmoved
  rw [Nat.add_comm i 1]
  exact hmoved

/-- What is absorbed can be undone. -/
theorem foldl_absorbBit_injective (htop : polynomial.getLsbD (w - 1) = true)
    (bits : List Bool) {one other : BitVec w}
    (h : bits.foldl (absorbBit polynomial) one = bits.foldl (absorbBit polynomial) other) :
    one = other := by
  induction bits generalizing one other with
  | nil => exact h
  | cons bit bits ih =>
      have hnext : absorbBit polynomial one bit = absorbBit polynomial other bit := ih h
      have hout : (one.getLsbD 0 ^^ bit) = (other.getLsbD 0 ^^ bit) := by
        rw [← getLsbD_absorbBit_top htop, hnext, getLsbD_absorbBit_top htop]
      apply BitVec.eq_of_getLsbD_eq
      intro i _
      cases i with
      | zero => exact Bool.xor_left_inj.mp hout
      | succ i => exact getLsbD_of_absorbBit hout (by rw [hnext])

/-- Registers that a few bits bring together differ in as many of their lowest bits. -/
theorem getLsbD_of_foldl_eq (htop : polynomial.getLsbD (w - 1) = true)
    {bits bits' : List Bool} (hlength : bits.length = bits'.length) (hfits : bits.length ≤ w)
    {one other : BitVec w}
    (h : bits.foldl (absorbBit polynomial) one = bits'.foldl (absorbBit polynomial) other) :
    ∀ i, bits.length ≤ i → one.getLsbD i = other.getLsbD i := by
  induction bits generalizing bits' one other with
  | nil =>
      intro i _
      cases List.length_eq_zero_iff.mp hlength.symm
      exact congrArg (·.getLsbD i) h
  | cons bit bits ih =>
      cases bits' with
      | nil => cases hlength
      | cons bit' bits' =>
          rw [List.length_cons, List.length_cons] at *
          have hrest := ih (Nat.succ.inj hlength) (by omega) h
          have hout : (one.getLsbD 0 ^^ bit) = (other.getLsbD 0 ^^ bit') := by
            rw [← getLsbD_absorbBit_top htop, hrest _ (by omega), getLsbD_absorbBit_top htop]
          intro i hi
          have hback := getLsbD_of_absorbBit hout (hrest (i - 1) (by omega))
          rw [Nat.sub_add_cancel (by omega)] at hback
          exact hback

/-- Bits that fit into the register are determined by what they make of it. -/
theorem bits_eq_of_foldl_eq (htop : polynomial.getLsbD (w - 1) = true)
    {bits bits' : List Bool} (hlength : bits.length = bits'.length) (hfits : bits.length ≤ w)
    {register : BitVec w}
    (h : bits.foldl (absorbBit polynomial) register =
      bits'.foldl (absorbBit polynomial) register) : bits = bits' := by
  induction bits generalizing bits' register with
  | nil => exact (List.length_eq_zero_iff.mp hlength.symm).symm
  | cons bit bits ih =>
      cases bits' with
      | nil => cases hlength
      | cons bit' bits' =>
          rw [List.length_cons] at hfits
          have hrest : bits.length = bits'.length := Nat.succ.inj hlength
          have htops := getLsbD_of_foldl_eq htop hrest (by omega) h (w - 1) (by omega)
          rw [getLsbD_absorbBit_top htop, getLsbD_absorbBit_top htop] at htops
          have hbit : bit = bit' := Bool.xor_right_inj.mp htops
          rw [hbit] at h ⊢
          rw [ih hrest (by omega) h]

/-! ## Messages that carry their check -/

/-- The bits of a message, followed by those of its check. -/
def checkedBits (polynomial : BitVec w) (message : List UInt8) : List Bool :=
  message.flatMap bitsOf ++ (List.range w).map (checksum polynomial message).getLsbD

/-- A message and its check leave the same register, whatever the message. -/
theorem foldl_checkedBits (message : List UInt8) :
    (checkedBits polynomial message).foldl (absorbBit polynomial) (BitVec.allOnes w) =
      shifts polynomial w (BitVec.allOnes w) := by
  have hgone : checksum polynomial message >>> w = 0#w := by
    apply BitVec.eq_of_getLsbD_eq
    intro i _
    rw [BitVec.getLsbD_ushiftRight, BitVec.getLsbD_zero, BitVec.getLsbD_of_ge _ _ (by omega)]
  rw [checkedBits, List.foldl_append, foldl_absorbBit, hgone, BitVec.xor_zero, checksum]
  congr 1
  rw [← BitVec.xor_allOnes, ← BitVec.xor_assoc, BitVec.xor_self, BitVec.zero_xor]

/-- A burst no longer than the check never turns one checked message into another. -/
theorem checkedBits_eq_of_burst (htop : polynomial.getLsbD (w - 1) = true)
    {message message' : List UInt8}
    (h : Burst w (checkedBits polynomial message) (checkedBits polynomial message')) :
    checkedBits polynomial message = checkedBits polynomial message' := by
  obtain ⟨before, damaged, altered, after, hone, hother, hlength, hfits⟩ := h.parts
  have hresidue : (checkedBits polynomial message).foldl (absorbBit polynomial)
      (BitVec.allOnes w) =
      (checkedBits polynomial message').foldl (absorbBit polynomial) (BitVec.allOnes w) := by
    rw [foldl_checkedBits, foldl_checkedBits]
  rw [hone, hother] at hresidue ⊢
  simp only [List.foldl_append] at hresidue
  rw [bits_eq_of_foldl_eq htop hlength hfits (foldl_absorbBit_injective htop after hresidue)]

/-- The bits of the bytes of a message determine it. -/
theorem flatMap_bitsOf_injective {bytes bytes' : List UInt8}
    (h : bytes.flatMap bitsOf = bytes'.flatMap bitsOf) : bytes = bytes' := by
  induction bytes generalizing bytes' with
  | nil =>
      cases bytes' with
      | nil => rfl
      | cons byte bytes' => cases h
  | cons byte bytes ih =>
      cases bytes' with
      | nil => cases h
      | cons byte' bytes' =>
          rw [List.flatMap_cons, List.flatMap_cons] at h
          obtain ⟨hbyte, hrest⟩ := List.append_inj h (by
            rw [bitsOf, bitsOf, List.length_map, List.length_map])
          have hvalue : byte = byte' := by
            apply UInt8.toBitVec_inj.mp
            apply BitVec.eq_of_getLsbD_eq
            intro i hi
            exact List.map_inj_left.mp hbyte i (List.mem_range.mpr hi)
          rw [hvalue, ih hrest]

end ConstraintRouting.Verified.ReflectedCrc
