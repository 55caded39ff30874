import Mathlib.Logic.Function.Basic

/-!
# Prefix codes

A code is a prefix code when the code of a value determines the value and the
rest, whatever follows it.  Records that concatenate the codes of their fields
are then decoded field by field.
-/

namespace ConstraintRouting.Verified.PrefixCodes

variable {α β γ : Type}

/-- The code of a value, whatever follows, determines the value and what follows. -/
def PrefixCode (encode : α → List β) : Prop :=
  ∀ ⦃a b : α⦄ ⦃rest rest' : List β⦄,
    encode a ++ rest = encode b ++ rest' → a = b ∧ rest = rest'

/-- A prefix code for the values that pass a condition. -/
def PrefixCodeOn (valid : α → Prop) (encode : α → List β) : Prop :=
  ∀ ⦃a b : α⦄ ⦃rest rest' : List β⦄, valid a → valid b →
    encode a ++ rest = encode b ++ rest' → a = b ∧ rest = rest'

theorem PrefixCode.on {encode : α → List β} (h : PrefixCode encode) :
    PrefixCodeOn (fun _ => True) encode := by
  intro a b rest rest' _ _ hcode
  exact h hcode

namespace PrefixCodeOn

variable {valid : α → Prop} {encode : α → List β}

theorem append_inj (h : PrefixCodeOn valid encode) {a b : α} {rest rest' : List β}
    (ha : valid a) (hb : valid b) :
    encode a ++ rest = encode b ++ rest' ↔ a = b ∧ rest = rest' := by
  constructor
  · intro hcode
    exact h ha hb hcode
  · rintro ⟨rfl, rfl⟩
    rfl

/-- Valid values with one code are equal. -/
theorem eq_of_encode_eq (h : PrefixCodeOn valid encode) {a b : α} (ha : valid a) (hb : valid b)
    (hcode : encode a = encode b) : a = b :=
  (@h a b [] [] ha hb (by rw [hcode])).1

/-- Sequences of one length, of valid values, are determined by the concatenation of their
codes. -/
theorem flatMap (h : PrefixCodeOn valid encode) {xs ys : List α} {rest rest' : List β}
    (hxs : ∀ x ∈ xs, valid x) (hys : ∀ y ∈ ys, valid y) (hlength : xs.length = ys.length)
    (hcode : xs.flatMap encode ++ rest = ys.flatMap encode ++ rest') :
    xs = ys ∧ rest = rest' := by
  induction xs generalizing ys with
  | nil =>
      obtain rfl : ys = [] := List.length_eq_zero_iff.mp hlength.symm
      exact ⟨rfl, hcode⟩
  | cons x xs ih =>
      cases ys with
      | nil => cases hlength
      | cons y ys =>
          simp only [List.flatMap_cons, List.append_assoc] at hcode
          have hx := hxs x List.mem_cons_self
          have hy := hys y List.mem_cons_self
          obtain ⟨rfl, htail⟩ := h hx hy hcode
          obtain ⟨rfl, hrest⟩ := ih (fun z hz => hxs z (List.mem_cons_of_mem _ hz))
            (fun z hz => hys z (List.mem_cons_of_mem _ hz)) (Nat.succ.inj hlength) htail
          exact ⟨rfl, hrest⟩

end PrefixCodeOn

namespace PrefixCode

variable {encode : α → List β}

/-- An injective code of fixed length is a prefix code. -/
theorem of_length {n : Nat} (hlength : ∀ a, (encode a).length = n)
    (hinjective : Function.Injective encode) : PrefixCode encode := by
  intro a b rest rest' h
  obtain ⟨hcode, hrest⟩ := List.append_inj h ((hlength a).trans (hlength b).symm)
  exact ⟨hinjective hcode, hrest⟩

/-- Values that an injection sends to a prefix code have one. -/
theorem comp (h : PrefixCode encode) {f : γ → α} (hf : Function.Injective f) :
    PrefixCode (encode ∘ f) := by
  intro a b rest rest' hcode
  obtain ⟨hvalue, hrest⟩ := h hcode
  exact ⟨hf hvalue, hrest⟩

theorem injective (h : PrefixCode encode) : Function.Injective encode := by
  intro a b hcode
  exact h.on.eq_of_encode_eq trivial trivial hcode

theorem append_inj (h : PrefixCode encode) {a b : α} {rest rest' : List β} :
    encode a ++ rest = encode b ++ rest' ↔ a = b ∧ rest = rest' := by
  constructor
  · intro hcode
    exact h hcode
  · rintro ⟨rfl, rfl⟩
    rfl

/-- Sequences of one length are determined by the concatenation of their codes. -/
theorem flatMap (h : PrefixCode encode) {xs ys : List α} {rest rest' : List β}
    (hlength : xs.length = ys.length)
    (hcode : xs.flatMap encode ++ rest = ys.flatMap encode ++ rest') :
    xs = ys ∧ rest = rest' :=
  h.on.flatMap (fun _ _ => trivial) (fun _ _ => trivial) hlength hcode

end PrefixCode

/-- Codes of one length concatenate to a multiple of it. -/
theorem length_flatMap_of_const {encode : α → List β} {n : Nat}
    (hlength : ∀ a, (encode a).length = n) (xs : List α) :
    (xs.flatMap encode).length = n * xs.length := by
  induction xs with
  | nil => rfl
  | cons x xs ih =>
      rw [List.flatMap_cons, List.length_append, hlength, ih, List.length_cons, Nat.mul_succ,
        Nat.add_comm]

/-- Sequences with codes of one length are determined by the concatenation of these,
whatever their number. -/
theorem PrefixCode.flatMap_of_length {encode : α → List β} {n : Nat} {xs ys : List α}
    {rest rest' : List β} (h : PrefixCode encode) (hlength : ∀ a, (encode a).length = n)
    (hn : 0 < n) (hrest : rest.length = rest'.length)
    (hcode : xs.flatMap encode ++ rest = ys.flatMap encode ++ rest') :
    xs = ys ∧ rest = rest' := by
  have htotal := congrArg List.length hcode
  rw [List.length_append, List.length_append, length_flatMap_of_const hlength,
    length_flatMap_of_const hlength, hrest] at htotal
  have hproduct : n * xs.length = n * ys.length := by omega
  exact h.flatMap (Nat.eq_of_mul_eq_mul_left hn hproduct) hcode

end ConstraintRouting.Verified.PrefixCodes
