import Mathlib.Data.List.Basic

/-!
# Readers

A reader takes a value off the front of its input, or refuses.  `Reads` relates a
reader to a code: on the code of a value, whatever follows it, the reader accepts
exactly the readable values, takes exactly the code and gives back the value.

The code of a counted collection carries its size in a fixed-width count, so a code
is related to its reader up to a bound on its length.
-/

namespace ConstraintRouting.Verified.Readers

variable {α β γ κ : Type}

/-- A reader takes its value off the front of the input, or refuses. -/
abbrev Reader (β α : Type) := StateT (List β) Option α

namespace Reader

/-- The next element of the input. -/
def next : Reader β β
  | [] => none
  | b :: rest => some (b, rest)

/-- Refuses unless the condition holds. -/
def accept (condition : Bool) : Reader β Unit := fun input =>
  if condition then some ((), input) else none

/-- The listed value with the code, if there is one. -/
def known [BEq κ] (all : List α) (code : α → κ) (raw : κ) : Reader β α := fun input =>
  (all.find? (code · == raw)).map (·, input)

/-- As many values as asked for. -/
def many (item : Reader β α) : Nat → Reader β (List α)
  | 0 => pure []
  | n + 1 => do
      let a ← item
      let rest ← many item n
      return a :: rest

/-- The value is all that the input holds. -/
def toEnd (read : Reader β α) (input : List β) : Option α :=
  match read input with
  | some (a, []) => some a
  | _ => none

section Rules

variable {input : List β}

theorem bind_eq_some {read : Reader β α} {next : α → Reader β γ} {out : γ × List β} :
    (read >>= next) input = some out ↔
      ∃ a rest, read input = some (a, rest) ∧ next a rest = some out := by
  show ((read input).bind fun (a, rest) => next a rest) = some out ↔ _
  simp only [Option.bind_eq_some_iff, Prod.exists]

theorem pure_eq_some {a : α} {out : α × List β} :
    (pure a : Reader β α) input = some out ↔ (a, input) = out := by
  show some (a, input) = some out ↔ _
  exact Option.some_inj

theorem accept_eq_some {condition : Bool} {out : Unit × List β} :
    accept condition input = some out ↔ condition = true ∧ ((), input) = out := by
  unfold accept
  by_cases h : condition = true
  · simp [h]
  · simp [h]

/-- After a read that succeeds, the continuation runs on what is left. -/
theorem bind_eq {read : Reader β α} {a : α} {rest : List β}
    (h : read input = some (a, rest)) (next : α → Reader β γ) :
    (read >>= next) input = next a rest := by
  show ((read input).bind fun (a, rest) => next a rest) = _
  rw [h]
  rfl

theorem bind_iff {read : Reader β α} {a : α} {rest : List β} {condition : Prop}
    (h : ∀ out, read input = some out ↔ condition ∧ (a, rest) = out)
    (next : α → Reader β γ) {out : γ × List β} :
    (read >>= next) input = some out ↔ condition ∧ next a rest = some out := by
  simp only [bind_eq_some, h, Prod.mk.injEq, and_assoc, exists_and_left, exists_eq_left']

theorem accept_bind {condition : Bool} (next : Unit → Reader β γ) {out : γ × List β} :
    (accept condition >>= next) input = some out ↔
      condition = true ∧ next () input = some out :=
  bind_iff (fun _ => accept_eq_some) next

/-- A read that leaves nothing reads to the end. -/
theorem toEnd_eq_some {read : Reader β α} {a b : α} {condition : Prop}
    (h : ∀ out, read input = some out ↔ condition ∧ (a, []) = out) :
    read.toEnd input = some b ↔ condition ∧ a = b := by
  unfold toEnd
  by_cases hcondition : condition
  · rw [(h (a, [])).mpr ⟨hcondition, rfl⟩]
    simp [hcondition]
  · have hnone : read input = none := by
      rw [Option.eq_none_iff_forall_ne_some]
      intro out hout
      exact hcondition ((h out).mp hout).1
    rw [hnone]
    simp [hcondition]

end Rules

end Reader

/-- On the code of a value, whatever follows it, the reader accepts exactly the
readable values, takes exactly the code and gives back the value. -/
def Reads (bound : Nat) (read : Reader β α) (encode : α → List β) (readable : α → Prop) :
    Prop :=
  ∀ a rest out, (encode a).length < bound →
    (read (encode a ++ rest) = some out ↔ readable a ∧ (a, rest) = out)

namespace Reads

variable {bound : Nat} {read : Reader β α} {encode : α → List β} {readable : α → Prop}

/-- A reader that reads each of some values reads their sequence. -/
theorem many_iff {values : List α} {rest : List β} {out : List α × List β}
    (h : ∀ a ∈ values, ∀ rest out,
      read (encode a ++ rest) = some out ↔ readable a ∧ (a, rest) = out) :
    read.many values.length (values.flatMap encode ++ rest) = some out ↔
      (∀ a ∈ values, readable a) ∧ (values, rest) = out := by
  induction values generalizing out with
  | nil =>
      show some ([], rest) = some out ↔ _
      simp
  | cons a values ih =>
      have hhead := h a List.mem_cons_self
      have htail := fun out => @ih out fun b hmem => h b (List.mem_cons_of_mem _ hmem)
      simp only [List.length_cons, Reader.many, List.flatMap_cons, List.append_assoc,
        Reader.bind_eq_some, Reader.pure_eq_some, hhead, Prod.mk.injEq,
        and_assoc, exists_and_left, exists_eq_left', htail]
      constructor
      · intro hread
        obtain ⟨ha, hvalues, hout⟩ := hread
        exact ⟨List.forall_mem_cons.mpr ⟨ha, hvalues⟩, hout⟩
      · intro hread
        obtain ⟨hall, hout⟩ := hread
        exact ⟨(List.forall_mem_cons.mp hall).1, (List.forall_mem_cons.mp hall).2, hout⟩

theorem length_le_length_flatMap {values : List α} {a : α} (h : a ∈ values) :
    (encode a).length ≤ (values.flatMap encode).length := by
  rw [List.flatMap_def]
  exact (List.sublist_flatten_of_mem (List.mem_map_of_mem h)).length_le

/-- A reader of one value reads a sequence of them. -/
theorem many (h : Reads bound read encode readable) {values : List α} {rest : List β}
    {out : List α × List β} (hsize : (values.flatMap encode).length < bound) :
    read.many values.length (values.flatMap encode ++ rest) = some out ↔
      (∀ a ∈ values, readable a) ∧ (values, rest) = out :=
  many_iff fun a hmem rest out =>
    h a rest out (Nat.lt_of_le_of_lt (length_le_length_flatMap hmem) hsize)

/-- As many values are read as were asked for. -/
theorem length_many {n : Nat} {input : List β} {out : List α × List β}
    (h : read.many n input = some out) : out.1.length = n := by
  induction n generalizing input out with
  | zero =>
      cases h
      rfl
  | succ n ih =>
      simp only [Reader.many, Reader.bind_eq_some, Reader.pure_eq_some] at h
      obtain ⟨a, middle, -, values, rest, hvalues, hout⟩ := h
      subst hout
      exact congrArg (· + 1) (ih hvalues)

/-- A sequence of values with nonempty codes is no longer than its code. -/
theorem length_le_flatMap (hcode : ∀ a, encode a ≠ []) (values : List α) :
    values.length ≤ (values.flatMap encode).length := by
  induction values with
  | nil => simp
  | cons a values ih =>
      have hpos := List.length_pos_iff.mpr (hcode a)
      rw [List.flatMap_cons, List.length_append, List.length_cons]
      omega

end Reads

/-- The reader accepts exactly the codes of the readable values, whatever follows them. -/
abbrev Parses (read : Reader β α) (encode : α → List β) (readable : α → Prop) : Prop :=
  ∀ input a rest, read input = some (a, rest) ↔ input = encode a ++ rest ∧ readable a

namespace Parses

variable {read : Reader β α} {encode : α → List β} {readable : α → Prop}

theorem bind_eq_some (h : Parses read encode readable) {next : α → Reader β γ}
    {input : List β} {out : γ × List β} :
    (read >>= next) input = some out ↔
      ∃ a rest, (input = encode a ++ rest ∧ readable a) ∧ next a rest = some out := by
  simp only [Reader.bind_eq_some, h input]

/-- After the code of a readable value, the continuation runs on the rest. -/
theorem bind_eq (h : Parses read encode readable) {a : α} (ha : readable a)
    (rest : List β) (next : α → Reader β γ) :
    (read >>= next) (encode a ++ rest) = next a rest :=
  Reader.bind_eq ((h _ a rest).mpr ⟨rfl, ha⟩) next

/-- A parser of one value parses sequences of them. -/
theorem many (h : Parses read encode readable) {n : Nat} {input rest : List β}
    {values : List α} :
    read.many n input = some (values, rest) ↔
      input = values.flatMap encode ++ rest ∧ values.length = n ∧
        ∀ a ∈ values, readable a := by
  induction n generalizing input rest values with
  | zero =>
      show some ([], input) = some (values, rest) ↔ _
      constructor
      · intro hread
        cases hread
        exact ⟨rfl, rfl, List.forall_mem_nil _⟩
      · intro hcode
        obtain ⟨hinput, hlength, -⟩ := hcode
        have hnil : values = [] := List.eq_nil_of_length_eq_zero hlength
        rw [hinput, hnil]
        rfl
  | succ n ih =>
      simp only [Reader.many, h.bind_eq_some, Reader.bind_eq_some, Reader.pure_eq_some, ih]
      constructor
      · intro hread
        obtain ⟨a, middle, ⟨hinput, ha⟩, tail, last, ⟨hmiddle, hlength, htail⟩, hout⟩ := hread
        cases hout
        refine ⟨?_, congrArg (· + 1) hlength, List.forall_mem_cons.mpr ⟨ha, htail⟩⟩
        rw [hinput, hmiddle, List.flatMap_cons, List.append_assoc]
      · intro hcode
        obtain ⟨hinput, hlength, hall⟩ := hcode
        cases values with
        | nil => cases hlength
        | cons a tail =>
            obtain ⟨ha, htail⟩ := List.forall_mem_cons.mp hall
            rw [List.flatMap_cons, List.append_assoc] at hinput
            exact ⟨a, _, ⟨hinput, ha⟩, tail, rest, ⟨rfl, Nat.succ.inj hlength, htail⟩, rfl⟩

/-- The input that a parser reads to its end is the code of the value. -/
theorem toEnd_eq_some (h : Parses read encode readable) {input : List β} {a : α} :
    read.toEnd input = some a ↔ input = encode a ∧ readable a := by
  have hexact := h input a []
  rw [List.append_nil] at hexact
  rw [← hexact]
  unfold Reader.toEnd
  constructor
  · intro hread
    split at hread
    · next b hb =>
        cases hread
        exact hb
    · cases hread
  · intro hread
    rw [hread]

end Parses

end ConstraintRouting.Verified.Readers
