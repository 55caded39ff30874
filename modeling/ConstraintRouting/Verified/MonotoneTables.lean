import Mathlib.Data.List.Basic
import Std.Data.ExtTreeMap

/-!
# Tables whose entries only rise

An entry is raised to a value above the one it has, or the raise is refused.  Raising
an empty table to the entries of another gives the other table back.
-/

namespace ConstraintRouting.Verified.MonotoneTables

variable {κ α : Type} {cmp : κ → κ → Ordering} [LE α] [DecidableLE α]

/-- Raises one entry; refused when the entry is already there at or above the value. -/
def raise (table : Std.ExtTreeMap κ α cmp) [Std.TransCmp cmp] (key : κ) (value : α) :
    Option (Std.ExtTreeMap κ α cmp) :=
  if table[key]?.any (value ≤ ·) then none else some (table.insert key value)

/-- Raises the entries in turn; a refused one changes nothing. -/
def raiseAll (table : Std.ExtTreeMap κ α cmp) [Std.TransCmp cmp] (entries : List (κ × α)) :
    Std.ExtTreeMap κ α cmp :=
  entries.foldl (fun table entry => (raise table entry.1 entry.2).getD table) table

variable [Std.TransCmp cmp] {table : Std.ExtTreeMap κ α cmp}

/-- An absent entry is set. -/
theorem raise_of_absent {key : κ} (h : table[key]? = none) (value : α) :
    raise table key value = some (table.insert key value) := by
  simp [raise, h]

/-- A raise succeeds exactly when it lifts the entry above the value it had. -/
theorem raise_isSome {key : κ} {value : α} :
    (raise table key value).isSome = true ↔ ∀ found, table[key]? = some found → ¬ value ≤ found := by
  unfold raise
  cases table[key]? <;> simp

variable [Std.LawfulEqCmp cmp]

/-- Entries under distinct keys that were absent are all there in the end, and the
other keys are as before. -/
theorem getElem?_raiseAll {entries : List (κ × α)}
    (hdistinct : entries.Pairwise fun a b => a.1 ≠ b.1)
    (habsent : ∀ entry ∈ entries, table[entry.1]? = none) :
    (∀ entry ∈ entries, (raiseAll table entries)[entry.1]? = some entry.2) ∧
      ∀ key, (∀ entry ∈ entries, entry.1 ≠ key) →
        (raiseAll table entries)[key]? = table[key]? := by
  induction entries generalizing table with
  | nil => exact ⟨fun _ h => absurd h List.not_mem_nil, fun _ _ => rfl⟩
  | cons entry rest ih =>
      have hraise := raise_of_absent (habsent entry List.mem_cons_self) entry.2
      have hcons : raiseAll table (entry :: rest) =
          raiseAll (table.insert entry.1 entry.2) rest := by
        simp [raiseAll, hraise]
      have hother : ∀ key, entry.1 ≠ key →
          (table.insert entry.1 entry.2)[key]? = table[key]? := by
        intro key hne
        simp [Std.ExtTreeMap.getElem?_insert, hne]
      rw [List.pairwise_cons] at hdistinct
      obtain ⟨hfirst, hrest⟩ := hdistinct
      have hmissing : ∀ later ∈ rest, (table.insert entry.1 entry.2)[later.1]? = none := by
        intro later hlater
        rw [hother later.1 (hfirst later hlater)]
        exact habsent later (List.mem_cons_of_mem _ hlater)
      obtain ⟨hset, hsame⟩ := ih hrest hmissing
      rw [hcons]
      constructor
      · intro found hfound
        rcases List.mem_cons.mp hfound with rfl | hlater
        · rw [hsame found.1 fun later hlater => (hfirst later hlater).symm]
          simp
        · exact hset found hlater
      · intro key hkey
        rw [hsame key fun later hlater => hkey later (List.mem_cons_of_mem _ hlater)]
        exact hother key (hkey entry List.mem_cons_self)

/-- The entries of a table give it back. -/
theorem raiseAll_toList (table : Std.ExtTreeMap κ α cmp) : raiseAll ∅ table.toList = table := by
  have hdistinct : table.toList.Pairwise fun a b => a.1 ≠ b.1 :=
    table.distinct_keys_toList.imp fun hne heq =>
      hne (Std.LawfulEqCmp.compare_eq_iff_eq.mpr heq)
  obtain ⟨hset, hsame⟩ := @getElem?_raiseAll _ _ cmp _ _ _ ∅ _ _ hdistinct (by simp)
  apply Std.ExtTreeMap.ext_getElem?
  intro key
  cases hfound : table[key]? with
  | some value =>
      exact hset (key, value) (Std.ExtTreeMap.mem_toList_iff_getElem?_eq_some.mpr hfound)
  | none =>
      rw [hsame key]
      · simp
      · rintro ⟨found, value⟩ hmem rfl
        rw [Std.ExtTreeMap.mem_toList_iff_getElem?_eq_some, hfound] at hmem
        cases hmem

/-! ## Tables that rise -/

/-- Every entry of the first table is in the second, at its value or above. -/
def Rises (before after : Std.ExtTreeMap κ α cmp) : Prop :=
  ∀ (key : κ) (value : α), before[key]? = some value →
    ∃ later : α, after[key]? = some later ∧ value ≤ later

section Rises

variable [Std.IsLinearPreorder α] {middle after : Std.ExtTreeMap κ α cmp}

omit [DecidableLE α] [Std.LawfulEqCmp cmp] in
theorem Rises.refl (table : Std.ExtTreeMap κ α cmp) : Rises table table :=
  fun _ value hfound => ⟨value, hfound, Std.le_refl value⟩

omit [DecidableLE α] [Std.LawfulEqCmp cmp] in
theorem Rises.trans (h : Rises table middle) (hrest : Rises middle after) :
    Rises table after := by
  intro key value hfound
  obtain ⟨next, hnext, hle⟩ := h key value hfound
  obtain ⟨later, hlater, hrises⟩ := hrest key next hnext
  exact ⟨later, hlater, Std.le_trans hle hrises⟩

/-- A raise that is not refused raises one entry. -/
theorem Rises.of_raise {key : κ} {value : α} (h : raise table key value = some after) :
    Rises table after := by
  unfold raise at h
  split at h
  · cases h
  · next hgreater =>
      cases h
      intro other found hfound
      by_cases hsame : key = other
      · rw [← hsame] at hfound ⊢
        rw [hfound, Option.any_some, decide_eq_true_iff] at hgreater
        have htotal : found ≤ value ∨ value ≤ found := Std.le_total
        exact ⟨value, Std.ExtTreeMap.getElem?_insert_self, htotal.resolve_right hgreater⟩
      · refine ⟨found, ?_, Std.le_refl found⟩
        rw [Std.ExtTreeMap.getElem?_insert, if_neg]
        · exact hfound
        · exact fun heq => hsame (Std.LawfulEqCmp.compare_eq_iff_eq.mp heq)

omit [DecidableLE α] [Std.LawfulEqCmp cmp] [Std.IsLinearPreorder α] in
/-- Where absent entries count as the least value, no entry is lowered. -/
theorem Rises.getD_le (h : Rises table after) (key : κ) {least : α}
    (hleast : ∀ value, least ≤ value) :
    table.getD key least ≤ after.getD key least := by
  rw [Std.ExtTreeMap.getD_eq_getD_getElem?, Std.ExtTreeMap.getD_eq_getD_getElem?]
  cases hfound : table[key]? with
  | none => exact hleast _
  | some value =>
      obtain ⟨later, hlater, hle⟩ := h key value hfound
      rw [hlater]
      exact hle

end Rises

end ConstraintRouting.Verified.MonotoneTables
