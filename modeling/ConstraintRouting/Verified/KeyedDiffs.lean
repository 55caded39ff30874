import Mathlib.Data.List.Nodup
import Std.Data.ExtTreeMap

/-!
# Differences of two maps

A diff of two maps is made in two passes: one over the keys of the left map, which compares
each value with the right map's value or reports that it departed, and one over the keys of
the right map, which reports those that arrived.  Together the passes report, of every key,
the change between its two values, and no key twice.

The maps themselves are filled from lists, entry by entry; what a map ends up with under a
key depends on the entries of that key only.
-/

namespace ConstraintRouting.Verified.KeyedDiffs

variable {α κ γ : Type} [Ord κ] [Std.TransOrd κ]

/-! ## Filling a map -/

/-- What a filled map holds under a key is merged from the entries of that key. -/
theorem getElem?_foldl [DecidableEq κ] {key : α → κ}
    {step : Std.ExtTreeMap κ α → α → Std.ExtTreeMap κ α} {merge : Option α → α → Option α}
    (hstep : ∀ map entry wanted, (step map entry)[wanted]? =
      if key entry = wanted then merge map[wanted]? entry else map[wanted]?)
    (entries : List α) (map : Std.ExtTreeMap κ α) (wanted : κ) :
    (entries.foldl step map)[wanted]? =
      (entries.filter (key · = wanted)).foldl merge map[wanted]? := by
  induction entries generalizing map with
  | nil => rfl
  | cons entry rest ih =>
      rw [List.foldl_cons, ih, hstep, List.filter_cons]
      by_cases hkey : key entry = wanted
      · rw [if_pos hkey, if_pos (decide_eq_true hkey), List.foldl_cons]
      · rw [if_neg hkey, if_neg (by simp [hkey])]

/-! ## The two passes -/

section Passes

variable (departed : κ → α → γ) (compared : κ → α → α → Option γ) (arrived : κ → α → γ)

/-- The change between the two values of a key. -/
def changeAt (key : κ) : Option α → Option α → Option γ
  | none, none => none
  | some before, none => some (departed key before)
  | none, some after => some (arrived key after)
  | some before, some after => compared key before after

/-- The pass over the left map. -/
def leftPass (left right : Std.ExtTreeMap κ α) : List γ :=
  left.toList.filterMap fun (key, before) =>
    match right[key]? with
    | none => some (departed key before)
    | some after => compared key before after

/-- The pass over the right map. -/
def rightPass (left right : Std.ExtTreeMap κ α) : List γ :=
  right.toList.filterMap fun (key, after) =>
    if left.contains key then none else some (arrived key after)

end Passes

section Diff

variable {departed : κ → α → γ} {compared : κ → α → α → Option γ} {arrived : κ → α → γ}
  {left right : Std.ExtTreeMap κ α} {change : γ}

omit [Ord κ] [Std.TransOrd κ] in
/-- The left pass reports the change of a key of the left map. -/
private theorem report_eq_changeAt (arrived : κ → α → γ) {key : κ} {before : α}
    (after : Option α) :
    (match after with
      | none => some (departed key before)
      | some after => compared key before after) =
      changeAt departed compared arrived key (some before) after := by
  cases after <;> rfl

/-- The right pass reports a key that the left map does not have. -/
private theorem arrival_iff {key : κ} {after : α} :
    (if left.contains key then none else some (arrived key after)) = some change ↔
      left[key]? = none ∧ arrived key after = change := by
  rw [Std.ExtTreeMap.contains_eq_isSome_getElem?]
  cases left[key]? <;> simp

variable [Std.LawfulEqOrd κ]

theorem mem_leftPass (arrived : κ → α → γ) : change ∈ leftPass departed compared left right ↔
    ∃ key before, left[key]? = some before ∧
      changeAt departed compared arrived key (some before) right[key]? = some change := by
  unfold leftPass
  simp only [List.mem_filterMap, Prod.exists, Std.ExtTreeMap.mem_toList_iff_getElem?_eq_some,
    report_eq_changeAt arrived]

theorem mem_rightPass : change ∈ rightPass arrived left right ↔
    ∃ key after, right[key]? = some after ∧ left[key]? = none ∧ arrived key after = change := by
  unfold rightPass
  simp only [List.mem_filterMap, Prod.exists, Std.ExtTreeMap.mem_toList_iff_getElem?_eq_some,
    arrival_iff]

/-- The passes report the changes of all keys. -/
theorem mem_passes : change ∈ leftPass departed compared left right ++
      rightPass arrived left right ↔
    ∃ key, changeAt departed compared arrived key left[key]? right[key]? = some change := by
  rw [List.mem_append, mem_leftPass arrived, mem_rightPass]
  constructor
  · rintro (⟨key, before, hleft, hchange⟩ | ⟨key, after, hright, hleft, hchange⟩)
    · exact ⟨key, hleft ▸ hchange⟩
    · refine ⟨key, ?_⟩
      rw [hleft, hright, ← hchange]
      rfl
  · rintro ⟨key, hchange⟩
    cases hleft : left[key]? with
    | some before => exact .inl ⟨key, before, hleft, hleft ▸ hchange⟩
    | none =>
        cases hright : right[key]? with
        | none =>
            rw [hleft, hright] at hchange
            cases hchange
        | some after =>
            rw [hleft, hright] at hchange
            exact .inr ⟨key, after, hright, hleft, Option.some.inj hchange⟩

omit [Ord κ] [Std.TransOrd κ] [Std.LawfulEqOrd κ] in
/-- A pass that keeps the keys reports a selection of them. -/
private theorem map_filterMap_sublist {keyOf : γ → κ} {report : κ × α → Option γ}
    {entries : List (κ × α)}
    (h : ∀ entry ∈ entries, ∀ change ∈ report entry, keyOf change = entry.1) :
    ((entries.filterMap report).map keyOf).Sublist (entries.map Prod.fst) := by
  induction entries with
  | nil => exact List.Sublist.slnil
  | cons entry rest ih =>
      have hrest := ih fun later hlater => h later (List.mem_cons_of_mem _ hlater)
      cases hreport : report entry with
      | none =>
          rw [List.filterMap_cons_none hreport]
          exact hrest.cons _
      | some change =>
          have hkey : keyOf change = entry.1 := h entry List.mem_cons_self change hreport
          rw [List.filterMap_cons_some hreport, List.map_cons, List.map_cons, hkey]
          exact hrest.cons_cons _

private theorem nodup_map_fst_toList (map : Std.ExtTreeMap κ α) :
    (map.toList.map Prod.fst).Nodup := by
  rw [List.Nodup, List.pairwise_map]
  apply Std.ExtTreeMap.distinct_keys_toList.imp
  intro a b hdistinct hsame
  exact hdistinct (hsame ▸ Std.ReflOrd.compare_self)

/-- They report no key twice. -/
theorem nodup_passes {keyOf : γ → κ}
    (hkey : ∀ key, ∀ change ∈ changeAt departed compared arrived key left[key]? right[key]?,
      keyOf change = key) :
    ((leftPass departed compared left right ++ rightPass arrived left right).map keyOf).Nodup := by
  have hleftKeys : ∀ key change, ∀ before, left[key]? = some before →
      changeAt departed compared arrived key (some before) right[key]? = some change →
      keyOf change = key := by
    intro key change before hleft hchange
    exact hkey key change (hleft ▸ hchange)
  have hrightKeys : ∀ key change, ∀ after, right[key]? = some after → left[key]? = none →
      arrived key after = change → keyOf change = key := by
    intro key change after hright hleft hchange
    apply hkey key change
    rw [hleft, hright, ← hchange]
    rfl
  rw [List.map_append, List.nodup_append]
  refine ⟨?_, ?_, ?_⟩
  · refine (map_filterMap_sublist ?_).nodup (nodup_map_fst_toList left)
    rintro ⟨key, before⟩ hentry change hchange
    have hleft := Std.ExtTreeMap.mem_toList_iff_getElem?_eq_some.mp hentry
    apply hleftKeys key change before hleft
    rw [← report_eq_changeAt]
    exact hchange
  · refine (map_filterMap_sublist ?_).nodup (nodup_map_fst_toList right)
    rintro ⟨key, after⟩ hentry change hchange
    have hright := Std.ExtTreeMap.mem_toList_iff_getElem?_eq_some.mp hentry
    obtain ⟨hleft, hreport⟩ := arrival_iff.mp hchange
    exact hrightKeys key change after hright hleft hreport
  · intro first hfirst second hsecond hsame
    obtain ⟨one, hone, rfl⟩ := List.mem_map.mp hfirst
    obtain ⟨other, hother, rfl⟩ := List.mem_map.mp hsecond
    obtain ⟨key, before, hleft, hchange⟩ := (mem_leftPass arrived).mp hone
    obtain ⟨arrival, after, hright, habsent, hreport⟩ := mem_rightPass.mp hother
    rw [hleftKeys key one before hleft hchange,
      hrightKeys arrival other after hright habsent hreport] at hsame
    rw [hsame, habsent] at hleft
    cases hleft

/-- A key is reported once if it has a change, and not at all otherwise. -/
theorem count_passes [DecidableEq κ] {keyOf : γ → κ}
    (hkey : ∀ key, ∀ change ∈ changeAt departed compared arrived key left[key]? right[key]?,
      keyOf change = key) (key : κ) :
    ((leftPass departed compared left right ++ rightPass arrived left right).map keyOf).count key =
      if (changeAt departed compared arrived key left[key]? right[key]?).isSome then 1 else 0 := by
  have hmem : key ∈ (leftPass departed compared left right ++
      rightPass arrived left right).map keyOf ↔
        (changeAt departed compared arrived key left[key]? right[key]?).isSome = true := by
    rw [List.mem_map, Option.isSome_iff_exists]
    constructor
    · rintro ⟨change, hchange, rfl⟩
      obtain ⟨key, hreport⟩ := mem_passes.mp hchange
      rw [hkey key change hreport]
      exact ⟨change, hreport⟩
    · rintro ⟨change, hreport⟩
      exact ⟨change, mem_passes.mpr ⟨key, hreport⟩, hkey key change hreport⟩
  by_cases hreported : (changeAt departed compared arrived key left[key]? right[key]?).isSome = true
  · rw [if_pos hreported]
    exact List.count_eq_one_of_mem (nodup_passes hkey) (hmem.mpr hreported)
  · rw [if_neg hreported]
    exact List.count_eq_zero.mpr (mt hmem.mp hreported)

end Diff

end ConstraintRouting.Verified.KeyedDiffs
