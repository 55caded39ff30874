import ConstraintRouting.Fabric.Diffs
import Mathlib.Data.List.MinMax

/-!
# What a diff of two results snapshots reports

Every path has a newest entry in a snapshot or none.  A diff reports each path whose newest
entries differ once, under the first aspect in which they differ, and no other path.
-/

namespace ConstraintRouting.Fabric

open Verified.KeyedDiffs
open Verified.SortedLists

/-! ## Newest entries -/

/-- The entry of the greatest generation of a path; the first listed of several. -/
def newestOf (entries : List CandidateResultView) (path : PathId) :
    Option CandidateResultView :=
  (entries.filter (·.path = path)).argmax (·.evaluationGeneration.value.toNat)

theorem path_of_newestOf {entries : List CandidateResultView} {path : PathId}
    {entry : CandidateResultView} (h : newestOf entries path = some entry) :
    entry.path = path := by
  have hmem : entry ∈ entries.filter (·.path = path) := List.argmax_mem h
  exact of_decide_eq_true (List.mem_filter.mp hmem).2

/-- An entry replaces the newest one of its path when its generation is greater. -/
private def newerOf : Option CandidateResultView → CandidateResultView →
    Option CandidateResultView :=
  List.argAux fun b c => c.evaluationGeneration.value.toNat < b.evaluationGeneration.value.toNat

private theorem getElem?_keepNewest (newest : Std.ExtTreeMap PathId CandidateResultView)
    (entry : CandidateResultView) (path : PathId) :
    (keepNewest newest entry)[path]? =
      if entry.path = path then newerOf newest[path]? entry else newest[path]? := by
  have hinserted : (newest.insert entry.path entry)[path]? =
      if entry.path = path then some entry else newest[path]? := by
    rw [Std.ExtTreeMap.getElem?_insert]
    simp only [Std.compare_eq_iff_eq]
  unfold keepNewest
  by_cases hpath : entry.path = path
  · subst hpath
    rw [if_pos rfl] at hinserted ⊢
    cases hprevious : newest[entry.path]? with
    | none => exact hinserted
    | some previous =>
        by_cases hnewer : previous.evaluationGeneration.value < entry.evaluationGeneration.value
        · simp [hnewer, newerOf, List.argAux, UInt64.lt_iff_toNat_lt.mp hnewer]
        · have hnot := mt UInt64.lt_iff_toNat_lt.mpr hnewer
          simp [hnewer, newerOf, List.argAux, hnot, hprevious]
  · rw [if_neg hpath] at hinserted ⊢
    cases newest[entry.path]? with
    | none => exact hinserted
    | some previous =>
        dsimp only
        split
        · exact hinserted
        · rfl

theorem getElem?_newestEntries (entries : List CandidateResultView) (path : PathId) :
    (newestEntries entries)[path]? = newestOf entries path := by
  unfold newestEntries newestOf
  rw [getElem?_foldl getElem?_keepNewest, Std.ExtTreeMap.getElem?_empty]
  rfl

/-! ## Aspects -/

/-- Two results of a path differ in the aspect of a kind. -/
def Differs (before after : Option CandidateResultView) : ResultChangeKind → Prop
  | .appeared => before = none ∧ after ≠ none
  | .disappeared => before ≠ none ∧ after = none
  | .outcomeChanged => before.map (·.outcome) ≠ after.map (·.outcome)
  | .reasonChanged => before.map (·.primaryReason) ≠ after.map (·.primaryReason)
  | .currentnessChanged => before.map (·.state) ≠ after.map (·.state)
  | .authorityGenerationChanged =>
      before.map (·.authorityGeneration) ≠ after.map (·.authorityGeneration)
  | .evidenceDigestChanged => before.map (·.digest) ≠ after.map (·.digest)

/-- The first aspect in which two results of a path differ. -/
structure FirstDifference (before after : Option CandidateResultView)
    (kind : ResultChangeKind) : Prop where
  differs : Differs before after kind
  first : ∀ other, Differs before after other → kind.code ≤ other.code

/-- Two present results that differ nowhere have no change. -/
private theorem resultChanged_eq_none (path : PathId) {before after : CandidateResultView}
    (h : resultChanged path before after = none) (kind : ResultChangeKind) :
    ¬ Differs (some before) (some after) kind := by
  unfold resultChanged at h
  cases kind <;> grind [Differs]

/-- The change of two present results names the first aspect in which they differ. -/
private theorem resultChanged_eq_some (path : PathId) {before after : CandidateResultView}
    {change : ResultChange} (h : resultChanged path before after = some change) :
    change.path = before.path ∧ FirstDifference (some before) (some after) change.kind := by
  unfold resultChanged at h
  by_cases houtcome : before.outcome = after.outcome
  · rw [if_neg (by simp [houtcome])] at h
    by_cases hreason : before.primaryReason = after.primaryReason
    · rw [if_neg (by simp [hreason])] at h
      by_cases hstate : before.state = after.state
      · rw [if_neg (by simp [hstate])] at h
        by_cases hauthority : before.authorityGeneration = after.authorityGeneration
        · rw [if_neg (by simp [hauthority])] at h
          by_cases hdigest : before.digest = after.digest
          · rw [if_neg (by simp [hdigest])] at h
            cases h
          · rw [if_pos (bne_iff_ne.mpr hdigest)] at h
            obtain rfl := Option.some.inj h
            refine ⟨rfl, by simpa [Differs] using hdigest, ?_⟩
            intro other hother
            cases other <;> simp_all [Differs]
        · rw [if_pos (bne_iff_ne.mpr hauthority)] at h
          obtain rfl := Option.some.inj h
          refine ⟨rfl, by simpa [Differs] using hauthority, ?_⟩
          intro other hother
          cases other <;> simp_all [Differs]
          decide
      · rw [if_pos (bne_iff_ne.mpr hstate)] at h
        obtain rfl := Option.some.inj h
        refine ⟨rfl, by simpa [Differs] using hstate, ?_⟩
        intro other hother
        cases other <;> simp_all [Differs] <;> decide
    · rw [if_pos (bne_iff_ne.mpr hreason)] at h
      obtain rfl := Option.some.inj h
      refine ⟨rfl, by simpa [Differs] using hreason, ?_⟩
      intro other hother
      cases other <;> simp_all [Differs] <;> decide
  · rw [if_pos (bne_iff_ne.mpr houtcome)] at h
    obtain rfl := Option.some.inj h
    refine ⟨rfl, by simpa [Differs] using houtcome, ?_⟩
    intro other hother
    cases other <;> simp_all [Differs] <;> decide

/-- What becomes of a path. -/
def resultChangeAt : PathId → Option CandidateResultView → Option CandidateResultView →
    Option ResultChange :=
  changeAt resultDisappeared resultChanged resultAppeared

/-- A path without a change differs nowhere. -/
theorem not_differs_of_resultChangeAt {path : PathId}
    {before after : Option CandidateResultView}
    (h : resultChangeAt path before after = none) (kind : ResultChangeKind) :
    ¬ Differs before after kind := by
  cases before with
  | none =>
      cases after with
      | none => cases kind <;> simp [Differs]
      | some after => cases h
  | some before =>
      cases after with
      | none => cases h
      | some after => exact resultChanged_eq_none path h kind

/-- The change of a path names the first aspect in which its results differ. -/
theorem firstDifference_of_resultChangeAt {path : PathId}
    {before after : Option CandidateResultView} {change : ResultChange}
    (h : resultChangeAt path before after = some change) :
    FirstDifference before after change.kind := by
  cases before with
  | none =>
      cases after with
      | none => cases h
      | some after =>
          obtain rfl := Option.some.inj h
          refine ⟨⟨rfl, Option.some_ne_none _⟩, ?_⟩
          intro other _
          show ResultChangeKind.appeared.code ≤ other.code
          cases other <;> decide
  | some before =>
      cases after with
      | none =>
          obtain rfl := Option.some.inj h
          refine ⟨⟨Option.some_ne_none _, rfl⟩, ?_⟩
          intro other hother
          show ResultChangeKind.disappeared.code ≤ other.code
          cases other
          case appeared => exact absurd hother.1 (Option.some_ne_none _)
          all_goals decide
      | some after => exact (resultChanged_eq_some path h).2

theorem resultChangeAt_isSome_iff {path : PathId} {before after : Option CandidateResultView} :
    (resultChangeAt path before after).isSome = true ↔ ∃ kind, Differs before after kind := by
  constructor
  · intro hchanged
    obtain ⟨change, hchange⟩ := Option.isSome_iff_exists.mp hchanged
    exact ⟨change.kind, (firstDifference_of_resultChangeAt hchange).differs⟩
  · rintro ⟨kind, hdiffers⟩
    by_contra hunchanged
    exact not_differs_of_resultChangeAt (Option.not_isSome_iff_eq_none.mp hunchanged) kind hdiffers

/-- A change names the path of the entries it compares. -/
theorem path_of_resultChangeAt {path : PathId} {before after : Option CandidateResultView}
    (hbefore : ∀ entry ∈ before, entry.path = path) (hafter : ∀ entry ∈ after, entry.path = path)
    {change : ResultChange} (h : resultChangeAt path before after = some change) :
    change.path = path := by
  cases before with
  | none =>
      cases after with
      | none => cases h
      | some after =>
          obtain rfl := Option.some.inj h
          exact hafter after rfl
  | some before =>
      cases after with
      | none =>
          obtain rfl := Option.some.inj h
          exact hbefore before rfl
      | some after => exact (resultChanged_eq_some path h).1.trans (hbefore before rfl)

/-! ## The diff -/

section Diff

variable {earlier later : ResultsSnapshot}

private theorem path_of_newestEntries {path : PathId} {change : ResultChange}
    (h : resultChangeAt path (newestEntries earlier.entries)[path]?
      (newestEntries later.entries)[path]? = some change) : change.path = path := by
  rw [getElem?_newestEntries, getElem?_newestEntries] at h
  exact path_of_resultChangeAt (fun _ => path_of_newestOf) (fun _ => path_of_newestOf) h

theorem mem_diffResults {change : ResultChange} :
    change ∈ (diffResults earlier later).changes ↔
      resultChangeAt change.path (newestOf earlier.entries change.path)
        (newestOf later.entries change.path) = some change := by
  have hmem : change ∈ (diffResults earlier later).changes ↔ ∃ path,
      resultChangeAt path (newestEntries earlier.entries)[path]?
        (newestEntries later.entries)[path]? = some change :=
    mem_sortBy.trans mem_passes
  rw [hmem, ← getElem?_newestEntries, ← getElem?_newestEntries]
  constructor
  · rintro ⟨path, hchange⟩
    obtain rfl := path_of_newestEntries hchange
    exact hchange
  · intro hchange
    exact ⟨change.path, hchange⟩

/-- A path is reported once or not at all. -/
theorem count_diffResults (path : PathId) :
    ((diffResults earlier later).changes.map (·.path)).count path =
      if (resultChangeAt path (newestOf earlier.entries path)
        (newestOf later.entries path)).isSome then 1 else 0 := by
  have hsorted := (sortBy_perm compareResultChange
    (leftPass resultDisappeared resultChanged (newestEntries earlier.entries)
        (newestEntries later.entries) ++
      rightPass resultAppeared (newestEntries earlier.entries)
        (newestEntries later.entries))).map (·.path)
  have hcount := hsorted.count_eq path
  rw [count_passes (fun path change => path_of_newestEntries)] at hcount
  rw [← getElem?_newestEntries, ← getElem?_newestEntries]
  exact hcount

end Diff

/-- A diff reports exactly once each path whose newest entries differ between the snapshots,
no other path, and each under the first aspect in which they differ; a snapshot does not
differ from itself. -/
theorem results_diff_reports_first_differences (earlier later : ResultsSnapshot) :
    (∀ path, (∃ kind, Differs (newestOf earlier.entries path) (newestOf later.entries path)
        kind) →
      ((diffResults earlier later).changes.map (·.path)).count path = 1) ∧
    (∀ path, (¬ ∃ kind, Differs (newestOf earlier.entries path) (newestOf later.entries path)
        kind) →
      path ∉ (diffResults earlier later).changes.map (·.path)) ∧
    (∀ change ∈ (diffResults earlier later).changes,
      FirstDifference (newestOf earlier.entries change.path)
        (newestOf later.entries change.path) change.kind) ∧
    (diffResults earlier earlier).changes = [] := by
  have hunreported : ∀ (first second : ResultsSnapshot) (path : PathId),
      (¬ ∃ kind, Differs (newestOf first.entries path) (newestOf second.entries path) kind) →
      path ∉ (diffResults first second).changes.map (·.path) := by
    intro first second path hsame
    rw [← List.count_eq_zero, count_diffResults,
      if_neg (mt resultChangeAt_isSome_iff.mp hsame)]
  refine ⟨?_, hunreported earlier later, ?_, ?_⟩
  · intro path hdiffers
    rw [count_diffResults, if_pos (resultChangeAt_isSome_iff.mpr hdiffers)]
  · intro change hchange
    exact firstDifference_of_resultChangeAt (mem_diffResults.mp hchange)
  · rw [List.eq_nil_iff_forall_not_mem]
    intro change hchange
    apply hunreported earlier earlier change.path _ (List.mem_map_of_mem hchange)
    rintro ⟨kind, hdiffers⟩
    cases kind <;> simp [Differs] at hdiffers

end ConstraintRouting.Fabric
