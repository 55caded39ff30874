import ConstraintRouting.Fabric.Snapshot

/-!
# The order of the entries of a results snapshot

The entries are sorted by path and evaluation generation, and the sort is stable: entries
that agree on both keep the order in which they were handed over.
-/

namespace ConstraintRouting.Fabric

open Verified.SortedLists

instance : Std.TransCmp compareEntry := by
  unfold compareEntry
  infer_instance

/-- The order looks at the path and the generation only. -/
theorem compareEntry_eq_iff {a b : CandidateResultView} :
    compareEntry a b = .eq ↔
      a.path = b.path ∧ a.evaluationGeneration = b.evaluationGeneration := by
  unfold compareEntry
  rw [compareLex_eq_eq]
  constructor
  · intro ⟨hpath, hgeneration⟩
    exact ⟨Std.LawfulEqOrd.eq_of_compare hpath, Std.LawfulEqOrd.eq_of_compare hgeneration⟩
  · intro ⟨hpath, hgeneration⟩
    show compare a.path b.path = .eq ∧
      compare a.evaluationGeneration b.evaluationGeneration = .eq
    rw [hpath, hgeneration]
    exact ⟨Std.ReflOrd.compare_self, Std.ReflOrd.compare_self⟩

/-- The entries of one path and one generation are one entry. -/
def OneEntryPerGeneration (entries : List CandidateResultView) : Prop :=
  ∀ a ∈ entries, ∀ b ∈ entries,
    a.path = b.path → a.evaluationGeneration = b.evaluationGeneration → a = b

/-- A results snapshot is the same for every arrangement of its entries exactly when those of
one path and one generation are one entry. -/
theorem results_snapshot_ignores_order_iff (setId : ConstraintSetId)
    (setGeneration : ConstraintSetGeneration) (generation : EvaluationGeneration)
    (entries : List CandidateResultView) :
    (∀ others, entries.Perm others →
      let arranged := snapshotResults setId setGeneration generation others
      let snapshot := snapshotResults setId setGeneration generation entries
      arranged.entries = snapshot.entries ∧ arranged.digest = snapshot.digest ∧
        arranged.id = snapshot.id) ↔
      OneEntryPerGeneration entries := by
  have hseparates : OneEntryPerGeneration entries ↔
      ∀ a ∈ entries, ∀ b ∈ entries, compareEntry a b = .eq → a = b := by
    unfold OneEntryPerGeneration
    simp only [compareEntry_eq_iff, and_imp]
  rw [hseparates, ← sortBy_arrangement_iff]
  constructor
  · intro hsame others hperm
    exact (hsame others hperm).1
  · intro hsame others hperm
    have hsorted := hsame others hperm
    simp only [snapshotResults, hsorted, and_self]

/-- Two results of one path and one generation. -/
def sampleSameGeneration : List CandidateResultView :=
  [{ path := ⟨31⟩, outcome := .admissible, evaluationId := ⟨1⟩, evaluationGeneration := ⟨4⟩ },
   { path := ⟨31⟩, outcome := .hardConstraintFailed, evaluationId := ⟨2⟩,
     evaluationGeneration := ⟨4⟩ }]

theorem results_snapshot_depends_on_order :
    ¬ ∀ (setId : ConstraintSetId) (setGeneration : ConstraintSetGeneration)
        (generation : EvaluationGeneration) (entries others : List CandidateResultView),
      entries.Perm others →
        (snapshotResults setId setGeneration generation others).entries =
            (snapshotResults setId setGeneration generation entries).entries ∧
          (snapshotResults setId setGeneration generation others).digest =
            (snapshotResults setId setGeneration generation entries).digest ∧
          (snapshotResults setId setGeneration generation others).id =
            (snapshotResults setId setGeneration generation entries).id := by
  intro hclaim
  have hdigests : (snapshotResults ⟨5⟩ ⟨1⟩ ⟨4⟩ sampleSameGeneration.reverse).digest ≠
      (snapshotResults ⟨5⟩ ⟨1⟩ ⟨4⟩ sampleSameGeneration).digest := by
    decide +kernel
  exact hdigests (hclaim ⟨5⟩ ⟨1⟩ ⟨4⟩ sampleSameGeneration _ (List.reverse_perm _).symm).2.1

end ConstraintRouting.Fabric
