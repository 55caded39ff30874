import Mathlib.Data.Finset.Card
import ConstraintRouting.Fabric.ReasonVectors

/-!
# The reasons that are kept

Canonical reasons are a part of the collected ones, in order, with a least one in front.
Both bounds hold of them, and they do not depend on the order in which they were collected.
-/

namespace ConstraintRouting.Fabric

open Verified.SortedLists

/-- The valid constraints that the reasons name. -/
def namedConstraints (reasons : List Reason) : Finset ConstraintId :=
  ((reasons.map (·.constraint)).filter (·.isValid)).toFinset

theorem mem_namedConstraints {reasons : List Reason} {id : ConstraintId} :
    id ∈ namedConstraints reasons ↔
      id.isValid = true ∧ ∃ reason ∈ reasons, reason.constraint = id := by
  simp [namedConstraints, and_comm]

/-- Reasons whose constraint is invalid or was named before bring no new constraint. -/
private theorem namedConstraints_cons_subset {reason : Reason} {reasons : List Reason}
    {named : Finset ConstraintId}
    (h : reason.constraint.isValid = true → reason.constraint ∈ named) :
    namedConstraints (reason :: reasons) \ named ⊆ namedConstraints reasons \ named := by
  intro id hid
  obtain ⟨hmem, hnew⟩ := Finset.mem_sdiff.mp hid
  obtain ⟨hvalid, other, hother, rfl⟩ := mem_namedConstraints.mp hmem
  rcases List.mem_cons.mp hother with rfl | hrest
  · exact absurd (h hvalid) hnew
  · exact Finset.mem_sdiff.mpr ⟨mem_namedConstraints.mpr ⟨hvalid, other, hrest, rfl⟩, hnew⟩

/-- A reason brings its own constraint at most. -/
private theorem namedConstraints_cons_subset_insert {reason : Reason} {reasons : List Reason}
    {named : Finset ConstraintId} :
    namedConstraints (reason :: reasons) \ named ⊆
      insert reason.constraint (namedConstraints reasons \ insert reason.constraint named) := by
  intro id hid
  obtain ⟨hmem, hnew⟩ := Finset.mem_sdiff.mp hid
  obtain ⟨hvalid, other, hother, rfl⟩ := mem_namedConstraints.mp hmem
  by_cases hsame : other.constraint = reason.constraint
  · rw [hsame]
    exact Finset.mem_insert_self _ _
  · apply Finset.mem_insert_of_mem
    rcases List.mem_cons.mp hother with rfl | hrest
    · exact absurd rfl hsame
    · refine Finset.mem_sdiff.mpr ⟨mem_namedConstraints.mpr ⟨hvalid, other, hrest, rfl⟩, ?_⟩
      rw [Finset.mem_insert, not_or]
      exact ⟨hsame, hnew⟩

/-- The kept reasons bring no more constraints than there is room for. -/
theorem card_namedConstraints_keepReasons {limits : Limits} {kept : Nat}
    {represented : List ConstraintId} {reasons : List Reason}
    (hroom : represented.length ≤ limits.maxFailedConstraintsPerEvaluation.toNat) :
    (namedConstraints (keepReasons limits kept represented reasons) \
        represented.toFinset).card + represented.length ≤
      limits.maxFailedConstraintsPerEvaluation.toNat := by
  induction reasons generalizing kept represented with
  | nil => simpa [keepReasons, namedConstraints] using hroom
  | cons reason rest ih =>
      rw [keepReasons]
      split
      · simpa [namedConstraints] using hroom
      · split
        · split
          · exact ih hroom
          · next hfree =>
              have hnext := @ih (kept + 1) (reason.constraint :: represented)
                (by rw [List.length_cons]; omega)
              have hcard := (Finset.card_le_card (@namedConstraints_cons_subset_insert reason
                (keepReasons limits (kept + 1) (reason.constraint :: represented) rest)
                represented.toFinset)).trans (Finset.card_insert_le _ _)
              rw [List.toFinset_cons, List.length_cons] at hnext
              omega
        · next hold =>
            have hnamed : reason.constraint.isValid = true →
                reason.constraint ∈ represented.toFinset := by
              intro hvalid
              by_contra hnone
              apply hold
              rw [hvalid, Bool.true_and, decide_eq_true_eq]
              exact mt List.mem_toFinset.mpr hnone
            have hcard := Finset.card_le_card (@namedConstraints_cons_subset reason
              (keepReasons limits (kept + 1) represented rest) _ hnamed)
            exact (Nat.add_le_add_right hcard _).trans (ih hroom)

theorem ReasonClass.code_injective : Function.Injective ReasonClass.code := by
  intro a b h
  cases a <;> cases b <;> first | rfl | exact absurd h (by decide)

/-- Reasons that compare equal differ at most in the kind of their constraint. -/
theorem eq_of_compareReason_eq {a b : Reason} (h : compareReason a b = .eq)
    (hkind : a.constraint = b.constraint → a.constraintKind = b.constraintKind) : a = b := by
  simp only [compareReason, compareLex, compareOn, Ordering.then_eq_eq,
    Std.LawfulEqOrd.compare_eq_iff_eq, ReasonCode.code_injective.eq_iff,
    ReasonClass.code_injective.eq_iff, EvidenceFamily.code_injective.eq_iff,
    SubjectKind.code_injective.eq_iff] at h
  obtain ⟨hclass, hordinal, hcode, hconstraint, hfamily, hsubjectKind, hsubject, hexpected,
    hactual⟩ := h
  have hkinds := hkind hconstraint
  cases a
  cases b
  simp_all

/-- Canonical reasons are a part of the given ones, sorted, with a least one of all in front,
within both bounds, and the same for every order of reasons whose constraint determines its
kind. -/
theorem canonicalizeReasons_spec {limits : Limits} (hlimits : validateLimits limits = .ok ())
    (reasons : List Reason) :
    (canonicalizeReasons reasons limits).Subperm reasons ∧
      (canonicalizeReasons reasons limits).Pairwise (fun a b => reasonLess b a = false) ∧
      (reasons ≠ [] → ∃ first rest, canonicalizeReasons reasons limits = first :: rest ∧
        ∀ other ∈ reasons, reasonLess other first = false) ∧
      (canonicalizeReasons reasons limits).length ≤ limits.maxExplanationReasons.toNat ∧
      (namedConstraints (canonicalizeReasons reasons limits)).card ≤
        limits.maxFailedConstraintsPerEvaluation.toNat ∧
      ((∀ a ∈ reasons, ∀ b ∈ reasons,
          a.constraint = b.constraint → a.constraintKind = b.constraintKind) →
        ∀ arranged, reasons.Perm arranged →
          canonicalizeReasons arranged limits = canonicalizeReasons reasons limits) := by
  have hsorted : (sortBy compareReason reasons).Pairwise (NotAfter compareReason) :=
    List.pairwise_insertionSort _ reasons
  have hless {a b : Reason} (h : NotAfter compareReason a b) : reasonLess b a = false :=
    decide_eq_false h
  refine ⟨?_, ?_, ?_, ?_, ?_, ?_⟩
  · exact keepReasons_sublist.subperm.trans (sortBy_perm _ _).subperm
  · exact (hsorted.sublist keepReasons_sublist).imp hless
  · intro hsome
    cases hsort : sortBy compareReason reasons with
    | nil =>
        have hlength := length_sortBy compareReason reasons
        rw [hsort] at hlength
        exact absurd (List.eq_nil_of_length_eq_zero hlength.symm) hsome
    | cons first rest =>
        obtain ⟨later, hkept⟩ := canonicalizeReasons_cons hlimits hsort
        refine ⟨first, later, hkept, ?_⟩
        intro other hother
        rw [hsort] at hsorted
        have hmem : other ∈ first :: rest := hsort ▸ mem_sortBy.mpr hother
        rcases List.mem_cons.mp hmem with rfl | hrest
        · exact hless (notAfter_refl _)
        · exact hless ((List.pairwise_cons.mp hsorted).1 other hrest)
  · exact length_keepReasons_le
  · have hcard := @card_namedConstraints_keepReasons limits 0 [] (sortBy compareReason reasons)
      (Nat.zero_le _)
    simpa [canonicalizeReasons] using hcard
  · intro hkinds arranged hperm
    have hsame : sortBy compareReason reasons = sortBy compareReason arranged :=
      sortBy_eq_of_perm (fun a ha b hb hequal =>
        eq_of_compareReason_eq hequal (hkinds a ha b hb)) hperm
    unfold canonicalizeReasons
    rw [hsame]

/-- A reason of a constraint, collected before a stale generation. -/
def sampleReasons : List Reason :=
  [{ code := .minBandwidthCapabilityNotMet, reasonClass := .mandatoryConstraint, constraint := ⟨4⟩,
     constraintKind := .minBandwidthCapability, constraintOrdinal := 2 },
   { code := .staleTopologyEvidence, reasonClass := .evidenceCurrentness,
     family := .topology, expected := 3, actual := 2 }]

theorem canonicalizeReasons_spec_sample :
    (∃ first rest, canonicalizeReasons sampleReasons {} = first :: rest ∧
      ∀ other ∈ sampleReasons, reasonLess other first = false) ∧
    canonicalizeReasons sampleReasons.reverse {} = canonicalizeReasons sampleReasons {} := by
  have hlimits : validateLimits {} = .ok () := by decide +kernel
  have hspec := canonicalizeReasons_spec hlimits sampleReasons
  exact ⟨hspec.2.2.1 (by decide),
    hspec.2.2.2.2.2 (by decide) _ (List.reverse_perm _).symm⟩

end ConstraintRouting.Fabric
