import ConstraintRouting.Fabric.ReasonBounds
import ConstraintRouting.Fabric.SetDiff

/-!
# What the digests cover

Two sets, candidates or records are hashed from the same bytes exactly when they agree on
everything but what is left out of a digest on purpose.
-/

namespace ConstraintRouting.Fabric

open SemanticHasher
open Verified.PrefixCodes

/-! ## Content -/

/-- The definition of a set: its name, lifecycle state, declaration tick and stored digest
are left out. -/
def ConstraintSet.definition (set : ConstraintSet) : ConstraintSet :=
  { set with name := [], state := .declared, declaredTick := 0, digest := {} }

/-- The semantics of a record: its provenance, ticks and stored digest are left out. -/
def EvaluationRecord.semantics (record : EvaluationRecord) : EvaluationRecord :=
  { record with
    provenance := {}
    committedTick := 0
    evidence := { record.evidence with capturedTick := 0 }
    digest := {} }

/-- The lists of a link fit their counts. -/
structure LinkFact.Counts (link : LinkFact) : Prop where
  domains : Fabric.Fits link.domains
  capabilities : Fabric.Fits link.capabilities
  isolation : Fabric.Fits link.isolation

/-- The lists of a candidate fit their counts. -/
structure CandidatePath.Counts (candidate : CandidatePath) : Prop where
  nodes : Counted NodeFact.Fits candidate.nodes
  links : Counted LinkFact.Counts candidate.links
  policies : Fabric.Fits candidate.policies

theorem CandidatePath.Counts.untimed {candidate : CandidatePath} (h : candidate.Counts) :
    candidate.untimed.Fits where
  nodes := h.nodes
  links := by
    refine ⟨?_, ?_⟩
    · show (candidate.links.map LinkFact.untimed).length < 2 ^ 32
      rw [List.length_map]
      exact h.links.1
    · intro link hmem
      obtain ⟨timed, htimed, rfl⟩ := List.mem_map.mp hmem
      have hcounts := h.links.2 timed htimed
      exact ⟨hcounts.domains, hcounts.capabilities, hcounts.isolation, rfl⟩
  policies := h.policies
  observed := rfl
  captured := rfl

/-- The lists of a record fit their counts. -/
structure EvaluationRecord.Counts (record : EvaluationRecord) : Prop where
  reasons : Fabric.Fits record.reasons
  preferences : Fabric.Fits record.preferences

/-! ## Records -/

theorem Outcome.code_injective : Function.Injective Outcome.code := by
  intro a b h
  cases a <;> cases b <;> first | rfl | exact absurd h (by decide)

theorem ResultState.code_injective : Function.Injective ResultState.code := by
  intro a b h
  cases a <;> cases b <;> first | rfl | exact absurd h (by decide)

theorem feedReason_prefixCode : PrefixCode feedReason := by
  intro a b rest rest' h
  simp only [feedReason, List.append_assoc, putU8_prefixCode.append_inj,
    putU16_prefixCode.append_inj, putU32_prefixCode.append_inj, putU64_prefixCode.append_inj,
    putId_prefixCode.append_inj, ReasonCode.code_injective.eq_iff,
    ReasonClass.code_injective.eq_iff, ConstraintKind.code_injective.eq_iff,
    EvidenceFamily.code_injective.eq_iff, SubjectKind.code_injective.eq_iff] at h
  cases a
  cases b
  simp_all

theorem feedPreference_prefixCode : PrefixCode feedPreference := by
  intro a b rest rest' h
  simp only [feedPreference, List.append_assoc, putBool_prefixCode.append_inj,
    putU16_prefixCode.append_inj, putU32_prefixCode.append_inj, putI64_prefixCode.append_inj,
    putId_prefixCode.append_inj, ConstraintKind.code_injective.eq_iff] at h
  cases a
  cases b
  simp_all

/-- A record is hashed from its semantics. -/
theorem feedEvaluation_eq_iff {a b : EvaluationRecord} (ha : a.Counts) (hb : b.Counts) :
    feedEvaluation a = feedEvaluation b ↔ a.semantics = b.semantics := by
  constructor
  · intro h
    simp only [feedEvaluation, feedEvidence, List.append_assoc, putId_prefixCode.append_inj,
      putGeneration_prefixCode.append_inj, putU8_prefixCode.append_inj,
      putU16_prefixCode.append_inj, putU32_prefixCode.append_inj,
      putU32_prefixCode.injective.eq_iff, putBool_prefixCode.append_inj,
      Outcome.code_injective.eq_iff, ReasonCode.code_injective.eq_iff,
      ResultState.code_injective.eq_iff,
      putAll_append_inj feedReason_prefixCode.on ha.reasons hb.reasons,
      putAll_append_inj feedPreference_prefixCode.on ha.preferences hb.preferences] at h
    cases a
    cases b
    simp_all [EvaluationRecord.semantics]
  · intro h
    show feedEvaluation a.semantics = feedEvaluation b.semantics
    rw [h]

/-- A candidate is hashed from everything but its ticks. -/
theorem feedCandidate_eq_iff {a b : CandidatePath} (ha : a.Counts) (hb : b.Counts) :
    feedCandidate a = feedCandidate b ↔ a.untimed = b.untimed := by
  rw [← feedCandidate_untimed a, ← feedCandidate_untimed b]
  constructor
  · intro h
    exact feedCandidate_prefixCode.eq_of_encode_eq ha.untimed hb.untimed h
  · intro h
    rw [h]

/-- A set is hashed from its definition. -/
theorem feedConstraintSet_eq_iff_definition {a b : ConstraintSet}
    (ha : Counted Constraint.Fits a.constraints) (hb : Counted Constraint.Fits b.constraints) :
    feedConstraintSet a = feedConstraintSet b ↔ a.definition = b.definition := by
  rw [feedConstraintSet_eq_iff ha hb]
  cases a
  cases b
  simp [ConstraintSet.definition]

/-! ## What is hashed -/

/-- The bytes that a digest is taken of. -/
def hashedBytes (domain : String) (fed : List UInt8) : List UInt8 := putString domain ++ fed

private theorem fits_nil {α : Type} {fits : α → Prop} : Counted fits [] :=
  ⟨Nat.two_pow_pos 32, fun _ hmem => absurd hmem (by simp)⟩

end ConstraintRouting.Fabric
