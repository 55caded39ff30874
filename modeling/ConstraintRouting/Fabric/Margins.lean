import ConstraintRouting.Fabric.CandidateForm
import ConstraintRouting.Fabric.CanonicalForm
import ConstraintRouting.Fabric.EvaluatorSpec

/-!
# Margins and ages without overflow

The margins of the preferences and the age of the evidence are computed in 64 bits.  What
validation established of the set and of the candidate makes each of them the mathematical
difference.
-/

namespace ConstraintRouting.Fabric

open Verified.Checks (seq_eq_ok)

/-! ## Figures -/

/-- The difference of two figures that are not negative is exact. -/
theorem toInt_sub_of_nonneg {a b : Int64} (ha : 0 ≤ a) (hb : 0 ≤ b) :
    (a - b).toInt = a.toInt - b.toInt := by
  rw [Int64.le_iff_toInt_le, Int64.toInt_zero] at ha hb
  have hbelowA := a.toInt_lt
  have hbelowB := b.toInt_lt
  rw [Int64.toInt_sub, Int.bmod_eq_emod]
  split <;> omega

/-- The bound of a numeric kind is positive. -/
theorem bound_nonneg_of_valid {constraint : Constraint} {limits : Limits}
    (h : validateConstraint constraint limits = .ok ())
    (hkind : constraint.kind = .maxLatency ∨ constraint.kind = .minBandwidthCapability ∨
      constraint.kind = .maxHopCount ∨ constraint.kind = .requiredFailureDomainRelation) :
    0 ≤ constraint.bound := by
  have hpayload := (seq_eq_ok.mp h).2
  have hpositive : 0 < constraint.bound → 0 ≤ constraint.bound := Int64.le_of_lt
  have hone : 1 ≤ constraint.bound → 0 ≤ constraint.bound :=
    fun hle => Int64.le_trans (by decide) hle
  rcases hkind with hkind | hkind | hkind | hkind
  all_goals
    simp only [validateConstraintPayload, hkind, seq_eq_ok, failIf_eq_ok, Bool.or_eq_false_iff,
      decide_eq_false_iff_not, Int64.not_le, Int64.not_lt] at hpayload
  · exact hpositive hpayload.2.1.1
  · exact hpositive hpayload.1.1
  · exact hpositive hpayload.1.1
  · exact hone hpayload.2.1.1

theorem bottleneckFrom_nonneg {required : CapabilityGeneration} {links : List LinkFact}
    {narrowest : Option Int64} {bottleneck : Int64}
    (h : bottleneckFrom required narrowest links = some bottleneck)
    (hnarrowest : ∀ value, narrowest = some value → 0 ≤ value) : 0 ≤ bottleneck := by
  induction links generalizing narrowest with
  | nil => exact hnarrowest bottleneck h
  | cons link rest ih =>
      unfold bottleneckFrom at h
      split at h
      · cases h
      · next hguard =>
          have hlink : 0 ≤ link.bandwidth.bitsPerSecond := by
            simp only [Bool.or_eq_true, decide_eq_true_eq, not_or, Int64.not_lt] at hguard
            exact hguard.2
          apply ih h
          intro value hvalue
          cases narrowest with
          | none =>
              cases hvalue
              exact hlink
          | some last =>
              have hlast := hnarrowest last rfl
              simp only [Option.some.injEq] at hvalue
              rw [← hvalue]
              split
              · exact hlink
              · exact hlast

/-- The bottleneck of a path is not negative. -/
theorem pathBandwidthCapability_nonneg {candidate : CandidatePath}
    {required : CapabilityGeneration} {bottleneck : Int64}
    (h : pathBandwidthCapability candidate required = some bottleneck) : 0 ≤ bottleneck := by
  unfold pathBandwidthCapability at h
  split at h
  · cases h
  · exact bottleneckFrom_nonneg h (by intro value hvalue; cases hvalue)

theorem hops_toInt (candidate : CandidatePath) :
    candidate.hops.toInt = candidate.hopCount.toNat := by
  have hbelow := candidate.hopCount.toNat_lt
  exact Int64.toInt_ofNat_of_lt (by omega)

/-! ## Margins -/

/-- The margin of a preference as a number. -/
def preferenceMargin (constraint : Constraint) (ordinal : UInt32) (candidate : CandidatePath)
    (current : EvidenceRequirements) : Int :=
  match constraint.kind with
  | .maxLatency =>
      if candidate.latency.source ≠ constraint.latencySource then 0
      else constraint.bound.toInt - candidate.latency.micros.toInt
  | .minBandwidthCapability =>
      match pathBandwidthCapability candidate current.capability with
      | none => 0
      | some bottleneck => bottleneck.toInt - constraint.bound.toInt
  | .maxHopCount => constraint.bound.toInt - candidate.hopCount.toNat
  | .requiredFailureDomainRelation =>
      let scan := scanDomains candidate constraint.domainKind
      if !scan.complete then 0 else scan.domains.length - constraint.bound.toInt
  | _ => if (evaluateMandatory constraint ordinal candidate current).isEmpty then 1 else 0

/-- The slot of a valid constraint for a valid candidate holds the exact margin. -/
theorem evaluatePreference_margin {constraint : Constraint} {candidate : CandidatePath}
    {limits : Limits} (ordinal : UInt32) (current : EvidenceRequirements)
    (hconstraint : validateConstraint constraint limits = .ok ())
    (hcandidate : validateCandidate candidate limits = .ok ()) :
    (evaluatePreference constraint ordinal candidate current).margin.toInt =
      preferenceMargin constraint ordinal candidate current := by
  have hbound := bound_nonneg_of_valid hconstraint
  have hlatency := (validateCandidate_eq_ok_iff.mp hcandidate).latency
  show (preferenceVerdict constraint ordinal candidate current).2.toInt = _
  unfold preferenceVerdict preferenceMargin
  cases hkind : constraint.kind with
  | maxLatency =>
      have hnonneg := hbound (by simp [hkind])
      have hsource := latencySource_of_valid hkind hconstraint
      by_cases hsame : candidate.latency.source = constraint.latencySource
      · have hmicros := (hlatency.range (hsame ▸ hsource)).1
        simp only [hsame, ne_eq, not_true_eq_false, if_false]
        exact toInt_sub_of_nonneg hnonneg hmicros
      · simp only [hsame, ne_eq, not_false_eq_true, if_true]
        rfl
  | minBandwidthCapability =>
      have hnonneg := hbound (by simp [hkind])
      cases hpath : pathBandwidthCapability candidate current.capability with
      | none => rfl
      | some bottleneck =>
          exact toInt_sub_of_nonneg (pathBandwidthCapability_nonneg hpath) hnonneg
  | maxHopCount =>
      have hnonneg := hbound (by simp [hkind])
      have hhops : 0 ≤ candidate.hops := by
        rw [Int64.le_iff_toInt_le, hops_toInt, Int64.toInt_zero]
        omega
      show (constraint.bound - candidate.hops).toInt = _
      rw [toInt_sub_of_nonneg hnonneg hhops, hops_toInt]
  | requiredFailureDomainRelation =>
      have hnonneg := hbound (by simp [hkind])
      have hformed := validateCandidate_wellFormed hcandidate
      have hcount := distinct_toInt hformed constraint.domainKind
      have hdistinct : 0 ≤ (scanDomains candidate constraint.domainKind).distinct := by
        rw [Int64.le_iff_toInt_le, hcount, Int64.toInt_zero]
        omega
      cases hcomplete : (scanDomains candidate constraint.domainKind).complete with
      | false => simp [hcomplete]
      | true =>
          simp only [hcomplete, Bool.not_true, Bool.false_eq_true, if_false]
          rw [toInt_sub_of_nonneg hdistinct hnonneg, hcount]
  | _ =>
      dsimp only
      split <;> rfl

/-! ## Ages -/

/-- A reason about the age carries the exact age, which is above the bound. -/
theorem ageReasons_exact {context : EvaluationContext} {candidate : CandidatePath}
    {reason : Reason} (h : reason ∈ ageReasons context candidate) :
    reason.actual.toNat + candidate.evidence.capturedTick.toNat = context.nowTick.toNat ∧
      context.current.maxEvidenceAgeTicks.toNat < reason.actual.toNat := by
  unfold ageReasons at h
  dsimp only at h
  split at h
  · next hexpired =>
      rw [List.mem_singleton] at h
      simp only [Bool.and_eq_true, decide_eq_true_eq] at hexpired
      obtain ⟨⟨-, hlater⟩, habove⟩ := hexpired
      have hsub := UInt64.toNat_sub_of_le _ _ (UInt64.le_of_lt hlater)
      have horder := UInt64.lt_iff_toNat_lt.mp hlater
      rw [UInt64.lt_iff_toNat_lt] at habove
      rw [h]
      show (context.nowTick - candidate.evidence.capturedTick).toNat + _ = _ ∧
        _ < (context.nowTick - candidate.evidence.capturedTick).toNat
      omega
  · cases h

/-- Every margin of a set and a candidate that are admitted to the preferences is the
mathematical difference; and the age of the evidence is found above its bound exactly when
it is, and then reported exactly. -/
theorem margins_and_ages_exact (context : EvaluationContext) (candidate : CandidatePath) :
    ((collectReasons context candidate).reasons = [] →
      ∀ constraint ordinal, (constraint, ordinal) ∈ scopedConstraints context.set .preference →
        (evaluatePreference constraint ordinal candidate context.current).margin.toInt =
          preferenceMargin constraint ordinal candidate context.current) ∧
    (ageReasons context candidate = [] ↔
      (0 < context.current.maxEvidenceAgeTicks.toNat →
        0 < candidate.evidence.capturedTick.toNat →
          context.nowTick.toNat ≤ candidate.evidence.capturedTick.toNat +
            context.current.maxEvidenceAgeTicks.toNat)) ∧
    ∀ reason ∈ ageReasons context candidate,
      reason.actual.toNat + candidate.evidence.capturedTick.toNat = context.nowTick.toNat := by
  refine ⟨?_, ageReasons_eq_nil_iff, fun reason hmem => (ageReasons_exact hmem).1⟩
  intro hadmitted constraint ordinal hmem
  have hgates := admissionReasons_eq_nil_iff.mp (collectReasons_eq_nil_iff.mp hadmitted).1
  have hconstraint : validateConstraint constraint context.limits = .ok () := by
    obtain ⟨hset, -⟩ := mem_scopedConstraints_iff.mp ⟨ordinal, hmem⟩
    exact (verifyCanonicalConstraintSet_eq_ok_iff.mp hgates.canonical).1.constraints.valid
      constraint hset
  exact evaluatePreference_margin ordinal context.current hconstraint hgates.candidateValid

/-- A preferred latency of 10 us. -/
def sampleSwift : Constraint :=
  { id := ⟨1⟩, generation := ⟨1⟩, kind := .maxLatency, scope := .preference,
    latencySource := .observedLatency, bound := 10, preferenceWeight := 1 }

/-- An active set with the preference. -/
def samplePreferring : EvaluationContext where
  set :=
    let set : ConstraintSet := { id := ⟨5⟩, generation := ⟨1⟩, constraints := [sampleSwift] }
    { set with state := .active, digest := constraintSetDigest set }
  current := { linkState := ⟨3⟩, planner := ⟨4⟩, pathAuthority := ⟨9⟩ }
  authorityVerified := true

/-- A path with an observed latency of 25 us. -/
def sampleSlow : CandidatePath :=
  { path := ⟨31⟩, authorityGeneration := ⟨9⟩, authorityVerdict := .legal, hopCount := 1
    nodes := [{ node := ⟨40⟩ }, { node := ⟨41⟩ }]
    links := [{ link := ⟨50⟩, endpoints := (⟨40⟩, ⟨41⟩) }]
    latency := { source := .observedLatency, micros := 25, observedGeneration := ⟨3⟩ }
    evidence := { linkState := ⟨3⟩, planner := ⟨4⟩, pathAuthority := ⟨9⟩ } }

theorem margins_and_ages_exact_sample :
    (evaluatePreference sampleSwift 0 sampleSlow samplePreferring.current).margin.toInt =
        preferenceMargin sampleSwift 0 sampleSlow samplePreferring.current ∧
      preferenceMargin sampleSwift 0 sampleSlow samplePreferring.current = -15 := by
  have hadmitted : (collectReasons samplePreferring sampleSlow).reasons = [] := by
    decide +kernel
  have hmem : (sampleSwift, 0) ∈ scopedConstraints samplePreferring.set .preference := by
    decide +kernel
  refine ⟨(margins_and_ages_exact samplePreferring sampleSlow).1 hadmitted _ _ hmem, ?_⟩
  decide

end ConstraintRouting.Fabric
