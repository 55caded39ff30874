import ConstraintRouting.Fabric.ConstraintSpec

/-!
# The declarative meaning of an admission

`AdmissionConditions` says what an admissible outcome stands for.  The reasons that
the evaluator collects are empty exactly when it holds, and neither the bound on
the reasons of one constraint nor the two explanation bounds can empty a list that
is not empty.
-/

namespace ConstraintRouting.Fabric

open Verified.Checks (seq_eq_ok)
open Verified.SortedLists

/-! ## Conditions -/

/-- The caller named itself completely. -/
def Provenance.Complete (provenance : Provenance) : Prop :=
  provenance.epoch.isValid = true ∧ provenance.publisher.isValid = true ∧
    provenance.workerBoot.isValid = true ∧ provenance.attempt.isValid = true

/-- The generation of a consulted family is set and equals the required one. -/
def FamilyCurrent (current : EvidenceRequirements) (evidence : EvidenceGenerationSet)
    (family : EvidenceFamily) : Prop :=
  requiredGenerationOf current family ≠ 0 ∧
    evidenceGenerationOf evidence family = requiredGenerationOf current family

/-- What the stages before the constraints establish. -/
structure GateConditions (context : EvaluationContext) (candidate : CandidatePath) :
    Prop where
  withinLimits : context.set.constraints.length ≤ context.limits.maxConstraintsPerSet.toNat
  canonical : verifyCanonicalConstraintSet context.set context.limits = .ok ()
  contradictionFree : contradictionsOf context.set = []
  active : context.set.state = .active
  requestedGeneration : context.requestedSetGeneration.isValid = true →
    context.requestedSetGeneration = context.set.generation
  candidateValid : validateCandidate candidate context.limits = .ok ()
  caller : context.authorityVerified = true ∨ context.provenance.Complete
  authorityBound : candidate.authorityGeneration.isValid = true ∧
    context.current.pathAuthority.isValid = true
  authorityFresh : candidate.authorityGeneration = context.current.pathAuthority
  legal : candidate.authorityVerdict = .legal
  familiesCurrent : ∀ family ∈ currentnessFamilies,
    consults (consultedMask context.set) family = true →
      FamilyCurrent context.current candidate.evidence family
  age : 0 < context.current.maxEvidenceAgeTicks.toNat →
    0 < candidate.evidence.capturedTick.toNat →
      context.nowTick.toNat ≤ candidate.evidence.capturedTick.toNat +
        context.current.maxEvidenceAgeTicks.toNat
  costModel : context.set.ranking.consumePlannerCost = true →
    candidate.hasPlannerCost = true →
      candidate.costModel = context.set.ranking.expectedCostModel

/-- What an admissible outcome stands for. -/
structure AdmissionConditions (context : EvaluationContext) (candidate : CandidatePath) :
    Prop extends GateConditions context candidate where
  mandatory : ∀ constraint ∈ context.set.constraints, constraint.scope = .mandatory →
    constraint.Holds candidate context.current

/-! ## Stages -/

section Stages

variable {context : EvaluationContext} {candidate : CandidatePath}

theorem gate_eq_nil_iff {earlier later : List Reason} :
    gate earlier later = [] ↔ earlier = [] ∧ later = [] := by
  unfold gate
  cases earlier <;> simp

private theorem resourceAdmissionReasons_eq_nil_iff :
    resourceAdmissionReasons context = [] ↔
      context.set.constraints.length ≤ context.limits.maxConstraintsPerSet.toNat := by
  rw [← listWithin_eq_true]
  unfold resourceAdmissionReasons
  split <;> simp_all

private theorem wireDecodeReasons_eq_nil_iff :
    wireDecodeReasons context candidate = [] ↔
      verifyCanonicalConstraintSet context.set context.limits = .ok () ∧
        validateCandidate candidate context.limits = .ok () := by
  unfold wireDecodeReasons
  cases verifyCanonicalConstraintSet context.set context.limits <;>
    cases validateCandidate candidate context.limits <;> simp

private theorem authorityContextReasons_eq_nil_iff :
    authorityContextReasons context = [] ↔
      context.authorityVerified = true ∨ context.provenance.Complete := by
  simp only [authorityContextReasons, Provenance.Complete]
  cases context.authorityVerified with
  | true => simp
  | false =>
      cases context.provenance.epoch.isValid <;>
        cases context.provenance.publisher.isValid <;>
        cases context.provenance.workerBoot.isValid <;>
        cases context.provenance.attempt.isValid <;> simp

private theorem lifecycleReasons_eq_nil_iff :
    lifecycleReasons context = [] ↔
      context.set.state = .active ∧ (context.requestedSetGeneration.isValid = true →
        context.requestedSetGeneration = context.set.generation) := by
  have hactive : lifecycleReason context.set.state ≠ .none ↔
      context.set.state ≠ .active := by
    cases context.set.state <;> decide
  simp only [lifecycleReasons, hactive]
  split
  · next hinactive => simp [hinactive]
  · next hstate =>
      rw [not_not.mp hstate]
      cases context.requestedSetGeneration.isValid with
      | false => simp
      | true =>
          by_cases hgeneration : context.requestedSetGeneration = context.set.generation <;>
            simp [hgeneration]

private theorem pathAuthorityReasons_eq_nil_iff :
    pathAuthorityReasons context candidate = [] ↔
      (candidate.authorityGeneration.isValid = true ∧
        context.current.pathAuthority.isValid = true) ∧
      candidate.authorityGeneration = context.current.pathAuthority ∧
      candidate.authorityVerdict = .legal := by
  simp only [pathAuthorityReasons]
  split
  · simp_all
  · split
    · simp_all
    · split
      · simp_all
      · cases candidate.authorityVerdict <;> simp_all

private theorem familyReasons_eq_nil_iff {family : EvidenceFamily} :
    familyReasons context candidate family = [] ↔
      (consults (consultedMask context.set) family = true →
        FamilyCurrent context.current candidate.evidence family) := by
  simp only [familyReasons, FamilyCurrent]
  split
  · simp_all
  · split
    · simp_all
    · split <;> simp_all

/-- No reason is given exactly when the evidence is not older than the bound. -/
theorem ageReasons_eq_nil_iff :
    ageReasons context candidate = [] ↔
      (0 < context.current.maxEvidenceAgeTicks.toNat →
        0 < candidate.evidence.capturedTick.toNat →
          context.nowTick.toNat ≤ candidate.evidence.capturedTick.toNat +
            context.current.maxEvidenceAgeTicks.toNat) := by
  generalize hcaptured : candidate.evidence.capturedTick = captured
  generalize hage : context.current.maxEvidenceAgeTicks = maxAge
  have hcapturedSet : (captured != 0) = true ↔ 0 < captured.toNat := by
    rw [bne_iff_ne, ne_eq, ← UInt64.toNat_inj, UInt64.toNat_zero]
    omega
  simp only [ageReasons, hcaptured, hage]
  by_cases hlater : captured < context.nowTick
  · have hsub : (context.nowTick - captured).toNat =
        context.nowTick.toNat - captured.toNat :=
      UInt64.toNat_sub_of_le _ _ (UInt64.le_of_lt hlater)
    have horder := UInt64.lt_iff_toNat_lt.mp hlater
    have hexpired : (decide (0 < maxAge) && captured != 0 &&
        decide (captured < context.nowTick) &&
        decide (maxAge < context.nowTick - captured)) = true ↔
        0 < maxAge.toNat ∧ 0 < captured.toNat ∧
          captured.toNat + maxAge.toNat < context.nowTick.toNat := by
      simp only [Bool.and_eq_true, decide_eq_true_eq, hcapturedSet,
        UInt64.lt_iff_toNat_lt, hsub, UInt64.toNat_zero]
      omega
    split
    · next h =>
        have := hexpired.mp h
        simp only [List.cons_ne_nil, false_iff]
        omega
    · next h =>
        have := mt hexpired.mpr h
        simp only [true_iff]
        omega
  · have horder := UInt64.le_iff_toNat_le.mp (UInt64.not_lt.mp hlater)
    rw [if_neg (by simp [hlater])]
    simp only [true_iff]
    omega

private theorem costModelReasons_eq_nil_iff :
    costModelReasons context candidate = [] ↔
      (context.set.ranking.consumePlannerCost = true →
        candidate.hasPlannerCost = true →
          candidate.costModel = context.set.ranking.expectedCostModel) := by
  simp only [costModelReasons]
  split <;> simp_all

private theorem currentnessReasons_eq_nil_iff :
    currentnessReasons context candidate = [] ↔
      (∀ family ∈ currentnessFamilies,
        familyReasons context candidate family = []) ∧
      ageReasons context candidate = [] ∧ costModelReasons context candidate = [] := by
  simp only [currentnessReasons, List.append_eq_nil_iff, List.flatMap_eq_nil_iff, and_assoc]

/-- A mandatory constraint is one of the set with its position. -/
theorem mem_scopedConstraints_iff {set : ConstraintSet} {scope : ConstraintScope}
    {constraint : Constraint} :
    (∃ ordinal, (constraint, ordinal) ∈ scopedConstraints set scope) ↔
      constraint ∈ set.constraints ∧ constraint.scope = scope := by
  simp only [scopedConstraints, List.mem_map, List.mem_filter, beq_iff_eq, Prod.mk.injEq,
    Prod.exists]
  constructor
  · rintro ⟨_, other, position, ⟨hmem, hscope⟩, rfl, -⟩
    exact ⟨List.fst_mem_of_mem_zipIdx hmem, hscope⟩
  · rintro ⟨hmem, hscope⟩
    obtain ⟨position, hposition, rfl⟩ := List.mem_iff_getElem.mp hmem
    exact ⟨_, _, position, ⟨by simp [List.mem_zipIdx_iff_getElem?], hscope⟩, rfl, rfl⟩

private theorem mandatoryReasons_eq_nil_iff
    (hformed : candidate.WellFormed) (hdistinct : candidate.NoRepeatedEvidence) :
    mandatoryReasons context candidate = [] ↔
      ∀ constraint ∈ context.set.constraints, constraint.scope = .mandatory →
        constraint.Holds candidate context.current := by
  simp only [mandatoryReasons, List.flatMap_eq_nil_iff, Prod.forall,
    evaluateMandatory_eq_nil_iff hformed hdistinct]
  constructor
  · intro h constraint hmem hscope
    obtain ⟨ordinal, hordinal⟩ := mem_scopedConstraints_iff.mpr ⟨hmem, hscope⟩
    exact h constraint ordinal hordinal
  · intro h constraint ordinal hordinal
    obtain ⟨hmem, hscope⟩ := mem_scopedConstraints_iff.mp ⟨ordinal, hordinal⟩
    exact h constraint hmem hscope

end Stages

/-! ## Every reason has a code

A reason without a code would decide an admissible outcome. -/

/-- The code of every reason of the list is an accepted one. -/
def Coded (accepted : ReasonCode → Prop) (reasons : List Reason) : Prop :=
  ∀ reason ∈ reasons, accepted reason.code

/-- Every reason of the list carries a code. -/
def Explained (reasons : List Reason) : Prop := ∀ reason ∈ reasons, reason.code ≠ .none

namespace Coded

variable {accepted : ReasonCode → Prop}

@[simp] theorem nil : Coded accepted [] := by simp [Coded]

@[simp] theorem singleton {reason : Reason} :
    Coded accepted [reason] ↔ accepted reason.code := by simp [Coded]

theorem append {first second : List Reason} (hfirst : Coded accepted first)
    (hsecond : Coded accepted second) : Coded accepted (first ++ second) := by
  intro reason hmem
  rcases List.mem_append.mp hmem with hmem | hmem
  · exact hfirst reason hmem
  · exact hsecond reason hmem

theorem flatMap {α : Type} {xs : List α} {reasonsOf : α → List Reason}
    (h : ∀ x ∈ xs, Coded accepted (reasonsOf x)) : Coded accepted (xs.flatMap reasonsOf) := by
  intro reason hmem
  obtain ⟨x, hx, hreason⟩ := List.mem_flatMap.mp hmem
  exact h x hx reason hreason

theorem gate {earlier later : List Reason} (hearlier : Coded accepted earlier)
    (hlater : Coded accepted later) : Coded accepted (gate earlier later) := by
  unfold Fabric.gate
  split
  · exact hlater
  · exact hearlier

end Coded

namespace Explained

@[simp] theorem nil : Explained [] := @Coded.nil (· ≠ .none)

@[simp] theorem singleton {reason : Reason} : Explained [reason] ↔ reason.code ≠ .none :=
  @Coded.singleton (· ≠ .none) reason

theorem append {first second : List Reason} (hfirst : Explained first)
    (hsecond : Explained second) : Explained (first ++ second) :=
  @Coded.append (· ≠ .none) _ _ hfirst hsecond

theorem flatMap {α : Type} {xs : List α} {reasonsOf : α → List Reason}
    (h : ∀ x ∈ xs, Explained (reasonsOf x)) : Explained (xs.flatMap reasonsOf) :=
  @Coded.flatMap (· ≠ .none) _ _ _ h

theorem gate {earlier later : List Reason} (hearlier : Explained earlier)
    (hlater : Explained later) : Explained (gate earlier later) :=
  @Coded.gate (· ≠ .none) _ _ hearlier hlater

end Explained

@[simp] theorem makeReason_code {constraint : Constraint} {ordinal : UInt32}
    {code : ReasonCode} {family : EvidenceFamily} {subjectKind : SubjectKind}
    {subject expected actual : UInt64} :
    (makeReason constraint ordinal code family subjectKind subject expected actual).code =
      code := rfl

@[simp] theorem pathReason_code {candidate : CandidatePath} {code : ReasonCode}
    {family : EvidenceFamily} {expected actual : UInt64} :
    (pathReason candidate code family expected actual).code = code := rfl

@[simp] theorem setStateReason_code {set : ConstraintSet} {code : ReasonCode} :
    (setStateReason set code).code = code := rfl

section Explanations

variable {context : EvaluationContext} {candidate : CandidatePath}

/-- The code is one of a mandatory constraint. -/
@[simp] def Mandatory (code : ReasonCode) : Prop := reasonClassOf code = .mandatoryConstraint

/-- The codes of the reasons of a kind: one for what it forbids or misses, and one for
evidence that is unavailable, where the kind has such a reason. -/
def reasonCodes : ConstraintKind → ReasonCode × ReasonCode
  | .maxLatency => (.maxLatencyExceeded, .latencyEvidenceUnavailable)
  | .minBandwidthCapability => (.minBandwidthCapabilityNotMet, .bandwidthCapabilityUnavailable)
  | .maxHopCount => (.maxHopCountExceeded, .failureDomainEvidenceUnavailable)
  | .requiredNode => (.requiredNodeAbsent, .tierEvidenceUnavailable)
  | .forbiddenNode => (.forbiddenNodePresent, .tierEvidenceUnavailable)
  | .requiredLink => (.requiredLinkAbsent, .tierEvidenceUnavailable)
  | .forbiddenLink => (.forbiddenLinkPresent, .tierEvidenceUnavailable)
  | .requiredTier => (.requiredTierNotMet, .tierEvidenceUnavailable)
  | .forbiddenTier => (.forbiddenTierPresent, .tierEvidenceUnavailable)
  | .requiredSite => (.requiredSiteNotMet, .siteEvidenceUnavailable)
  | .forbiddenSite => (.forbiddenSitePresent, .siteEvidenceUnavailable)
  | .localityScope => (.localityScopeViolated, .localityEvidenceUnavailable)
  | .isolationClass => (.isolationClassNotProven, .isolationEvidenceUnavailable)
  | .requiredCapability => (.requiredCapabilityMissing, .capabilityEvidenceUnavailable)
  | .forbiddenCapability => (.forbiddenCapabilityPresent, .capabilityEvidenceUnavailable)
  | .requiredFailureDomainRelation =>
      (.requiredFailureDomainRelationNotMet, .failureDomainEvidenceUnavailable)
  | .forbiddenFailureDomainRelation =>
      (.forbiddenFailureDomainRelationMet, .failureDomainEvidenceUnavailable)
  | .administrativePolicy => (.administrativePolicyNotSatisfied, .policyEvidenceUnavailable)
  | .unset => (.maxHopCountExceeded, .failureDomainEvidenceUnavailable)

/-- A reason of the constraint at its ordinal, with a code of its kind. -/
structure Reason.Attributed (reason : Reason) (constraint : Constraint) (ordinal : UInt32) :
    Prop where
  code : reason.code = (reasonCodes constraint.kind).1 ∨
    reason.code = (reasonCodes constraint.kind).2
  ordinal : reason.constraintOrdinal = ordinal
  reasonClass : reason.reasonClass = reasonClassOf reason.code

@[simp] theorem makeReason_attributed {constraint : Constraint} {ordinal : UInt32}
    {code : ReasonCode} {family : EvidenceFamily} {subjectKind : SubjectKind}
    {subject expected actual : UInt64} :
    (makeReason constraint ordinal code family subjectKind subject expected
      actual).Attributed constraint ordinal ↔
      code = (reasonCodes constraint.kind).1 ∨ code = (reasonCodes constraint.kind).2 :=
  ⟨fun h => h.code, fun h => ⟨h, rfl, rfl⟩⟩

private theorem domainReasons_attributed {constraint : Constraint} {ordinal : UInt32} :
    (constraint.kind = .requiredFailureDomainRelation →
      ∀ reason ∈ checkRequiredDomainRelation constraint ordinal candidate,
        reason.Attributed constraint ordinal) ∧
    (constraint.kind = .forbiddenFailureDomainRelation →
      ∀ reason ∈ checkForbiddenDomainRelation constraint ordinal candidate,
        reason.Attributed constraint ordinal) := by
  unfold checkRequiredDomainRelation checkForbiddenDomainRelation incompleteReasons
  dsimp only
  constructor
  · intro hkind
    split
    · exact List.forall_mem_map.mpr fun _ _ => by simp [hkind, reasonCodes]
    · split <;> simp [hkind, reasonCodes]
  · intro hkind
    split
    · exact List.forall_mem_map.mpr fun _ _ => by simp [hkind, reasonCodes]
    · split
      · split
        · split <;> simp [hkind, reasonCodes]
        · simp
      · split <;> simp [hkind, reasonCodes]

/-- The reasons of a constraint are its own. -/
theorem evaluateMandatory_attributed {constraint : Constraint} {ordinal : UInt32}
    {current : EvidenceRequirements} :
    ∀ reason ∈ evaluateMandatory constraint ordinal candidate current,
      reason.Attributed constraint ordinal := by
  unfold evaluateMandatory
  cases hkind : constraint.kind with
  | unset => simp
  | maxLatency =>
      dsimp only [checkMaxLatency]
      split
      · simp [hkind, reasonCodes]
      · split
        · simp [hkind, reasonCodes]
        · split <;> simp [hkind, reasonCodes]
  | minBandwidthCapability =>
      dsimp only [checkMinBandwidth]
      split
      · simp [hkind, reasonCodes]
      · split <;> simp [hkind, reasonCodes]
  | maxHopCount =>
      dsimp only [checkMaxHopCount]
      split <;> simp [hkind, reasonCodes]
  | requiredNode | requiredLink =>
      exact List.forall_mem_map.mpr fun _ _ => by simp [hkind, reasonCodes]
  | forbiddenNode | forbiddenLink =>
      exact List.forall_mem_flatMap.mpr fun _ _ => List.forall_mem_map.mpr fun _ _ => by
        simp [hkind, reasonCodes]
  | requiredTier | requiredSite =>
      refine List.forall_mem_flatMap.mpr fun _ _ => ?_
      split
      · simp [hkind, reasonCodes]
      · split <;> simp [hkind, reasonCodes]
  | forbiddenTier | forbiddenSite =>
      refine List.forall_mem_flatMap.mpr fun _ _ => ?_
      split
      · split <;> simp [hkind, reasonCodes]
      · split <;> simp [hkind, reasonCodes]
  | localityScope =>
      refine List.forall_mem_flatMap.mpr fun _ _ => ?_
      split
      · simp [hkind, reasonCodes]
      · split <;> simp [hkind, reasonCodes]
  | isolationClass =>
      refine List.forall_mem_flatMap.mpr fun _ _ => ?_
      split
      · split <;> simp [hkind, reasonCodes]
      · split <;> simp [hkind, reasonCodes]
  | requiredCapability =>
      refine List.forall_mem_flatMap.mpr fun _ _ => List.forall_mem_flatMap.mpr fun _ _ => ?_
      split
      · simp [hkind, reasonCodes]
      · split <;> simp [hkind, reasonCodes]
  | forbiddenCapability =>
      refine List.forall_mem_flatMap.mpr fun _ _ => List.forall_mem_flatMap.mpr fun _ _ => ?_
      split
      · split <;> simp [hkind, reasonCodes]
      · split <;> simp [hkind, reasonCodes]
  | requiredFailureDomainRelation => exact domainReasons_attributed.1 hkind
  | forbiddenFailureDomainRelation => exact domainReasons_attributed.2 hkind
  | administrativePolicy =>
      refine List.forall_mem_flatMap.mpr fun _ _ => ?_
      split
      · simp [hkind, reasonCodes]
      · split <;> simp [hkind, reasonCodes]

/-- What separates the two codes of a kind: the first is a hard failure and comes first. -/
theorem reasonCodes_ordered (kind : ConstraintKind) :
    Mandatory (reasonCodes kind).1 ∧ Mandatory (reasonCodes kind).2 ∧
      outcomeOf (reasonCodes kind).1 = .hardConstraintFailed ∧
      outcomeOf (reasonCodes kind).2 = .unknownRequiredEvidence ∧
      (reasonCodes kind).1.code < (reasonCodes kind).2.code := by
  unfold Mandatory
  cases kind <;> decide

/-- Some reason of the list is a hard failure. -/
def FindsViolation (reasons : List Reason) : Prop :=
  ∃ reason ∈ reasons, outcomeOf reason.code = .hardConstraintFailed

/-- The constraints give reasons of their own class alone. -/
theorem evaluateMandatory_coded {constraint : Constraint} {ordinal : UInt32}
    {current : EvidenceRequirements} :
    Coded Mandatory (evaluateMandatory constraint ordinal candidate current) := by
  intro reason hmem
  have hcodes := reasonCodes_ordered constraint.kind
  rcases (evaluateMandatory_attributed reason hmem).code with hcode | hcode
  · rw [hcode]
    exact hcodes.1
  · rw [hcode]
    exact hcodes.2.1

private theorem evaluateMandatory_explained {constraint : Constraint} {ordinal : UInt32}
    {current : EvidenceRequirements} :
    Explained (evaluateMandatory constraint ordinal candidate current) := by
  intro reason hmem hnone
  have hclass := evaluateMandatory_coded reason hmem
  rw [hnone] at hclass
  cases hclass

private theorem wireDecodeReasons_explained :
    Explained (wireDecodeReasons context candidate) := by
  unfold wireDecodeReasons
  refine .append ?_ ?_
  · split <;> simp
  · split
    · simp
    · rw [Explained.singleton, pathReason_code]
      split <;> simp

private theorem lifecycleReasons_explained : Explained (lifecycleReasons context) := by
  dsimp only [lifecycleReasons]
  split
  · next h => simpa using h
  · split <;> simp

private theorem pathAuthorityReasons_explained :
    Explained (pathAuthorityReasons context candidate) := by
  dsimp only [pathAuthorityReasons]
  split
  · simp
  · split
    · simp
    · split
      · simp
      · split <;> simp

private theorem currentnessReasons_explained :
    Explained (currentnessReasons context candidate) := by
  have hstale (family : EvidenceFamily) : stalenessCode family ≠ .none := by
    cases family <;> decide
  refine .append (.append (.flatMap fun family _ => ?_) ?_) ?_
  · dsimp only [familyReasons]
    split
    · simp
    · split
      · simp
      · split <;> simp [hstale]
  · dsimp only [ageReasons]
    split <;> simp
  · dsimp only [costModelReasons]
    split <;> simp

private theorem admissionReasons_explained :
    Explained (admissionReasons context candidate) := by
  refine .gate ?_ <| .gate wireDecodeReasons_explained <| .gate ?_ <|
    .gate lifecycleReasons_explained <| .gate pathAuthorityReasons_explained
      currentnessReasons_explained
  · unfold resourceAdmissionReasons
    split <;> simp
  · dsimp only [authorityContextReasons]
    split <;> simp

/-! ## Bounds -/

private theorem pushReason_grows {state : ReasonState} {reason : Reason} :
    state.reasons <+: (pushReason state reason).reasons := by
  dsimp only [pushReason]
  split
  · exact List.prefix_rfl
  · exact List.prefix_append _ _

private theorem foldl_pushReason_grows {reasons : List Reason} {state : ReasonState} :
    state.reasons <+: (reasons.foldl pushReason state).reasons := by
  induction reasons generalizing state with
  | nil => exact List.prefix_rfl
  | cons reason rest ih => exact pushReason_grows.trans ih

/-- The first reason of a constraint is always kept. -/
private theorem foldl_pushReason_eq_nil_iff {reasons : List Reason} :
    (reasons.foldl pushReason {}).reasons = [] ↔ reasons = [] := by
  cases reasons with
  | nil => simp
  | cons reason rest =>
      have hgrows : (pushReason {} reason).reasons <+:
          (rest.foldl pushReason (pushReason {} reason)).reasons :=
        foldl_pushReason_grows
      have hkept : (pushReason {} reason).reasons ≠ [] := by
        simp [pushReason, kMaxReasonsPerConstraint]
      rw [List.foldl_cons]
      refine ⟨fun hnil => ?_, fun hnil => absurd hnil (List.cons_ne_nil _ _)⟩
      rw [hnil] at hgrows
      exact absurd (List.prefix_nil.mp hgrows) hkept

private theorem foldl_pushReason_coded {accepted : ReasonCode → Prop}
    {reasons : List Reason} {state : ReasonState} (hstate : Coded accepted state.reasons)
    (hreasons : Coded accepted reasons) :
    Coded accepted (reasons.foldl pushReason state).reasons := by
  induction reasons generalizing state with
  | nil => exact hstate
  | cons reason rest ih =>
      refine ih ?_ fun other hmem => hreasons other (List.mem_cons_of_mem _ hmem)
      dsimp only [pushReason]
      split
      · exact hstate
      · exact hstate.append (Coded.singleton.mpr (hreasons reason List.mem_cons_self))

/-- The reasons collected for a candidate that the gates admit are of the constraints. -/
theorem collectReasons_coded (h : admissionReasons context candidate = []) :
    Coded Mandatory (collectReasons context candidate).reasons := by
  dsimp only [collectReasons]
  rw [h]
  exact foldl_pushReason_coded .nil (.flatMap fun _ _ => evaluateMandatory_coded)

private theorem collectReasons_explained :
    Explained (collectReasons context candidate).reasons := by
  dsimp only [collectReasons]
  split
  · exact @foldl_pushReason_coded (· ≠ .none) _ _ .nil
      (Explained.flatMap fun _ _ => evaluateMandatory_explained)
  · exact admissionReasons_explained

theorem collectReasons_eq_nil_iff :
    (collectReasons context candidate).reasons = [] ↔
      admissionReasons context candidate = [] ∧ mandatoryReasons context candidate = [] := by
  dsimp only [collectReasons]
  cases hadmission : admissionReasons context candidate with
  | nil => simpa using foldl_pushReason_eq_nil_iff
  | cons reason rest => simp

theorem keepReasons_sublist {limits : Limits} {kept : Nat}
    {represented : List ConstraintId} {reasons : List Reason} :
    (keepReasons limits kept represented reasons).Sublist reasons := by
  induction reasons generalizing kept represented with
  | nil => simp [keepReasons]
  | cons reason rest ih =>
      rw [keepReasons]
      split
      · exact List.nil_sublist _
      · split
        · split
          · exact ih.cons _
          · exact ih.cons_cons _
        · exact ih.cons_cons _

/-- Validated limits keep the least reason. -/
theorem canonicalizeReasons_cons {limits : Limits} (hlimits : validateLimits limits = .ok ())
    {reasons rest : List Reason} {first : Reason}
    (hsorted : sortBy compareReason reasons = first :: rest) :
    ∃ later, canonicalizeReasons reasons limits = first :: later := by
  have hexplanation : ¬ limits.maxExplanationReasons.toNat ≤ 0 := by
    have hfour := UInt32.le_iff_toNat_le.mp (validateLimits_explanation hlimits)
    have : (4 : UInt32).toNat = 4 := rfl
    omega
  have hfailed : ¬ limits.maxFailedConstraintsPerEvaluation.toNat ≤ 0 := by
    have hentry := validateLimits_entry_pos hlimits
      ("max_failed_constraints_per_evaluation", limits.maxFailedConstraintsPerEvaluation)
      (by simp [Limits.entries])
    have hpos : limits.maxFailedConstraintsPerEvaluation.toNat ≠ 0 :=
      fun h => hentry (UInt32.toNat_inj.mp h)
    omega
  unfold canonicalizeReasons
  rw [hsorted, keepReasons, if_neg hexplanation, List.length_nil, if_neg hfailed]
  split <;> exact ⟨_, rfl⟩

/-- Validated limits keep at least one reason of at least one constraint. -/
theorem canonicalizeReasons_eq_nil_iff {limits : Limits}
    (hlimits : validateLimits limits = .ok ()) {reasons : List Reason} :
    canonicalizeReasons reasons limits = [] ↔ reasons = [] := by
  have hlength := length_sortBy compareReason reasons
  cases hsorted : sortBy compareReason reasons with
  | nil =>
      rw [hsorted, List.length_nil] at hlength
      rw [List.eq_nil_of_length_eq_zero hlength.symm]
      simp [canonicalizeReasons, keepReasons, sortBy]
  | cons reason rest =>
      rw [hsorted, List.length_cons] at hlength
      have hne : reasons ≠ [] := by
        rintro rfl
        simp at hlength
      obtain ⟨later, hkept⟩ := canonicalizeReasons_cons hlimits hsorted
      simp [hkept, hne]

theorem mem_of_mem_canonicalizeReasons {limits : Limits} {reasons : List Reason}
    {reason : Reason} (h : reason ∈ canonicalizeReasons reasons limits) : reason ∈ reasons :=
  mem_sortBy.mp (keepReasons_sublist.subset h)

private theorem canonicalizeReasons_explained {limits : Limits} {reasons : List Reason}
    (hreasons : Explained reasons) : Explained (canonicalizeReasons reasons limits) :=
  fun reason hmem => hreasons reason (mem_of_mem_canonicalizeReasons hmem)

/-- The primary reason is the code of a reason of the list. -/
private theorem primaryReasonOf_mem {first : Reason} {rest : List Reason} :
    ∃ reason ∈ first :: rest, primaryReasonOf (first :: rest) = reason.code := by
  dsimp only [primaryReasonOf]
  induction rest generalizing first with
  | nil => exact ⟨first, List.mem_cons_self, rfl⟩
  | cons second rest ih =>
      rw [List.foldl_cons]
      obtain ⟨reason, hmem, hcode⟩ := @ih (if reasonLess second first then second else first)
      refine ⟨reason, ?_, hcode⟩
      rcases List.mem_cons.mp hmem with heq | hrest
      · rw [heq]
        split <;> simp
      · simp [hrest]

/-! ## Outcome -/

private theorem outcomeFromReasons_admissible_iff {reasons : List Reason}
    {hasPreferences : Bool} (hexplained : Explained reasons) :
    (outcomeFromReasons reasons hasPreferences = .admissible ∨
      outcomeFromReasons reasons hasPreferences = .admissibleWithPreferences) ↔
      reasons = [] := by
  cases reasons with
  | nil => cases hasPreferences <;> simp [outcomeFromReasons]
  | cons first rest =>
      obtain ⟨reason, hmem, hcode⟩ := @primaryReasonOf_mem first rest
      have hne : primaryReasonOf (first :: rest) ≠ .none :=
        hcode ▸ hexplained reason hmem
      simp [outcomeFromReasons, outcomeOf_admissible_iff, hne,
        outcomeOf_ne_admissibleWithPreferences]

/-- A record is admissible exactly when the evaluator collected no reason. -/
theorem evaluationRecord_isAdmissible_iff (hlimits : validateLimits context.limits = .ok ()) :
    (evaluationRecord context candidate).isAdmissible = true ↔
      (collectReasons context candidate).reasons = [] := by
  have hexplained : Explained (canonicalizeReasons (collectReasons context candidate).reasons
      context.limits) := canonicalizeReasons_explained collectReasons_explained
  calc (evaluationRecord context candidate).isAdmissible = true
      ↔ (evaluationRecord context candidate).outcome = .admissible ∨
          (evaluationRecord context candidate).outcome = .admissibleWithPreferences := by
        simp [EvaluationRecord.isAdmissible]
    _ ↔ canonicalizeReasons (collectReasons context candidate).reasons context.limits = [] :=
        outcomeFromReasons_admissible_iff hexplained
    _ ↔ (collectReasons context candidate).reasons = [] :=
        canonicalizeReasons_eq_nil_iff hlimits

/-! ## Main results -/

private theorem contradictionFree_of_canonical {set : ConstraintSet} {limits : Limits}
    (h : verifyCanonicalConstraintSet set limits = .ok ()) : contradictionsOf set = [] := by
  simp only [verifyCanonicalConstraintSet, seq_eq_ok, detectContradictions, failIf_eq_ok,
    Bool.not_eq_false', List.isEmpty_iff] at h
  exact h.2.2.2.2.2

theorem admissionReasons_eq_nil_iff :
    admissionReasons context candidate = [] ↔ GateConditions context candidate := by
  simp only [admissionReasons, gate_eq_nil_iff, resourceAdmissionReasons_eq_nil_iff,
    wireDecodeReasons_eq_nil_iff, authorityContextReasons_eq_nil_iff,
    lifecycleReasons_eq_nil_iff, pathAuthorityReasons_eq_nil_iff,
    currentnessReasons_eq_nil_iff, familyReasons_eq_nil_iff, ageReasons_eq_nil_iff,
    costModelReasons_eq_nil_iff]
  constructor
  · rintro ⟨hlimits, ⟨hcanonical, hcandidate⟩, hcaller, ⟨hactive, hrequested⟩,
      ⟨hbound, hfresh, hlegal⟩, hfamilies, hage, hcost⟩
    exact ⟨hlimits, hcanonical, contradictionFree_of_canonical hcanonical, hactive,
      hrequested, hcandidate, hcaller, hbound, hfresh, hlegal, hfamilies, hage, hcost⟩
  · intro h
    exact ⟨h.withinLimits, ⟨h.canonical, h.candidateValid⟩, h.caller,
      ⟨h.active, h.requestedGeneration⟩, ⟨h.authorityBound, h.authorityFresh, h.legal⟩,
      h.familiesCurrent, h.age, h.costModel⟩

/-- An admissible record passed every gate before the constraints. -/
theorem evaluationRecord_gates (hlimits : validateLimits context.limits = .ok ())
    (hadmissible : (evaluationRecord context candidate).isAdmissible = true) :
    GateConditions context candidate :=
  admissionReasons_eq_nil_iff.mp
    (collectReasons_eq_nil_iff.mp ((evaluationRecord_isAdmissible_iff hlimits).mp
      hadmissible)).1

end Explanations

end ConstraintRouting.Fabric
