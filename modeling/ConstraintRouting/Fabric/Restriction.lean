import Mathlib.Order.Concept
import ConstraintRouting.Fabric.Alternatives
import ConstraintRouting.Fabric.CanonicalForm
import ConstraintRouting.Fabric.Dependencies
import ConstraintRouting.Fabric.PlannerInfluence

/-!
# What a constraint set means

A set means a region: the candidates that meet each of its constraints, one by one.  The
evaluator admits exactly the candidates of the region that pass the gates which do not depend
on the constraints.  So more constraints admit less, and a set that joins two others admits
what both admit.
-/

namespace ConstraintRouting.Fabric

open Verified.Checks (seq_eq_ok failIf_eq_ok)
open Verified.SortedLists

/-! ## One constraint -/

/-- The evidence of the families that the constraint consults is current. -/
def Constraint.CurrentFor (context : EvaluationContext) (constraint : Constraint)
    (candidate : CandidatePath) : Prop :=
  ∀ family ∈ currentnessFamilies, consults (familiesOf constraint) family = true →
    FamilyCurrent context.current candidate.evidence family

/-- The candidate meets the constraint: its evidence is current, and where the constraint is
mandatory its check gives no reason. -/
def Constraint.Meets (context : EvaluationContext) (constraint : Constraint)
    (candidate : CandidatePath) : Prop :=
  constraint.CurrentFor context candidate ∧
    (constraint.scope = .mandatory →
      evaluateMandatory constraint 0 candidate context.current = [])

/-- The candidates that meet every constraint of the set. -/
def ConstraintSet.region (set : ConstraintSet) (context : EvaluationContext) :
    Set CandidatePath :=
  upperPolar (Constraint.Meets context) {constraint | constraint ∈ set.constraints}

section Checks

variable {constraint : Constraint} {candidate : CandidatePath}
  {current : EvidenceRequirements}

/-- Whether a check gives a reason does not depend on the place of the constraint. -/
theorem evaluateMandatory_ordinal (ordinal other : UInt32) :
    evaluateMandatory constraint ordinal candidate current = [] ↔
      evaluateMandatory constraint other candidate current = [] := by
  unfold evaluateMandatory
  cases constraint.kind with
  | unset => rfl
  | maxLatency =>
      dsimp only [checkMaxLatency]
      split_ifs <;> simp
  | minBandwidthCapability =>
      dsimp only [checkMinBandwidth]
      cases pathBandwidthCapability candidate current.capability <;> simp
  | maxHopCount => simp [checkMaxHopCount]
  | requiredNode => simp [checkRequiredNode, checkRequiredEntity]
  | forbiddenNode => simp [checkForbiddenNode, checkForbiddenEntity]
  | requiredLink => simp [checkRequiredLink, checkRequiredEntity]
  | forbiddenLink => simp [checkForbiddenLink, checkForbiddenEntity]
  | requiredTier | requiredSite =>
      simp only [checkRequiredTier, checkRequiredSite, checkRequiredMembership,
        List.flatMap_eq_nil_iff]
      refine forall₂_congr fun node _ => ?_
      split_ifs <;> simp
  | forbiddenTier | forbiddenSite =>
      simp only [checkForbiddenTier, checkForbiddenSite, checkForbiddenMembership,
        List.flatMap_eq_nil_iff]
      refine forall₂_congr fun node _ => ?_
      split_ifs <;> simp
  | localityScope =>
      simp only [checkLocalityScope, List.flatMap_eq_nil_iff]
      refine forall₂_congr fun node _ => ?_
      cases findLocality node.localities constraint.domainKind <;> simp
  | isolationClass =>
      simp only [checkIsolationClass, List.flatMap_eq_nil_iff]
      refine forall₂_congr fun entity _ => ?_
      cases findIsolation entity.isolation constraint.isolationClass with
      | none => cases entity.isolation <;> simp
      | some proof => simp
  | requiredCapability =>
      simp only [checkRequiredCapability, List.flatMap_eq_nil_iff]
      refine forall₂_congr fun wanted _ => forall₂_congr fun entity _ => ?_
      cases findCapability entity.capabilities wanted <;> simp
  | forbiddenCapability =>
      simp only [checkForbiddenCapability, List.flatMap_eq_nil_iff]
      refine forall₂_congr fun forbidden _ => forall₂_congr fun entity _ => ?_
      cases findCapability entity.capabilities forbidden with
      | none => simp
      | some ref =>
          dsimp only
          split_ifs <;> simp
  | requiredFailureDomainRelation =>
      dsimp only [checkRequiredDomainRelation, incompleteReasons]
      split_ifs <;> simp
  | forbiddenFailureDomainRelation =>
      dsimp only [checkForbiddenDomainRelation, incompleteReasons]
      split_ifs
      · simp
      · split <;> simp
      · simp
      · simp
      · simp
  | administrativePolicy =>
      simp only [checkAdministrativePolicy, List.flatMap_eq_nil_iff]
      refine forall₂_congr fun wanted _ => ?_
      cases findPolicy candidate.policies wanted <;> simp

end Checks

/-! ## The constraints of a set -/

/-- The evaluation of another set. -/
def EvaluationContext.over (context : EvaluationContext) (set : ConstraintSet) :
    EvaluationContext :=
  { context with set }

/-- The set can be evaluated: it is canonical within the limits, active, and of the generation
that is asked for. -/
structure InOrder (context : EvaluationContext) (set : ConstraintSet) : Prop where
  canonical : verifyCanonicalConstraintSet set context.limits = .ok ()
  active : set.state = .active
  requestedGeneration : context.requestedSetGeneration.isValid = true →
    context.requestedSetGeneration = set.generation

/-- The gates that do not depend on the constraints of a set. -/
structure Eligible (context : EvaluationContext) (ranking : RankingPolicy)
    (candidate : CandidatePath) : Prop where
  candidateValid : validateCandidate candidate context.limits = .ok ()
  caller : context.authorityVerified = true ∨ context.provenance.Complete
  authorityBound : candidate.authorityGeneration.isValid = true ∧
    context.current.pathAuthority.isValid = true
  authorityFresh : candidate.authorityGeneration = context.current.pathAuthority
  legal : candidate.authorityVerdict = .legal
  plannerCurrent : ranking.consumePlannerCost = true →
    FamilyCurrent context.current candidate.evidence .planner
  age : 0 < context.current.maxEvidenceAgeTicks.toNat →
    0 < candidate.evidence.capturedTick.toNat →
      context.nowTick.toNat ≤ candidate.evidence.capturedTick.toNat +
        context.current.maxEvidenceAgeTicks.toNat
  costModel : ranking.consumePlannerCost = true → candidate.hasPlannerCost = true →
    candidate.costModel = ranking.expectedCostModel

/-- The candidates that an evaluation admits. -/
def admitted (context : EvaluationContext) : Set CandidatePath :=
  {candidate | ∃ record, evaluateCandidate context candidate = .ok record ∧
    record.isAdmissible = true}

section Sets

variable {context : EvaluationContext} {set : ConstraintSet} {candidate : CandidatePath}

/-- A set consults the Path Authority, the families of its constraints, and the planner when
its ranking consumes the cost. -/
theorem consults_consultedMask_iff {family : EvidenceFamily} :
    consults (consultedMask set) family = true ↔
      consults (familyBit .pathAuthority) family = true ∨
        (∃ constraint ∈ set.constraints, consults (familiesOf constraint) family = true) ∨
        (set.ranking.consumePlannerCost = true ∧
          consults (familyBit .planner) family = true) := by
  unfold consultedMask
  dsimp only
  split
  · next hconsumes =>
      rw [consults_or, Bool.or_eq_true, consults_foldl, or_assoc]
      simp [hconsumes]
  · next hconsumes =>
      rw [consults_foldl]
      simp [hconsumes]

/-- The families of a set are current exactly when those of each constraint are, and the
planner where the ranking consumes its cost. -/
theorem families_current_iff :
    (∀ family ∈ currentnessFamilies, consults (consultedMask set) family = true →
        FamilyCurrent context.current candidate.evidence family) ↔
      (∀ constraint ∈ set.constraints, constraint.CurrentFor context candidate) ∧
        (set.ranking.consumePlannerCost = true →
          FamilyCurrent context.current candidate.evidence .planner) := by
  have hauthority : ∀ family ∈ currentnessFamilies,
      consults (familyBit .pathAuthority) family = false := by decide
  have hplanner : ∀ family ∈ currentnessFamilies,
      consults (familyBit .planner) family = true → family = .planner := by decide
  constructor
  · intro h
    refine ⟨?_, ?_⟩
    · intro constraint hmem family hfamily hconsults
      exact h family hfamily (consults_consultedMask hmem hconsults)
    · intro hconsumes
      exact h .planner (by decide)
        (consults_consultedMask_iff.mpr (.inr (.inr ⟨hconsumes, by decide⟩)))
  · intro h family hfamily hconsults
    rcases consults_consultedMask_iff.mp hconsults with hbit | ⟨constraint, hmem, hbit⟩ | hbit
    · rw [hauthority family hfamily] at hbit
      cases hbit
    · exact h.1 constraint hmem family hfamily hbit
    · rw [hplanner family hfamily hbit.2]
      exact h.2 hbit.1

theorem mandatoryReasons_over_eq_nil_iff :
    mandatoryReasons (context.over set) candidate = [] ↔
      ∀ constraint ∈ set.constraints, constraint.scope = .mandatory →
        evaluateMandatory constraint 0 candidate context.current = [] := by
  unfold mandatoryReasons
  rw [List.flatMap_eq_nil_iff]
  constructor
  · intro h constraint hmem hscope
    obtain ⟨ordinal, hordinal⟩ := mem_scopedConstraints_iff.mpr ⟨hmem, hscope⟩
    exact (evaluateMandatory_ordinal 0 ordinal).mpr (h _ hordinal)
  · intro h placed hplaced
    obtain ⟨hmem, hscope⟩ := mem_scopedConstraints_iff.mp ⟨placed.2, hplaced⟩
    exact (evaluateMandatory_ordinal placed.2 0).mpr (h placed.1 hmem hscope)

/-- The gates of a set that is in order are those that do not depend on its constraints, and
the currentness of what its constraints consult. -/
theorem gateConditions_over_iff (horder : InOrder context set) :
    GateConditions (context.over set) candidate ↔
      Eligible context set.ranking candidate ∧
        ∀ constraint ∈ set.constraints, constraint.CurrentFor context candidate := by
  constructor
  · intro h
    obtain ⟨hcurrent, hplanner⟩ := families_current_iff.mp h.familiesCurrent
    exact ⟨⟨h.candidateValid, h.caller, h.authorityBound, h.authorityFresh, h.legal, hplanner,
      h.age, h.costModel⟩, hcurrent⟩
  · intro h
    obtain ⟨heligible, hcurrent⟩ := h
    obtain ⟨hcontent, -⟩ := verifyCanonicalConstraintSet_eq_ok_iff.mp horder.canonical
    have hconsistent : contradictionsOf set = [] := by
      have hdetected := hcontent.consistent
      unfold detectContradictions at hdetected
      simp only [seq_eq_ok, failIf_eq_ok, Bool.not_eq_false', List.isEmpty_iff] at hdetected
      exact hdetected.2
    exact ⟨listWithin_eq_true.mp hcontent.size, horder.canonical, hconsistent, horder.active,
      horder.requestedGeneration, heligible.candidateValid, heligible.caller,
      heligible.authorityBound, heligible.authorityFresh, heligible.legal,
      families_current_iff.mpr ⟨hcurrent, heligible.plannerCurrent⟩, heligible.age,
      heligible.costModel⟩

end Sets

/-- What an evaluation admits is what the region of its set holds among the candidates that are
eligible whatever the constraints say. -/
theorem mem_admitted_iff {context : EvaluationContext} {set : ConstraintSet}
    {candidate : CandidatePath} (hlimits : validateLimits context.limits = .ok ())
    (horder : InOrder context set) :
    candidate ∈ admitted (context.over set) ↔
      Eligible context set.ranking candidate ∧ candidate ∈ set.region context := by
  have hevaluate : evaluateCandidate (context.over set) candidate =
      .ok (evaluationRecord (context.over set) candidate) := by
    unfold evaluateCandidate
    rw [show (context.over set).limits = context.limits from rfl, hlimits]
    rfl
  have hadmits : candidate ∈ admitted (context.over set) ↔
      Admits (context.over set) candidate := by
    rw [← @isAdmissible_iff_admits (context.over set) candidate hlimits]
    unfold admitted
    rw [Set.mem_ofPred_eq, hevaluate]
    simp
  rw [hadmits]
  unfold Admits ConstraintSet.region upperPolar
  rw [gateConditions_over_iff horder, mandatoryReasons_over_eq_nil_iff, and_assoc]
  refine and_congr_right fun _ => ?_
  constructor
  · intro h constraint hmem
    exact ⟨h.1 constraint hmem, h.2 constraint hmem⟩
  · intro h
    exact ⟨fun constraint hmem => (h hmem).1, fun constraint hmem => (h hmem).2⟩

/-- The set has the constraints of both, under the ranking of both. -/
structure Combines (first second joined : ConstraintSet) : Prop where
  constraints : ∀ constraint, constraint ∈ joined.constraints ↔
    constraint ∈ first.constraints ∨ constraint ∈ second.constraints
  first : first.ranking = joined.ranking
  second : second.ranking = joined.ranking

section Joined

variable {context : EvaluationContext} {first second joined set : ConstraintSet}
  {candidates : List CandidatePath} {batch : EvaluationBatch} {path : PathId}

theorem Combines.region (h : Combines first second joined) :
    joined.region context = first.region context ∩ second.region context := by
  have hunion : {constraint | constraint ∈ joined.constraints} =
      {constraint | constraint ∈ first.constraints} ∪
        {constraint | constraint ∈ second.constraints} :=
    Set.ext h.constraints
  unfold ConstraintSet.region
  rw [hunion, upperPolar_union]

theorem Combines.admitted (h : Combines first second joined)
    (hlimits : validateLimits context.limits = .ok ()) (hfirst : InOrder context first)
    (hsecond : InOrder context second) (hjoined : InOrder context joined) :
    Fabric.admitted (context.over joined) =
      Fabric.admitted (context.over first) ∩ Fabric.admitted (context.over second) := by
  ext candidate
  rw [Set.mem_inter_iff, mem_admitted_iff hlimits hfirst, mem_admitted_iff hlimits hsecond,
    mem_admitted_iff hlimits hjoined, h.region, h.first, h.second, Set.mem_inter_iff]
  exact and_and_left

/-- A batch ranks the paths of the candidates that are admitted. -/
theorem mem_admissibleOrder_iff (hlimits : validateLimits context.limits = .ok ())
    (haccepted : batchRejection context.limits candidates = none)
    (hbatch : evaluateBatch (context.over set) candidates = .ok batch) :
    path ∈ batch.admissibleOrder.map (·.path) ↔
      ∃ candidate ∈ canonicalCandidates candidates, candidate.path = path ∧
        candidate ∈ Fabric.admitted (context.over set) := by
  have hevaluate : ∀ candidate, evaluateCandidate (context.over set) candidate =
      .ok (evaluationRecord (context.over set) candidate) := by
    intro candidate
    unfold evaluateCandidate
    rw [show (context.over set).limits = context.limits from rfl, hlimits]
    rfl
  rw [@evaluateBatch_of_accepted (context.over set) _ hlimits haccepted] at hbatch
  obtain rfl := Except.ok.inj hbatch
  have hrange : (canonicalCandidates candidates).length < UInt32.size := by
    have hcanonical := length_canonicalCandidates_le candidates
    have hwithin := length_le_of_accepted haccepted
    have hlimit := context.limits.maxCandidatesPerEvaluation.toNat_lt
    show _ < 2 ^ 32
    omega
  rw [map_path_admissibleOrder hrange]
  simp only [List.mem_map, mem_sortBy, List.mem_filter, Fabric.admitted, Set.mem_ofPred_eq,
    hevaluate]
  constructor
  · intro h
    obtain ⟨contender, ⟨⟨candidate, hmem, hcontender⟩, hadmissible⟩, hpath⟩ := h
    subst hcontender
    exact ⟨candidate, hmem, hpath, _, rfl, hadmissible⟩
  · intro h
    obtain ⟨candidate, hmem, hpath, record, hrecord, hadmissible⟩ := h
    obtain rfl := Except.ok.inj hrecord
    exact ⟨_, ⟨⟨candidate, hmem, rfl⟩, hadmissible⟩, hpath⟩

end Joined

def sampleVisit : Constraint :=
  { id := ⟨1⟩, generation := ⟨1⟩, kind := .requiredNode, nodes := [⟨40⟩] }

def sampleAvoid : Constraint :=
  { id := ⟨2⟩, generation := ⟨1⟩, kind := .forbiddenLink, links := [⟨60⟩] }

def sampleNear : Constraint :=
  { id := ⟨3⟩, generation := ⟨1⟩, kind := .requiredNode, nodes := [⟨41⟩], scope := .preference,
    preferenceWeight := 1 }

/-- The constraints as an active set under its digest. -/
def sampleStanding (constraints : List Constraint) : ConstraintSet :=
  let set : ConstraintSet := { id := ⟨5⟩, generation := ⟨1⟩, constraints }
  { set with state := .active, digest := constraintSetDigest set }

def sampleSurvey : EvaluationContext where
  set := {}
  current := sampleEvidence
  authorityVerified := true

theorem sampleStanding_inOrder (constraints : List Constraint)
    (hsize : listWithin constraints ({} : Limits).maxConstraintsPerSet = true)
    (hvalid : verifyConstraints {} none constraints = .ok ())
    (hconsistent : detectContradictions { constraints } {} = .ok ()) :
    InOrder sampleSurvey (sampleStanding constraints) := by
  refine ⟨?_, rfl, ?_⟩
  · simp only [verifyCanonicalConstraintSet, seq_eq_ok, failIf_eq_ok,
      Bool.not_eq_false', bne_eq_false_iff_eq]
    exact ⟨rfl, hsize, hvalid, rfl, hconsistent⟩
  · intro hrequested
    cases hrequested

end ConstraintRouting.Fabric
