import ConstraintRouting.Fabric.ConstraintSet

/-!
# Pure deterministic evaluator

Evaluates one candidate against one constraint set through nine stages, and a
bounded population into a batch.  Every stage is the list of reasons that it
pushes, in the order in which the source pushes them.
-/

namespace ConstraintRouting.Fabric

open Verified.SortedLists

/-- Maximum reasons kept for one constraint ordinal. -/
def kMaxReasonsPerConstraint : Nat := 8

/-- Everything the evaluator is allowed to look at. -/
structure EvaluationContext where
  set : ConstraintSet
  current : EvidenceRequirements := {}
  requestedSetGeneration : ConstraintSetGeneration := {}
  limits : Limits := {}
  nowTick : UInt64 := 0
  provenance : Provenance := {}
  generation : EvaluationGeneration := {}
  authorityVerified : Bool := false

/-! ## Reasons -/

/-- The reasons pushed so far, and whether the per-constraint bound dropped one. -/
structure ReasonState where
  reasons : List Reason := []
  truncated : Bool := false

/-- Keeps a reason unless its ordinal already has the maximum. -/
def pushReason (state : ReasonState) (reason : Reason) : ReasonState :=
  let emitted := state.reasons.countP (·.constraintOrdinal == reason.constraintOrdinal)
  if kMaxReasonsPerConstraint ≤ emitted then { state with truncated := true }
  else
    { state with
      reasons := state.reasons ++
        [{ reason with reasonClass := reasonClassOf reason.code }] }

def makeReason (constraint : Constraint) (ordinal : UInt32) (code : ReasonCode)
    (family : EvidenceFamily) (subjectKind : SubjectKind := .none) (subject : UInt64 := 0)
    (expected : UInt64 := 0) (actual : UInt64 := 0) : Reason :=
  { code, reasonClass := reasonClassOf code, constraint := constraint.id,
    constraintKind := constraint.kind, constraintOrdinal := ordinal, family,
    subjectKind, subject, expected, actual }

/-- The families a constraint consults; latency consults that of its source. -/
def familiesOf (constraint : Constraint) : EvidenceFamilyMask :=
  if constraint.kind = .maxLatency then
    if constraint.latencySource = .plannerCost then familyBit .planner
    else familyBit .linkState
  else evidenceFamilies constraint.kind

/-! ## Evidence lookups -/

/-! Each lookup is a `std::lower_bound` by a key, accepted when its key is the
wanted one. -/

def findLocality (values : List LocalityRef) (kind : DomainKind) : Option LocalityRef :=
  findByKey (·.kind.code) values kind.code

def findDomain (values : List FailureDomainRef) (kind : DomainKind) :
    Option FailureDomainRef :=
  findByKey (·.kind.code) values kind.code

def findCapability (values : List CapabilityRef) (capability : CapabilityId) :
    Option CapabilityRef :=
  findByKey (·.capability) values capability

def findIsolation (values : List IsolationAttestation)
    (isolationClass : IsolationClassId) : Option IsolationAttestation :=
  findByKey (·.isolationClass) values isolationClass

def findPolicy (values : List PolicyAttestation) (policy : PolicyId) :
    Option PolicyAttestation :=
  findByKey (·.policy) values policy

/-- A node or a link with its evidence lists. -/
structure EntityView where
  identity : UInt64
  kind : SubjectKind
  domains : List FailureDomainRef
  capabilities : List CapabilityRef
  isolation : List IsolationAttestation

def NodeFact.view (node : NodeFact) : EntityView :=
  ⟨node.node.value, .node, node.domains, node.capabilities, node.isolation⟩

def LinkFact.view (link : LinkFact) : EntityView :=
  ⟨link.link.value, .link, link.domains, link.capabilities, link.isolation⟩

/-- The entities of a path: its nodes and then its links. -/
def entitiesOf (candidate : CandidatePath) : List EntityView :=
  candidate.nodes.map NodeFact.view ++ candidate.links.map LinkFact.view

/-! ## Mandatory checks

Each check lists the reasons it pushes for one constraint. -/

def checkMaxLatency (constraint : Constraint) (ordinal : UInt32)
    (candidate : CandidatePath) : List Reason :=
  let wantedFamily : EvidenceFamily :=
    if constraint.latencySource = .plannerCost then .planner else .linkState
  let latency := candidate.latency
  if latency.source = .unset then
    [makeReason constraint ordinal .latencyEvidenceUnavailable wantedFamily
      .candidatePath candidate.path.value constraint.latencySource.code.toUInt64]
  else if latency.source ≠ constraint.latencySource then
    [makeReason constraint ordinal .latencyEvidenceUnavailable wantedFamily
      .candidatePath candidate.path.value constraint.latencySource.code.toUInt64 latency.source.code.toUInt64]
  else if constraint.bound < latency.micros then
    [makeReason constraint ordinal .maxLatencyExceeded wantedFamily
      .candidatePath candidate.path.value constraint.bound.toUInt64 latency.micros.toUInt64]
  else []

def checkMinBandwidth (constraint : Constraint) (ordinal : UInt32)
    (candidate : CandidatePath) (current : EvidenceRequirements) : List Reason :=
  match pathBandwidthCapability candidate current.capability with
  | none =>
      [makeReason constraint ordinal .bandwidthCapabilityUnavailable .capability
        .candidatePath candidate.path.value constraint.bound.toUInt64]
  | some bottleneck =>
      if bottleneck < constraint.bound then
        [makeReason constraint ordinal .minBandwidthCapabilityNotMet .capability
          .candidatePath candidate.path.value constraint.bound.toUInt64 bottleneck.toUInt64]
      else []

/-- The candidate's hop count as a signed value. -/
def CandidatePath.hops (candidate : CandidatePath) : Int64 :=
  Int64.ofNat candidate.hopCount.toNat

def checkMaxHopCount (constraint : Constraint) (ordinal : UInt32)
    (candidate : CandidatePath) : List Reason :=
  if constraint.bound < candidate.hops then
    [makeReason constraint ordinal .maxHopCountExceeded .planner .candidatePath
      candidate.path.value constraint.bound.toUInt64 candidate.hops.toUInt64]
  else []

/-- One reason for each wanted entity that the path does not visit. -/
def checkRequiredEntity {domain : IdentityDomain} (constraint : Constraint)
    (ordinal : UInt32) (code : ReasonCode) (subjectKind : SubjectKind)
    (wanted present : List (StrongId domain)) : List Reason :=
  (wanted.filter (· ∉ present)).map fun id =>
    makeReason constraint ordinal code .topology subjectKind id.value

/-- One reason for each visit of a forbidden entity. -/
def checkForbiddenEntity {domain : IdentityDomain} (constraint : Constraint)
    (ordinal : UInt32) (code : ReasonCode) (subjectKind : SubjectKind)
    (forbidden present : List (StrongId domain)) : List Reason :=
  forbidden.flatMap fun id =>
    (present.filter (· == id)).map fun _ =>
      makeReason constraint ordinal code .topology subjectKind id.value

def checkRequiredNode (constraint : Constraint) (ordinal : UInt32)
    (candidate : CandidatePath) : List Reason :=
  checkRequiredEntity constraint ordinal .requiredNodeAbsent .node constraint.nodes
    (candidate.nodes.map (·.node))

def checkForbiddenNode (constraint : Constraint) (ordinal : UInt32)
    (candidate : CandidatePath) : List Reason :=
  checkForbiddenEntity constraint ordinal .forbiddenNodePresent .node constraint.nodes
    (candidate.nodes.map (·.node))

def checkRequiredLink (constraint : Constraint) (ordinal : UInt32)
    (candidate : CandidatePath) : List Reason :=
  checkRequiredEntity constraint ordinal .requiredLinkAbsent .link constraint.links
    (candidate.links.map (·.link))

def checkForbiddenLink (constraint : Constraint) (ordinal : UInt32)
    (candidate : CandidatePath) : List Reason :=
  checkForbiddenEntity constraint ordinal .forbiddenLinkPresent .link constraint.links
    (candidate.links.map (·.link))

/-- Every node must carry the attribute, with a value of the list. -/
def checkRequiredMembership {domain : IdentityDomain} (constraint : Constraint)
    (ordinal : UInt32) (unavailable notMet : ReasonCode)
    (fact : NodeFact → StrongId domain) (allowed : List (StrongId domain))
    (candidate : CandidatePath) : List Reason :=
  candidate.nodes.flatMap fun node =>
    if !(fact node).isValid then
      [makeReason constraint ordinal unavailable .topology .node node.node.value]
    else if fact node ∉ allowed then
      [makeReason constraint ordinal notMet .topology .node node.node.value 0
        (fact node).value]
    else []

/-- No node may carry an attribute of the list; an unset one fails closed. -/
def checkForbiddenMembership {domain : IdentityDomain} (constraint : Constraint)
    (ordinal : UInt32) (unavailable present : ReasonCode)
    (fact : NodeFact → StrongId domain) (forbidden : List (StrongId domain))
    (candidate : CandidatePath) : List Reason :=
  candidate.nodes.flatMap fun node =>
    if !(fact node).isValid then
      if constraint.unknownPolicy = .failClosed then
        [makeReason constraint ordinal unavailable .topology .node node.node.value]
      else []
    else if fact node ∈ forbidden then
      [makeReason constraint ordinal present .topology .node node.node.value 0
        (fact node).value]
    else []

def checkRequiredTier (constraint : Constraint) (ordinal : UInt32)
    (candidate : CandidatePath) : List Reason :=
  checkRequiredMembership constraint ordinal .tierEvidenceUnavailable .requiredTierNotMet
    (·.tier) constraint.tiers candidate

def checkForbiddenTier (constraint : Constraint) (ordinal : UInt32)
    (candidate : CandidatePath) : List Reason :=
  checkForbiddenMembership constraint ordinal .tierEvidenceUnavailable
    .forbiddenTierPresent (·.tier) constraint.tiers candidate

def checkRequiredSite (constraint : Constraint) (ordinal : UInt32)
    (candidate : CandidatePath) : List Reason :=
  checkRequiredMembership constraint ordinal .siteEvidenceUnavailable .requiredSiteNotMet
    (·.site) constraint.sites candidate

def checkForbiddenSite (constraint : Constraint) (ordinal : UInt32)
    (candidate : CandidatePath) : List Reason :=
  checkForbiddenMembership constraint ordinal .siteEvidenceUnavailable
    .forbiddenSitePresent (·.site) constraint.sites candidate

def checkLocalityScope (constraint : Constraint) (ordinal : UInt32)
    (candidate : CandidatePath) : List Reason :=
  candidate.nodes.flatMap fun node =>
    match findLocality node.localities constraint.domainKind with
    | none =>
        [makeReason constraint ordinal .localityEvidenceUnavailable .topology .node
          node.node.value constraint.localityDomain.value]
    | some membership =>
        if membership.domain ≠ constraint.localityDomain then
          [makeReason constraint ordinal .localityScopeViolated .topology .node
            node.node.value constraint.localityDomain.value membership.domain.value]
        else []

def checkIsolationClass (constraint : Constraint) (ordinal : UInt32)
    (candidate : CandidatePath) (current : EvidenceRequirements) : List Reason :=
  (entitiesOf candidate).flatMap fun entity =>
    match findIsolation entity.isolation constraint.isolationClass with
    | none =>
        match entity.isolation with
        | [] =>
            [makeReason constraint ordinal .isolationEvidenceUnavailable .failureDomain
              entity.kind entity.identity constraint.isolationClass.value]
        | front :: _ =>
            [makeReason constraint ordinal .isolationClassNotProven .failureDomain
              entity.kind entity.identity constraint.isolationClass.value front.isolationClass.value]
    | some proof =>
        if proof.generation ≠ current.failureDomain then
          [makeReason constraint ordinal .isolationEvidenceUnavailable .failureDomain
            entity.kind entity.identity current.failureDomain.value proof.generation.value]
        else []

def checkRequiredCapability (constraint : Constraint) (ordinal : UInt32)
    (candidate : CandidatePath) (current : EvidenceRequirements) : List Reason :=
  constraint.capabilities.flatMap fun wanted =>
    (entitiesOf candidate).flatMap fun entity =>
      match findCapability entity.capabilities wanted with
      | none =>
          [makeReason constraint ordinal .capabilityEvidenceUnavailable .capability
            entity.kind entity.identity wanted.value]
      | some ref =>
          if ref.generation ≠ current.capability then
            [makeReason constraint ordinal .capabilityEvidenceUnavailable .capability
              entity.kind entity.identity current.capability.value ref.generation.value]
          else []

def checkForbiddenCapability (constraint : Constraint) (ordinal : UInt32)
    (candidate : CandidatePath) (current : EvidenceRequirements) : List Reason :=
  constraint.capabilities.flatMap fun forbidden =>
    (entitiesOf candidate).flatMap fun entity =>
      match findCapability entity.capabilities forbidden with
      | none =>
          if constraint.unknownPolicy = .failClosed then
            [makeReason constraint ordinal .capabilityEvidenceUnavailable .capability
              entity.kind entity.identity forbidden.value]
          else []
      | some ref =>
          if ref.generation ≠ current.capability then
            [makeReason constraint ordinal .capabilityEvidenceUnavailable .capability
              entity.kind entity.identity current.capability.value ref.generation.value]
          else
            [makeReason constraint ordinal .forbiddenCapabilityPresent .capability
              entity.kind entity.identity forbidden.value]

/-- The failure domains of one kind over a path: the entities without one, in
path order, and the distinct domains of the others. -/
structure DomainScan where
  incomplete : List EntityView
  domains : List UInt64

def scanDomains (candidate : CandidatePath) (kind : DomainKind) : DomainScan :=
  let entities := entitiesOf candidate
  { incomplete := entities.filter fun entity => (findDomain entity.domains kind).isNone
    domains := (entities.filterMap fun entity =>
      (findDomain entity.domains kind).map (·.domain.value)).dedup }

/-- Every entity carries a domain of the kind. -/
def DomainScan.complete (scan : DomainScan) : Bool := scan.incomplete.isEmpty

/-- The number of distinct domains as a signed value. -/
def DomainScan.distinct (scan : DomainScan) : Int64 := Int64.ofNat scan.domains.length

/-- The reason for the first entity without a domain of the kind. -/
def incompleteReasons (constraint : Constraint) (ordinal : UInt32) (scan : DomainScan) :
    List Reason :=
  (scan.incomplete.take 1).map fun entity =>
    makeReason constraint ordinal .failureDomainEvidenceUnavailable .failureDomain
      entity.kind entity.identity

def checkRequiredDomainRelation (constraint : Constraint) (ordinal : UInt32)
    (candidate : CandidatePath) : List Reason :=
  let scan := scanDomains candidate constraint.domainKind
  if !scan.complete then incompleteReasons constraint ordinal scan
  else if scan.distinct < constraint.bound then
    [makeReason constraint ordinal .requiredFailureDomainRelationNotMet .failureDomain
      .failureDomain constraint.domainKind.code.toUInt64 constraint.bound.toUInt64
      scan.distinct.toUInt64]
  else []

def checkForbiddenDomainRelation (constraint : Constraint) (ordinal : UInt32)
    (candidate : CandidatePath) : List Reason :=
  let scan := scanDomains candidate constraint.domainKind
  if !scan.complete && constraint.unknownPolicy = .failClosed then
    incompleteReasons constraint ordinal scan
  else if constraint.domainRelation = .shared then
    match scan.domains with
    | [shared] =>
        if scan.complete then
          [makeReason constraint ordinal .forbiddenFailureDomainRelationMet .failureDomain
            .failureDomain constraint.domainKind.code.toUInt64 0 shared]
        else []
    | _ => []
  else if constraint.bound ≤ scan.distinct then
    [makeReason constraint ordinal .forbiddenFailureDomainRelationMet .failureDomain
      .failureDomain constraint.domainKind.code.toUInt64 constraint.bound.toUInt64
      scan.distinct.toUInt64]
  else []

def checkAdministrativePolicy (constraint : Constraint) (ordinal : UInt32)
    (candidate : CandidatePath) (current : EvidenceRequirements) : List Reason :=
  constraint.policies.flatMap fun wanted =>
    match findPolicy candidate.policies wanted with
    | none =>
        [makeReason constraint ordinal .administrativePolicyNotSatisfied .policy .policy
          wanted.value]
    | some attestation =>
        if attestation.generation ≠ current.policy then
          [makeReason constraint ordinal .policyEvidenceUnavailable .policy .policy
            wanted.value current.policy.value attestation.generation.value]
        else []

/-- The reasons of one constraint, whatever its scope. -/
def evaluateMandatory (constraint : Constraint) (ordinal : UInt32)
    (candidate : CandidatePath) (current : EvidenceRequirements) : List Reason :=
  match constraint.kind with
  | .maxLatency => checkMaxLatency constraint ordinal candidate
  | .minBandwidthCapability => checkMinBandwidth constraint ordinal candidate current
  | .maxHopCount => checkMaxHopCount constraint ordinal candidate
  | .requiredNode => checkRequiredNode constraint ordinal candidate
  | .forbiddenNode => checkForbiddenNode constraint ordinal candidate
  | .requiredLink => checkRequiredLink constraint ordinal candidate
  | .forbiddenLink => checkForbiddenLink constraint ordinal candidate
  | .requiredTier => checkRequiredTier constraint ordinal candidate
  | .forbiddenTier => checkForbiddenTier constraint ordinal candidate
  | .requiredSite => checkRequiredSite constraint ordinal candidate
  | .forbiddenSite => checkForbiddenSite constraint ordinal candidate
  | .localityScope => checkLocalityScope constraint ordinal candidate
  | .isolationClass => checkIsolationClass constraint ordinal candidate current
  | .requiredCapability => checkRequiredCapability constraint ordinal candidate current
  | .forbiddenCapability => checkForbiddenCapability constraint ordinal candidate current
  | .requiredFailureDomainRelation =>
      checkRequiredDomainRelation constraint ordinal candidate
  | .forbiddenFailureDomainRelation =>
      checkForbiddenDomainRelation constraint ordinal candidate
  | .administrativePolicy => checkAdministrativePolicy constraint ordinal candidate current
  | .unset => []

/-! ## Preferences -/

/-- Satisfaction and margin of one preference. -/
def preferenceVerdict (constraint : Constraint) (ordinal : UInt32)
    (candidate : CandidatePath) (current : EvidenceRequirements) : Bool × Int64 :=
  match constraint.kind with
  | .maxLatency =>
      if candidate.latency.source ≠ constraint.latencySource then (false, 0)
      else (candidate.latency.micros ≤ constraint.bound,
        constraint.bound - candidate.latency.micros)
  | .minBandwidthCapability =>
      match pathBandwidthCapability candidate current.capability with
      | none => (false, 0)
      | some bottleneck => (constraint.bound ≤ bottleneck, bottleneck - constraint.bound)
  | .maxHopCount =>
      (candidate.hops ≤ constraint.bound, constraint.bound - candidate.hops)
  | .requiredFailureDomainRelation =>
      let scan := scanDomains candidate constraint.domainKind
      if !scan.complete then (false, 0)
      else (constraint.bound ≤ scan.distinct, scan.distinct - constraint.bound)
  | _ =>
      let satisfied := (evaluateMandatory constraint ordinal candidate current).isEmpty
      (satisfied, if satisfied then 1 else 0)

def evaluatePreference (constraint : Constraint) (ordinal : UInt32)
    (candidate : CandidatePath) (current : EvidenceRequirements) : PreferenceSlot :=
  let verdict := preferenceVerdict constraint ordinal candidate current
  { constraint := constraint.id, kind := constraint.kind, constraintOrdinal := ordinal,
    rank := constraint.preferenceRank, weight := constraint.preferenceWeight,
    satisfied := verdict.1, margin := verdict.2 }

/-! ## Gates before the constraints -/

/-- The generation that a candidate was assembled from, for one family. -/
def evidenceGenerationOf (evidence : EvidenceGenerationSet) : EvidenceFamily → UInt64
  | .topology => evidence.topology.value
  | .linkState => evidence.linkState.value
  | .capability => evidence.capability.value
  | .failureDomain => evidence.failureDomain.value
  | .policy => evidence.policy.value
  | .planner => evidence.planner.value
  | .pathAuthority => evidence.pathAuthority.value
  | .constraintSet | .none => 0

/-- The generation that is required, for one family. -/
def requiredGenerationOf (required : EvidenceRequirements) : EvidenceFamily → UInt64
  | .topology => required.topology.value
  | .linkState => required.linkState.value
  | .capability => required.capability.value
  | .failureDomain => required.failureDomain.value
  | .policy => required.policy.value
  | .planner => required.planner.value
  | .pathAuthority => required.pathAuthority.value
  | .constraintSet | .none => 0

def stalenessCode : EvidenceFamily → ReasonCode
  | .topology => .staleTopologyEvidence
  | .linkState => .staleLinkStateEvidence
  | .capability => .staleCapabilityEvidence
  | .failureDomain => .staleFailureDomainEvidence
  | .policy => .stalePolicyEvidence
  | .planner => .stalePlannerEvidence
  | .pathAuthority => .stalePathAuthority
  | .constraintSet | .none => .evidenceNotBound

def setStateReason (set : ConstraintSet) (code : ReasonCode) : Reason :=
  { code, reasonClass := reasonClassOf code, family := .constraintSet,
    subjectKind := .constraintSet, subject := set.id.value,
    expected := set.generation.value }

def lifecycleReason : ConstraintSetState → ReasonCode
  | .declared => .constraintSetNotActive
  | .active => .none
  | .suspended => .constraintSetSuspended
  | .revalidationRequired => .constraintSetRevalidationRequired
  | .revoked => .constraintSetRevoked
  | .superseded => .constraintSetSuperseded
  | .retired => .constraintSetRetired

/-- A reason about the candidate path. -/
def pathReason (candidate : CandidatePath) (code : ReasonCode)
    (family : EvidenceFamily := .none) (expected actual : UInt64 := 0) : Reason :=
  { code, reasonClass := reasonClassOf code, family, subjectKind := .candidatePath,
    subject := candidate.path.value, expected, actual }

/-- Stage 1: resource admission. -/
def resourceAdmissionReasons (context : EvaluationContext) : List Reason :=
  if !listWithin context.set.constraints context.limits.maxConstraintsPerSet then
    [{ code := .tooManyConstraints, reasonClass := .resourceAdmission,
       subjectKind := .constraintSet, subject := context.set.id.value,
       expected := context.limits.maxConstraintsPerSet.toUInt64,
       actual := UInt64.ofNat context.set.constraints.length }]
  else []

/-- Stage 2: structural validation of the set and of the candidate. -/
def wireDecodeReasons (context : EvaluationContext) (candidate : CandidatePath) :
    List Reason :=
  let setReasons : List Reason :=
    match verifyCanonicalConstraintSet context.set context.limits with
    | .ok () => []
    | .error _ =>
        [{ code := .malformedConstraint, reasonClass := .wireDecode,
           subjectKind := .constraintSet, subject := context.set.id.value }]
  let candidateReasons : List Reason :=
    match validateCandidate candidate context.limits with
    | .ok () => []
    | .error error =>
        [pathReason candidate
          (if error.code = .resourceLimit then .tooManyEntityRefs else .malformedCandidate)]
  setReasons ++ candidateReasons

/-- Stages 3 and 4: a caller that was not verified must be completely named. -/
def authorityContextReasons (context : EvaluationContext) : List Reason :=
  let complete := context.provenance.epoch.isValid &&
    context.provenance.publisher.isValid && context.provenance.workerBoot.isValid &&
    context.provenance.attempt.isValid
  if !context.authorityVerified && !complete then
    [{ code := .missingAuthorityContext, reasonClass := .callerIdentity,
       subjectKind := .coordinator }]
  else []

/-- Stage 5: lifecycle and generation of the set. -/
def lifecycleReasons (context : EvaluationContext) : List Reason :=
  let set := context.set
  if lifecycleReason set.state ≠ .none then
    [setStateReason set (lifecycleReason set.state)]
  else if context.requestedSetGeneration.isValid &&
      context.requestedSetGeneration != set.generation then
    [{ setStateReason set .staleConstraintSetGeneration with
       expected := context.requestedSetGeneration.value
       actual := set.generation.value }]
  else []

/-- Stage 6: Path Authority generation and verdict. -/
def pathAuthorityReasons (context : EvaluationContext) (candidate : CandidatePath) :
    List Reason :=
  let required := context.current.pathAuthority
  if !candidate.authorityGeneration.isValid then
    [pathReason candidate .pathAuthorityGenerationMissing .pathAuthority]
  else if !required.isValid then
    [pathReason candidate .evidenceNotBound .pathAuthority]
  else if candidate.authorityGeneration != required then
    [pathReason candidate .stalePathAuthority .pathAuthority required.value
      candidate.authorityGeneration.value]
  else
    match candidate.authorityVerdict with
    | .notEvaluated => [pathReason candidate .pathAuthorityNotEvaluated .pathAuthority]
    | .rejected => [pathReason candidate .pathNotLegal .pathAuthority]
    | .legal => []

/-- The families consulted by a set: the Path Authority always, those of every
constraint, and the planner when the ranking consumes its cost. -/
def consultedMask (set : ConstraintSet) : EvidenceFamilyMask :=
  let mask := set.constraints.foldl (fun mask constraint => mask ||| familiesOf constraint)
    (familyBit .pathAuthority)
  if set.ranking.consumePlannerCost then mask ||| familyBit .planner else mask

/-- The mask has the family's bit. -/
def consults (mask : EvidenceFamilyMask) (family : EvidenceFamily) : Bool :=
  mask &&& familyBit family != 0

/-- The families whose currentness stage 7 checks. -/
def currentnessFamilies : List EvidenceFamily :=
  [.topology, .linkState, .capability, .failureDomain, .policy, .planner]

/-- One consulted family must be bound and equal to what is required. -/
def familyReasons (context : EvaluationContext) (candidate : CandidatePath)
    (family : EvidenceFamily) : List Reason :=
  let required := requiredGenerationOf context.current family
  let actual := evidenceGenerationOf candidate.evidence family
  if !consults (consultedMask context.set) family then []
  else if required = 0 then [pathReason candidate .evidenceNotBound family]
  else if actual ≠ required then
    [pathReason candidate (stalenessCode family) family required actual]
  else []

/-- The age bound of the evidence. -/
def ageReasons (context : EvaluationContext) (candidate : CandidatePath) : List Reason :=
  let captured := candidate.evidence.capturedTick
  let maxAge := context.current.maxEvidenceAgeTicks
  if 0 < maxAge && captured != 0 && captured < context.nowTick &&
      maxAge < context.nowTick - captured then
    [pathReason candidate .evidenceAgeExceeded .constraintSet maxAge
      (context.nowTick - captured)]
  else []

/-- The cost model that the ranking policy expects. -/
def costModelReasons (context : EvaluationContext) (candidate : CandidatePath) :
    List Reason :=
  let ranking := context.set.ranking
  if ranking.consumePlannerCost && candidate.hasPlannerCost &&
      candidate.costModel != ranking.expectedCostModel then
    [pathReason candidate .plannerCostModelMismatch .planner
      ranking.expectedCostModel.code.toUInt64 candidate.costModel.code.toUInt64]
  else []

/-- Stage 7: mandatory evidence currentness, for consulted families only. -/
def currentnessReasons (context : EvaluationContext) (candidate : CandidatePath) :
    List Reason :=
  currentnessFamilies.flatMap (familyReasons context candidate) ++
    ageReasons context candidate ++ costModelReasons context candidate

/-- A later stage runs only when no earlier stage gave a reason. -/
def gate (earlier later : List Reason) : List Reason :=
  if earlier.isEmpty then later else earlier

/-- Stages 1 to 7. -/
def admissionReasons (context : EvaluationContext) (candidate : CandidatePath) :
    List Reason :=
  gate (resourceAdmissionReasons context) <|
  gate (wireDecodeReasons context candidate) <|
  gate (authorityContextReasons context) <|
  gate (lifecycleReasons context) <|
  gate (pathAuthorityReasons context candidate) <|
  currentnessReasons context candidate

/-- The constraints of one scope with their ordinals in the set. -/
def scopedConstraints (set : ConstraintSet) (scope : ConstraintScope) :
    List (Constraint × UInt32) :=
  (set.constraints.zipIdx.filter (·.1.scope == scope)).map fun (constraint, ordinal) =>
    (constraint, UInt32.ofNat ordinal)

/-- Stage 8: mandatory constraints in canonical order. -/
def mandatoryReasons (context : EvaluationContext) (candidate : CandidatePath) :
    List Reason :=
  (scopedConstraints context.set .mandatory).flatMap fun (constraint, ordinal) =>
    evaluateMandatory constraint ordinal candidate context.current

/-- The reasons of stages 1 to 8 as the evaluator collects them. -/
def collectReasons (context : EvaluationContext) (candidate : CandidatePath) :
    ReasonState :=
  let admission := admissionReasons context candidate
  if admission.isEmpty then (mandatoryReasons context candidate).foldl pushReason {}
  else { reasons := admission }

/-- Stage 9: preferences in their documented order. -/
def collectPreferences (context : EvaluationContext) (candidate : CandidatePath) :
    List PreferenceSlot :=
  sortBy (compareLex (compareOn (·.rank)) (compareOn (·.constraintOrdinal))) <|
    (scopedConstraints context.set .preference).map fun (constraint, ordinal) =>
      evaluatePreference constraint ordinal candidate context.current

/-! ## Explanation bounds and outcome -/

/-- The reasons retained: at most the explanation limit, over at most the failed
constraint limit of distinct constraints. -/
def keepReasons (limits : Limits) : Nat → List ConstraintId → List Reason → List Reason
  | _, _, [] => []
  | kept, represented, reason :: rest =>
      if limits.maxExplanationReasons.toNat ≤ kept then []
      else if reason.constraint.isValid && reason.constraint ∉ represented then
        if limits.maxFailedConstraintsPerEvaluation.toNat ≤ represented.length then
          keepReasons limits kept represented rest
        else
          reason :: keepReasons limits (kept + 1) (reason.constraint :: represented) rest
      else reason :: keepReasons limits (kept + 1) represented rest

/-- Canonical order and the two explanation bounds. -/
def canonicalizeReasons (reasons : List Reason) (limits : Limits) : List Reason :=
  keepReasons limits 0 [] (sortBy compareReason reasons)

/-- The code of a least reason, or none. -/
def primaryReasonOf : List Reason → ReasonCode
  | [] => .none
  | first :: rest =>
      (rest.foldl (fun best reason => if reasonLess reason best then reason else best)
        first).code

/-- The outcome class of a reason list. -/
def outcomeFromReasons (reasons : List Reason) (hasPreferences : Bool) : Outcome :=
  if reasons.isEmpty then
    if hasPreferences then .admissibleWithPreferences else .admissible
  else outcomeOf (primaryReasonOf reasons)

/-- The record of one candidate once its limits are known to be valid. -/
def evaluationRecord (context : EvaluationContext) (candidate : CandidatePath) :
    EvaluationRecord :=
  let collected := collectReasons context candidate
  let preferences :=
    if collected.reasons.isEmpty then collectPreferences context candidate else []
  let reasons := canonicalizeReasons collected.reasons context.limits
  let record : EvaluationRecord :=
    { id := derivedEvaluationId context.set.id context.set.generation candidate.path
        candidate.authorityGeneration candidate.evidence
      generation := context.generation
      setId := context.set.id
      setGeneration := context.set.generation
      path := candidate.path
      authorityGeneration := candidate.authorityGeneration
      outcome := outcomeFromReasons reasons (!preferences.isEmpty)
      primaryReason := primaryReasonOf reasons
      reasons, preferences
      evidence := candidate.evidence
      consulted := consultedMask context.set
      provenance := context.provenance
      reasonsTruncated :=
        collected.truncated || reasons.length < collected.reasons.length
      committedTick := context.nowTick }
  { record with digest := evaluationDigest record }

/-- Evaluates one candidate against one constraint set. -/
def evaluateCandidate (context : EvaluationContext) (candidate : CandidatePath) :
    Result EvaluationRecord := do
  match validateLimits context.limits with
  | .ok () => pure (evaluationRecord context candidate)
  | .error why => failure .invalidArgument why

/-! ## Batches -/

/-- Two neighbours carry one path with different contents. -/
def conflictingNeighbours : List CandidatePath → Bool
  | a :: b :: rest =>
      (a.path == b.path && candidateDigest a != candidateDigest b) ||
        conflictingNeighbours (b :: rest)
  | _ => false

/-- The first candidate of each path of a sorted population. -/
def firstOfEachPath (ordered : List CandidatePath) : List CandidatePath :=
  ordered.destutter fun a b => a.path ≠ b.path

/-- The reason of the first class and code among records without an admission. -/
def primaryBatchReason : List EvaluationRecord → ReasonCode
  | [] => .none
  | first :: rest =>
      (first :: rest).foldl (fun primary record =>
        let recordClass := (reasonClassOf record.primaryReason).code
        let primaryClass := (reasonClassOf primary).code
        if record.primaryReason ≠ .none && recordClass < primaryClass then
          record.primaryReason
        else if recordClass == primaryClass && record.primaryReason.code < primary.code then
          record.primaryReason
        else primary) first.primaryReason

/-- Why a population is rejected as a whole. -/
def batchRejection (limits : Limits) (candidates : List CandidatePath) :
    Option ReasonCode :=
  if !listWithin candidates limits.maxCandidatesPerEvaluation then some .tooManyCandidates
  else if !listWithin candidates limits.maxBatchSize then some .batchTooLarge
  else if conflictingNeighbours (sortBy (compareOn (·.path)) candidates) then
    some .malformedCandidate
  else none

/-- The population that a batch evaluates: one candidate for each path, in path
order. -/
def canonicalCandidates (candidates : List CandidatePath) : List CandidatePath :=
  firstOfEachPath (sortBy (compareOn (·.path)) candidates)

/-- Evaluates a bounded population and orders its admissible records. -/
def evaluateBatch (context : EvaluationContext) (candidates : List CandidatePath) :
    Result EvaluationBatch := do
  let header : EvaluationBatch :=
    { setId := context.set.id, setGeneration := context.set.generation,
      generation := context.generation }
  match batchRejection context.limits candidates with
  | some reason => return { header with primaryBatchReason := reason }
  | none =>
      let canonical := canonicalCandidates candidates
      let records ← canonical.mapM (evaluateCandidate context)
      let admissibleOrder := orderAdmissible records canonical context.set.ranking
      let hasAdmissible := !admissibleOrder.isEmpty
      return { header with
        records, admissibleOrder, hasAdmissible
        batchOutcome :=
          if hasAdmissible then .admissibleCandidatesAvailable else .noAdmissibleCandidate
        primaryBatchReason := if hasAdmissible then .none else primaryBatchReason records }

end ConstraintRouting.Fabric
