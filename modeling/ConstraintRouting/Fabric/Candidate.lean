import ConstraintRouting.Fabric.Constraint
import ConstraintRouting.Verified.SortedLists

/-!
# Candidates and authoritative evidence

The facts that one candidate path carries, its validation, its in-place
canonicalization, its bottleneck bandwidth, its digest and its encoding.
-/

namespace ConstraintRouting.Fabric

open Verified.SortedLists
open Verified.Checks (isOk)
open Verified.Readers.Reader (accept)

/-- Verdict of the Path Authority for the exact path at the exact generation. -/
inductive PathAuthorityVerdict where
  | notEvaluated | legal | rejected
deriving DecidableEq

def PathAuthorityVerdict.code : PathAuthorityVerdict → UInt8
  | .notEvaluated => 0
  | .legal => 1
  | .rejected => 2

def PathAuthorityVerdict.read : ByteReader.Reader PathAuthorityVerdict :=
  ByteReader.enum8 [.notEvaluated, .legal, .rejected] PathAuthorityVerdict.code

/-! ## Evidence references -/

/-- Authoritative locality membership of an entity. -/
structure LocalityRef where
  kind : DomainKind := .unset
  domain : LocalityDomainId := {}
deriving DecidableEq

/-- Authoritative failure-domain membership of an entity. -/
structure FailureDomainRef where
  kind : DomainKind := .unset
  domain : FailureDomainId := {}
deriving DecidableEq

/-- Capability evidence at an exact capability generation. -/
structure CapabilityRef where
  capability : CapabilityId := {}
  generation : CapabilityGeneration := {}
deriving DecidableEq

/-- Policy attestation issued by the policy registry. -/
structure PolicyAttestation where
  policy : PolicyId := {}
  generation : PolicyGeneration := {}
deriving DecidableEq

/-- Proof that an entity belongs to an isolation class. -/
structure IsolationAttestation where
  isolationClass : IsolationClassId := {}
  generation : FailureDomainGeneration := {}
deriving DecidableEq

def LocalityRef.cmp : LocalityRef → LocalityRef → Ordering :=
  compareLex (compareOn (·.kind.code)) (compareOn (·.domain))

def FailureDomainRef.cmp : FailureDomainRef → FailureDomainRef → Ordering :=
  compareLex (compareOn (·.kind.code)) (compareOn (·.domain))

def CapabilityRef.cmp : CapabilityRef → CapabilityRef → Ordering :=
  compareLex (compareOn (·.capability)) (compareOn (·.generation))

def PolicyAttestation.cmp : PolicyAttestation → PolicyAttestation → Ordering :=
  compareLex (compareOn (·.policy)) (compareOn (·.generation))

def IsolationAttestation.cmp : IsolationAttestation → IsolationAttestation → Ordering :=
  compareLex (compareOn (·.isolationClass)) (compareOn (·.generation))

/-! ## Facts of a path -/

/-- Latency figure with an explicit evidence model. -/
structure LatencyEvidence where
  source : LatencySource := .unset
  provenance : EvidenceProvenance := .none
  micros : Int64 := 0
  plannerGeneration : PlannerGeneration := {}
  observedGeneration : LinkStateGeneration := {}
  observedTick : UInt64 := 0
deriving DecidableEq

/-- Declared bandwidth capability of one link. -/
structure BandwidthCapabilityEvidence where
  model : CapabilityModel := .none
  provenance : EvidenceProvenance := .none
  bitsPerSecond : Int64 := 0
  generation : CapabilityGeneration := {}
  observedTick : UInt64 := 0
deriving DecidableEq

/-- Authoritative facts about one node of a path. -/
structure NodeFact where
  node : NodeId := {}
  tier : TierId := {}
  site : SiteId := {}
  localities : List LocalityRef := []
  domains : List FailureDomainRef := []
  capabilities : List CapabilityRef := []
  isolation : List IsolationAttestation := []
deriving DecidableEq

/-- Authoritative facts about one link of a path. -/
structure LinkFact where
  link : LinkId := {}
  endpoints : NodeId × NodeId := ({}, {})
  bandwidth : BandwidthCapabilityEvidence := {}
  domains : List FailureDomainRef := []
  capabilities : List CapabilityRef := []
  isolation : List IsolationAttestation := []
deriving DecidableEq

/-- Evidence generations a candidate was assembled from. -/
structure EvidenceGenerationSet where
  topology : TopologyGeneration := {}
  linkState : LinkStateGeneration := {}
  capability : CapabilityGeneration := {}
  failureDomain : FailureDomainGeneration := {}
  policy : PolicyGeneration := {}
  planner : PlannerGeneration := {}
  pathAuthority : PathAuthorityGeneration := {}
  consulted : EvidenceFamilyMask := 0
  capturedTick : UInt64 := 0
deriving DecidableEq

/-- What is required of the authoritative evidence. -/
structure EvidenceRequirements where
  topology : TopologyGeneration := {}
  linkState : LinkStateGeneration := {}
  capability : CapabilityGeneration := {}
  failureDomain : FailureDomainGeneration := {}
  policy : PolicyGeneration := {}
  planner : PlannerGeneration := {}
  pathAuthority : PathAuthorityGeneration := {}
  maxEvidenceAgeTicks : UInt64 := 0
deriving DecidableEq

/-- One candidate of the planner, adjudicated by the Path Authority. -/
structure CandidatePath where
  path : PathId := {}
  authorityGeneration : PathAuthorityGeneration := {}
  authorityVerdict : PathAuthorityVerdict := .notEvaluated
  plannerGeneration : PlannerGeneration := {}
  hasPlannerRank : Bool := false
  plannerRank : UInt32 := 0
  hasPlannerCost : Bool := false
  plannerCost : Int64 := 0
  costModel : PlannerCostModel := .none
  hopCount : UInt32 := 0
  nodes : List NodeFact := []
  links : List LinkFact := []
  latency : LatencyEvidence := {}
  policies : List PolicyAttestation := []
  evidence : EvidenceGenerationSet := {}
deriving DecidableEq

/-! ## Validation -/

def sameEndpoints (link : LinkFact) (a b : NodeId) : Bool :=
  (link.endpoints.1 == a && link.endpoints.2 == b) ||
    (link.endpoints.1 == b && link.endpoints.2 == a)

/-- One node fact; `previous` are the nodes traversed before it. -/
def validateNode (limits : Limits) (previous : List NodeFact) (node : NodeFact) :
    Status := do
  failIf (!node.node.isValid) .invalidArgument "candidate node identity must be non-zero"
  failIf (previous.any (·.node == node.node)) .malformed
    "candidate traversal repeats a node identity"
  failIf (!listWithin node.localities limits.maxLocalitiesPerEntity ||
      !listWithin node.domains limits.maxDomainsPerEntity ||
      !listWithin node.capabilities limits.maxCapabilitiesPerEntity) .resourceLimit
    "node evidence exceeds the configured limit"
  failIf (!strictlyAscending LocalityRef.cmp node.localities ||
      !strictlyAscending FailureDomainRef.cmp node.domains ||
      !strictlyAscending CapabilityRef.cmp node.capabilities ||
      !strictlyAscending IsolationAttestation.cmp node.isolation) .malformed
    "node evidence vectors are not canonical"
  failIf (node.localities.any fun ref => ref.kind = .unset || !ref.domain.isValid)
    .malformed "locality membership must carry an authoritative kind and identity"
  failIf (node.domains.any fun ref => ref.kind = .unset || !ref.domain.isValid)
    .malformed "failure-domain membership must carry an authoritative kind and identity"

/-- The traversed nodes, in traversal order. -/
def validateNodes (limits : Limits) : List NodeFact → List NodeFact → Status
  | _, [] => .ok ()
  | previous, node :: rest => do
      validateNode limits previous node
      validateNodes limits (previous ++ [node]) rest

/-- One link fact between its two consecutive nodes. -/
def validateLink (limits : Limits) (link : LinkFact) (a b : NodeId) : Status := do
  failIf (!link.link.isValid) .invalidArgument "candidate link identity must be non-zero"
  failIf (!sameEndpoints link a b) .malformed
    "candidate link endpoints do not match the consecutive nodes"
  failIf (!listWithin link.domains limits.maxDomainsPerEntity ||
      !listWithin link.capabilities limits.maxCapabilitiesPerEntity) .resourceLimit
    "link evidence exceeds the configured limit"
  failIf (!strictlyAscending FailureDomainRef.cmp link.domains ||
      !strictlyAscending CapabilityRef.cmp link.capabilities ||
      !strictlyAscending IsolationAttestation.cmp link.isolation) .malformed
    "link evidence vectors are not canonical"
  failIf (link.bandwidth.model != .none &&
      (link.bandwidth.bitsPerSecond < 0 || !link.bandwidth.generation.isValid))
    .malformed "link bandwidth capability evidence is not well formed"

/-- The links along the traversed nodes. -/
def validateLinks (limits : Limits) : List LinkFact → List NodeFact → Status
  | link :: links, a :: b :: nodes => do
      validateLink limits link a.node b.node
      validateLinks limits links (b :: nodes)
  | _, _ => .ok ()

/-- The latency figure, when there is one, and the generation it binds. -/
def validateLatency (latency : LatencyEvidence) (evidence : EvidenceGenerationSet) :
    Status :=
  if latency.source = .unset then .ok ()
  else do
    failIf (latency.micros < 0 || kMaxFixedPointBound < latency.micros)
      .invalidNumericBound "candidate latency evidence is out of range"
    failIf (latency.source = .plannerCost && !latency.plannerGeneration.isValid)
      .malformed "modelled latency must bind an exact planner generation"
    failIf (latency.source = .observedLatency && !latency.observedGeneration.isValid)
      .malformed "observed latency must bind an exact evidence generation"
    failIf (latency.source = .plannerCost && latency.plannerGeneration != evidence.planner)
      .malformed
      "modelled latency generation disagrees with the candidate evidence binding"
    failIf (latency.source = .observedLatency &&
        latency.observedGeneration != evidence.linkState) .malformed
      "observed latency generation disagrees with the candidate evidence binding"

/-- Structural validation without mutation. -/
def validateCandidate (candidate : CandidatePath) (limits : Limits) : Status := do
  failIf (!candidate.path.isValid) .invalidArgument
    "candidate path identity must be non-zero"
  failIf (!candidate.authorityGeneration.isValid) .invalidArgument
    "candidate must carry an exact Path Authority generation"
  failIf (candidate.evidence.pathAuthority != candidate.authorityGeneration) .malformed
    "candidate evidence binding disagrees with its Path Authority generation"
  failIf (candidate.nodes.length < 2) .malformed
    "candidate must contain at least two nodes"
  failIf (!listWithin candidate.nodes limits.maxNodesPerCandidate) .resourceLimit
    "candidate node count exceeds the limit"
  failIf (candidate.links.length != candidate.nodes.length - 1) .malformed
    "candidate link count must be exactly one less than its node count"
  failIf (!listWithin candidate.links limits.maxLinksPerCandidate) .resourceLimit
    "candidate link count exceeds the limit"
  failIf (candidate.hopCount.toNat != candidate.links.length) .malformed
    "candidate hop count must equal its link count"
  failIf (!listWithin candidate.policies limits.maxPoliciesPerCandidate) .resourceLimit
    "candidate policy attestations exceed the limit"
  validateNodes limits [] candidate.nodes
  validateLinks limits candidate.links candidate.nodes
  validateLatency candidate.latency candidate.evidence
  failIf (candidate.hasPlannerCost && candidate.costModel = .none) .malformed
    "a planner cost must declare its cost model"
  failIf (!candidate.hasPlannerCost && candidate.costModel != .none) .malformed
    "a cost model without a planner cost is ambiguous"
  failIf (!strictlyAscending PolicyAttestation.cmp candidate.policies) .malformed
    "candidate policy attestations are not canonical"

/-! ## Canonicalization -/

/-- Sorts and deduplicates a reference list; two entries that disagree about the
generation of one identity are refused. -/
def canonicalizeRefs {ρ κ : Type} [DecidableEq ρ] [DecidableEq κ]
    (cmp : ρ → ρ → Ordering) (key : ρ → κ) (what : String) (values : List ρ) :
    Result (List ρ) := do
  let canonical := sortUnique cmp values
  failIf (adjacentSameKey key canonical) .malformed
    s!"contradictory {what} evidence: same identity, different generation"
  return canonical

def canonicalizeNode (limits : Limits) (node : NodeFact) : Result NodeFact := do
  failIf (!listWithin node.localities limits.maxLocalitiesPerEntity) .resourceLimit
    "node locality membership exceeds the limit"
  failIf (!listWithin node.domains limits.maxDomainsPerEntity) .resourceLimit
    "node failure-domain membership exceeds the limit"
  failIf (!listWithin node.capabilities limits.maxCapabilitiesPerEntity) .resourceLimit
    "node capability evidence exceeds the limit"
  let capabilities ← canonicalizeRefs CapabilityRef.cmp (·.capability) "capability"
    node.capabilities
  return { node with
    localities := sortUnique LocalityRef.cmp node.localities
    domains := sortUnique FailureDomainRef.cmp node.domains
    isolation := sortUnique IsolationAttestation.cmp node.isolation
    capabilities }

def canonicalizeLink (limits : Limits) (link : LinkFact) : Result LinkFact := do
  failIf (!listWithin link.domains limits.maxDomainsPerEntity) .resourceLimit
    "link failure-domain membership exceeds the limit"
  failIf (!listWithin link.capabilities limits.maxCapabilitiesPerEntity) .resourceLimit
    "link capability evidence exceeds the limit"
  let capabilities ← canonicalizeRefs CapabilityRef.cmp (·.capability) "capability"
    link.capabilities
  return { link with
    domains := sortUnique FailureDomainRef.cmp link.domains
    isolation := sortUnique IsolationAttestation.cmp link.isolation
    capabilities }

/-- Canonicalizes every evidence list of a candidate and validates the result;
the traversal order is kept. -/
def canonicalizeCandidate (candidate : CandidatePath) (limits : Limits) :
    Result CandidatePath := do
  failIf (!candidate.path.isValid || !candidate.authorityGeneration.isValid)
    .invalidArgument "candidate identity must be non-zero"
  failIf (candidate.nodes.length < 2 ||
      !listWithin candidate.nodes limits.maxNodesPerCandidate) .resourceLimit
    "candidate node count is out of range"
  failIf (candidate.links.length + 1 != candidate.nodes.length ||
      !listWithin candidate.links limits.maxLinksPerCandidate) .malformed
    "candidate links must exactly connect its consecutive nodes"
  let nodes ← candidate.nodes.mapM (canonicalizeNode limits)
  let links ← candidate.links.mapM (canonicalizeLink limits)
  let policies ← canonicalizeRefs PolicyAttestation.cmp (·.policy) "policy"
    candidate.policies
  let canonical := { candidate with
    hopCount := UInt32.ofNat candidate.links.length, nodes, links, policies }
  validateCandidate canonical limits
  return canonical

/-! ## Bottleneck bandwidth -/

/-- Folds the minimum over the links; nothing when a link lacks evidence at the
required generation. -/
def bottleneckFrom (required : CapabilityGeneration) :
    Option Int64 → List LinkFact → Option Int64
  | bottleneck, [] => bottleneck
  | bottleneck, link :: links =>
      if link.bandwidth.model = .none || link.bandwidth.generation != required ||
          link.bandwidth.bitsPerSecond < 0 then none
      else
        let narrowed := match bottleneck with
          | none => link.bandwidth.bitsPerSecond
          | some value =>
              if link.bandwidth.bitsPerSecond < value then link.bandwidth.bitsPerSecond
              else value
        bottleneckFrom required (some narrowed) links

/-- Bottleneck bandwidth capability of the path. -/
def pathBandwidthCapability (candidate : CandidatePath)
    (required : CapabilityGeneration) : Option Int64 :=
  if candidate.links.isEmpty || !required.isValid then none
  else bottleneckFrom required none candidate.links

/-! ## Digest and encoding -/

def feedLocality (ref : LocalityRef) : List UInt8 :=
  SemanticHasher.putU8 ref.kind.code ++ SemanticHasher.putId ref.domain

def feedDomain (ref : FailureDomainRef) : List UInt8 :=
  SemanticHasher.putU8 ref.kind.code ++ SemanticHasher.putId ref.domain

def feedCapability (ref : CapabilityRef) : List UInt8 :=
  SemanticHasher.putId ref.capability ++ SemanticHasher.putGeneration ref.generation

def feedIsolation (ref : IsolationAttestation) : List UInt8 :=
  SemanticHasher.putId ref.isolationClass ++ SemanticHasher.putGeneration ref.generation

def feedPolicy (ref : PolicyAttestation) : List UInt8 :=
  SemanticHasher.putId ref.policy ++ SemanticHasher.putGeneration ref.generation

def feedEvidence (evidence : EvidenceGenerationSet) : List UInt8 :=
  SemanticHasher.putGeneration evidence.topology ++
  SemanticHasher.putGeneration evidence.linkState ++
  SemanticHasher.putGeneration evidence.capability ++
  SemanticHasher.putGeneration evidence.failureDomain ++
  SemanticHasher.putGeneration evidence.policy ++
  SemanticHasher.putGeneration evidence.planner ++
  SemanticHasher.putGeneration evidence.pathAuthority ++
  SemanticHasher.putU32 evidence.consulted

def feedNode (node : NodeFact) : List UInt8 :=
  SemanticHasher.putId node.node ++
  SemanticHasher.putId node.tier ++
  SemanticHasher.putId node.site ++
  SemanticHasher.putAll feedLocality node.localities ++
  SemanticHasher.putAll feedDomain node.domains ++
  SemanticHasher.putAll feedCapability node.capabilities ++
  SemanticHasher.putAll feedIsolation node.isolation

def feedLink (link : LinkFact) : List UInt8 :=
  SemanticHasher.putId link.link ++
  SemanticHasher.putId link.endpoints.1 ++
  SemanticHasher.putId link.endpoints.2 ++
  SemanticHasher.putU8 link.bandwidth.model.code ++
  SemanticHasher.putU8 link.bandwidth.provenance.code ++
  SemanticHasher.putI64 link.bandwidth.bitsPerSecond ++
  SemanticHasher.putGeneration link.bandwidth.generation ++
  SemanticHasher.putAll feedDomain link.domains ++
  SemanticHasher.putAll feedCapability link.capabilities ++
  SemanticHasher.putAll feedIsolation link.isolation

/-- The bytes of a candidate's semantic content. -/
def feedCandidate (candidate : CandidatePath) : List UInt8 :=
  SemanticHasher.putId candidate.path ++
  SemanticHasher.putGeneration candidate.authorityGeneration ++
  SemanticHasher.putU8 candidate.authorityVerdict.code ++
  SemanticHasher.putGeneration candidate.plannerGeneration ++
  SemanticHasher.putBool candidate.hasPlannerRank ++
  SemanticHasher.putU32 candidate.plannerRank ++
  SemanticHasher.putBool candidate.hasPlannerCost ++
  SemanticHasher.putI64 candidate.plannerCost ++
  SemanticHasher.putU8 candidate.costModel.code ++
  SemanticHasher.putU32 candidate.hopCount ++
  SemanticHasher.putAll feedNode candidate.nodes ++
  SemanticHasher.putAll feedLink candidate.links ++
  SemanticHasher.putU8 candidate.latency.source.code ++
  SemanticHasher.putU8 candidate.latency.provenance.code ++
  SemanticHasher.putI64 candidate.latency.micros ++
  SemanticHasher.putGeneration candidate.latency.plannerGeneration ++
  SemanticHasher.putGeneration candidate.latency.observedGeneration ++
  SemanticHasher.putAll feedPolicy candidate.policies ++
  feedEvidence candidate.evidence

/-- Deterministic digest of a candidate's semantic content. -/
def candidateDigest (candidate : CandidatePath) : Digest256 :=
  digestOf "crf.candidate.v1" (feedCandidate candidate)

def writeLocality (ref : LocalityRef) : List UInt8 :=
  ByteWriter.putU8 ref.kind.code ++ ByteWriter.putU8 0 ++ ByteWriter.putU16 0 ++
  ByteWriter.putU32 0 ++ ByteWriter.putId ref.domain

def writeDomain (ref : FailureDomainRef) : List UInt8 :=
  ByteWriter.putU8 ref.kind.code ++ ByteWriter.putU8 0 ++ ByteWriter.putU16 0 ++
  ByteWriter.putU32 0 ++ ByteWriter.putId ref.domain

def writeCapability (ref : CapabilityRef) : List UInt8 :=
  ByteWriter.putId ref.capability ++ ByteWriter.putGeneration ref.generation

def writeIsolation (ref : IsolationAttestation) : List UInt8 :=
  ByteWriter.putId ref.isolationClass ++ ByteWriter.putGeneration ref.generation

def writePolicy (ref : PolicyAttestation) : List UInt8 :=
  ByteWriter.putId ref.policy ++ ByteWriter.putGeneration ref.generation

def writeNode (node : NodeFact) : List UInt8 :=
  ByteWriter.putId node.node ++
  ByteWriter.putId node.tier ++
  ByteWriter.putId node.site ++
  ByteWriter.putAll writeLocality node.localities ++
  ByteWriter.putAll writeDomain node.domains ++
  ByteWriter.putAll writeCapability node.capabilities ++
  ByteWriter.putAll writeIsolation node.isolation

def writeLink (link : LinkFact) : List UInt8 :=
  ByteWriter.putId link.link ++
  ByteWriter.putId link.endpoints.1 ++
  ByteWriter.putId link.endpoints.2 ++
  ByteWriter.putU8 link.bandwidth.model.code ++
  ByteWriter.putU8 link.bandwidth.provenance.code ++
  ByteWriter.putU16 0 ++
  ByteWriter.putU32 0 ++
  ByteWriter.putI64 link.bandwidth.bitsPerSecond ++
  ByteWriter.putGeneration link.bandwidth.generation ++
  ByteWriter.putU64 link.bandwidth.observedTick ++
  ByteWriter.putAll writeDomain link.domains ++
  ByteWriter.putAll writeCapability link.capabilities ++
  ByteWriter.putAll writeIsolation link.isolation

def writeEvidenceSet (evidence : EvidenceGenerationSet) : List UInt8 :=
  ByteWriter.putGeneration evidence.topology ++
  ByteWriter.putGeneration evidence.linkState ++
  ByteWriter.putGeneration evidence.capability ++
  ByteWriter.putGeneration evidence.failureDomain ++
  ByteWriter.putGeneration evidence.policy ++
  ByteWriter.putGeneration evidence.planner ++
  ByteWriter.putGeneration evidence.pathAuthority ++
  ByteWriter.putU32 evidence.consulted ++
  ByteWriter.putU64 evidence.capturedTick

def encodeCandidate (candidate : CandidatePath) : List UInt8 :=
  ByteWriter.putId candidate.path ++
  ByteWriter.putGeneration candidate.authorityGeneration ++
  ByteWriter.putU8 candidate.authorityVerdict.code ++
  ByteWriter.putU8 0 ++
  ByteWriter.putU16 0 ++
  ByteWriter.putU32 0 ++
  ByteWriter.putGeneration candidate.plannerGeneration ++
  ByteWriter.putBool candidate.hasPlannerRank ++
  ByteWriter.putU32 candidate.plannerRank ++
  ByteWriter.putBool candidate.hasPlannerCost ++
  ByteWriter.putI64 candidate.plannerCost ++
  ByteWriter.putU8 candidate.costModel.code ++
  ByteWriter.putU8 0 ++
  ByteWriter.putU16 0 ++
  ByteWriter.putU32 candidate.hopCount ++
  ByteWriter.putAll writeNode candidate.nodes ++
  ByteWriter.putAll writeLink candidate.links ++
  ByteWriter.putU8 candidate.latency.source.code ++
  ByteWriter.putU8 candidate.latency.provenance.code ++
  ByteWriter.putU16 0 ++
  ByteWriter.putU32 0 ++
  ByteWriter.putI64 candidate.latency.micros ++
  ByteWriter.putGeneration candidate.latency.plannerGeneration ++
  ByteWriter.putGeneration candidate.latency.observedGeneration ++
  ByteWriter.putU64 candidate.latency.observedTick ++
  ByteWriter.putAll writePolicy candidate.policies ++
  writeEvidenceSet candidate.evidence

/-! ## Decoding -/

def readLocality : ByteReader.Reader LocalityRef := do
  let kind ← DomainKind.read
  ByteReader.padding8
  ByteReader.padding16
  ByteReader.padding32
  let domain : LocalityDomainId ← ByteReader.id
  accept (kind != .unset && domain.isValid)
  return { kind, domain }

def readDomain : ByteReader.Reader FailureDomainRef := do
  let kind ← DomainKind.read
  ByteReader.padding8
  ByteReader.padding16
  ByteReader.padding32
  let domain : FailureDomainId ← ByteReader.id
  accept (kind != .unset && domain.isValid)
  return { kind, domain }

def readCapability : ByteReader.Reader CapabilityRef := do
  let capability : CapabilityId ← ByteReader.id
  let generation : CapabilityGeneration ← ByteReader.generation
  accept (capability.isValid && Generation.isRepresentable generation.value)
  return { capability, generation }

def readIsolation : ByteReader.Reader IsolationAttestation := do
  let isolationClass : IsolationClassId ← ByteReader.id
  let generation : FailureDomainGeneration ← ByteReader.generation
  accept (isolationClass.isValid && Generation.isRepresentable generation.value)
  return { isolationClass, generation }

def readPolicy : ByteReader.Reader PolicyAttestation := do
  let policy : PolicyId ← ByteReader.id
  let generation : PolicyGeneration ← ByteReader.generation
  accept (policy.isValid && Generation.isRepresentable generation.value)
  return { policy, generation }

def readNode (limits : Limits) : ByteReader.Reader NodeFact := do
  let node : NodeId ← ByteReader.id
  let tier ← ByteReader.id
  let site ← ByteReader.id
  accept node.isValid
  let localities ← ByteReader.all limits.maxLocalitiesPerEntity readLocality
  let domains ← ByteReader.all limits.maxDomainsPerEntity readDomain
  let capabilities ← ByteReader.all limits.maxCapabilitiesPerEntity readCapability
  let isolation ← ByteReader.all limits.maxCapabilitiesPerEntity readIsolation
  return { node, tier, site, localities, domains, capabilities, isolation }

def readBandwidth : ByteReader.Reader BandwidthCapabilityEvidence := do
  let model ← CapabilityModel.read
  let provenance ← EvidenceProvenance.read
  ByteReader.padding16
  ByteReader.padding32
  let bitsPerSecond ← ByteReader.i64
  let generation ← ByteReader.generationField
  let observedTick ← ByteReader.u64
  return { model, provenance, bitsPerSecond, generation, observedTick }

def readLink (limits : Limits) : ByteReader.Reader LinkFact := do
  let link : LinkId ← ByteReader.id
  let a : NodeId ← ByteReader.id
  let b : NodeId ← ByteReader.id
  accept (link.isValid && a.isValid && b.isValid)
  let bandwidth ← readBandwidth
  let domains ← ByteReader.all limits.maxDomainsPerEntity readDomain
  let capabilities ← ByteReader.all limits.maxCapabilitiesPerEntity readCapability
  let isolation ← ByteReader.all limits.maxCapabilitiesPerEntity readIsolation
  return { link, endpoints := (a, b), bandwidth, domains, capabilities, isolation }

def readLatency : ByteReader.Reader LatencyEvidence := do
  let source ← LatencySource.read
  let provenance ← EvidenceProvenance.read
  ByteReader.padding16
  ByteReader.padding32
  let micros ← ByteReader.i64
  let plannerGeneration ← ByteReader.generationField
  let observedGeneration ← ByteReader.generationField
  let observedTick ← ByteReader.u64
  return { source, provenance, micros, plannerGeneration, observedGeneration, observedTick }

def readEvidenceSet : ByteReader.Reader EvidenceGenerationSet := do
  let topology ← ByteReader.generationField
  let linkState ← ByteReader.generationField
  let capability ← ByteReader.generationField
  let failureDomain ← ByteReader.generationField
  let policy ← ByteReader.generationField
  let planner ← ByteReader.generationField
  let pathAuthority ← ByteReader.generationField
  let consulted ← ByteReader.u32
  let capturedTick ← ByteReader.u64
  return { topology, linkState, capability, failureDomain, policy, planner, pathAuthority,
           consulted, capturedTick }

/-- Decodes a candidate that must be valid. -/
def decodeCandidate (limits : Limits) : ByteReader.Reader CandidatePath := do
  let path : PathId ← ByteReader.id
  let authorityGeneration : PathAuthorityGeneration ← ByteReader.generation
  let authorityVerdict ← PathAuthorityVerdict.read
  ByteReader.padding8
  ByteReader.padding16
  ByteReader.padding32
  accept (path.isValid && Generation.isRepresentable authorityGeneration.value)
  let plannerGeneration ← ByteReader.generationField
  let hasPlannerRank ← ByteReader.boolean
  let plannerRank ← ByteReader.u32
  let hasPlannerCost ← ByteReader.boolean
  let plannerCost ← ByteReader.i64
  let costModel ← PlannerCostModel.read
  ByteReader.padding8
  ByteReader.padding16
  let hopCount ← ByteReader.u32
  let nodes ← ByteReader.all limits.maxNodesPerCandidate (readNode limits)
  let links ← ByteReader.all limits.maxLinksPerCandidate (readLink limits)
  let latency ← readLatency
  let policies ← ByteReader.all limits.maxPoliciesPerCandidate readPolicy
  let evidence ← readEvidenceSet
  let candidate : CandidatePath :=
    { path, authorityGeneration, authorityVerdict, plannerGeneration, hasPlannerRank,
      plannerRank, hasPlannerCost, plannerCost, costModel, hopCount, nodes, links, latency,
      policies, evidence }
  accept (isOk (validateCandidate candidate limits))
  return candidate

end ConstraintRouting.Fabric
