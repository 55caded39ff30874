import ConstraintRouting.Fabric.Digest
import ConstraintRouting.Fabric.Limits
import ConstraintRouting.Fabric.Status
import ConstraintRouting.Verified.SortedLists

/-!
# Typed constraint model

The enumerations of the constraint model with their protocol values, a single
typed constraint, its structural validation, its canonical order and its
canonical byte forms.
-/

namespace ConstraintRouting.Fabric

open Verified.Checks (isOk)
open Verified.Readers.Reader (accept)
open Verified.SortedLists

/-! ## Enumerations -/

inductive ConstraintKind where
  | unset | maxLatency | minBandwidthCapability | requiredNode | forbiddenNode
  | requiredLink | forbiddenLink | requiredTier | forbiddenTier | requiredSite
  | forbiddenSite | localityScope | isolationClass | requiredCapability
  | forbiddenCapability | requiredFailureDomainRelation
  | forbiddenFailureDomainRelation | administrativePolicy | maxHopCount
deriving DecidableEq

/-- Mandatory constraints decide admissibility; preferences only order what is
already admissible. -/
inductive ConstraintScope where
  | mandatory | preference
deriving DecidableEq

inductive LatencySource where
  | unset | plannerCost | observedLatency
deriving DecidableEq

inductive DomainKind where
  | unset | node | rack | site | powerZone | coolingZone | plane | failureDomain
deriving DecidableEq

inductive DomainRelation where
  | unset | distinct | shared
deriving DecidableEq

/-- What happens when the evidence that a constraint needs is absent. -/
inductive UnknownPolicy where
  | failClosed | permitUnknownNegative
deriving DecidableEq

inductive EvidenceProvenance where
  | none | fabricCapabilityRegistry | fabricTopologyAuthority
  | fabricLinkStateAuthority | fabricFailureDomainAuthority | fabricPolicyRegistry
  | plannerModel | syntheticFixture | operatorDeclaration
deriving DecidableEq

inductive CapabilityModel where
  | none | declaredCapabilityRegistry | syntheticFixture
deriving DecidableEq

inductive PlannerCostModel where
  | none | hopCountUnits | modelledLatencyMicros | administrativeMetric
deriving DecidableEq

/-- Evidence families used for currentness binding. -/
inductive EvidenceFamily where
  | none | constraintSet | topology | linkState | capability | failureDomain
  | policy | planner | pathAuthority
deriving DecidableEq

def ConstraintKind.code : ConstraintKind → UInt16
  | .unset => 0
  | .maxLatency => 1
  | .minBandwidthCapability => 2
  | .requiredNode => 3
  | .forbiddenNode => 4
  | .requiredLink => 5
  | .forbiddenLink => 6
  | .requiredTier => 7
  | .forbiddenTier => 8
  | .requiredSite => 9
  | .forbiddenSite => 10
  | .localityScope => 11
  | .isolationClass => 12
  | .requiredCapability => 13
  | .forbiddenCapability => 14
  | .requiredFailureDomainRelation => 15
  | .forbiddenFailureDomainRelation => 16
  | .administrativePolicy => 17
  | .maxHopCount => 18

def ConstraintScope.code : ConstraintScope → UInt8
  | .mandatory => 1
  | .preference => 2

def LatencySource.code : LatencySource → UInt8
  | .unset => 0
  | .plannerCost => 1
  | .observedLatency => 2

def DomainKind.code : DomainKind → UInt8
  | .unset => 0
  | .node => 1
  | .rack => 2
  | .site => 3
  | .powerZone => 4
  | .coolingZone => 5
  | .plane => 6
  | .failureDomain => 7

def DomainRelation.code : DomainRelation → UInt8
  | .unset => 0
  | .distinct => 1
  | .shared => 2

def UnknownPolicy.code : UnknownPolicy → UInt8
  | .failClosed => 1
  | .permitUnknownNegative => 2

def EvidenceProvenance.code : EvidenceProvenance → UInt8
  | .none => 0
  | .fabricCapabilityRegistry => 1
  | .fabricTopologyAuthority => 2
  | .fabricLinkStateAuthority => 3
  | .fabricFailureDomainAuthority => 4
  | .fabricPolicyRegistry => 5
  | .plannerModel => 6
  | .syntheticFixture => 7
  | .operatorDeclaration => 8

def CapabilityModel.code : CapabilityModel → UInt8
  | .none => 0
  | .declaredCapabilityRegistry => 1
  | .syntheticFixture => 2

def PlannerCostModel.code : PlannerCostModel → UInt8
  | .none => 0
  | .hopCountUnits => 1
  | .modelledLatencyMicros => 2
  | .administrativeMetric => 3

def EvidenceFamily.code : EvidenceFamily → UInt8
  | .none => 0
  | .constraintSet => 1
  | .topology => 2
  | .linkState => 3
  | .capability => 4
  | .failureDomain => 5
  | .policy => 6
  | .planner => 7
  | .pathAuthority => 8

def ConstraintKind.read : ByteReader.Reader ConstraintKind :=
  ByteReader.enum16
    [.unset, .maxLatency, .minBandwidthCapability, .requiredNode, .forbiddenNode,
     .requiredLink, .forbiddenLink, .requiredTier, .forbiddenTier, .requiredSite,
     .forbiddenSite, .localityScope, .isolationClass, .requiredCapability,
     .forbiddenCapability, .requiredFailureDomainRelation,
     .forbiddenFailureDomainRelation, .administrativePolicy, .maxHopCount]
    ConstraintKind.code

def ConstraintScope.read : ByteReader.Reader ConstraintScope :=
  ByteReader.enum8 [.mandatory, .preference] ConstraintScope.code

def LatencySource.read : ByteReader.Reader LatencySource :=
  ByteReader.enum8 [.unset, .plannerCost, .observedLatency] LatencySource.code

def DomainKind.read : ByteReader.Reader DomainKind :=
  ByteReader.enum8
    [.unset, .node, .rack, .site, .powerZone, .coolingZone, .plane, .failureDomain]
    DomainKind.code

def DomainRelation.read : ByteReader.Reader DomainRelation :=
  ByteReader.enum8 [.unset, .distinct, .shared] DomainRelation.code

def UnknownPolicy.read : ByteReader.Reader UnknownPolicy :=
  ByteReader.enum8 [.failClosed, .permitUnknownNegative] UnknownPolicy.code

def EvidenceProvenance.read : ByteReader.Reader EvidenceProvenance :=
  ByteReader.enum8
    [.none, .fabricCapabilityRegistry, .fabricTopologyAuthority,
     .fabricLinkStateAuthority, .fabricFailureDomainAuthority, .fabricPolicyRegistry,
     .plannerModel, .syntheticFixture, .operatorDeclaration]
    EvidenceProvenance.code

def CapabilityModel.read : ByteReader.Reader CapabilityModel :=
  ByteReader.enum8 [.none, .declaredCapabilityRegistry, .syntheticFixture]
    CapabilityModel.code

def PlannerCostModel.read : ByteReader.Reader PlannerCostModel :=
  ByteReader.enum8 [.none, .hopCountUnits, .modelledLatencyMicros, .administrativeMetric]
    PlannerCostModel.code

def EvidenceFamily.read : ByteReader.Reader EvidenceFamily :=
  ByteReader.enum8
    [.none, .constraintSet, .topology, .linkState, .capability, .failureDomain, .policy,
     .planner, .pathAuthority]
    EvidenceFamily.code

abbrev EvidenceFamilyMask := UInt32

/-- The bit of one family in a mask. -/
def familyBit (family : EvidenceFamily) : EvidenceFamilyMask :=
  1 <<< family.code.toUInt32

/-- The evidence families a constraint of the kind must consult. -/
def evidenceFamilies : ConstraintKind → EvidenceFamilyMask
  | .maxLatency => familyBit .planner ||| familyBit .linkState
  | .minBandwidthCapability | .requiredCapability | .forbiddenCapability =>
      familyBit .capability
  | .requiredNode | .forbiddenNode | .requiredLink | .forbiddenLink | .requiredTier
  | .forbiddenTier | .requiredSite | .forbiddenSite | .localityScope =>
      familyBit .topology
  | .isolationClass | .requiredFailureDomainRelation | .forbiddenFailureDomainRelation =>
      familyBit .failureDomain
  | .administrativePolicy => familyBit .policy
  | .maxHopCount => familyBit .planner
  | .unset => 0

/-- The kind is a positive requirement. -/
def isPositiveRequirement : ConstraintKind → Bool
  | .requiredNode | .requiredLink | .requiredTier | .requiredSite | .requiredCapability
  | .requiredFailureDomainRelation | .localityScope | .isolationClass
  | .administrativePolicy | .maxLatency | .minBandwidthCapability | .maxHopCount => true
  | _ => false

/-! ## Constraints -/

/-- A single typed constraint.  Only the fields of its kind may be set. -/
structure Constraint where
  id : ConstraintId := {}
  generation : ConstraintGeneration := {}
  kind : ConstraintKind := .unset
  scope : ConstraintScope := .mandatory
  unknownPolicy : UnknownPolicy := .failClosed
  bound : Int64 := 0
  latencySource : LatencySource := .unset
  domainKind : DomainKind := .unset
  domainRelation : DomainRelation := .unset
  localityDomain : LocalityDomainId := {}
  isolationClass : IsolationClassId := {}
  nodes : List NodeId := []
  links : List LinkId := []
  tiers : List TierId := []
  sites : List SiteId := []
  capabilities : List CapabilityId := []
  policies : List PolicyId := []
  preferenceRank : UInt32 := 0
  preferenceWeight : UInt32 := 0
deriving DecidableEq

/-- Upper bound on any fixed-point bound: two to the 62. -/
def kMaxFixedPointBound : Int64 := 4611686018427387904

/-- Every identity of the list is set. -/
def allValid {domain : IdentityDomain} (values : List (StrongId domain)) : Bool :=
  values.all StrongId.isValid

/-- The list's size is within the limit. -/
def listWithin {α : Type} (values : List α) (maxSize : UInt32) : Bool :=
  values.length ≤ maxSize.toNat

def anyEntityList (value : Constraint) : Bool :=
  !value.nodes.isEmpty || !value.links.isEmpty || !value.tiers.isEmpty ||
    !value.sites.isEmpty || !value.capabilities.isEmpty || !value.policies.isEmpty

/-- The constraint's identities and lists, whatever its kind. -/
def validateConstraintCommon (constraint : Constraint) (limits : Limits) : Status := do
  failIf (!constraint.id.isValid) .invalidArgument "constraint id must be non-zero"
  failIf (!constraint.generation.isValid) .invalidArgument
    "constraint generation must be non-zero"
  failIf (constraint.kind = .unset) .unknownConstraintKind
    "constraint kind is not a known kind"
  failIf (constraint.unknownPolicy = .permitUnknownNegative &&
      isPositiveRequirement constraint.kind) .invalidArgument
    "unknown evidence can never be permitted to satisfy a positive requirement"
  let limit := limits.maxEntityRefsPerConstraint
  failIf (!listWithin constraint.nodes limit || !listWithin constraint.links limit ||
      !listWithin constraint.tiers limit || !listWithin constraint.sites limit ||
      !listWithin constraint.capabilities limit || !listWithin constraint.policies limit)
    .resourceLimit "constraint entity reference list exceeds the limit"
  failIf (!allValid constraint.nodes || !allValid constraint.links ||
      !allValid constraint.tiers || !allValid constraint.sites ||
      !allValid constraint.capabilities || !allValid constraint.policies)
    .invalidArgument "constraint entity reference must be non-zero"
  match constraint.scope with
  | .mandatory =>
      failIf (constraint.preferenceRank != 0 || constraint.preferenceWeight != 0)
        .malformed "mandatory constraint must not carry preference metadata"
  | .preference =>
      failIf (constraint.preferenceWeight = 0 || 1000 < constraint.preferenceWeight)
        .invalidNumericBound "preference weight must be within 1..1000"

/-- The payload that the constraint's kind requires, and nothing else. -/
def validateConstraintPayload (constraint : Constraint) : Status :=
  match constraint.kind with
  | .maxLatency => do
      failIf (constraint.latencySource = .unset) .malformed
        "MaxLatency requires an explicit latency source"
      failIf (constraint.bound ≤ 0 || kMaxFixedPointBound < constraint.bound)
        .invalidNumericBound "MaxLatency bound must be a positive fixed-point value"
      failIf (anyEntityList constraint || constraint.domainKind != .unset ||
          constraint.domainRelation != .unset || constraint.localityDomain.isValid ||
          constraint.isolationClass.isValid) .malformed
        "MaxLatency must not carry unrelated payload"
  | .minBandwidthCapability => do
      failIf (constraint.bound ≤ 0 || kMaxFixedPointBound < constraint.bound)
        .invalidNumericBound
        "MinBandwidthCapability bound must be a positive bits-per-second value"
      failIf (anyEntityList constraint || constraint.latencySource != .unset ||
          constraint.domainKind != .unset || constraint.domainRelation != .unset ||
          constraint.localityDomain.isValid || constraint.isolationClass.isValid)
        .malformed "MinBandwidthCapability must not carry unrelated payload"
  | .maxHopCount => do
      failIf (constraint.bound ≤ 0 || 65535 < constraint.bound) .invalidNumericBound
        "MaxHopCount bound must be within 1..65535"
      failIf (anyEntityList constraint || constraint.latencySource != .unset ||
          constraint.domainKind != .unset || constraint.domainRelation != .unset ||
          constraint.localityDomain.isValid || constraint.isolationClass.isValid)
        .malformed "MaxHopCount must not carry unrelated payload"
  | .requiredNode | .forbiddenNode =>
      failIf (constraint.nodes.isEmpty || !constraint.links.isEmpty ||
          !constraint.tiers.isEmpty || !constraint.sites.isEmpty ||
          !constraint.capabilities.isEmpty || !constraint.policies.isEmpty) .malformed
        "node constraint requires a node list and nothing else"
  | .requiredLink | .forbiddenLink =>
      failIf (constraint.links.isEmpty || !constraint.nodes.isEmpty ||
          !constraint.tiers.isEmpty || !constraint.sites.isEmpty ||
          !constraint.capabilities.isEmpty || !constraint.policies.isEmpty) .malformed
        "link constraint requires a link list and nothing else"
  | .requiredTier | .forbiddenTier =>
      failIf (constraint.tiers.isEmpty || !constraint.nodes.isEmpty ||
          !constraint.links.isEmpty || !constraint.sites.isEmpty ||
          !constraint.capabilities.isEmpty || !constraint.policies.isEmpty) .malformed
        "tier constraint requires a tier list and nothing else"
  | .requiredSite | .forbiddenSite =>
      failIf (constraint.sites.isEmpty || !constraint.nodes.isEmpty ||
          !constraint.links.isEmpty || !constraint.tiers.isEmpty ||
          !constraint.capabilities.isEmpty || !constraint.policies.isEmpty) .malformed
        "site constraint requires a site list and nothing else"
  | .localityScope => do
      let localityKind := constraint.domainKind = .rack || constraint.domainKind = .site ||
        constraint.domainKind = .powerZone || constraint.domainKind = .coolingZone ||
        constraint.domainKind = .plane
      failIf (!localityKind || !constraint.localityDomain.isValid) .malformed
        "LocalityScope requires an authoritative locality domain and kind"
      failIf (anyEntityList constraint || constraint.bound != 0 ||
          constraint.domainRelation != .unset || constraint.isolationClass.isValid ||
          constraint.latencySource != .unset) .malformed
        "LocalityScope must not carry unrelated payload"
  | .isolationClass => do
      failIf (!constraint.isolationClass.isValid) .malformed
        "IsolationClass requires an authoritative isolation class identity"
      failIf (anyEntityList constraint || constraint.bound != 0 ||
          constraint.domainKind != .unset || constraint.domainRelation != .unset ||
          constraint.localityDomain.isValid || constraint.latencySource != .unset)
        .malformed "IsolationClass must not carry unrelated payload"
  | .requiredCapability | .forbiddenCapability =>
      failIf (constraint.capabilities.isEmpty || !constraint.nodes.isEmpty ||
          !constraint.links.isEmpty || !constraint.tiers.isEmpty ||
          !constraint.sites.isEmpty || !constraint.policies.isEmpty) .malformed
        "capability constraint requires a capability list and nothing else"
  | .requiredFailureDomainRelation => do
      failIf (constraint.domainKind = .unset || constraint.domainRelation != .distinct)
        .malformed
        "RequiredFailureDomainRelation requires a domain kind and the Distinct relation"
      failIf (constraint.bound < 1 || kMaxFixedPointBound < constraint.bound)
        .invalidNumericBound "failure-domain relation count must be at least one"
      failIf (anyEntityList constraint || constraint.localityDomain.isValid ||
          constraint.isolationClass.isValid || constraint.latencySource != .unset)
        .malformed "failure-domain relation must not carry unrelated payload"
  | .forbiddenFailureDomainRelation => do
      failIf (constraint.domainKind = .unset) .malformed
        "ForbiddenFailureDomainRelation requires a domain kind"
      match constraint.domainRelation with
      | .shared =>
          failIf (constraint.bound != 0) .malformed
            "a forbidden shared relation does not take a count"
      | .distinct =>
          failIf (constraint.bound < 1) .invalidNumericBound
            "a forbidden distinct relation requires a count of at least one"
      | .unset =>
          failure .malformed "ForbiddenFailureDomainRelation requires an explicit relation"
      failIf (anyEntityList constraint || constraint.localityDomain.isValid ||
          constraint.isolationClass.isValid || constraint.latencySource != .unset)
        .malformed "failure-domain relation must not carry unrelated payload"
  | .administrativePolicy =>
      failIf (constraint.policies.isEmpty || !constraint.nodes.isEmpty ||
          !constraint.links.isEmpty || !constraint.tiers.isEmpty ||
          !constraint.sites.isEmpty || !constraint.capabilities.isEmpty) .malformed
        "policy constraint requires a policy list and nothing else"
  | .unset =>
      failure .unknownConstraintKind "constraint kind is not a known kind"

/-- Full structural validation of a single constraint against a limit set. -/
def validateConstraint (constraint : Constraint) (limits : Limits) : Status := do
  validateConstraintCommon constraint limits
  validateConstraintPayload constraint

/-! ## Equivalence and canonical order -/

/-- Identical semantics ignoring identity and generation. -/
def equivalentPayload (a b : Constraint) : Bool :=
  a.kind == b.kind && a.scope == b.scope && a.unknownPolicy == b.unknownPolicy &&
    a.bound == b.bound && a.latencySource == b.latencySource &&
    a.domainKind == b.domainKind && a.domainRelation == b.domainRelation &&
    a.localityDomain == b.localityDomain && a.isolationClass == b.isolationClass &&
    a.nodes == b.nodes && a.links == b.links && a.tiers == b.tiers &&
    a.sites == b.sites && a.capabilities == b.capabilities && a.policies == b.policies &&
    a.preferenceRank == b.preferenceRank && a.preferenceWeight == b.preferenceWeight

/-- Field-by-field comparison of the payload. -/
def comparePayload : Constraint → Constraint → Ordering :=
  compareLex (compareOn (·.kind.code)) <|
  compareLex (compareOn (·.scope.code)) <|
  compareLex (compareOn (·.bound)) <|
  compareLex (compareOn (·.latencySource.code)) <|
  compareLex (compareOn (·.domainKind.code)) <|
  compareLex (compareOn (·.domainRelation.code)) <|
  compareLex (compareOn (·.localityDomain)) <|
  compareLex (compareOn (·.isolationClass)) <|
  compareLex (compareOn (·.unknownPolicy.code)) <|
  compareLex (compareOn (·.preferenceRank)) <|
  compareLex (compareOn (·.preferenceWeight)) <|
  compareLex (compareOn (·.nodes)) <|
  compareLex (compareOn (·.links)) <|
  compareLex (compareOn (·.tiers)) <|
  compareLex (compareOn (·.sites)) <|
  compareLex (compareOn (·.capabilities)) (compareOn (·.policies))

/-- The canonical constraint order: payload first, then identity, then
generation. -/
def canonicalCompare : Constraint → Constraint → Ordering :=
  compareLex comparePayload (compareLex (compareOn (·.id)) (compareOn (·.generation)))

def canonicalLess (a b : Constraint) : Bool := canonicalCompare a b = .lt

/-! ## Byte forms -/

/-- Canonical encoding of a payload, without identity and generation. -/
def encodeConstraintPayload (constraint : Constraint) : List UInt8 :=
  ByteWriter.putU16 constraint.kind.code ++
  ByteWriter.putU8 constraint.scope.code ++
  ByteWriter.putU8 constraint.unknownPolicy.code ++
  ByteWriter.putI64 constraint.bound ++
  ByteWriter.putU8 constraint.latencySource.code ++
  ByteWriter.putU8 constraint.domainKind.code ++
  ByteWriter.putU8 constraint.domainRelation.code ++
  ByteWriter.putId constraint.localityDomain ++
  ByteWriter.putId constraint.isolationClass ++
  ByteWriter.putU32 constraint.preferenceRank ++
  ByteWriter.putU32 constraint.preferenceWeight ++
  ByteWriter.putAll ByteWriter.putId constraint.nodes ++
  ByteWriter.putAll ByteWriter.putId constraint.links ++
  ByteWriter.putAll ByteWriter.putId constraint.tiers ++
  ByteWriter.putAll ByteWriter.putId constraint.sites ++
  ByteWriter.putAll ByteWriter.putId constraint.capabilities ++
  ByteWriter.putAll ByteWriter.putId constraint.policies

/-- The bytes a constraint feeds to a semantic digest. -/
def feedDigest (constraint : Constraint) : List UInt8 :=
  SemanticHasher.putId constraint.id ++
  SemanticHasher.putGeneration constraint.generation ++
  SemanticHasher.putU16 constraint.kind.code ++
  SemanticHasher.putU8 constraint.scope.code ++
  SemanticHasher.putU8 constraint.unknownPolicy.code ++
  SemanticHasher.putI64 constraint.bound ++
  SemanticHasher.putU8 constraint.latencySource.code ++
  SemanticHasher.putU8 constraint.domainKind.code ++
  SemanticHasher.putU8 constraint.domainRelation.code ++
  SemanticHasher.putId constraint.localityDomain ++
  SemanticHasher.putId constraint.isolationClass ++
  SemanticHasher.putU32 constraint.preferenceRank ++
  SemanticHasher.putU32 constraint.preferenceWeight ++
  SemanticHasher.putAll SemanticHasher.putId constraint.nodes ++
  SemanticHasher.putAll SemanticHasher.putId constraint.links ++
  SemanticHasher.putAll SemanticHasher.putId constraint.tiers ++
  SemanticHasher.putAll SemanticHasher.putId constraint.sites ++
  SemanticHasher.putAll SemanticHasher.putId constraint.capabilities ++
  SemanticHasher.putAll SemanticHasher.putId constraint.policies

/-- Persistence and wire encoding. -/
def encodeConstraint (constraint : Constraint) : List UInt8 :=
  ByteWriter.putId constraint.id ++
  ByteWriter.putGeneration constraint.generation ++
  ByteWriter.putU16 constraint.kind.code ++
  ByteWriter.putU8 constraint.scope.code ++
  ByteWriter.putU8 constraint.unknownPolicy.code ++
  ByteWriter.putI64 constraint.bound ++
  ByteWriter.putU8 constraint.latencySource.code ++
  ByteWriter.putU8 constraint.domainKind.code ++
  ByteWriter.putU8 constraint.domainRelation.code ++
  ByteWriter.putU8 0 ++
  ByteWriter.putId constraint.localityDomain ++
  ByteWriter.putId constraint.isolationClass ++
  ByteWriter.putU32 constraint.preferenceRank ++
  ByteWriter.putU32 constraint.preferenceWeight ++
  ByteWriter.putAll ByteWriter.putId constraint.nodes ++
  ByteWriter.putAll ByteWriter.putId constraint.links ++
  ByteWriter.putAll ByteWriter.putId constraint.tiers ++
  ByteWriter.putAll ByteWriter.putId constraint.sites ++
  ByteWriter.putAll ByteWriter.putId constraint.capabilities ++
  ByteWriter.putAll ByteWriter.putId constraint.policies

/-- A bounded list of non-zero identities. -/
def readList {domain : IdentityDomain} (maxSize : UInt32) :
    ByteReader.Reader (List (StrongId domain)) :=
  ByteReader.all maxSize do
    let id ← ByteReader.id
    accept id.isValid
    return id

/-- Decodes a constraint that must already be canonical and valid. -/
def decodeConstraint (limits : Limits) : ByteReader.Reader Constraint := do
  let id ← ByteReader.id
  let generation : ConstraintGeneration ← ByteReader.generation
  let kind ← ConstraintKind.read
  let scope ← ConstraintScope.read
  let unknownPolicy ← UnknownPolicy.read
  let bound ← ByteReader.i64
  let latencySource ← LatencySource.read
  let domainKind ← DomainKind.read
  let domainRelation ← DomainRelation.read
  ByteReader.padding8
  let localityDomain ← ByteReader.id
  let isolationClass ← ByteReader.id
  let preferenceRank ← ByteReader.u32
  let preferenceWeight ← ByteReader.u32
  accept (id.isValid && Generation.isRepresentable generation.value && kind != .unset)
  let nodes ← readList limits.maxEntityRefsPerConstraint
  let links ← readList limits.maxEntityRefsPerConstraint
  let tiers ← readList limits.maxEntityRefsPerConstraint
  let sites ← readList limits.maxEntityRefsPerConstraint
  let capabilities ← readList limits.maxEntityRefsPerConstraint
  let policies ← readList limits.maxEntityRefsPerConstraint
  accept (strictlyAscending compare nodes && strictlyAscending compare links &&
    strictlyAscending compare tiers && strictlyAscending compare sites &&
    strictlyAscending compare capabilities && strictlyAscending compare policies)
  let constraint : Constraint :=
    { id, generation, kind, scope, unknownPolicy, bound, latencySource, domainKind,
      domainRelation, localityDomain, isolationClass, nodes, links, tiers, sites,
      capabilities, policies, preferenceRank, preferenceWeight }
  accept (isOk (validateConstraint constraint limits))
  return constraint

/-! ## The canonical order is total -/

theorem ConstraintKind.code_injective : Function.Injective ConstraintKind.code := by
  intro a b h
  cases a <;> cases b <;> first | rfl | exact absurd h (by decide)

theorem ConstraintScope.code_injective : Function.Injective ConstraintScope.code := by
  intro a b h
  cases a <;> cases b <;> first | rfl | exact absurd h (by decide)

theorem LatencySource.code_injective : Function.Injective LatencySource.code := by
  intro a b h
  cases a <;> cases b <;> first | rfl | exact absurd h (by decide)

theorem DomainKind.code_injective : Function.Injective DomainKind.code := by
  intro a b h
  cases a <;> cases b <;> first | rfl | exact absurd h (by decide)

theorem DomainRelation.code_injective : Function.Injective DomainRelation.code := by
  intro a b h
  cases a <;> cases b <;> first | rfl | exact absurd h (by decide)

theorem UnknownPolicy.code_injective : Function.Injective UnknownPolicy.code := by
  intro a b h
  cases a <;> cases b <;> first | rfl | exact absurd h (by decide)

instance : Std.TransCmp comparePayload := by
  unfold comparePayload
  infer_instance

instance : Std.TransCmp canonicalCompare := by
  unfold canonicalCompare
  infer_instance

/-- Payloads compare equal exactly when they are equivalent. -/
theorem comparePayload_eq_iff {a b : Constraint} :
    comparePayload a b = .eq ↔ equivalentPayload a b = true := by
  simp only [comparePayload, compareLex_eq_eq, compareOn, Std.compare_eq_iff_eq,
    equivalentPayload, Bool.and_eq_true, beq_iff_eq, ConstraintKind.code_injective.eq_iff,
    ConstraintScope.code_injective.eq_iff, LatencySource.code_injective.eq_iff,
    DomainKind.code_injective.eq_iff, DomainRelation.code_injective.eq_iff,
    UnknownPolicy.code_injective.eq_iff]
  tauto

/-- Constraints compare equal in the canonical order only when they are equal. -/
theorem canonicalCompare_eq_iff {a b : Constraint} :
    canonicalCompare a b = .eq ↔ a = b := by
  simp only [canonicalCompare, compareLex_eq_eq, compareOn, Std.compare_eq_iff_eq,
    comparePayload_eq_iff]
  constructor
  · rintro ⟨hpayload, hid, hgeneration⟩
    cases a
    cases b
    simp_all [equivalentPayload]
  · rintro rfl
    simp [equivalentPayload]

end ConstraintRouting.Fabric
