import ConstraintRouting.Fabric.Lifecycle
import ConstraintRouting.Fabric.Ordering

/-!
# Constraint sets, canonicalization, contradictions

A declared set of constraints with its evidence requirements and its ranking
policy; its canonicalization, the contradictions of a canonical set, its digest,
the verification of a set that claims to be canonical, and its encoding.
-/

namespace ConstraintRouting.Fabric

open Verified.SortedLists
open Verified.Checks (isOk)
open Verified.Readers.Reader (accept)

/-- Kind of deterministic contradiction found in a constraint set. -/
inductive ContradictionKind where
  | requiredAndForbiddenSameEntity | conflictingLocalityScopes
  | conflictingIsolationClasses | failureDomainRelationConflict | impossibleHopBudget
deriving DecidableEq

structure Contradiction where
  kind : ContradictionKind := .requiredAndForbiddenSameEntity
  first : ConstraintId := {}
  second : ConstraintId := {}
  subjectKind : SubjectKind := .none
  subject : UInt64 := 0
deriving DecidableEq

/-- Non-fatal observation recorded during canonicalization. -/
inductive SetDefectKind where
  | equivalentDuplicateCollapsed | entityListReordered | duplicateEntityCollapsed
  | constraintsReordered
deriving DecidableEq

structure SetDefect where
  kind : SetDefectKind := .constraintsReordered
  constraint : ConstraintId := {}
  count : UInt32 := 0
deriving DecidableEq

/-- A declared set of mandatory and preference constraints. -/
structure ConstraintSet where
  id : ConstraintSetId := {}
  generation : ConstraintSetGeneration := {}
  state : ConstraintSetState := .declared
  name : List UInt8 := []
  constraints : List Constraint := []
  evidence : EvidenceRequirements := {}
  ranking : RankingPolicy := {}
  digest : Digest256 := {}
  declaredTick : UInt64 := 0
deriving DecidableEq

/-! ## Digest -/

def feedEvidenceRequirements (evidence : EvidenceRequirements) : List UInt8 :=
  SemanticHasher.putGeneration evidence.topology ++
  SemanticHasher.putGeneration evidence.linkState ++
  SemanticHasher.putGeneration evidence.capability ++
  SemanticHasher.putGeneration evidence.failureDomain ++
  SemanticHasher.putGeneration evidence.policy ++
  SemanticHasher.putGeneration evidence.planner ++
  SemanticHasher.putGeneration evidence.pathAuthority ++
  SemanticHasher.putU64 evidence.maxEvidenceAgeTicks

/-- The bytes of a set's definition; name and lifecycle state are excluded. -/
def feedConstraintSet (set : ConstraintSet) : List UInt8 :=
  SemanticHasher.putId set.id ++
  SemanticHasher.putGeneration set.generation ++
  SemanticHasher.putAll feedDigest set.constraints ++
  feedEvidenceRequirements set.evidence ++
  feedRankingPolicy set.ranking

/-- Semantic digest of a canonical constraint set. -/
def constraintSetDigest (set : ConstraintSet) : Digest256 :=
  digestOf "crf.constraint-set.v1" (feedConstraintSet set)

/-! ## Contradictions -/

/-- The constraints of one kind, in set order. -/
def bucketOf (set : ConstraintSet) (kind : ConstraintKind) : List Constraint :=
  set.constraints.filter (·.kind == kind)

/-- Entities that one constraint requires and another forbids. -/
def addSameEntityContradictions {domain : IdentityDomain}
    (required forbidden : List Constraint) (subjectKind : SubjectKind)
    (member : Constraint → List (StrongId domain)) : List Contradiction :=
  required.flatMap fun positive =>
    forbidden.flatMap fun negative =>
      ((member positive).filter (· ∈ member negative)).map fun value =>
        { kind := .requiredAndForbiddenSameEntity, first := positive.id,
          second := negative.id, subjectKind, subject := value.value }

/-- Every pair of list elements, the earlier one first. -/
def orderedPairs {α : Type} : List α → List (α × α)
  | [] => []
  | a :: rest => rest.map (a, ·) ++ orderedPairs rest

/-- A path cannot be confined to two domains of one kind. -/
def localityContradictions (set : ConstraintSet) : List Contradiction :=
  ((orderedPairs (bucketOf set .localityScope)).filter fun (a, b) =>
      a.domainKind == b.domainKind && a.localityDomain != b.localityDomain).map
    fun (a, b) =>
      { kind := .conflictingLocalityScopes, first := a.id, second := b.id,
        subjectKind := .localityDomain, subject := b.localityDomain.value }

/-- A path is proven to be in exactly one isolation class. -/
def isolationContradictions (set : ConstraintSet) : List Contradiction :=
  ((orderedPairs (bucketOf set .isolationClass)).filter fun (a, b) =>
      a.isolationClass != b.isolationClass).map fun (a, b) =>
    { kind := .conflictingIsolationClasses, first := a.id, second := b.id,
      subjectKind := .isolationClass, subject := b.isolationClass.value }

/-- Required distinct counts against forbidden relations of the same kind. -/
def relationContradictions (set : ConstraintSet) : List Contradiction :=
  (bucketOf set .requiredFailureDomainRelation).flatMap fun required =>
    ((bucketOf set .forbiddenFailureDomainRelation).filter fun forbidden =>
        required.domainKind == forbidden.domainKind &&
          match forbidden.domainRelation with
          | .shared => 2 ≤ required.bound
          | .distinct => forbidden.bound ≤ required.bound
          | .unset => false).map fun forbidden =>
      { kind := .failureDomainRelationConflict, first := required.id,
        second := forbidden.id, subjectKind := .failureDomain,
        subject := required.domainKind.code.toUInt64 }

/-- A hop budget below the distinct required nodes less one. -/
def hopBudgetContradictions (set : ConstraintSet) : List Contradiction :=
  let requiredNodes := ((bucketOf set .requiredNode).flatMap (·.nodes)).dedup
  let needed : Int64 := Int64.ofNat requiredNodes.length - 1
  ((bucketOf set .maxHopCount).filter fun budget => budget.bound < needed).map
    fun budget =>
      { kind := .impossibleHopBudget, first := budget.id, second := {},
        subjectKind := .constraint, subject := needed.toUInt64 }

/-- The contradictions of an already canonical set, in the source's order. -/
def contradictionsOf (set : ConstraintSet) : List Contradiction :=
  addSameEntityContradictions (bucketOf set .requiredNode) (bucketOf set .forbiddenNode)
    .node (·.nodes) ++
  addSameEntityContradictions (bucketOf set .requiredLink) (bucketOf set .forbiddenLink)
    .link (·.links) ++
  addSameEntityContradictions (bucketOf set .requiredTier) (bucketOf set .forbiddenTier)
    .tier (·.tiers) ++
  addSameEntityContradictions (bucketOf set .requiredSite) (bucketOf set .forbiddenSite)
    .site (·.sites) ++
  addSameEntityContradictions (bucketOf set .requiredCapability)
    (bucketOf set .forbiddenCapability) .capability (·.capabilities) ++
  localityContradictions set ++ isolationContradictions set ++
  relationContradictions set ++ hopBudgetContradictions set

/-- Detects deterministic contradictions on an already canonical set. -/
def detectContradictions (set : ConstraintSet) (limits : Limits) : Status := do
  failIf (!listWithin set.constraints limits.maxConstraintsPerSet) .resourceLimit
    "constraint set exceeds the constraint limit"
  failIf (!(contradictionsOf set).isEmpty) .contradictoryConstraintSet
    "constraint set contains a deterministic contradiction"

/-! ## Canonicalization -/

/-- One entity list in canonical form, with the observation it gave. -/
def canonicalizeEntityList {domain : IdentityDomain} (id : ConstraintId)
    (list : List (StrongId domain)) : List (StrongId domain) × List SetDefect :=
  let canonical := sortUnique compare list
  let defects : List SetDefect :=
    if canonical.length != list.length then [⟨.duplicateEntityCollapsed, id, 1⟩]
    else if canonical != list then [⟨.entityListReordered, id, 1⟩]
    else []
  (canonical, defects)

/-- A constraint with every entity list in canonical form. -/
def canonicalizeEntities (constraint : Constraint) : Constraint × List SetDefect :=
  let id := constraint.id
  let nodes := canonicalizeEntityList id constraint.nodes
  let links := canonicalizeEntityList id constraint.links
  let tiers := canonicalizeEntityList id constraint.tiers
  let sites := canonicalizeEntityList id constraint.sites
  let capabilities := canonicalizeEntityList id constraint.capabilities
  let policies := canonicalizeEntityList id constraint.policies
  ({ constraint with
      nodes := nodes.1, links := links.1, tiers := tiers.1, sites := sites.1,
      capabilities := capabilities.1, policies := policies.1 },
   nodes.2 ++ links.2 ++ tiers.2 ++ sites.2 ++ capabilities.2 ++ policies.2)

/-- Some identity describes two different payloads; `payloads` holds the first
payload seen for each identity. -/
def identityReused : Std.ExtTreeMap ConstraintId (List UInt8) → List Constraint → Bool
  | _, [] => false
  | payloads, constraint :: rest =>
      let payload := encodeConstraintPayload constraint
      match payloads[constraint.id]? with
      | none => identityReused (payloads.insert constraint.id payload) rest
      | some first => first != payload || identityReused payloads rest

/-- Drops each constraint whose payload equals that of the last one kept. -/
def collapseFrom (kept : Constraint) : List Constraint → List Constraint × List SetDefect
  | [] => ([kept], [])
  | constraint :: rest =>
      if equivalentPayload kept constraint then
        let (collapsed, defects) := collapseFrom kept rest
        (collapsed, ⟨.equivalentDuplicateCollapsed, kept.id, 1⟩ :: defects)
      else
        let (collapsed, defects) := collapseFrom constraint rest
        (kept :: collapsed, defects)

def collapse : List Constraint → List Constraint × List SetDefect
  | [] => ([], [])
  | constraint :: rest => collapseFrom constraint rest

/-- Canonicalizes a set and recomputes its digest; returns it with the
observations made. -/
def canonicalizeConstraintSet (set : ConstraintSet) (limits : Limits) :
    Result (ConstraintSet × List SetDefect) := do
  match validateLimits limits with
  | .ok () => pure ()
  | .error why => failure .invalidArgument why
  failIf (!set.id.isValid) .invalidArgument "constraint set identity must be non-zero"
  failIf (!set.generation.isValid) .invalidArgument
    "constraint set generation must be non-zero"
  failIf (!listWithin set.constraints limits.maxConstraintsPerSet) .resourceLimit
    "constraint set exceeds the constraint limit"
  failIf (!listWithin set.name limits.maxNameBytes) .resourceLimit
    "constraint set name exceeds the name limit"
  set.constraints.forM (validateConstraint · limits)
  let before := set.constraints.map (canonicalizeEntities · |>.1)
  failIf (identityReused ∅ before) .duplicateIdentity
    "the same constraint identity describes two different constraints"
  let (constraints, collapsedDefects) := collapse (sortBy canonicalCompare before)
  let reordered := constraints.length != before.length ||
    constraints.map (·.id) != before.map (·.id)
  let defects := set.constraints.flatMap (canonicalizeEntities · |>.2) ++ collapsedDefects ++
    if reordered then [⟨.constraintsReordered, {}, UInt32.ofNat before.length⟩] else []
  let canonical := { set with constraints }
  return ({ canonical with digest := constraintSetDigest canonical }, defects)

/-- Canonicalizes and then refuses a contradictory set. -/
def validateAndFinalizeConstraintSet (set : ConstraintSet) (limits : Limits) :
    Result (ConstraintSet × List SetDefect) := do
  let (working, defects) ← canonicalizeConstraintSet set limits
  detectContradictions working limits
  return (working, defects)

/-! ## Verification of a canonical set -/

/-- One constraint of a set that claims to be canonical, after its predecessor. -/
def verifyConstraint (limits : Limits) (previous : Option Constraint)
    (constraint : Constraint) : Status := do
  validateConstraint constraint limits
  failIf (!strictlyAscending compare constraint.nodes ||
      !strictlyAscending compare constraint.links ||
      !strictlyAscending compare constraint.tiers ||
      !strictlyAscending compare constraint.sites ||
      !strictlyAscending compare constraint.capabilities ||
      !strictlyAscending compare constraint.policies) .malformed
    "persisted constraint entity lists are not canonical"
  failIf (previous.any fun last => !canonicalLess last constraint) .malformed
    "persisted constraint ordering is not canonical"
  failIf (previous.any (·.id == constraint.id)) .duplicateIdentity
    "duplicate constraint identity"

def verifyConstraints (limits : Limits) : Option Constraint → List Constraint → Status
  | _, [] => .ok ()
  | previous, constraint :: rest => do
      verifyConstraint limits previous constraint
      verifyConstraints limits (some constraint) rest

/-- Validates an already canonical set: order, digest, no contradiction. -/
def verifyCanonicalConstraintSet (set : ConstraintSet) (limits : Limits) : Status := do
  failIf (!set.id.isValid || !set.generation.isValid) .invalidArgument
    "constraint set identity must be non-zero"
  failIf (!listWithin set.constraints limits.maxConstraintsPerSet) .resourceLimit
    "constraint set exceeds the constraint limit"
  verifyConstraints limits none set.constraints
  failIf (constraintSetDigest set != set.digest) .integrityMismatch
    "constraint set digest does not match its content"
  detectContradictions set limits

/-! ## Encoding -/

def encodeEvidenceRequirements (evidence : EvidenceRequirements) : List UInt8 :=
  ByteWriter.putGeneration evidence.topology ++
  ByteWriter.putGeneration evidence.linkState ++
  ByteWriter.putGeneration evidence.capability ++
  ByteWriter.putGeneration evidence.failureDomain ++
  ByteWriter.putGeneration evidence.policy ++
  ByteWriter.putGeneration evidence.planner ++
  ByteWriter.putGeneration evidence.pathAuthority ++
  ByteWriter.putU64 evidence.maxEvidenceAgeTicks

def encodeConstraintSet (set : ConstraintSet) : List UInt8 :=
  ByteWriter.putId set.id ++
  ByteWriter.putGeneration set.generation ++
  ByteWriter.putU8 set.state.code ++
  ByteWriter.putU8 0 ++
  ByteWriter.putU16 0 ++
  ByteWriter.putU32 0 ++
  ByteWriter.putString set.name ++
  ByteWriter.putU64 set.declaredTick ++
  encodeEvidenceRequirements set.evidence ++
  encodeRankingPolicy set.ranking ++
  ByteWriter.putAll encodeConstraint set.constraints ++
  ByteWriter.putRaw set.digest.bytes

/-! ## Decoding -/

def ConstraintSetState.read : ByteReader.Reader ConstraintSetState :=
  ByteReader.enum8
    [.declared, .active, .suspended, .revalidationRequired, .revoked, .superseded,
     .retired]
    ConstraintSetState.code

def decodeEvidenceRequirements : ByteReader.Reader EvidenceRequirements := do
  let topology ← ByteReader.generationField
  let linkState ← ByteReader.generationField
  let capability ← ByteReader.generationField
  let failureDomain ← ByteReader.generationField
  let policy ← ByteReader.generationField
  let planner ← ByteReader.generationField
  let pathAuthority ← ByteReader.generationField
  let maxEvidenceAgeTicks ← ByteReader.u64
  return { topology, linkState, capability, failureDomain, policy, planner, pathAuthority,
           maxEvidenceAgeTicks }

/-- Decodes a set that must already be canonical, its digest included. -/
def decodeConstraintSet (limits : Limits) : ByteReader.Reader ConstraintSet := do
  let id : ConstraintSetId ← ByteReader.id
  let generation : ConstraintSetGeneration ← ByteReader.generation
  let state ← ConstraintSetState.read
  ByteReader.padding8
  ByteReader.padding16
  ByteReader.padding32
  accept (id.isValid && Generation.isRepresentable generation.value)
  let name ← ByteReader.string
  accept (listWithin name limits.maxNameBytes)
  let declaredTick ← ByteReader.u64
  let evidence ← decodeEvidenceRequirements
  let ranking ← decodeRankingPolicy
  let constraints ← ByteReader.all limits.maxConstraintsPerSet (decodeConstraint limits)
  let digest ← Digest256.read
  let set : ConstraintSet :=
    { id, generation, state, name, constraints, evidence, ranking, digest, declaredTick }
  accept (isOk (verifyCanonicalConstraintSet set limits))
  return set

end ConstraintRouting.Fabric
