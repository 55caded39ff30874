import ConstraintRouting.Fabric.Evaluator
import ConstraintRouting.Verified.RelationTables

/-!
# Precise invalidation

Monotone watermarks of evidence families and of single keys, the reverse index
from dependency keys to the evaluations that used them, and the dependency keys
of one evaluation.
-/

namespace ConstraintRouting.Fabric

open Verified.Readers.Reader (accept)

/-- Kind of dependency key an evaluation is bound to. -/
inductive InvalidationKeyKind where
  | constraintSet | path | node | link | capability | policy | failureDomain
  | localityDomain | isolationClass | planner | topology | linkState | pathAuthority
deriving DecidableEq

def InvalidationKeyKind.code : InvalidationKeyKind → UInt8
  | .constraintSet => 1
  | .path => 2
  | .node => 3
  | .link => 4
  | .capability => 5
  | .policy => 6
  | .failureDomain => 7
  | .localityDomain => 8
  | .isolationClass => 9
  | .planner => 10
  | .topology => 11
  | .linkState => 12
  | .pathAuthority => 13

theorem InvalidationKeyKind.code_injective :
    Function.Injective InvalidationKeyKind.code := by
  intro a b h
  cases a <;> cases b <;> first | rfl | exact absurd h (by decide)

@[ext]
structure InvalidationKey where
  kind : InvalidationKeyKind := .constraintSet
  value : UInt64 := 0
deriving DecidableEq

namespace InvalidationKey

/-- Keys are ordered by kind and then by value. -/
def cmp : InvalidationKey → InvalidationKey → Ordering :=
  compareLex (compareOn (·.kind.code)) (compareOn (·.value))

instance : Std.TransCmp cmp := by
  unfold cmp
  infer_instance

instance : Std.LawfulEqCmp cmp where
  eq_of_compare {a b} h := by
    simp only [cmp, compareLex_eq_eq, compareOn, Std.compare_eq_iff_eq] at h
    exact InvalidationKey.ext (InvalidationKeyKind.code_injective h.1) h.2

end InvalidationKey

/-! ## Watermarks -/

theorem EvidenceFamily.code_injective : Function.Injective EvidenceFamily.code := by
  intro a b h
  cases a <;> cases b <;> first | rfl | exact absurd h (by decide)

/-- Families are ordered by their protocol value. -/
def EvidenceFamily.cmp : EvidenceFamily → EvidenceFamily → Ordering :=
  compareOn EvidenceFamily.code

instance : Std.TransCmp EvidenceFamily.cmp := by
  unfold EvidenceFamily.cmp
  infer_instance

instance : Std.LawfulEqCmp EvidenceFamily.cmp where
  eq_of_compare {a b} h := by
    simp only [EvidenceFamily.cmp, compareOn, Std.compare_eq_iff_eq] at h
    exact EvidenceFamily.code_injective h

/-- Monotone invalidation watermarks. -/
structure Watermarks where
  families : Std.ExtTreeMap EvidenceFamily UInt64 EvidenceFamily.cmp := ∅
  keys : Std.ExtTreeMap InvalidationKey UInt64 InvalidationKey.cmp := ∅

namespace Watermarks

def family (watermarks : Watermarks) (family : EvidenceFamily) : UInt64 :=
  watermarks.families.getD family 0

/-- Advances a family watermark; refused unless strictly greater than a stored
one. -/
def advanceFamily (watermarks : Watermarks) (family : EvidenceFamily)
    (generation : UInt64) : Option Watermarks :=
  if watermarks.families[family]?.any (generation ≤ ·) then none
  else some { watermarks with families := watermarks.families.insert family generation }

def key (watermarks : Watermarks) (key : InvalidationKey) : UInt64 :=
  watermarks.keys.getD key 0

/-- Advances a key watermark; refused unless strictly greater than a stored
one. -/
def advanceKey (watermarks : Watermarks) (key : InvalidationKey) (watermark : UInt64) :
    Option Watermarks :=
  if watermarks.keys[key]?.any (watermark ≤ ·) then none
  else some { watermarks with keys := watermarks.keys.insert key watermark }

end Watermarks

/-! ## Index -/

/-- Reverse index from dependency keys to the evaluations that used them. -/
structure InvalidationIndex where
  forward : Std.ExtTreeMap InvalidationKey (Std.ExtTreeSet ConstraintEvaluationId)
    InvalidationKey.cmp := ∅
  reverse : Std.ExtTreeMap ConstraintEvaluationId
    (Std.ExtTreeSet InvalidationKey InvalidationKey.cmp) := ∅

namespace InvalidationIndex

/-- Binds an evaluation to a key; an invalid identity is refused and the index
stays as it is. -/
def bind (index : InvalidationIndex) (key : InvalidationKey)
    (evaluation : ConstraintEvaluationId) : InvalidationIndex :=
  if !evaluation.isValid then index
  else
    { forward := index.forward.alter key fun bound =>
        some ((bound.getD ∅).insert evaluation)
      reverse := index.reverse.alter evaluation fun bound =>
        some ((bound.getD ∅).insert key) }

/-- Unbinds an evaluation from every key; a key without evaluations is dropped. -/
def unbind (index : InvalidationIndex) (evaluation : ConstraintEvaluationId) :
    InvalidationIndex :=
  match index.reverse[evaluation]? with
  | none => index
  | some keys =>
      { forward := keys.toList.foldl
          (fun forward key => Verified.RelationTables.unlink forward key evaluation)
          index.forward
        reverse := index.reverse.erase evaluation }

def clear (_ : InvalidationIndex) : InvalidationIndex := {}

/-- The evaluations bound to a key. -/
def dependents (index : InvalidationIndex) (key : InvalidationKey) :
    List ConstraintEvaluationId :=
  (index.forward.getD key ∅).toList

/-- Every tracked key whose kind is listed. -/
def keysOfKinds (index : InvalidationIndex) (kinds : List InvalidationKeyKind) :
    List InvalidationKey :=
  index.forward.keys.filter fun key => key.kind ∈ kinds

/-- Every entry of one map has its counterpart in the other. -/
def validate (index : InvalidationIndex) : Status := do
  index.forward.toList.forM fun entry =>
    entry.2.toList.forM fun evaluation =>
      failIf (!index.reverse[evaluation]?.any (·.contains entry.1)) .internal
        "invalidation index forward entry has no reverse entry"
  index.reverse.toList.forM fun entry => do
    failIf entry.2.isEmpty .internal
      "invalidation index reverse entry has no dependency keys"
    entry.2.toList.forM fun key =>
      failIf (!index.forward[key]?.any (·.contains entry.1)) .internal
        "invalidation index reverse entry has no forward entry"

end InvalidationIndex

/-! ## Dependency keys -/

/-- The keys of a path's nodes and links. -/
def nodeKeys (candidate : CandidatePath) : List InvalidationKey :=
  candidate.nodes.map fun node => ⟨.node, node.node.value⟩

def linkKeys (candidate : CandidatePath) : List InvalidationKey :=
  candidate.links.map fun link => ⟨.link, link.link.value⟩

def topologyKeys (candidate : CandidatePath) : List InvalidationKey :=
  ⟨.topology, 0⟩ :: nodeKeys candidate ++
    (candidate.nodes.flatMap fun node =>
      node.localities.map fun locality => ⟨.localityDomain, locality.domain.value⟩) ++
    linkKeys candidate

def capabilityKeys (set : ConstraintSet) (candidate : CandidatePath) :
    List InvalidationKey :=
  ⟨.capability, 0⟩ ::
    (set.constraints.flatMap fun constraint =>
      constraint.capabilities.map fun capability => ⟨.capability, capability.value⟩) ++
    nodeKeys candidate ++ linkKeys candidate ++
    ((entitiesOf candidate).flatMap fun entity =>
      entity.capabilities.map fun ref => ⟨.capability, ref.capability.value⟩)

def failureDomainKeys (candidate : CandidatePath) : List InvalidationKey :=
  ⟨.failureDomain, 0⟩ :: nodeKeys candidate ++ linkKeys candidate ++
    ((entitiesOf candidate).flatMap fun entity =>
      (entity.domains.map fun ref => ⟨.failureDomain, ref.domain.value⟩) ++
        entity.isolation.map fun ref => ⟨.isolationClass, ref.isolationClass.value⟩)

def policyKeys (candidate : CandidatePath) : List InvalidationKey :=
  ⟨.policy, 0⟩ :: candidate.policies.map fun ref => ⟨.policy, ref.policy.value⟩

/-- The keys of one consulted family. -/
def familyKeys (consulted : EvidenceFamilyMask) (family : EvidenceFamily)
    (keys : List InvalidationKey) : List InvalidationKey :=
  if consults consulted family then keys else []

/-- The keys a record depends on, before they are sorted and deduplicated. -/
def collectedKeys (record : EvaluationRecord) (set : ConstraintSet)
    (candidate : CandidatePath) : List InvalidationKey :=
  let consulted := record.consulted
  [⟨.constraintSet, set.id.value⟩, ⟨.path, candidate.path.value⟩] ++
    familyKeys consulted .topology (topologyKeys candidate) ++
    familyKeys consulted .capability (capabilityKeys set candidate) ++
    familyKeys consulted .failureDomain (failureDomainKeys candidate) ++
    familyKeys consulted .policy (policyKeys candidate) ++
    familyKeys consulted .planner [⟨.planner, 0⟩] ++
    familyKeys consulted .linkState [⟨.linkState, 0⟩] ++
    familyKeys consulted .pathAuthority [⟨.pathAuthority, 0⟩]

/-- The exact dependency keys of one evaluation, in key order. -/
def dependencyKeys (record : EvaluationRecord) (set : ConstraintSet)
    (candidate : CandidatePath) : List InvalidationKey :=
  (Std.ExtTreeSet.ofList (collectedKeys record set candidate) InvalidationKey.cmp).toList

/-! ## Encoding -/

/-- The evidence families that carry a generation. -/
def kFamilies : List EvidenceFamily :=
  [.topology, .linkState, .capability, .failureDomain, .policy, .planner, .pathAuthority]

/-- The record is current, and no watermark of a family that it consulted is past the
evidence that it is bound to. -/
def evaluationCurrent (record : EvaluationRecord) (watermarks : Watermarks) : Bool :=
  record.state = .current &&
    kFamilies.all fun family =>
      !consults record.consulted family ||
        !decide (evidenceGenerationOf record.evidence family < watermarks.family family)

def encodeWatermarks (watermarks : Watermarks) : List UInt8 :=
  ByteWriter.putAll (fun (entry : InvalidationKey × UInt64) =>
    ByteWriter.putU8 entry.1.kind.code ++ ByteWriter.putU8 0 ++ ByteWriter.putU16 0 ++
    ByteWriter.putU32 0 ++ ByteWriter.putU64 entry.1.value ++ ByteWriter.putU64 entry.2)
    watermarks.keys.toList ++
  ByteWriter.putAll (fun family =>
    ByteWriter.putU8 family.code ++ ByteWriter.putU8 0 ++ ByteWriter.putU16 0 ++
    ByteWriter.putU32 0 ++ ByteWriter.putU64 (watermarks.family family))
    kFamilies

/-! ## Decoding -/

def InvalidationKeyKind.read : ByteReader.Reader InvalidationKeyKind :=
  ByteReader.enum8
    [.constraintSet, .path, .node, .link, .capability, .policy, .failureDomain,
     .localityDomain, .isolationClass, .planner, .topology, .linkState, .pathAuthority]
    InvalidationKeyKind.code

def readKeyWatermark : ByteReader.Reader (InvalidationKey × UInt64) := do
  let kind ← InvalidationKeyKind.read
  ByteReader.padding8
  ByteReader.padding16
  ByteReader.padding32
  let value ← ByteReader.u64
  let watermark ← ByteReader.u64
  return (⟨kind, value⟩, watermark)

def readFamilyWatermark : ByteReader.Reader (EvidenceFamily × UInt64) := do
  let family ← EvidenceFamily.read
  ByteReader.padding8
  ByteReader.padding16
  ByteReader.padding32
  let watermark ← ByteReader.u64
  accept (family != .none)
  return (family, watermark)

/-- Advances what each entry names; a refused entry changes nothing. -/
def restoreKeys (watermarks : Watermarks) (entries : List (InvalidationKey × UInt64)) :
    Watermarks :=
  entries.foldl (fun watermarks entry =>
    (watermarks.advanceKey entry.1 entry.2).getD watermarks) watermarks

def restoreFamilies (watermarks : Watermarks) (entries : List (EvidenceFamily × UInt64)) :
    Watermarks :=
  entries.foldl (fun watermarks entry =>
    (watermarks.advanceFamily entry.1 entry.2).getD watermarks) watermarks

/-- Decodes the watermarks: keys in ascending order, then the seven families. -/
def decodeWatermarks (limits : Limits) : ByteReader.Reader Watermarks := do
  let keys ← ByteReader.all limits.maxDecodedCount readKeyWatermark
  accept (Verified.SortedLists.strictlyAscending InvalidationKey.cmp (keys.map (·.1)))
  let families ← ByteReader.all 16 readFamilyWatermark
  accept (families.length = 7)
  return restoreFamilies (restoreKeys {} keys) families

end ConstraintRouting.Fabric
