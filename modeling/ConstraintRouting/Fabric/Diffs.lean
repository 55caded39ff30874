import ConstraintRouting.Fabric.Snapshot
import ConstraintRouting.Verified.KeyedDiffs

/-!
# Diffs

What changed between two definitions of a constraint set, and between two results
snapshots.
-/

namespace ConstraintRouting.Fabric

open Verified.KeyedDiffs
open Verified.SortedLists

/-! ## Results -/

inductive ResultChangeKind where
  | appeared | disappeared | outcomeChanged | reasonChanged | currentnessChanged
  | authorityGenerationChanged | evidenceDigestChanged
deriving DecidableEq

def ResultChangeKind.code : ResultChangeKind → UInt8
  | .appeared => 1
  | .disappeared => 2
  | .outcomeChanged => 3
  | .reasonChanged => 4
  | .currentnessChanged => 5
  | .authorityGenerationChanged => 6
  | .evidenceDigestChanged => 7

structure ResultChange where
  kind : ResultChangeKind := .appeared
  path : PathId := {}
  fromOutcome : Outcome := .malformed
  toOutcome : Outcome := .malformed
  fromReason : ReasonCode := .none
  toReason : ReasonCode := .none
  fromState : ResultState := .current
  toState : ResultState := .current
deriving DecidableEq

structure ResultsDiff where
  fromSnapshot : SnapshotId := {}
  toSnapshot : SnapshotId := {}
  fromGeneration : ConstraintSetGeneration := {}
  toGeneration : ConstraintSetGeneration := {}
  fromEvaluationGeneration : EvaluationGeneration := {}
  toEvaluationGeneration : EvaluationGeneration := {}
  changes : List ResultChange := []
  fromDigest : Digest256 := {}
  toDigest : Digest256 := {}
deriving DecidableEq

/-- Only the newest result per path participates in a diff. -/
def keepNewest (newest : Std.ExtTreeMap PathId CandidateResultView)
    (entry : CandidateResultView) : Std.ExtTreeMap PathId CandidateResultView :=
  match newest[entry.path]? with
  | none => newest.insert entry.path entry
  | some previous =>
      if previous.evaluationGeneration.value < entry.evaluationGeneration.value then
        newest.insert entry.path entry
      else newest

def newestEntries (entries : List CandidateResultView) :
    Std.ExtTreeMap PathId CandidateResultView :=
  entries.foldl keepNewest ∅

/-- A path that the later snapshot does not have. -/
def resultDisappeared (_ : PathId) (before : CandidateResultView) : ResultChange :=
  { kind := .disappeared, path := before.path, fromOutcome := before.outcome,
    fromReason := before.primaryReason, fromState := before.state }

/-- A path that the earlier snapshot does not have. -/
def resultAppeared (_ : PathId) (after : CandidateResultView) : ResultChange :=
  { kind := .appeared, path := after.path, toOutcome := after.outcome,
    toReason := after.primaryReason, toState := after.state }

/-- The first aspect in which two results of a path differ. -/
def resultChanged (_ : PathId) (before after : CandidateResultView) : Option ResultChange :=
  if before.outcome != after.outcome then
    some { kind := .outcomeChanged, path := before.path, fromOutcome := before.outcome,
           toOutcome := after.outcome, fromReason := before.primaryReason,
           toReason := after.primaryReason, fromState := before.state,
           toState := after.state }
  else if before.primaryReason != after.primaryReason then
    some { kind := .reasonChanged, path := before.path, fromOutcome := before.outcome,
           toOutcome := after.outcome, fromReason := before.primaryReason,
           toReason := after.primaryReason, fromState := before.state,
           toState := after.state }
  else if before.state != after.state then
    some { kind := .currentnessChanged, path := before.path, fromState := before.state,
           toState := after.state }
  else if before.authorityGeneration != after.authorityGeneration then
    some { kind := .authorityGenerationChanged, path := before.path,
           fromState := before.state, toState := after.state }
  else if before.digest != after.digest then
    some { kind := .evidenceDigestChanged, path := before.path, fromState := before.state,
           toState := after.state }
  else none

/-- Changes are ordered by path, kind and final reason. -/
def compareResultChange : ResultChange → ResultChange → Ordering :=
  compareLex (compareOn (·.path)) <|
    compareLex (compareOn (·.kind.code)) (compareOn (·.toReason.code))

def diffResults (earlier later : ResultsSnapshot) : ResultsDiff :=
  let left := newestEntries earlier.entries
  let right := newestEntries later.entries
  { fromSnapshot := earlier.id
    toSnapshot := later.id
    fromGeneration := earlier.setGeneration
    toGeneration := later.setGeneration
    fromEvaluationGeneration := earlier.evaluationGeneration
    toEvaluationGeneration := later.evaluationGeneration
    changes := sortBy compareResultChange
      (leftPass resultDisappeared resultChanged left right ++
        rightPass resultAppeared left right)
    fromDigest := earlier.digest
    toDigest := later.digest }

/-! ## Definitions -/

inductive ConstraintChangeKind where
  | added | removed | changed
deriving DecidableEq

def ConstraintChangeKind.code : ConstraintChangeKind → UInt8
  | .added => 1
  | .removed => 2
  | .changed => 3

structure ConstraintChange where
  kind : ConstraintChangeKind := .added
  constraint : ConstraintId := {}
  constraintKind : ConstraintKind := .unset
deriving DecidableEq

structure ConstraintSetDiff where
  setId : ConstraintSetId := {}
  fromGeneration : ConstraintSetGeneration := {}
  toGeneration : ConstraintSetGeneration := {}
  evidenceRequirementsChanged : Bool := false
  rankingPolicyChanged : Bool := false
  lifecycleChanged : Bool := false
  fromState : ConstraintSetState := .declared
  toState : ConstraintSetState := .declared
  changes : List ConstraintChange := []
  fromDigest : Digest256 := {}
  toDigest : Digest256 := {}
deriving DecidableEq

/-- Identity, generation and payload agree. -/
def semanticallyEqual (a b : Constraint) : Bool :=
  a.id == b.id && a.generation == b.generation && equivalentPayload a b

/-- The constraints by identity; the first of each identity stays. -/
def constraintsById (constraints : List Constraint) :
    Std.ExtTreeMap ConstraintId Constraint :=
  constraints.foldl (fun known constraint => known.insertIfNew constraint.id constraint) ∅

def constraintRemoved (id : ConstraintId) (before : Constraint) : ConstraintChange :=
  ⟨.removed, id, before.kind⟩

def constraintAdded (id : ConstraintId) (after : Constraint) : ConstraintChange :=
  ⟨.added, id, after.kind⟩

def constraintChanged (id : ConstraintId) (before after : Constraint) :
    Option ConstraintChange :=
  if !semanticallyEqual before after then some ⟨.changed, id, after.kind⟩ else none

/-- Some required generation or the age bound differs. -/
def evidenceRequirementsDiffer (before after : EvidenceRequirements) : Bool :=
  before.topology != after.topology || before.linkState != after.linkState ||
    before.capability != after.capability || before.failureDomain != after.failureDomain ||
    before.policy != after.policy || before.planner != after.planner ||
    before.pathAuthority != after.pathAuthority ||
    before.maxEvidenceAgeTicks != after.maxEvidenceAgeTicks

/-- Changes are ordered by kind, identity and constraint kind. -/
def compareConstraintChange : ConstraintChange → ConstraintChange → Ordering :=
  compareLex (compareOn (·.kind.code)) <|
    compareLex (compareOn (·.constraint)) (compareOn (·.constraintKind.code))

def diffConstraintSets (earlier later : ConstraintSet) : ConstraintSetDiff :=
  let left := constraintsById earlier.constraints
  let right := constraintsById later.constraints
  { setId := later.id
    fromGeneration := earlier.generation
    toGeneration := later.generation
    fromState := earlier.state
    toState := later.state
    lifecycleChanged := earlier.state != later.state
    evidenceRequirementsChanged := evidenceRequirementsDiffer earlier.evidence later.evidence
    rankingPolicyChanged := earlier.ranking != later.ranking
    fromDigest := earlier.digest
    toDigest := later.digest
    changes := sortBy compareConstraintChange
      (leftPass constraintRemoved constraintChanged left right ++
        rightPass constraintAdded left right) }

end ConstraintRouting.Fabric
