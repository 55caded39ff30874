import ConstraintRouting.Fabric.Coordinator
import ConstraintRouting.Fabric.Snapshot

/-!
# Queries

The read-only entry points of the coordinator.  Only the handoffs ask for a scope.
-/

namespace ConstraintRouting.Fabric

open Verified.SortedLists

/-! ## Handoffs -/

/-- What a route fabric takes over from a result. -/
structure RouteFabricHandoff where
  setId : ConstraintSetId := {}
  setGeneration : ConstraintSetGeneration := {}
  path : PathId := {}
  authorityGeneration : PathAuthorityGeneration := {}
  evaluationId : ConstraintEvaluationId := {}
  evaluationGeneration : EvaluationGeneration := {}
  outcome : Outcome := .malformed
  evidence : EvidenceGenerationSet := {}
  digest : Digest256 := {}
deriving DecidableEq

def handoffOf (record : EvaluationRecord) : RouteFabricHandoff :=
  { setId := record.setId, setGeneration := record.setGeneration, path := record.path,
    authorityGeneration := record.authorityGeneration, evaluationId := record.id,
    evaluationGeneration := record.generation, outcome := record.outcome,
    evidence := record.evidence, digest := record.digest }

/-! ## Currentness -/

/-- Why a set's results may not be current. -/
inductive CurrentnessCause where
  | none | constraintSetStateChanged | constraintSetSuperseded
  | constraintSetGenerationAdvanced | pathAuthorityAdvanced | topologyAdvanced
  | linkStateAdvanced | capabilityAdvanced | failureDomainAdvanced | policyAdvanced
  | plannerAdvanced | evidenceRequirementChanged | dependencyInvalidated | epochAdvanced
  | recoveredUnproven | noCurrentResult
deriving DecidableEq

def CurrentnessCause.code : CurrentnessCause → UInt8
  | .none => 0
  | .constraintSetStateChanged => 1
  | .constraintSetSuperseded => 2
  | .constraintSetGenerationAdvanced => 3
  | .pathAuthorityAdvanced => 4
  | .topologyAdvanced => 5
  | .linkStateAdvanced => 6
  | .capabilityAdvanced => 7
  | .failureDomainAdvanced => 8
  | .policyAdvanced => 9
  | .plannerAdvanced => 10
  | .evidenceRequirementChanged => 11
  | .dependencyInvalidated => 12
  | .epochAdvanced => 13
  | .recoveredUnproven => 14
  | .noCurrentResult => 15

/-- The cause of a family whose watermark is ahead. -/
def advancedCause : EvidenceFamily → Option CurrentnessCause
  | .pathAuthority => some .pathAuthorityAdvanced
  | .topology => some .topologyAdvanced
  | .linkState => some .linkStateAdvanced
  | .capability => some .capabilityAdvanced
  | .failureDomain => some .failureDomainAdvanced
  | .policy => some .policyAdvanced
  | .planner => some .plannerAdvanced
  | .constraintSet | .none => none

structure CurrentnessReport where
  setId : ConstraintSetId := {}
  setGeneration : ConstraintSetGeneration := {}
  state : ConstraintSetState := .declared
  evaluationGeneration : EvaluationGeneration := {}
  requiredEvidence : EvidenceRequirements := {}
  publishedEvidence : EvidenceRequirements := {}
  currentResults : Nat := 0
  revalidationRequired : Nat := 0
  recoveredUnproven : Nat := 0
  publisherAuthorityLive : Bool := false
  causes : List CurrentnessCause := []
deriving DecidableEq

/-- The number of the set's records in the state. -/
def countResults (evaluations : List EvaluationRecord) (setId : ConstraintSetId)
    (state : ResultState) : Nat :=
  evaluations.countP fun record => record.setId == setId && record.state = state

/-- How a record shows in a snapshot of results. -/
def resultView (record : EvaluationRecord) : CandidateResultView :=
  { path := record.path, authorityGeneration := record.authorityGeneration,
    outcome := record.outcome, primaryReason := record.primaryReason, state := record.state,
    evaluationId := record.id, evaluationGeneration := record.generation,
    digest := record.digest }

namespace Impl

variable (impl : Impl)

/-- The current results of a set, for a caller that may read results. -/
def handoffs (context : AuthorityContext) (setId : ConstraintSetId) :
    Result (List RouteFabricHandoff) := do
  impl.authority.authorize context (scopeBit .readResults)
  let results := impl.evaluations.filter fun record =>
    record.setId == setId && record.state = .current
  return sortBy (compareOn (·.path)) (results.map handoffOf)

def getConstraintSet (setId : ConstraintSetId) : Result ConstraintSet :=
  match findSet impl.sets setId with
  | none => failure .notFound "constraint set is not known"
  | some set => .ok set

def constraintSetIds : List ConstraintSetId := impl.sets.map (·.id)

/-- The population that the last evaluations of a set retained. -/
def retainedCandidates (setId : ConstraintSetId) : Result (List CandidatePath) :=
  match findPopulation impl.populations setId with
  | none => failure .notFound "no retained candidate population"
  | some population => .ok population.candidates

/-- The current result of a path, through the index of current results. -/
def currentResult (setId : ConstraintSetId) (path : PathId) : Result EvaluationRecord :=
  match impl.current[(setId.value, path.value)]? with
  | none => failure .notFound "no current result for this path"
  | some found =>
      match impl.evaluations.find? (·.id == found) with
      | some record => .ok record
      | none => failure .notFound "current result index is inconsistent"

/-- Why the results of a set may not be current, by the numbers of its records in each
state. -/
def currentnessCauses (set : ConstraintSet) (count : ResultState → Nat) :
    List CurrentnessCause :=
  (if set.state ≠ .active then [.constraintSetStateChanged] else []) ++
  (if set.evidence ≠ impl.evidence then [.evidenceRequirementChanged] else []) ++
  (if 0 < count .revalidationRequired then [.dependencyInvalidated] else []) ++
  (if 0 < count .recoveredUnproven then [.recoveredUnproven] else []) ++
  (if count .current = 0 then [.noCurrentResult] else []) ++
  (kFamilies.filter fun family =>
    generationFor impl.evidence family < impl.watermarks.family family).filterMap
      advancedCause

/-- The report on a stored set, by the numbers of its records in each state. -/
def reportCurrentness (set : ConstraintSet) (setId : ConstraintSetId)
    (count : ResultState → Nat) : CurrentnessReport :=
  { setId
    setGeneration := set.generation
    state := set.state
    evaluationGeneration := impl.lastGeneration
    requiredEvidence := impl.evidence
    publishedEvidence := set.evidence
    currentResults := count .current
    revalidationRequired := count .revalidationRequired
    recoveredUnproven := count .recoveredUnproven
    publisherAuthorityLive := !impl.authority.liveRegistrations.isEmpty
    causes := sortUnique (compareOn (·.code)) (impl.currentnessCauses set count) }

def currentness (setId : ConstraintSetId) : Result CurrentnessReport :=
  match findSet impl.sets setId with
  | none => failure .notFound "constraint set is not known"
  | some set =>
      .ok (impl.reportCurrentness set setId (countResults impl.evaluations setId))

def snapshotDefinitions (setId : ConstraintSetId) : Result DefinitionsSnapshot :=
  match findSet impl.sets setId with
  | none => failure .notFound "constraint set is not known"
  | some set => .ok (Fabric.snapshotDefinitions set)

def snapshotResults (setId : ConstraintSetId) : Result ResultsSnapshot :=
  match findSet impl.sets setId with
  | none => failure .notFound "constraint set is not known"
  | some set =>
      let views := (impl.evaluations.filter (·.setId == setId)).map resultView
      .ok (Fabric.snapshotResults setId set.generation impl.lastGeneration views)

end Impl

end ConstraintRouting.Fabric
