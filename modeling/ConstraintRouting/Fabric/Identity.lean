import Mathlib.Order.Compare
import Mathlib.Data.List.Sort
import Std.Data.ExtTreeMap
import Std.Data.ExtTreeSet

/-!
# Identities and generations

Every identity domain is one 64-bit value under its own tag, and every
generation domain one monotone 64-bit counter under its own tag.  Zero is never
a valid identity and means "not set" for a generation.
-/

namespace ConstraintRouting.Fabric

/-- The identity domains; each is the tag of one `StrongId` type. -/
inductive IdentityDomain where
  | constraintSet | constraint | constraintEvaluation | path | node | link
  | tier | site | localityDomain | failureDomain | capability | policy
  | isolationClass | publisher | workerBoot | mutationAttempt | snapshot
  | request | session
deriving DecidableEq

/-- The generation domains; each is the tag of one `Generation` type. -/
inductive GenerationDomain where
  | constraintSet | constraint | evaluation | pathAuthority | topology
  | linkState | capability | failureDomain | policy | planner | coordinatorEpoch
deriving DecidableEq

/-- A 64-bit identifier of one domain. -/
@[ext]
structure StrongId (domain : IdentityDomain) where
  value : UInt64 := 0
deriving DecidableEq

instance {domain : IdentityDomain} : LawfulBEq (StrongId domain) := instLawfulBEq

/-- A monotone 64-bit generation of one domain. -/
@[ext]
structure Generation (domain : GenerationDomain) where
  value : UInt64 := 0
deriving DecidableEq

abbrev ConstraintSetId := StrongId .constraintSet
abbrev ConstraintId := StrongId .constraint
abbrev ConstraintEvaluationId := StrongId .constraintEvaluation
abbrev PathId := StrongId .path
abbrev NodeId := StrongId .node
abbrev LinkId := StrongId .link
abbrev TierId := StrongId .tier
abbrev SiteId := StrongId .site
abbrev LocalityDomainId := StrongId .localityDomain
abbrev FailureDomainId := StrongId .failureDomain
abbrev CapabilityId := StrongId .capability
abbrev PolicyId := StrongId .policy
abbrev IsolationClassId := StrongId .isolationClass
abbrev PublisherId := StrongId .publisher
abbrev WorkerBootId := StrongId .workerBoot
abbrev MutationAttemptId := StrongId .mutationAttempt
abbrev SnapshotId := StrongId .snapshot
abbrev RequestId := StrongId .request
abbrev SessionId := StrongId .session

abbrev ConstraintSetGeneration := Generation .constraintSet
abbrev ConstraintGeneration := Generation .constraint
abbrev EvaluationGeneration := Generation .evaluation
abbrev PathAuthorityGeneration := Generation .pathAuthority
abbrev TopologyGeneration := Generation .topology
abbrev LinkStateGeneration := Generation .linkState
abbrev CapabilityGeneration := Generation .capability
abbrev FailureDomainGeneration := Generation .failureDomain
abbrev PolicyGeneration := Generation .policy
abbrev PlannerGeneration := Generation .planner
abbrev CoordinatorEpoch := Generation .coordinatorEpoch

namespace StrongId

variable {domain : IdentityDomain}

/-- Identities are ordered by their value. -/
instance : Ord (StrongId domain) := ⟨compareOn StrongId.value⟩

instance : LT (StrongId domain) := ltOfOrd

instance : Std.TransOrd (StrongId domain) :=
  inferInstanceAs (Std.TransCmp (compareOn StrongId.value))

instance : Std.LawfulEqOrd (StrongId domain) where
  eq_of_compare h := StrongId.ext (Std.LawfulEqOrd.eq_of_compare h)

/-- Zero is never a valid identity. -/
def isValid (id : StrongId domain) : Bool := id.value != 0

end StrongId

namespace Generation

variable {domain : GenerationDomain}

/-- Generations are ordered by their value. -/
instance : Ord (Generation domain) := ⟨compareOn Generation.value⟩

instance : LT (Generation domain) := ltOfOrd

instance : Std.TransOrd (Generation domain) :=
  inferInstanceAs (Std.TransCmp (compareOn Generation.value))

instance : Std.LawfulEqOrd (Generation domain) where
  eq_of_compare h := Generation.ext (Std.LawfulEqOrd.eq_of_compare h)

/-- The absolute ceiling: half of the largest 64-bit value. -/
def kMaxGeneration : UInt64 := 0x7fffffffffffffff

/-- Representable generations are positive and at most the ceiling. -/
def isRepresentable (value : UInt64) : Bool :=
  value != 0 && value ≤ kMaxGeneration

/-- A generation is set when it is not zero. -/
def isValid (generation : Generation domain) : Bool := generation.value != 0

/-- The next generation, or nothing at the ceiling. -/
def next (generation : Generation domain) : Option (Generation domain) :=
  if kMaxGeneration ≤ generation.value then none
  else some ⟨generation.value + 1⟩

end Generation

end ConstraintRouting.Fabric
