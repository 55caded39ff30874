import ConstraintRouting.Fabric.Persistence
import ConstraintRouting.Verified.KeyedTables

/-!
# Coordinator

The authoritative runtime.  Each entry point authorizes the caller, observes the
mutation attempt, stages its next durable state, writes it and only then publishes
it in memory.  A critical section is one function; `evaluate` is the two sections
`evaluateBegin` and `evaluateFinish` with a pure evaluation between them.
-/

namespace ConstraintRouting.Fabric

open Verified.SortedLists
open Verified.KeyedTables (replaceFirst)

/-- Out-of-band authority grant. -/
structure PublisherGrant where
  publisher : PublisherId := {}
  scopes : AuthorityScopeMask := 0
deriving DecidableEq

structure CoordinatorConfig where
  limits : Limits := {}
  storePath : String := ""
  grants : List PublisherGrant := []
  allowInitialize : Bool := true
  evidence : EvidenceRequirements := {}
  maxCandidatePopulations : UInt32 := 16
deriving DecidableEq

/-- Result keys are ordered by set and then by path. -/
def resultKeyCompare : UInt64 × UInt64 → UInt64 × UInt64 → Ordering :=
  compareLex (compareOn (·.1)) (compareOn (·.2))

instance : Std.TransCmp resultKeyCompare := by
  unfold resultKeyCompare
  infer_instance

/-- The coordinator's state under its lock. -/
structure Impl where
  config : CoordinatorConfig
  store : Option DurableStore := none
  authority : AuthorityRegistry := {}
  evidence : EvidenceRequirements := {}
  watermarks : Watermarks := {}
  sets : List ConstraintSet := []
  evaluations : List EvaluationRecord := []
  populations : List CandidatePopulation := []
  current : Std.ExtTreeMap (UInt64 × UInt64) ConstraintEvaluationId resultKeyCompare := ∅
  index : InvalidationIndex := {}
  lastGeneration : EvaluationGeneration := {}
  invalidationSequence : UInt64 := 0
  durable : Bool := false

/-- What the surroundings answer during one critical section: the successive
readings of the clock and the outcome of its durable write. -/
structure Call where
  clock : Nat → UInt64
  write : WriteOutcome := .written

/-! ## Lookups -/

/-- The first set with the identity. -/
def findSet (sets : List ConstraintSet) (id : ConstraintSetId) : Option ConstraintSet :=
  sets.find? (·.id == id)

/-- The first population of the set. -/
def findPopulation (populations : List CandidatePopulation) (setId : ConstraintSetId) :
    Option CandidatePopulation :=
  populations.find? (·.setId == setId)

/-- The retained candidate of a set for one path. -/
def findCandidate (populations : List CandidatePopulation) (setId : ConstraintSetId)
    (path : PathId) : Option CandidatePath :=
  ((populations.filter (·.setId == setId)).flatMap (·.candidates)).find? (·.path == path)

/-- Reduces the selected current records to revalidation-required. -/
def demote (selected : EvaluationRecord → Bool) (evaluations : List EvaluationRecord) :
    List EvaluationRecord :=
  evaluations.map fun record =>
    if selected record && record.state = .current then
      { record with state := .revalidationRequired }
    else record

namespace Impl

/-! ## Durable view and derived state -/

/-- The boots that hold live authority, each once. -/
def liveBoots (registry : AuthorityRegistry) : List WorkerBootId :=
  (registry.liveRegistrations.map (·.boot)).eraseDups

/-- Projects the authority registry into the durable view. -/
def refreshAuthorityProjection (registry : AuthorityRegistry) (state : PersistentState) :
    PersistentState :=
  { state with fencedBoots := registry.fenced.values, liveBoots := liveBoots registry }

/-- The durable view of the state. -/
def toState (impl : Impl) : PersistentState :=
  refreshAuthorityProjection impl.authority
    { epoch := impl.authority.epoch
      evidence := impl.evidence
      watermarks := impl.watermarks
      sets := impl.sets
      evaluations := impl.evaluations
      populations := impl.populations
      attempts := impl.authority.attempts
      lastEvaluationGeneration := impl.lastGeneration
      initialized := true }

/-- The records that stand as current. -/
def currentRecords (evaluations : List EvaluationRecord) : List EvaluationRecord :=
  evaluations.filter (·.state = .current)

/-- The keys that a record is bound to: none without its set and its candidate. -/
def boundKeys (sets : List ConstraintSet) (populations : List CandidatePopulation)
    (record : EvaluationRecord) : List InvalidationKey :=
  match findSet sets record.setId, findCandidate populations record.setId record.path with
  | some set, some candidate => dependencyKeys record set candidate
  | _, _ => []

/-- Binds each current record to its keys. -/
def rebuildIndex (sets : List ConstraintSet) (populations : List CandidatePopulation)
    (evaluations : List EvaluationRecord) : InvalidationIndex :=
  (currentRecords evaluations).foldl (fun index record =>
    (boundKeys sets populations record).foldl (fun index key => index.bind key record.id)
      index) {}

/-- Recomputes the current results and the invalidation index. -/
def rebuildDerived (impl : Impl) : Impl :=
  { impl with
    current := (currentRecords impl.evaluations).foldl (fun current record =>
      current.insert record.resultKey record.id) ∅
    index := rebuildIndex impl.sets impl.populations impl.evaluations }

/-- Publishes a state in memory. -/
def applyState (impl : Impl) (state : PersistentState) : Impl :=
  rebuildDerived { impl with
    evidence := state.evidence
    watermarks := state.watermarks
    sets := state.sets
    evaluations := state.evaluations
    populations := state.populations
    lastGeneration := state.lastEvaluationGeneration }

/-- Writes a state to the store of a durable coordinator. -/
def persist (impl : Impl) (state : PersistentState) (call : Call) : Impl × Status :=
  if !impl.durable then (impl, .ok ())
  else
    match impl.store with
    | none => (impl, .ok ())
    | some store =>
        let saved := store.save state call.write
        ({ impl with store := some saved.1 }, saved.2)

end Impl

/-! ## Staged operations -/

/-- An operation up to its durable write: it either replies without a write, or
writes `next` and then, when it `applies`, publishes it. -/
inductive Staged (α : Type) where
  | reply (impl : Impl) (result : Result α)
  | write (impl : Impl) (next : PersistentState) (applies : Bool) (value : α)

/-- Completes a staged operation; nothing is acknowledged before its write. -/
def Staged.settle {α : Type} (call : Call) : Staged α → Impl × Result α
  | .reply impl result => (impl, result)
  | .write impl next applies value =>
      match impl.persist next call with
      | (saved, .error error) => (saved, .error error)
      | (saved, .ok ()) => (if applies then saved.applyState next else saved, .ok value)

/-- Outcome of authorization and attempt observation. -/
inductive Admission where
  | refused (error : Error)
  | replay
  | fresh (impl : Impl)

/-- The shared prologue of the mutating entry points. -/
def authorizeAndObserve (impl : Impl) (context : AuthorityContext) (scope : AuthorityScope)
    (payload : Digest256) (tick : UInt64) : Admission :=
  match impl.authority.authorize context (scopeBit scope) with
  | .error error => .refused error
  | .ok () =>
      match impl.authority.observeAttempt context.attempt payload tick impl.config.limits with
      | .error error => .refused error
      | .ok (_, .conflict) =>
          .refused ⟨.mutationAttemptConflict,
            "mutation attempt identity was reused with a different payload"⟩
      | .ok (_, .exactReplay) => .replay
      | .ok (authority, .fresh) => .fresh { impl with authority }

/-! ## Authority -/

/-- The grant of a publisher. -/
def grantOf (config : CoordinatorConfig) (publisher : PublisherId) : Option PublisherGrant :=
  config.grants.find? (·.publisher == publisher)

def registerPublisher (impl : Impl) (context : AuthorityContext) (publisher : PublisherId)
    (boot : WorkerBootId) (scopes : AuthorityScopeMask) (session : SessionId) (call : Call) :
    Staged PublisherRegistration :=
  if !context.epoch.isValid || context.epoch != impl.authority.epoch then
    .reply impl (failure .epochMismatch
      "registration must carry the current coordinator epoch")
  else
    match grantOf impl.config publisher with
    | none =>
        .reply impl (failure .unauthorized
          "default deny: publisher holds no out-of-band authority grant on this coordinator")
    | some grant =>
        let effective := grant.scopes &&& scopes
        if effective = 0 then
          .reply impl (failure .unauthorized
            "default deny: the requested scopes are not granted")
        else
          let registration : PublisherRegistration :=
            { publisher, boot, session, scopes := effective, registeredTick := call.clock 0,
              registeredAt := impl.authority.epoch, live := true }
          match impl.authority.registerPublisher registration impl.config.limits with
          | (authority, .error error) => .reply { impl with authority } (.error error)
          | (authority, .ok ()) =>
              let next := { impl.toState with epoch := authority.epoch }
              .write { impl with authority }
                (Impl.refreshAuthorityProjection authority next) false registration

def fenceBoot (impl : Impl) (context : AuthorityContext) (boot : WorkerBootId)
    (call : Call) : Staged Unit :=
  match authorizeAndObserve impl context .administerFencing {} (call.clock 0) with
  | .refused error => .reply impl (.error error)
  | .replay => .reply impl (.ok ())
  | .fresh impl =>
      match impl.authority.fenceBoot boot impl.authority.epoch (call.clock 1)
          impl.config.limits with
      | .error error => .reply impl (.error error)
      | .ok authority =>
          let impl := { impl with authority }
          .write impl impl.toState false ()

/-- Fences the boot that owns a session observed to be lost; not a caller
request. -/
def fenceOnSessionLoss (impl : Impl) (session : SessionId) (call : Call) : Staged Unit :=
  match impl.authority.bootOfSession session with
  | none => .reply impl (.ok ())
  | some boot =>
      match impl.authority.fenceBoot boot impl.authority.epoch (call.clock 0)
          impl.config.limits with
      | .error error => .reply impl (.error error)
      | .ok fenced =>
          let authority := match fenced.dropSession session with
            | .ok dropped => dropped
            | .error _ => fenced
          let impl := { impl with authority }
          .write impl impl.toState false ()

def dropSession (impl : Impl) (context : AuthorityContext) (session : SessionId) :
    Staged Unit :=
  match impl.authority.authorize context (scopeBit .administerFencing) with
  | .error error => .reply impl (.error error)
  | .ok () =>
      match impl.authority.dropSession session with
      | .error error => .reply impl (.error error)
      | .ok authority => .reply { impl with authority } (.ok ())

def observeAttempt (impl : Impl) (context : AuthorityContext) (payload : Digest256)
    (call : Call) : Staged ReplayVerdict :=
  match impl.authority.observeAttempt context.attempt payload (call.clock 0)
      impl.config.limits with
  | .error error => .reply impl (.error error)
  | .ok (authority, verdict) => .reply { impl with authority } (.ok verdict)

/-! ## Constraint set definitions -/

/-- The payload that a publication records for its attempt. -/
def publishDigest (set : ConstraintSet) : Digest256 :=
  digestOf "crf.publish.v1" <|
    SemanticHasher.putId set.id ++ SemanticHasher.putAll feedDigest set.constraints

/-- The stored form of a finalized set against the one stored before. -/
def republish (existing finalized : ConstraintSet) : Result ConstraintSet :=
  if existing.digest = finalized.digest then
    -- Semantically identical republication advances nothing.
    .ok { finalized with generation := existing.generation, state := existing.state }
  else
    match existing.generation.next with
    | none =>
        failure .impossibleGeneration
          "constraint set generation cannot advance without wrapping"
    | some generation =>
        .ok { finalized with
          generation
          state := if existing.state = .active then .active else .revalidationRequired }

/-- The sets after a publication, with the set as it is stored. -/
def publishInto (limits : Limits) (sets : List ConstraintSet) (finalized : ConstraintSet) :
    Result (List ConstraintSet × ConstraintSet) :=
  match findSet sets finalized.id with
  | none =>
      if limits.maxConstraintSets.toNat ≤ sets.length then
        failure .resourceLimit "constraint set limit reached"
      else
        let stored := { finalized with generation := ⟨1⟩, state := .declared }
        .ok (sets ++ [stored], stored)
  | some existing =>
      match republish existing finalized with
      | .error error => .error error
      | .ok stored => .ok (replaceFirst (·.id == finalized.id) stored sets, stored)

def publishConstraintSet (impl : Impl) (context : AuthorityContext) (set : ConstraintSet)
    (call : Call) : Staged ConstraintSet :=
  match authorizeAndObserve impl context .publishConstraintSet (publishDigest set) (call.clock 0) with
  | .refused error => .reply impl (.error error)
  | .replay =>
      match findSet impl.sets set.id with
      | none =>
          .reply impl (failure .idempotentReplay
            "exact replay of a publication that is no longer present")
      | some existing => .reply impl (.ok existing)
  | .fresh impl =>
      match validateAndFinalizeConstraintSet { set with declaredTick := call.clock 1 }
          impl.config.limits with
      | .error error => .reply impl (.error error)
      | .ok (finalized, _) =>
          match publishInto impl.config.limits impl.sets finalized with
          | .error error => .reply impl (.error error)
          | .ok (sets, stored) =>
              let next := { impl.toState with
                sets
                evaluations := demote (·.setId == stored.id) impl.evaluations }
              .write impl next true ((findSet sets stored.id).getD stored)

/-- The payload that a lifecycle event records for its attempt. -/
def lifecycleDigest (setId : ConstraintSetId) (event : LifecycleEvent) : Digest256 :=
  digestOf "crf.lifecycle.v1" <|
    SemanticHasher.putId setId ++ SemanticHasher.putU8 event.code

/-- The fresh path of a lifecycle event on a known set. -/
def transition (impl : Impl) (target : ConstraintSet) (event : LifecycleEvent) :
    Staged ConstraintSet :=
  match applyLifecycleEvent target.state event with
  | .error rejection => .reply impl (failure .invalidArgument rejection)
  | .ok state =>
      let moved := { target with state }
      let sets := replaceFirst (·.id == target.id) moved impl.sets
      let evaluations :=
        if state ≠ .active then demote (·.setId == target.id) impl.evaluations
        else impl.evaluations
      .write impl { impl.toState with sets, evaluations } true
        ((findSet sets target.id).getD moved)

def applyLifecycle (impl : Impl) (context : AuthorityContext) (setId : ConstraintSetId)
    (event : LifecycleEvent) (call : Call) : Staged ConstraintSet :=
  let unknown := failure .notFound "constraint set is not known"
  match authorizeAndObserve impl context .applyLifecycle (lifecycleDigest setId event) (call.clock 0) with
  | .refused error => .reply impl (.error error)
  | .replay =>
      match findSet impl.sets setId with
      | none => .reply impl unknown
      | some target => .reply impl (.ok target)
  | .fresh impl =>
      match findSet impl.sets setId with
      | none => .reply impl unknown
      | some target => transition impl target event

/-! ## Evidence generations -/

/-- The generation required for one family. -/
def generationFor (evidence : EvidenceRequirements) (family : EvidenceFamily) : UInt64 :=
  requiredGenerationOf evidence family

/-- The payload that an evidence change records for its attempt. -/
def evidenceDigest (requirements : EvidenceRequirements) : Digest256 :=
  digestOf "crf.evidence-requirements.v1" (feedEvidenceRequirements requirements)

/-- The families whose generation moves forward. -/
def advancedFamilies (evidence requirements : EvidenceRequirements) : List EvidenceFamily :=
  kFamilies.filter fun family =>
    generationFor evidence family < generationFor requirements family

/-- Advances the watermark of each family in turn; a refusal leaves behind what
was advanced before it. -/
def advanceWatermarks (requirements : EvidenceRequirements) :
    List EvidenceFamily → Watermarks → Watermarks × Bool
  | [], watermarks => (watermarks, true)
  | family :: rest, watermarks =>
      match watermarks.advanceFamily family (generationFor requirements family) with
      | none => (watermarks, false)
      | some advanced => advanceWatermarks requirements rest advanced

/-- The key kinds through which a family reaches its dependents. -/
def familyKinds : EvidenceFamily → List InvalidationKeyKind
  | .topology => [.topology, .node, .link, .localityDomain]
  | .linkState => [.linkState]
  | .capability => [.capability]
  | .failureDomain => [.failureDomain, .isolationClass]
  | .policy => [.policy]
  | .planner => [.planner]
  | .pathAuthority => [.pathAuthority]
  | .constraintSet | .none => []

/-- The evaluations bound to a key of the family. -/
def dependentsOfFamily (index : InvalidationIndex) (family : EvidenceFamily) :
    List ConstraintEvaluationId :=
  (index.keysOfKinds (familyKinds family)).flatMap index.dependents

/-- The shared body of `setEvidenceRequirements` and `advanceFamily`. -/
def applyEvidenceRequirements (impl : Impl) (context : AuthorityContext)
    (requirements : EvidenceRequirements) (call : Call) : Staged Unit :=
  match authorizeAndObserve impl context .publishEvaluation (evidenceDigest requirements)
      (call.clock 0) with
  | .refused error => .reply impl (.error error)
  | .replay => .reply impl (.ok ())
  | .fresh impl =>
      if kFamilies.any fun family =>
          generationFor requirements family < generationFor impl.evidence family then
        .reply impl (failure .staleGeneration "evidence generations never decrease")
      else
        let advanced := advancedFamilies impl.evidence requirements
        match advanceWatermarks requirements advanced impl.watermarks with
        | (watermarks, false) =>
            .reply { impl with watermarks }
              (failure .staleGeneration "evidence watermark never decreases")
        | (watermarks, true) =>
            let dependents := advanced.flatMap (dependentsOfFamily impl.index)
            let next := { impl.toState with
              evidence := requirements
              watermarks
              evaluations := demote (fun record => record.id ∈ dependents) impl.evaluations }
            .write { impl with watermarks } next true ()

def setEvidenceRequirements (impl : Impl) (context : AuthorityContext)
    (requirements : EvidenceRequirements) (call : Call) : Staged Unit :=
  applyEvidenceRequirements impl context requirements call

/-- The requirements with one family's generation replaced. -/
def withFamily (evidence : EvidenceRequirements) (family : EvidenceFamily)
    (generation : UInt64) : Option EvidenceRequirements :=
  match family with
  | .topology => some { evidence with topology := ⟨generation⟩ }
  | .linkState => some { evidence with linkState := ⟨generation⟩ }
  | .capability => some { evidence with capability := ⟨generation⟩ }
  | .failureDomain => some { evidence with failureDomain := ⟨generation⟩ }
  | .policy => some { evidence with policy := ⟨generation⟩ }
  | .planner => some { evidence with planner := ⟨generation⟩ }
  | .pathAuthority => some { evidence with pathAuthority := ⟨generation⟩ }
  | .constraintSet | .none => none

/-- Advances one evidence family. -/
def advanceFamily (impl : Impl) (context : AuthorityContext) (family : EvidenceFamily)
    (generation : UInt64) (call : Call) : Staged Unit :=
  match withFamily impl.evidence family generation with
  | none => .reply impl (failure .invalidArgument "family is not an evidence family")
  | some requirements =>
      if !Generation.isRepresentable generation then
        .reply impl (failure .impossibleGeneration "generation is not representable")
      else applyEvidenceRequirements impl context requirements call

/-- The payload that a key invalidation records for its attempt. -/
def invalidateDigest (key : InvalidationKey) : Digest256 :=
  digestOf "crf.invalidate-key.v1" <|
    SemanticHasher.putU8 key.kind.code ++ SemanticHasher.putU64 key.value

/-- Precise invalidation of one entity. -/
def invalidateKey (impl : Impl) (context : AuthorityContext) (key : InvalidationKey)
    (call : Call) : Staged Unit :=
  match authorizeAndObserve impl context .publishEvaluation (invalidateDigest key) (call.clock 0) with
  | .refused error => .reply impl (.error error)
  | .replay => .reply impl (.ok ())
  | .fresh impl =>
      let impl := { impl with invalidationSequence := impl.invalidationSequence + 1 }
      match impl.watermarks.advanceKey key impl.invalidationSequence with
      | none =>
          .reply impl (failure .staleGeneration "invalidation watermark never decreases")
      | some watermarks =>
          let impl := { impl with watermarks }
          let dependents := impl.index.dependents key
          let next := { impl.toState with
            evaluations := demote (fun record => record.id ∈ dependents) impl.evaluations }
          .write impl next true ()

/-! ## Evaluation -/

/-- Result of a two-phase evaluation attempt. -/
structure CommitOutcome where
  batch : EvaluationBatch := {}
  committed : Bool := false
  rejectionReason : ReasonCode := .none
  dependencyMaskAtSnapshot : EvidenceFamilyMask := 0
  dependencyMaskAtCommit : EvidenceFamilyMask := 0
deriving DecidableEq

/-- What the first critical section of an evaluation captures. -/
structure EvaluationSnapshot where
  context : AuthorityContext
  setId : ConstraintSetId
  candidates : List CandidatePath
  expectedGeneration : ConstraintSetGeneration := {}
  generation : EvaluationGeneration
  set : ConstraintSet
  evidence : EvidenceRequirements
  mask : EvidenceFamilyMask
deriving DecidableEq

/-- How the first critical section ends when it succeeds. -/
inductive EvaluationStart where
  | replayed (outcome : CommitOutcome)
  | started (snapshot : EvaluationSnapshot)

/-- The identity of an evaluation request. -/
def requestDigest (candidates : List CandidatePath) (setId : ConstraintSetId)
    (generation : ConstraintSetGeneration) : UInt64 :=
  (digestOf "crf.evaluation-request.v1" <|
    SemanticHasher.putId setId ++ SemanticHasher.putGeneration generation ++
    SemanticHasher.putAll (fun candidate =>
      SemanticHasher.putId candidate.path ++
      SemanticHasher.putDigest (candidateDigest candidate)) candidates).leadingU64

/-- The payload that an evaluation records for its attempt. -/
def evaluateDigest (evidence : EvidenceRequirements) (setId : ConstraintSetId)
    (candidates : List CandidatePath) (expectedGeneration : ConstraintSetGeneration) :
    Digest256 :=
  digestOf "crf.evaluate.v1" <|
    SemanticHasher.putU64 (requestDigest candidates setId expectedGeneration) ++
    SemanticHasher.putGeneration evidence.topology ++
    SemanticHasher.putGeneration evidence.capability

/-- The reply to an exact replay: the current records of the set. -/
def replayedOutcome (impl : Impl) (setId : ConstraintSetId) : CommitOutcome :=
  let records := impl.evaluations.filter fun record =>
    record.setId == setId && record.state = .current
  let hasAdmissible := records.any EvaluationRecord.isAdmissible
  { committed := true
    batch :=
      { setId
        setGeneration := ((findSet impl.sets setId).map (·.generation)).getD {}
        records, hasAdmissible
        batchOutcome :=
          if hasAdmissible then .admissibleCandidatesAvailable else .noAdmissibleCandidate } }

/-- The first critical section: authorize, observe the attempt, reserve a
generation and take the dependency snapshot. -/
def evaluateBegin (impl : Impl) (context : AuthorityContext) (setId : ConstraintSetId)
    (candidates : List CandidatePath) (expectedGeneration : ConstraintSetGeneration)
    (call : Call) : Impl × Result EvaluationStart :=
  match authorizeAndObserve impl context .publishEvaluation
      (evaluateDigest impl.evidence setId candidates expectedGeneration) (call.clock 0) with
  | .refused error => (impl, .error error)
  | .replay => (impl, .ok (.replayed (replayedOutcome impl setId)))
  | .fresh impl =>
      match findSet impl.sets setId with
      | none => (impl, failure .notFound "constraint set is not known")
      | some set =>
          if !listWithin candidates impl.config.limits.maxBatchSize then
            (impl, failure .resourceLimit "batch exceeds the batch limit")
          else
            match impl.lastGeneration.next with
            | none =>
                (impl, failure .impossibleGeneration
                  "evaluation generation cannot advance without wrapping")
            | some generation =>
                ({ impl with lastGeneration := generation },
                  .ok (.started
                    { context, setId, candidates, expectedGeneration, generation, set,
                      evidence := impl.evidence, mask := consultedMask set }))

/-- The evaluation context of a snapshot, at the tick read between the critical
sections. -/
def EvaluationSnapshot.evaluationContext (snapshot : EvaluationSnapshot) (limits : Limits)
    (nowTick : UInt64) : EvaluationContext :=
  { set := snapshot.set
    current := snapshot.evidence
    requestedSetGeneration := snapshot.expectedGeneration
    limits, nowTick
    provenance :=
      { epoch := snapshot.context.epoch, publisher := snapshot.context.publisher,
        workerBoot := snapshot.context.workerBoot, attempt := snapshot.context.attempt,
        request := snapshot.context.request }
    generation := snapshot.generation
    authorityVerified := true }

/-- The reason code for a family that moved. -/
def stalenessReason (family : EvidenceFamily) : ReasonCode := stalenessCode family

/-- Re-verification at commit time; `none` when no checked dependency moved. -/
def staleReason (impl : Impl) (snapshot : EvaluationSnapshot) : ReasonCode :=
  let consulted := kFamilies.filter (consults snapshot.mask)
  match findSet impl.sets snapshot.setId with
  | none => .constraintSetNotFound
  | some live =>
      if live.generation ≠ snapshot.set.generation || live.digest ≠ snapshot.set.digest ||
          live.state ≠ snapshot.set.state then .staleConstraintSetGeneration
      else if impl.evidence ≠ snapshot.evidence then
        match consulted.find? fun family =>
            generationFor impl.evidence family ≠ generationFor snapshot.evidence family with
        | some family => stalenessReason family
        | none => .evidenceNotBound
      else
        match consulted.find? fun family =>
            generationFor snapshot.evidence family < impl.watermarks.family family with
        | some family => stalenessReason family
        | none => .none

/-- The batch as a stale completion returns it. -/
def staleBatch (batch : EvaluationBatch) : EvaluationBatch :=
  { batch with records := batch.records.map fun record => { record with state := .staleAtCommit } }

/-- The batch as a commit stores it. -/
def committedBatch (batch : EvaluationBatch) (nowTick : UInt64) : EvaluationBatch :=
  { batch with records := batch.records.map fun record =>
      { record with state := .current, committedTick := nowTick } }

/-- The stored records after a commit: those of a committed identity are replaced
and the other records of the set superseded. -/
def commitEvaluations (evaluations : List EvaluationRecord) (setId : ConstraintSetId)
    (records : List EvaluationRecord) : List EvaluationRecord :=
  let retained := evaluations.filter fun record => record.id ∉ records.map (·.id)
  let superseded := retained.map fun record =>
    if record.setId == setId && record.state ≠ .staleAtCommit then
      { record with state := .superseded }
    else record
  superseded ++ records

/-- The retained populations after a commit.  Evicting from an empty list, which
the source leaves undefined, gives nothing. -/
def commitPopulations (config : CoordinatorConfig) (populations : List CandidatePopulation)
    (setId : ConstraintSetId) (candidates : List CandidatePath) :
    Option (List CandidatePopulation) :=
  let stored : CandidatePopulation := ⟨setId, sortBy (compareOn (·.path)) candidates⟩
  if (findPopulation populations setId).isSome then
    some (replaceFirst (·.setId == setId) stored populations)
  else if config.maxCandidatePopulations.toNat ≤ populations.length then
    match populations with
    | [] => none
    | _ :: retained => some (retained ++ [stored])
  else some (populations ++ [stored])

/-- The position of the first of the oldest records that are not current. -/
def historyVictim (evaluations : List EvaluationRecord) : Option Nat :=
  (evaluations.zipIdx.foldl (fun (victim : Option (Nat × UInt64)) (record, position) =>
    if record.state = .current then victim
    else
      match victim with
      | none => some (position, record.generation.value)
      | some (_, oldest) =>
          if record.generation.value < oldest then
            some (position, record.generation.value)
          else victim) none).map (·.1)

/-- Evicts at most `excess` records, the oldest that is not current first. -/
def trimHistory : Nat → List EvaluationRecord → List EvaluationRecord
  | 0, evaluations => evaluations
  | excess + 1, evaluations =>
      match historyVictim evaluations with
      | none => evaluations
      | some position => trimHistory excess (evaluations.eraseIdx position)

/-- The state that a commit writes. -/
def commitState (impl : Impl) (snapshot : EvaluationSnapshot) (batch : EvaluationBatch) :
    Option PersistentState :=
  (commitPopulations impl.config impl.populations snapshot.setId snapshot.candidates).map
    fun populations =>
      let evaluations := commitEvaluations impl.evaluations snapshot.setId batch.records
      { impl.toState with
        evaluations := trimHistory
          (evaluations.length - impl.config.limits.maxEvaluationsRetained.toNat) evaluations
        populations
        lastEvaluationGeneration := snapshot.generation }

/-- The pure evaluation and the last critical section.  `none` only where the
source's behaviour is undefined. -/
def evaluateFinish (impl : Impl) (snapshot : EvaluationSnapshot) (call : Call) :
    Option (Staged CommitOutcome) :=
  let nowTick := call.clock 0
  match evaluateBatch (snapshot.evaluationContext impl.config.limits nowTick)
      snapshot.candidates with
  | .error error => some (.reply impl (.error error))
  | .ok batch =>
      let outcome : CommitOutcome :=
        { batch
          dependencyMaskAtSnapshot := snapshot.mask
          dependencyMaskAtCommit :=
            ((findSet impl.sets snapshot.setId).map consultedMask).getD 0 }
      let stale := staleReason impl snapshot
      if stale ≠ .none then
        some (.reply impl
          (.ok { outcome with batch := staleBatch batch, rejectionReason := stale }))
      else
        let stored := committedBatch batch nowTick
        (commitState impl snapshot stored).map fun next =>
          .write impl next true { outcome with batch := stored, committed := true }

/-- The population that a revalidation reads before it evaluates. -/
def revalidateRead (impl : Impl) (setId : ConstraintSetId) : List CandidatePath :=
  ((findPopulation impl.populations setId).map (·.candidates)).getD []

/-! ## Opening -/

/-- The fenced boots of a restored state: those it lists, and each boot that held
live authority when it was written. -/
def restoredFencedBoots (restored : PersistentState) (clock : Nat → UInt64) :
    List FencedBootRecord :=
  let added := restored.liveBoots.filter fun boot =>
    !restored.fencedBoots.any (·.boot == boot)
  restored.fencedBoots ++ added.eraseDups.mapIdx fun reading boot =>
    ⟨boot, restored.epoch, clock reading⟩

/-- The state that was restored, if the coordinator is durable and the report gives
one. -/
def restoredState (config : CoordinatorConfig) (report : StoreReport config.limits) :
    Result (Option PersistentState) :=
  if config.storePath = "" then .ok none
  else
    match report with
    | .refused error => .error error
    | .absent => .ok none
    | .loaded _ loaded => .ok (some loaded.state)
    | .unreadable _ error => if config.allowInitialize then .ok none else .error error

/-- The bytes in the store file when it was opened. -/
def StoreReport.file {limits : Limits} : StoreReport limits → Option (List UInt8)
  | .refused _ | .absent => none
  | .loaded file _ | .unreadable file _ => some file

/-- The authority of a new incarnation over the restored one. -/
def nextIncarnation (restored : Option PersistentState) (clock : Nat → UInt64) :
    Result AuthorityRegistry :=
  match restored with
  | none => AuthorityRegistry.establishEpoch {} ⟨1⟩
  | some state =>
      if !state.epoch.isValid then AuthorityRegistry.establishEpoch {} ⟨1⟩
      else
        match state.epoch.next with
        | none =>
            failure .impossibleGeneration
              "coordinator epoch cannot advance without wrapping"
        | some epoch =>
            (AuthorityRegistry.restoreDurableState state.epoch
              (restoredFencedBoots state clock)).establishEpoch epoch

/-- The state of a coordinator over a restored state: no result is restored as
current. -/
def recover (impl : Impl) (restored : Option PersistentState) : Impl :=
  Impl.rebuildDerived <|
    match restored with
    | none => { impl with lastGeneration := ⟨0⟩ }
    | some state =>
        { impl with
          evidence := state.evidence
          watermarks := state.watermarks
          sets := state.sets
          populations := state.populations
          lastGeneration := state.lastEvaluationGeneration
          evaluations := state.evaluations.map fun record =>
            { record with state := .recoveredUnproven } }

/-- The state before anything is restored. -/
def unopened (config : CoordinatorConfig) (report : StoreReport config.limits)
    (authority : AuthorityRegistry) : Impl :=
  let durable := config.storePath != ""
  { config, authority, durable
    store :=
      if durable then
        some { path := config.storePath, limits := config.limits, file := report.file }
      else none
    evidence := config.evidence }

/-- Opens a coordinator over what its store reported. -/
def openCoordinator (config : CoordinatorConfig) (report : StoreReport config.limits)
    (call : Call) : Result Impl := do
  match validateLimits config.limits with
  | .ok () => pure ()
  | .error why => failure .invalidArgument why
  let restored ← restoredState config report
  let authority ← nextIncarnation restored call.clock
  let impl := recover (unopened config report authority) restored
  match impl.persist impl.toState call with
  | (_, .error error) => .error error
  | (opened, .ok ()) => return opened

/-- Opens a coordinator without a durable store. -/
def openInMemory (config : CoordinatorConfig) (call : Call) : Result Impl :=
  openCoordinator { config with storePath := "", allowInitialize := true } .absent call

end ConstraintRouting.Fabric
