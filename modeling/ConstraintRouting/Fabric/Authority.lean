import ConstraintRouting.Fabric.ConstraintSet

/-!
# Authority, epochs and fencing

The live authority registry: the coordinator epoch, the permanently fenced boots,
the publisher registrations and the bounded window of mutation attempts.
-/

namespace ConstraintRouting.Fabric

open Verified.Readers.Reader (accept)

/-- Scopes a publisher may hold. -/
inductive AuthorityScope where
  | publishConstraintSet | publishEvaluation | applyLifecycle | readDefinitions
  | readResults | registerPublisher | administerFencing
deriving DecidableEq

abbrev AuthorityScopeMask := UInt32

def scopeBit : AuthorityScope → AuthorityScopeMask
  | .publishConstraintSet => 1
  | .publishEvaluation => 2
  | .applyLifecycle => 4
  | .readDefinitions => 8
  | .readResults => 16
  | .registerPublisher => 32
  | .administerFencing => 64

def AuthorityScope.toString : AuthorityScope → String
  | .publishConstraintSet => "PublishConstraintSet"
  | .publishEvaluation => "PublishEvaluation"
  | .applyLifecycle => "ApplyLifecycle"
  | .readDefinitions => "ReadDefinitions"
  | .readResults => "ReadResults"
  | .registerPublisher => "RegisterPublisher"
  | .administerFencing => "AdministerFencing"

def hasScope (mask : AuthorityScopeMask) (scope : AuthorityScope) : Bool :=
  mask &&& scopeBit scope != 0

/-- The held scopes, for the detail of a refusal. -/
def describeScopes (mask : AuthorityScopeMask) : String :=
  let held := [AuthorityScope.publishConstraintSet, .publishEvaluation, .applyLifecycle,
    .readDefinitions, .readResults, .registerPublisher, .administerFencing].filter
    (hasScope mask)
  if held.isEmpty then "None" else "|".intercalate (held.map AuthorityScope.toString)

/-- What every mutating operation carries. -/
structure AuthorityContext where
  epoch : CoordinatorEpoch := {}
  publisher : PublisherId := {}
  workerBoot : WorkerBootId := {}
  attempt : MutationAttemptId := {}
  request : RequestId := {}
  session : SessionId := {}
  scopes : AuthorityScopeMask := 0
deriving DecidableEq

/-- Verdict of the mutation-attempt de-duplication. -/
inductive ReplayVerdict where
  | fresh | exactReplay | conflict
deriving DecidableEq

structure MutationAttemptRecord where
  attempt : MutationAttemptId := {}
  payload : Digest256 := {}
  recordedTick : UInt64 := 0
deriving DecidableEq

structure FencedBootRecord where
  boot : WorkerBootId := {}
  fencedAt : CoordinatorEpoch := {}
  fencedTick : UInt64 := 0
deriving DecidableEq

structure PublisherRegistration where
  publisher : PublisherId := {}
  boot : WorkerBootId := {}
  session : SessionId := {}
  scopes : AuthorityScopeMask := 0
  registeredTick : UInt64 := 0
  registeredAt : CoordinatorEpoch := {}
  live : Bool := false
deriving DecidableEq

/-- Live authority registry. -/
structure AuthorityRegistry where
  epoch : CoordinatorEpoch := {}
  fenced : Std.ExtTreeMap WorkerBootId FencedBootRecord := ∅
  registrations : List PublisherRegistration := []
  attempts : List MutationAttemptRecord := []

namespace AuthorityRegistry

/-- Epochs advance strictly. -/
def establishEpoch (registry : AuthorityRegistry) (epoch : CoordinatorEpoch) :
    Result AuthorityRegistry := do
  failIf (!epoch.isValid) .invalidArgument "coordinator epoch must be non-zero"
  failIf (registry.epoch.isValid && epoch.value ≤ registry.epoch.value) .epochMismatch
    "coordinator epoch must advance strictly; equal or lower epochs are refused"
  return { registry with epoch }

def isBootFenced (registry : AuthorityRegistry) (boot : WorkerBootId) : Bool :=
  registry.fenced.contains boot

/-- Marks the selected registrations as no longer live. -/
def retire (selected : PublisherRegistration → Bool)
    (registrations : List PublisherRegistration) : List PublisherRegistration :=
  registrations.map fun registration =>
    if selected registration then { registration with live := false } else registration

/-- Permanently fences a worker boot.  Idempotent; a refusal changes nothing. -/
def fenceBoot (registry : AuthorityRegistry) (boot : WorkerBootId)
    (fencedAt : CoordinatorEpoch) (tick : UInt64) (limits : Limits) :
    Result AuthorityRegistry := do
  failIf (!boot.isValid) .invalidArgument "worker boot identity must be non-zero"
  if registry.isBootFenced boot then return registry
  failIf (limits.maxFencedBoots.toNat ≤ registry.fenced.size) .resourceLimit
    "fenced boot registry is full"
  return { registry with
    fenced := registry.fenced.insert boot ⟨boot, fencedAt, tick⟩
    registrations := retire (·.boot == boot) registry.registrations }

/-- The live registrations. -/
def liveRegistrations (registry : AuthorityRegistry) : List PublisherRegistration :=
  registry.registrations.filter (·.live)

/-- The sessions that hold live authority. -/
def liveSessionIds (registry : AuthorityRegistry) : List SessionId :=
  (registry.liveRegistrations.map (·.session)).dedup

def livePublishers (registry : AuthorityRegistry) : Nat := registry.liveRegistrations.length

def liveSessions (registry : AuthorityRegistry) : Nat := registry.liveSessionIds.length

/-- Walks the registrations from `index` on, fencing each live boot of the same
publisher.  A failure leaves behind what was fenced before it. -/
def fencePrevious (registration : PublisherRegistration) (limits : Limits) :
    Nat → Nat → AuthorityRegistry → AuthorityRegistry × Status
  | 0, _, registry => (registry, .ok ())
  | remaining + 1, index, registry =>
      match registry.registrations[index]? with
      | none => (registry, .ok ())
      | some existing =>
          if existing.publisher == registration.publisher && existing.live then
            if existing.boot == registration.boot then
              (registry, failure .duplicateIdentity
                "the same publisher and boot is already registered")
            else
              match registry.fenceBoot existing.boot registry.epoch
                  registration.registeredTick limits with
              | .error error => (registry, .error error)
              | .ok fenced =>
                  fencePrevious registration limits remaining (index + 1)
                    { fenced with registrations :=
                        fenced.registrations.modify index ({ · with live := false }) }
          else fencePrevious registration limits remaining (index + 1) registry

/-- The checks of a registration before any boot is fenced. -/
def admitRegistration (registry : AuthorityRegistry)
    (registration : PublisherRegistration) : Status := do
  failIf (!registration.publisher.isValid) .invalidArgument
    "publisher identity must be non-zero"
  failIf (!registration.boot.isValid) .invalidArgument
    "worker boot identity must be non-zero"
  failIf (!registration.session.isValid) .invalidArgument
    "session identity must be non-zero"
  failIf (!registration.registeredAt.isValid ||
      registration.registeredAt != registry.epoch) .epochMismatch
    "publisher registration must bind the current coordinator epoch"
  failIf (registry.isBootFenced registration.boot) .fenced
    "worker boot is permanently fenced and can never register again"
  failIf (registration.scopes = 0) .unauthorized
    "default deny: a registration without any scope authorizes nothing"

/-- The live publisher and session limits. -/
def checkRegistrationLimits (registry : AuthorityRegistry)
    (registration : PublisherRegistration) (limits : Limits) : Status := do
  failIf (limits.maxPublishers.toNat ≤ registry.liveRegistrations.length) .resourceLimit
    "publisher limit reached"
  failIf (registration.session ∉ registry.liveSessionIds &&
      limits.maxSessions.toNat ≤ registry.liveSessionIds.length) .resourceLimit
    "session limit reached"

/-- Registers a publisher for the current epoch, fencing its previous boots. -/
def registerPublisher (registry : AuthorityRegistry)
    (registration : PublisherRegistration) (limits : Limits) :
    AuthorityRegistry × Status :=
  match registry.admitRegistration registration with
  | .error error => (registry, .error error)
  | .ok () =>
      match fencePrevious registration limits registry.registrations.length 0 registry with
      | (fenced, .error error) => (fenced, .error error)
      | (fenced, .ok ()) =>
          match fenced.checkRegistrationLimits registration limits with
          | .error error => (fenced, .error error)
          | .ok () =>
              ({ fenced with registrations := fenced.registrations ++ [registration] },
                .ok ())

/-- Removes the live authority of one session without fencing its boot. -/
def dropSession (registry : AuthorityRegistry) (session : SessionId) :
    Result AuthorityRegistry :=
  let owned (registration : PublisherRegistration) :=
    registration.live && registration.session == session
  if registry.registrations.any owned then
    .ok { registry with registrations := retire owned registry.registrations }
  else failure .notFound "session is not live"

/-- The boot that owns a live session. -/
def bootOfSession (registry : AuthorityRegistry) (session : SessionId) :
    Option WorkerBootId :=
  (registry.registrations.find? fun registration =>
    registration.live && registration.session == session).map (·.boot)

/-- The live registration of the context's publisher in its session. -/
def sessionRegistration (registry : AuthorityRegistry) (context : AuthorityContext) :
    Option PublisherRegistration :=
  registry.registrations.find? fun registration =>
    registration.live && registration.publisher == context.publisher &&
      registration.session == context.session

/-- Full authorization check for a mutating operation. -/
def authorize (registry : AuthorityRegistry) (context : AuthorityContext)
    (required : AuthorityScopeMask) : Status := do
  failIf (!context.epoch.isValid || !context.publisher.isValid ||
      !context.workerBoot.isValid || !context.attempt.isValid || !context.session.isValid)
    .unauthorized "default deny: an incomplete authority context authorizes nothing"
  failIf (!registry.epoch.isValid || context.epoch != registry.epoch) .epochMismatch
    "authority context carries a stale or future coordinator epoch"
  failIf (registry.isBootFenced context.workerBoot) .fenced "worker boot is fenced"
  match registry.sessionRegistration context with
  | none =>
      failure .unauthorized
        "default deny: publisher is not registered live in this session"
  | some registration => do
      failIf (registration.boot != context.workerBoot) .fenced
        "publisher is live under a different worker boot; this boot is stale"
      failIf (required != 0 && registration.scopes &&& required != required) .unauthorized
        ("scope not authorized; held scopes are " ++ describeScopes registration.scopes)

/-- The retained record of an attempt. -/
def findAttempt (registry : AuthorityRegistry) (attempt : MutationAttemptId) :
    Option MutationAttemptRecord :=
  registry.attempts.find? (·.attempt == attempt)

/-- Mutation-attempt de-duplication over a bounded window. -/
def observeAttempt (registry : AuthorityRegistry) (attempt : MutationAttemptId)
    (payload : Digest256) (tick : UInt64) (limits : Limits) :
    Result (AuthorityRegistry × ReplayVerdict) := do
  failIf (!attempt.isValid) .invalidArgument "mutation attempt identity must be non-zero"
  match registry.findAttempt attempt with
  | some record =>
      return (registry, if record.payload = payload then .exactReplay else .conflict)
  | none =>
      let retained :=
        if limits.maxMutationAttempts.toNat ≤ registry.attempts.length then
          registry.attempts.drop 1
        else registry.attempts
      return ({ registry with attempts := retained ++ [⟨attempt, payload, tick⟩] }, .fresh)

/-- Restores the durable part of the authority state: no registration and no
attempt is restored. -/
def restoreDurableState (epoch : CoordinatorEpoch) (fenced : List FencedBootRecord) :
    AuthorityRegistry :=
  { epoch
    -- `emplace` keeps the first record of a boot.
    fenced := fenced.foldl (fun map record =>
      if record.boot.isValid then map.insertIfNew record.boot record else map) ∅ }

/-- The boot that a process draws next, from its salt and the number drawn before. -/
def freshWorkerBoot (processSalt counter : UInt64) : UInt64 × WorkerBootId :=
  let sequence := counter + 1
  let value := processSalt ^^^ (sequence * 0x9e3779b97f4a7c15)
  (counter + 1, ⟨if value = 0 then 1 else value⟩)

end AuthorityRegistry

def encodeFencedBoot (record : FencedBootRecord) : List UInt8 :=
  ByteWriter.putId record.boot ++ ByteWriter.putGeneration record.fencedAt ++
  ByteWriter.putU64 record.fencedTick

def encodeMutationAttempt (record : MutationAttemptRecord) : List UInt8 :=
  ByteWriter.putId record.attempt ++ ByteWriter.putRaw record.payload.bytes ++
  ByteWriter.putU64 record.recordedTick

def decodeFencedBoot : ByteReader.Reader FencedBootRecord := do
  let boot : WorkerBootId ← ByteReader.id
  let fencedAt ← ByteReader.generationField
  let fencedTick ← ByteReader.u64
  accept boot.isValid
  return { boot, fencedAt, fencedTick }

def decodeMutationAttempt : ByteReader.Reader MutationAttemptRecord := do
  let attempt : MutationAttemptId ← ByteReader.id
  let payload ← Digest256.read
  let recordedTick ← ByteReader.u64
  accept attempt.isValid
  return { attempt, payload, recordedTick }

end ConstraintRouting.Fabric
