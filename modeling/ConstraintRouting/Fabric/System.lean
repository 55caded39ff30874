import Mathlib.Logic.Function.Basic
import ConstraintRouting.Fabric.Coordinator
import ConstraintRouting.Verified.StepMachine

/-!
# The coordinator as a system of interleaved calls

One step is one critical section of one call.  An `evaluate` call is in flight
between its two critical sections, and a `revalidate` call between its read of the
retained population and the first of them; any other step may run in between.
-/

namespace ConstraintRouting.Fabric

open Verified

/-- A request that one critical section serves. -/
inductive Operation where
  | registerPublisher (context : AuthorityContext) (publisher : PublisherId)
      (boot : WorkerBootId) (scopes : AuthorityScopeMask) (session : SessionId)
  | fenceBoot (context : AuthorityContext) (boot : WorkerBootId)
  | fenceOnSessionLoss (session : SessionId)
  | dropSession (context : AuthorityContext) (session : SessionId)
  | observeAttempt (context : AuthorityContext) (payload : Digest256)
  | publishConstraintSet (context : AuthorityContext) (set : ConstraintSet)
  | applyLifecycle (context : AuthorityContext) (setId : ConstraintSetId)
      (event : LifecycleEvent)
  | setEvidenceRequirements (context : AuthorityContext)
      (requirements : EvidenceRequirements)
  | advanceFamily (context : AuthorityContext) (family : EvidenceFamily)
      (generation : UInt64)
  | invalidateKey (context : AuthorityContext) (key : InvalidationKey)
  | flush
deriving DecidableEq

/-- What a request returns when it succeeds. -/
inductive Value where
  | done
  | registration (registration : PublisherRegistration)
  | verdict (verdict : ReplayVerdict)
  | definition (set : ConstraintSet)
deriving DecidableEq

/-- The same staged operation under another return type. -/
def Staged.map {α β : Type} (f : α → β) : Staged α → Staged β
  | .reply impl result => .reply impl (f <$> result)
  | .write impl next applies value => .write impl next applies (f value)

namespace Operation

/-- The request up to its durable write. -/
def stage (operation : Operation) (impl : Impl) (call : Call) : Staged Value :=
  match operation with
  | .registerPublisher context publisher boot scopes session =>
      (Fabric.registerPublisher impl context publisher boot scopes session call).map
        .registration
  | .fenceBoot context boot =>
      (Fabric.fenceBoot impl context boot call).map fun _ => .done
  | .fenceOnSessionLoss session =>
      (Fabric.fenceOnSessionLoss impl session call).map fun _ => .done
  | .dropSession context session =>
      (Fabric.dropSession impl context session).map fun _ => .done
  | .observeAttempt context payload =>
      (Fabric.observeAttempt impl context payload call).map .verdict
  | .publishConstraintSet context set =>
      (Fabric.publishConstraintSet impl context set call).map .definition
  | .applyLifecycle context setId event =>
      (Fabric.applyLifecycle impl context setId event call).map .definition
  | .setEvidenceRequirements context requirements =>
      (Fabric.setEvidenceRequirements impl context requirements call).map fun _ => .done
  | .advanceFamily context family generation =>
      (Fabric.advanceFamily impl context family generation call).map fun _ => .done
  | .invalidateKey context key =>
      (Fabric.invalidateKey impl context key call).map fun _ => .done
  | .flush => .write impl impl.toState false .done

/-- The request as one critical section. -/
def run (operation : Operation) (impl : Impl) (call : Call) : Impl × Result Value :=
  (operation.stage impl call).settle call

end Operation

/-- A call between two of its critical sections. -/
inductive Flight where
  | populationRead (context : AuthorityContext) (setId : ConstraintSetId)
      (population : List CandidatePath)
  | evaluating (snapshot : EvaluationSnapshot)
deriving DecidableEq

/-- The coordinator with the calls in flight. -/
structure SystemState where
  impl : Impl
  flights : Nat → Option Flight := fun _ => none
  nextTicket : Nat := 0

/-- One critical section of one call. -/
inductive Action where
  | operate (operation : Operation)
  | evaluateBegin (context : AuthorityContext) (setId : ConstraintSetId)
      (candidates : List CandidatePath) (expectedGeneration : ConstraintSetGeneration)
  | evaluateFinish (ticket : Nat)
  | revalidateRead (context : AuthorityContext) (setId : ConstraintSetId)
  | revalidateBegin (ticket : Nat)
deriving DecidableEq

/-- A critical section with what its surroundings answer. -/
structure Input where
  action : Action
  call : Call

/-- What a critical section returns to its caller, or the ticket of the call that
is in flight after it. -/
inductive Reply where
  | operated (result : Result Value)
  | evaluated (result : Result CommitOutcome)
  | populationRead (ticket : Nat)
  | evaluating (ticket : Nat)
deriving DecidableEq

namespace SystemState

/-- Puts a call in flight under the next ticket. -/
def launch (state : SystemState) (flight : Flight) : SystemState :=
  { state with
    flights := Function.update state.flights state.nextTicket (some flight)
    nextTicket := state.nextTicket + 1 }

/-- Takes a call out of flight. -/
def land (state : SystemState) (ticket : Nat) : SystemState :=
  { state with flights := Function.update state.flights ticket none }

/-- The first critical section of `evaluate`. -/
def begin (state : SystemState) (context : AuthorityContext) (setId : ConstraintSetId)
    (candidates : List CandidatePath) (expectedGeneration : ConstraintSetGeneration)
    (call : Call) : SystemState × Reply :=
  match evaluateBegin state.impl context setId candidates expectedGeneration call with
  | (impl, .error error) => ({ state with impl }, .evaluated (.error error))
  | (impl, .ok (.replayed outcome)) => ({ state with impl }, .evaluated (.ok outcome))
  | (impl, .ok (.started snapshot)) =>
      ({ state with impl }.launch (.evaluating snapshot), .evaluating state.nextTicket)

/-- The last critical section of `evaluate`. -/
def finish (state : SystemState) (ticket : Nat) (call : Call) :
    Option (SystemState × Reply) :=
  match state.flights ticket with
  | some (.evaluating snapshot) =>
      (evaluateFinish state.impl snapshot call).map fun staged =>
        let settled := staged.settle call
        ({ state with impl := settled.1 }.land ticket, .evaluated settled.2)
  | _ => none

/-- The read of `revalidate`. -/
def readPopulation (state : SystemState) (context : AuthorityContext)
    (setId : ConstraintSetId) : SystemState × Reply :=
  let population := revalidateRead state.impl setId
  if population.isEmpty then
    (state, .evaluated (failure .notFound
      "no retained candidate population for this constraint set"))
  else
    (state.launch (.populationRead context setId population),
      .populationRead state.nextTicket)

/-- The first critical section of the evaluation of `revalidate`. -/
def revalidate (state : SystemState) (ticket : Nat) (call : Call) :
    Option (SystemState × Reply) :=
  match state.flights ticket with
  | some (.populationRead context setId population) =>
      some ((state.land ticket).begin context setId population {} call)
  | _ => none

end SystemState

/-- One step of the system. -/
def step (state : SystemState) (input : Input) : Option (SystemState × Reply) :=
  match input.action with
  | .operate operation =>
      let settled := operation.run state.impl input.call
      some ({ state with impl := settled.1 }, .operated settled.2)
  | .evaluateBegin context setId candidates expectedGeneration =>
      some (state.begin context setId candidates expectedGeneration input.call)
  | .evaluateFinish ticket => state.finish ticket input.call
  | .revalidateRead context setId => some (state.readPopulation context setId)
  | .revalidateBegin ticket => state.revalidate ticket input.call

/-- A coordinator that was just opened, with no call in flight. -/
inductive Opened : SystemState → Prop
  | opened {config : CoordinatorConfig} {report : StoreReport config.limits} {call : Call}
      {impl : Impl} : openCoordinator config report call = .ok impl → Opened { impl }

/-- One step of the system that was taken. -/
abbrev Event := StepMachine.Event SystemState Input Reply

/-- The events of a run of an opened coordinator, and the state it reaches. -/
def Execution (events : List Event) (last : SystemState) : Prop :=
  ∃ start, Opened start ∧ StepMachine.Run step start events last

/-- A state that a run of an opened coordinator reaches. -/
def Reachable (state : SystemState) : Prop := ∃ events, Execution events state

/-- The steps of the inputs from the opened state. -/
def execute (opened : Result Impl) (inputs : List Input) :
    Option (List Event × SystemState) :=
  match opened with
  | .ok impl => StepMachine.exec step { impl } inputs
  | .error _ => none

theorem Execution.of_execute {config : CoordinatorConfig}
    {report : StoreReport config.limits} {call : Call} {inputs : List Input}
    {events : List Event} {last : SystemState}
    (h : execute (openCoordinator config report call) inputs = some (events, last)) :
    Execution events last := by
  unfold execute at h
  cases hopened : openCoordinator config report call with
  | error error => simp [hopened] at h
  | ok impl =>
      rw [hopened] at h
      exact ⟨{ impl }, .opened hopened, StepMachine.Run.of_exec h⟩

/-- A run that passes a check of its events is an execution that passes it. -/
theorem Execution.of_check {config : CoordinatorConfig}
    {report : StoreReport config.limits} {call : Call} {inputs : List Input}
    (check : List Event → Bool)
    (h : ((execute (openCoordinator config report call) inputs).any fun run =>
      check run.1) = true) :
    ∃ events last, execute (openCoordinator config report call) inputs =
      some (events, last) ∧ Execution events last ∧ check events = true := by
  cases hrun : execute (openCoordinator config report call) inputs with
  | none => simp [hrun] at h
  | some run =>
      rw [hrun] at h
      exact ⟨run.1, run.2, rfl, Execution.of_execute hrun, h⟩

/-! ## A small coordinator

One publisher with every scope, sets without constraints and paths of one link:
enough to run the races that the coordinator is exposed to. -/

def sampleEvidence : EvidenceRequirements :=
  { topology := ⟨3⟩, linkState := ⟨4⟩, capability := ⟨5⟩, failureDomain := ⟨6⟩,
    policy := ⟨7⟩, planner := ⟨8⟩, pathAuthority := ⟨9⟩ }

def sampleConfig : CoordinatorConfig :=
  { grants := [⟨⟨1⟩, 127⟩], evidence := sampleEvidence }

/-- The caller's authority, under one mutation attempt. -/
def sampleContext (attempt : UInt64) : AuthorityContext :=
  { epoch := ⟨1⟩, publisher := ⟨1⟩, workerBoot := ⟨4242⟩, attempt := ⟨attempt⟩,
    request := ⟨attempt⟩, session := ⟨7⟩, scopes := 127 }

/-- A clock that stands still, and a write that succeeds. -/
def sampleCall : Call := { clock := fun _ => 1000 }

def sampleInput (action : Action) : Input := ⟨action, sampleCall⟩

def sampleRegister : Input :=
  sampleInput (.operate (.registerPublisher (sampleContext 1) ⟨1⟩ ⟨4242⟩ 127 ⟨7⟩))

def sampleSet (id : UInt64) : ConstraintSet :=
  { id := ⟨id⟩, generation := ⟨1⟩, evidence := sampleEvidence }

/-- Publishes and activates a set, under the attempt and the one after it. -/
def samplePublish (id attempt : UInt64) : List Input :=
  [sampleInput (.operate (.publishConstraintSet (sampleContext attempt) (sampleSet id))),
   sampleInput (.operate (.applyLifecycle (sampleContext (attempt + 1)) ⟨id⟩ .activate))]

/-- An adjudicated path of one link, bound to the sample evidence. -/
def samplePath (id : UInt64) : CandidatePath :=
  { path := ⟨id⟩, authorityGeneration := ⟨9⟩, authorityVerdict := .legal, hopCount := 1
    nodes := [{ node := ⟨id⟩ }, { node := ⟨id + 1⟩ }]
    links := [{ link := ⟨id⟩, endpoints := (⟨id⟩, ⟨id + 1⟩) }]
    evidence :=
      { topology := ⟨3⟩, linkState := ⟨4⟩, capability := ⟨5⟩, failureDomain := ⟨6⟩,
        policy := ⟨7⟩, planner := ⟨8⟩, pathAuthority := ⟨9⟩, capturedTick := 100 } }

/-- The first section of an evaluation of some sample paths. -/
def sampleBegin (attempt setId : UInt64) (paths : List UInt64) : Input :=
  sampleInput (.evaluateBegin (sampleContext attempt) ⟨setId⟩ (paths.map samplePath) {})

def sampleFinish (ticket : Nat) : Input := sampleInput (.evaluateFinish ticket)

/-- A run of the sample coordinator after its publisher registered. -/
def sampleRun (inputs : List Input) : Option (List Event × SystemState) :=
  execute (openInMemory sampleConfig sampleCall) (sampleRegister :: inputs)

theorem sampleRun_execution (inputs : List Input) (check : List Event → Bool)
    (h : ((sampleRun inputs).any fun run => check run.1) = true) :
    ∃ events last, sampleRun inputs = some (events, last) ∧ Execution events last ∧
      check events = true :=
  Execution.of_check check h

end ConstraintRouting.Fabric
