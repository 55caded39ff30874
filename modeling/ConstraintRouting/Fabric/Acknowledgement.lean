import ConstraintRouting.Fabric.ResultsSpec

/-!
# What an acknowledgement stands for

A request that is served on its fresh path reports success only after its mutation is
written and applied.  A request whose attempt is in the window is acknowledged without
a look at how the attempt ended, so every success stands for an applied mutation
exactly when each replay repeats a request that succeeded.
-/

namespace ConstraintRouting.Fabric

open Verified.StepMachine

/-! ## Requests -/

/-- What a mutating request asks for. -/
inductive Mutation where
  | publish (set : ConstraintSet)
  | lifecycle (setId : ConstraintSetId) (event : LifecycleEvent)
  | evidence (requirements : EvidenceRequirements)
  | invalidate (key : InvalidationKey)
  | fence (boot : WorkerBootId)
  | evaluate (setId : ConstraintSetId) (candidates : List CandidatePath)
      (expectedGeneration : ConstraintSetGeneration)
deriving DecidableEq

def Admission.isReplay : Admission → Bool
  | .replay => true
  | .refused _ | .fresh _ => false

namespace Operation

/-- The attempt and the mutation of a request, where evidence is required. -/
def asks (evidence : EvidenceRequirements) :
    Operation → Option (MutationAttemptId × Mutation)
  | .publishConstraintSet context set => some (context.attempt, .publish set)
  | .applyLifecycle context setId event => some (context.attempt, .lifecycle setId event)
  | .setEvidenceRequirements context requirements =>
      some (context.attempt, .evidence requirements)
  | .advanceFamily context family generation =>
      (withFamily evidence family generation).map fun requirements =>
        (context.attempt, .evidence requirements)
  | .invalidateKey context key => some (context.attempt, .invalidate key)
  | .fenceBoot context boot => some (context.attempt, .fence boot)
  | _ => none

/-- The request finds its own attempt in the window and is acknowledged for it: a
publication or a lifecycle event only while its set is known. -/
def replays (impl : Impl) (call : Call) : Operation → Bool
  | .publishConstraintSet context set =>
      (authorizeAndObserve impl context .publishConstraintSet (publishDigest set)
        (call.clock 0)).isReplay && (findSet impl.sets set.id).isSome
  | .applyLifecycle context setId event =>
      (authorizeAndObserve impl context .applyLifecycle (lifecycleDigest setId event)
        (call.clock 0)).isReplay && (findSet impl.sets setId).isSome
  | .setEvidenceRequirements context requirements =>
      (authorizeAndObserve impl context .publishEvaluation (evidenceDigest requirements)
        (call.clock 0)).isReplay
  | .advanceFamily context family generation =>
      Generation.isRepresentable generation &&
        (withFamily impl.evidence family generation).any fun requirements =>
          (authorizeAndObserve impl context .publishEvaluation (evidenceDigest requirements)
            (call.clock 0)).isReplay
  | .invalidateKey context key =>
      (authorizeAndObserve impl context .publishEvaluation (invalidateDigest key)
        (call.clock 0)).isReplay
  | .fenceBoot context _ =>
      (authorizeAndObserve impl context .administerFencing {} (call.clock 0)).isReplay
  | _ => false

end Operation

/-- The evaluation that a first section is asked for. -/
def evaluationAsked (event : Event) :
    Option (AuthorityContext × ConstraintSetId × List CandidatePath ×
      ConstraintSetGeneration) :=
  match event.input.action with
  | .evaluateBegin context setId candidates expectedGeneration =>
      some (context, setId, candidates, expectedGeneration)
  | .revalidateBegin ticket =>
      match event.pre.flights ticket with
      | some (.populationRead context setId population) => some (context, setId, population, {})
      | _ => none
  | _ => none

/-- The attempt and the mutation of the request that the event serves. -/
def asks (event : Event) : Option (MutationAttemptId × Mutation) :=
  match event.input.action with
  | .operate operation => operation.asks event.pre.impl.evidence
  | .evaluateFinish ticket =>
      match event.pre.flights ticket with
      | some (.evaluating snapshot) => some (snapshot.context.attempt,
          .evaluate snapshot.setId snapshot.candidates snapshot.expectedGeneration)
      | _ => none
  | _ => (evaluationAsked event).map fun (context, setId, candidates, expectedGeneration) =>
      (context.attempt, .evaluate setId candidates expectedGeneration)

/-- The event acknowledges a request only because its attempt is in the window. -/
def Replays (event : Event) : Bool :=
  match event.input.action with
  | .operate operation => operation.replays event.pre.impl event.input.call
  | _ => (evaluationAsked event).any fun (context, setId, candidates, expectedGeneration) =>
      (authorizeAndObserve event.pre.impl context .publishEvaluation
        (evaluateDigest event.pre.impl.evidence setId candidates expectedGeneration)
        (event.input.call.clock 0)).isReplay

/-- The event reported success; for an evaluation, a committed batch. -/
def Acknowledges (event : Event) : Prop :=
  (∃ value, event.output = .operated (.ok value)) ∨ ReportsCommit event

/-! ## Mutations that were carried out -/

/-- The event applied the mutation in memory. -/
def Applied (event : Event) : Mutation → Prop
  | .fence boot => event.post.impl.authority.isBootFenced boot = true
  | .evaluate setId candidates _ =>
      ∃ ticket snapshot, Commits event ticket snapshot ∧ snapshot.setId = setId ∧
        snapshot.candidates = candidates ∧
        (∀ record ∈ committedRecords event.pre.impl snapshot event.input.call,
          record ∈ event.post.impl.evaluations) ∧
        findPopulation event.post.impl.populations setId = some snapshot.population
  | .invalidate key =>
      event.post.impl.watermarks.key key = event.post.impl.invalidationSequence ∧
        ∃ operation value, event.input.action = .operate operation ∧
          operation.Effect event.pre.impl value event.post.impl.standing
  | .publish _ | .lifecycle _ _ | .evidence _ =>
      ∃ operation value, event.input.action = .operate operation ∧
        operation.Effect event.pre.impl value event.post.impl.standing

/-- The store file of a durable coordinator holds what stands in memory. -/
def Durable (impl : Impl) : Prop :=
  impl.durable = true → ∃ store state, impl.store = some store ∧
    store.file = some (encodeEnvelope (encodePersistentState state)) ∧
    state.standing = impl.standing ∧ state.watermarks = impl.watermarks ∧
    state.fencedBoots = impl.authority.fenced.values

/-- The event acknowledged the mutation under the attempt on its fresh path. -/
structure Serves (event : Event) (attempt : MutationAttemptId) (mutation : Mutation) :
    Prop where
  asks : asks event = some (attempt, mutation)
  fresh : Replays event = false
  acknowledges : Acknowledges event

/-- The event carried the mutation out: in memory and, for a durable coordinator, in the
store. -/
structure CarriesOut (event : Event) (attempt : MutationAttemptId) (mutation : Mutation) :
    Prop extends Serves event attempt mutation where
  applied : Applied event mutation
  durable : Durable event.post.impl

/-- Every acknowledged mutation was carried out by then, under its own attempt. -/
def AcknowledgesOnlyCarriedOut (events : List Event) : Prop :=
  ∀ before event after, events = before ++ event :: after →
    ∀ attempt mutation, asks event = some (attempt, mutation) → Acknowledges event →
      ∃ earlier ∈ before ++ [event], CarriesOut earlier attempt mutation

/-- Every replay repeats a request that an earlier event acknowledged on its fresh
path. -/
def ReplaysOnlyServed (events : List Event) : Prop :=
  ∀ before event after, events = before ++ event :: after → Replays event = true →
    ∀ attempt mutation, asks event = some (attempt, mutation) →
      ∃ earlier ∈ before, Serves earlier attempt mutation

/-! ## Durable writes that succeed -/

theorem DurableStore.file_of_save {store : DurableStore} {state : PersistentState}
    {outcome : WriteOutcome} (h : (store.save state outcome).2 = .ok ()) :
    (store.save state outcome).1.file =
      some (encodeEnvelope (encodePersistentState state)) := by
  unfold save at h ⊢
  split at h
  · cases h
  · dsimp only at h ⊢
    split at h
    · cases h
    · split at h
      · cases h
      · next hroom _ _ => rw [if_neg hroom]

/-- A durable write that succeeds leaves its state in the store file. -/
theorem Impl.file_of_persist {impl : Impl} {state : PersistentState} {call : Call}
    (hstored : impl.Stored)
    (hdurable : impl.durable = true) (h : (impl.persist state call).2 = .ok ()) :
    ∃ store, (impl.persist state call).1.store = some store ∧
      store.file = some (encodeEnvelope (encodePersistentState state)) := by
  obtain ⟨store, hstore, -⟩ := Option.map_eq_some_iff.mp (hstored hdurable)
  simp only [persist, hdurable, hstore, Bool.not_true, Bool.false_eq_true, if_false] at h ⊢
  exact ⟨_, rfl, DurableStore.file_of_save h⟩

/-! ## How a request is served -/

/-- What a request writes on its fresh path, beside its effect on what stands. -/
structure Mutation.Writes (mutation : Mutation) (impl staged : Impl)
    (next : PersistentState) (applies : Bool) : Prop where
  store : staged.store = impl.store
  fencedBoots : next.fencedBoots = staged.authority.fenced.values
  watermarks : next.watermarks = staged.watermarks
  standing : applies = false → next.standing = staged.standing
  effective : match mutation with
    | .fence boot => staged.authority.isBootFenced boot = true ∧ applies = false
    | .invalidate key =>
        next.watermarks.key key = staged.invalidationSequence ∧ applies = true
    | .evaluate _ _ _ => False
    | .publish _ | .lifecycle _ _ | .evidence _ => applies = true

/-- A request is refused, acknowledged for its attempt without a change, or written. -/
inductive Staged.Served {α : Type} (impl : Impl) (replays : Bool) (mutation : Mutation) :
    Staged α → Prop
  | refused {after : Impl} {error : Error} :
      replays = false → Served impl replays mutation (.reply after (.error error))
  | replayed {value : α} :
      replays = true → Served impl replays mutation (.reply impl (.ok value))
  | written {staged : Impl} {next : PersistentState} {applies : Bool} {value : α} :
      replays = false → mutation.Writes impl staged next applies →
      Served impl replays mutation (.write staged next applies value)

theorem Staged.Served.map {α β : Type} {impl : Impl} {replays : Bool} {mutation : Mutation}
    {staged : Staged α} (h : staged.Served impl replays mutation) (f : α → β) :
    (staged.map f).Served impl replays mutation := by
  cases h with
  | refused hfresh => exact .refused hfresh
  | replayed hreplays => exact .replayed hreplays
  | written hfresh hwrites => exact .written hfresh hwrites

section Operations

variable {impl : Impl} {call : Call} {context : AuthorityContext}

private theorem publishConstraintSet_served (set : ConstraintSet) :
    (publishConstraintSet impl context set call).Served impl
      ((Operation.publishConstraintSet context set).replays impl call) (.publish set) := by
  unfold publishConstraintSet Operation.replays
  dsimp only
  cases hadmitted : authorizeAndObserve impl context .publishConstraintSet (publishDigest set)
      (call.clock 0) with
  | refused error => exact .refused rfl
  | replay =>
      cases hfound : findSet impl.sets set.id with
      | none => exact .refused rfl
      | some existing => exact .replayed rfl
  | fresh fresh =>
      obtain ⟨authority, rfl, -, -⟩ := admit_fresh hadmitted
      dsimp only
      split
      · exact .refused rfl
      · split
        · exact .refused rfl
        · exact .written rfl ⟨rfl, rfl, rfl, nofun, rfl⟩

private theorem applyLifecycle_served (setId : ConstraintSetId) (event : LifecycleEvent) :
    (applyLifecycle impl context setId event call).Served impl
      ((Operation.applyLifecycle context setId event).replays impl call)
      (.lifecycle setId event) := by
  unfold applyLifecycle Operation.replays
  dsimp only
  cases hadmitted : authorizeAndObserve impl context .applyLifecycle (lifecycleDigest setId event)
      (call.clock 0) with
  | refused error => exact .refused rfl
  | replay =>
      cases hfound : findSet impl.sets setId with
      | none => exact .refused rfl
      | some target => exact .replayed rfl
  | fresh fresh =>
      obtain ⟨authority, rfl, -, -⟩ := admit_fresh hadmitted
      dsimp only
      split
      · exact .refused rfl
      · unfold transition
        split
        · exact .refused rfl
        · exact .written rfl ⟨rfl, rfl, rfl, nofun, rfl⟩

private theorem applyEvidenceRequirements_served (requirements : EvidenceRequirements) :
    (applyEvidenceRequirements impl context requirements call).Served impl
      (authorizeAndObserve impl context .publishEvaluation (evidenceDigest requirements)
        (call.clock 0)).isReplay (.evidence requirements) := by
  unfold applyEvidenceRequirements
  cases hadmitted : authorizeAndObserve impl context .publishEvaluation (evidenceDigest requirements)
      (call.clock 0) with
  | refused error => exact .refused rfl
  | replay => exact .replayed rfl
  | fresh fresh =>
      obtain ⟨authority, rfl, -, -⟩ := admit_fresh hadmitted
      dsimp only
      split
      · exact .refused rfl
      · split
        · exact .refused rfl
        · exact .written rfl ⟨rfl, rfl, rfl, nofun, rfl⟩

private theorem advanceFamily_served {family : EvidenceFamily} {generation : UInt64}
    {requirements : EvidenceRequirements}
    (hfamily : withFamily impl.evidence family generation = some requirements) :
    (advanceFamily impl context family generation call).Served impl
      ((Operation.advanceFamily context family generation).replays impl call)
      (.evidence requirements) := by
  simp only [advanceFamily, Operation.replays, hfamily, Option.any_some]
  cases hrepresentable : Generation.isRepresentable generation with
  | false => exact .refused rfl
  | true => exact applyEvidenceRequirements_served requirements

private theorem invalidateKey_served (key : InvalidationKey) :
    (invalidateKey impl context key call).Served impl
      ((Operation.invalidateKey context key).replays impl call) (.invalidate key) := by
  unfold invalidateKey Operation.replays
  dsimp only
  cases hadmitted : authorizeAndObserve impl context .publishEvaluation (invalidateDigest key)
      (call.clock 0) with
  | refused error => exact .refused rfl
  | replay => exact .replayed rfl
  | fresh fresh =>
      obtain ⟨authority, rfl, -, -⟩ := admit_fresh hadmitted
      dsimp only
      split
      · exact .refused rfl
      · next watermarks hadvanced =>
          refine .written rfl ⟨rfl, rfl, rfl, nofun, ?_, rfl⟩
          unfold Watermarks.advanceKey at hadvanced
          split at hadvanced
          · cases hadvanced
          · cases hadvanced
            exact Std.ExtTreeMap.getD_insert_self

private theorem fenceBoot_served (boot : WorkerBootId) :
    (fenceBoot impl context boot call).Served impl
      ((Operation.fenceBoot context boot).replays impl call) (.fence boot) := by
  unfold fenceBoot Operation.replays
  dsimp only
  cases hadmitted : authorizeAndObserve impl context .administerFencing {} (call.clock 0) with
  | refused error => exact .refused rfl
  | replay => exact .replayed rfl
  | fresh fresh =>
      obtain ⟨authority, rfl, -, -⟩ := admit_fresh hadmitted
      dsimp only
      split
      · exact .refused rfl
      · next fenced hfenced =>
          exact .written rfl ⟨rfl, rfl, rfl, fun _ => rfl,
            AuthorityRegistry.isBootFenced_of_fenceBoot hfenced, rfl⟩

/-- How a request for a mutation is served. -/
theorem Operation.stage_served {operation : Operation} {attempt : MutationAttemptId}
    {mutation : Mutation} (call : Call) (h : operation.asks impl.evidence = some (attempt, mutation)) :
    (operation.stage impl call).Served impl (operation.replays impl call) mutation := by
  cases operation with
  | publishConstraintSet =>
      cases h
      exact (publishConstraintSet_served _).map _
  | applyLifecycle =>
      cases h
      exact (applyLifecycle_served _ _).map _
  | setEvidenceRequirements =>
      cases h
      exact (applyEvidenceRequirements_served _).map _
  | advanceFamily context family generation =>
      simp only [asks, Option.map_eq_some_iff] at h
      obtain ⟨requirements, hfamily, heq⟩ := h
      cases heq
      exact (advanceFamily_served hfamily).map _
  | invalidateKey =>
      cases h
      exact (invalidateKey_served _).map _
  | fenceBoot =>
      cases h
      exact (fenceBoot_served _).map _
  | registerPublisher | fenceOnSessionLoss | dropSession | observeAttempt | flush => cases h

end Operations

/-- A request under an unused attempt is no replay. -/
theorem isReplay_of_unused {impl : Impl} {context : AuthorityContext} {scope : AuthorityScope}
    {payload : Digest256} {tick : UInt64}
    (hunused : impl.authority.findAttempt context.attempt = none) :
    (authorizeAndObserve impl context scope payload tick).isReplay = false := by
  unfold authorizeAndObserve AuthorityRegistry.observeAttempt
  rw [hunused]
  split
  · rfl
  · cases context.attempt.isValid <;> rfl

/-! ## Steps -/

/-- A write that succeeds and is published is durable. -/
theorem durable_of_persist {staged post : Impl} {next : PersistentState} {call : Call}
    (applies : Bool) (hstored : staged.Stored)
    (hpersist : (staged.persist next call).2 = .ok ())
    (hpost : post = if applies then (staged.persist next call).1.applyState next
      else (staged.persist next call).1)
    (hfenced : next.fencedBoots = staged.authority.fenced.values)
    (hwatermarks : next.watermarks = staged.watermarks)
    (hstanding : applies = false → next.standing = staged.standing) : Durable post := by
  intro hdurable
  obtain ⟨saved, -, hsaved⟩ := staged.persist_fst next call
  have hwritten : staged.durable = true → ∃ store, saved = some store ∧
      store.file = some (encodeEnvelope (encodePersistentState next)) := by
    intro hstagedDurable
    have hfile := Impl.file_of_persist hstored hstagedDurable hpersist
    rwa [hsaved] at hfile
  rw [hsaved] at hpost
  cases applies with
  | true =>
      obtain rfl := hpost
      obtain ⟨store, hstore, hfile⟩ := hwritten hdurable
      exact ⟨store, next, hstore, hfile, rfl, rfl, hfenced⟩
  | false =>
      obtain rfl := hpost
      obtain ⟨store, hstore, hfile⟩ := hwritten hdurable
      exact ⟨store, next, hstore, hfile, hstanding rfl, hwatermarks, hfenced⟩

section Steps

variable {event : Event} {attempt : MutationAttemptId} {mutation : Mutation}

private theorem operate_output {operation : Operation} (htaken : event.Taken step)
    (haction : event.input.action = .operate operation) :
    event.output = .operated (operation.run event.pre.impl event.input.call).2 ∧
      event.post.impl = (operation.run event.pre.impl event.input.call).1 := by
  unfold Event.Taken step at htaken
  simp only [haction, Option.some.injEq, Prod.mk.injEq] at htaken
  exact ⟨htaken.2.symm, by rw [← htaken.1]⟩

/-- What a published write applies. -/
private theorem applied_of_writes {operation : Operation} {staged : Impl}
    {next : PersistentState} {applies : Bool} {value : Value} {call : Call}
    (haction : event.input.action = .operate operation)
    (hwrites : mutation.Writes event.pre.impl staged next applies)
    (heffect : applies = true → next.lastEvaluationGeneration = event.pre.impl.lastGeneration ∧
      operation.Effect event.pre.impl value next.standing)
    (hpost : event.post.impl = if applies then (staged.persist next call).1.applyState next
      else (staged.persist next call).1) : Applied event mutation := by
  obtain ⟨store, -, hsaved⟩ := staged.persist_fst next call
  have heffective := hwrites.effective
  rw [hsaved] at hpost
  have hstands (happlies : applies = true) :
      ∃ operation value, event.input.action = .operate operation ∧
        operation.Effect event.pre.impl value event.post.impl.standing := by
    subst happlies
    refine ⟨operation, value, haction, ?_⟩
    rw [hpost]
    exact (heffect rfl).2
  cases mutation with
  | fence boot =>
      obtain ⟨hfenced, rfl⟩ := heffective
      rw [Applied, hpost]
      exact hfenced
  | invalidate key =>
      obtain ⟨hkey, rfl⟩ := heffective
      refine ⟨?_, hstands rfl⟩
      rw [hpost]
      exact hkey
  | publish | lifecycle | evidence => exact hstands heffective
  | evaluate => exact heffective.elim

/-- A request that is served on its fresh path carries its mutation out. -/
theorem carriesOut_of_operate {operation : Operation} (hsound : Sound event.pre)
    (htaken : event.Taken step) (haction : event.input.action = .operate operation)
    (h : Serves event attempt mutation) : Applied event mutation ∧ Durable event.post.impl := by
  obtain ⟨hasks, hfresh, hacknowledges⟩ := h
  obtain ⟨houtput, hpost⟩ := operate_output htaken haction
  have hok : ∃ value, (operation.run event.pre.impl event.input.call).2 = .ok value := by
    rcases hacknowledges with ⟨value, hvalue⟩ | ⟨outcome, hevaluated, -⟩
    · rw [houtput] at hvalue
      exact ⟨value, Reply.operated.inj hvalue⟩
    · rw [houtput] at hevaluated
      cases hevaluated
  obtain ⟨value, hvalue⟩ := hok
  simp only [asks, haction] at hasks
  simp only [Replays, haction] at hfresh
  have hserved := Operation.stage_served event.input.call hasks
  have hwithin := operation.stage_within event.pre.impl event.input.call
  have hcases := (operation.stage event.pre.impl event.input.call).settle_cases
    event.input.call
  rw [Operation.run] at hvalue hpost
  generalize operation.stage event.pre.impl event.input.call = stage at *
  cases hserved with
  | refused => cases hvalue
  | replayed hreplays =>
      rw [hreplays] at hfresh
      cases hfresh
  | @written staged next applies original _ hwrites =>
      obtain ⟨hkept, heffect⟩ := hwithin
      rcases hcases with ⟨_, _, hreply, -⟩ | ⟨_, _, _, _, hwrite, ⟨error, -, hsettle⟩ |
        ⟨hpersist, hsettle⟩⟩
      · cases hreply
      · rw [hsettle] at hvalue
        cases hvalue
      · cases hwrite
        rw [hsettle] at hpost
        have hstored := hsound.stored.of_same hkept.config hkept.durable hkept.stored
        exact ⟨applied_of_writes haction hwrites heffect hpost,
          durable_of_persist applies hstored hpersist hpost hwrites.fencedBoots
            hwrites.watermarks hwrites.standing⟩

/-- A replayed request is acknowledged. -/
theorem acknowledges_of_operate {operation : Operation} (htaken : event.Taken step)
    (haction : event.input.action = .operate operation)
    (hasks : asks event = some (attempt, mutation)) (hreplays : Replays event = true) :
    Acknowledges event := by
  obtain ⟨houtput, -⟩ := operate_output htaken haction
  simp only [asks, haction] at hasks
  simp only [Replays, haction] at hreplays
  have hserved := Operation.stage_served event.input.call hasks
  rw [Operation.run] at houtput
  generalize operation.stage event.pre.impl event.input.call = stage at *
  cases hserved with
  | refused hfresh | written hfresh =>
      rw [hreplays] at hfresh
      cases hfresh
  | @replayed value => exact .inl ⟨value, houtput⟩

/-- A first section acknowledges its request exactly when it replays it. -/
theorem begin_acknowledges_iff {base : SystemState} {context : AuthorityContext}
    {setId : ConstraintSetId} {candidates : List CandidatePath}
    {expectedGeneration : ConstraintSetGeneration} {call : Call} :
    (∃ outcome, (base.begin context setId candidates expectedGeneration call).2 =
        .evaluated (.ok outcome) ∧ outcome.committed = true) ↔
      (authorizeAndObserve base.impl context .publishEvaluation
        (evaluateDigest base.impl.evidence setId candidates expectedGeneration)
        (call.clock 0)).isReplay = true := by
  unfold SystemState.begin evaluateBegin
  cases hadmitted : authorizeAndObserve base.impl context .publishEvaluation
      (evaluateDigest base.impl.evidence setId candidates expectedGeneration)
      (call.clock 0) with
  | refused error => simp [Admission.isReplay]
  | replay =>
      simp only [Admission.isReplay, iff_true]
      exact ⟨_, rfl, rfl⟩
  | fresh fresh =>
      simp only [Admission.isReplay, Bool.false_eq_true, iff_false]
      rintro ⟨outcome, houtput, -⟩
      split at houtput
      · cases houtput
      · next heq =>
          split at heq
          · cases heq
          · split at heq
            · cases heq
            · split at heq <;> cases heq
      · cases houtput

/-- The event runs the first section that it is asked for. -/
theorem output_of_evaluationAsked {context : AuthorityContext} {setId : ConstraintSetId}
    {candidates : List CandidatePath} {expectedGeneration : ConstraintSetGeneration}
    (htaken : event.Taken step)
    (hasked : evaluationAsked event = some (context, setId, candidates, expectedGeneration)) :
    ∃ base : SystemState, base.impl = event.pre.impl ∧ event.output =
      (base.begin context setId candidates expectedGeneration event.input.call).2 := by
  unfold Event.Taken step at htaken
  unfold evaluationAsked at hasked
  split at hasked
  · next haction =>
      cases hasked
      simp only [haction, Option.some.injEq] at htaken
      exact ⟨event.pre, rfl, (congrArg Prod.snd htaken).symm⟩
  · next ticket haction =>
      split at hasked
      · next hflight =>
          cases hasked
          simp only [haction, SystemState.revalidate, hflight, Option.some.injEq] at htaken
          exact ⟨event.pre.land ticket, rfl, (congrArg Prod.snd htaken).symm⟩
      · cases hasked
  · cases hasked

theorem begin_ne_operated {base : SystemState} {context : AuthorityContext}
    {setId : ConstraintSetId} {candidates : List CandidatePath}
    {expectedGeneration : ConstraintSetGeneration} {call : Call} (result : Result Value) :
    (base.begin context setId candidates expectedGeneration call).2 ≠ .operated result := by
  unfold SystemState.begin
  split <;> simp

/-- The first section of an evaluation acknowledges its request exactly when it replays
it. -/
theorem acknowledges_iff_of_evaluationAsked {context : AuthorityContext}
    {setId : ConstraintSetId} {candidates : List CandidatePath}
    {expectedGeneration : ConstraintSetGeneration} (htaken : event.Taken step)
    (hasked : evaluationAsked event = some (context, setId, candidates, expectedGeneration)) :
    Acknowledges event ↔ Replays event = true := by
  obtain ⟨base, himpl, houtput⟩ := output_of_evaluationAsked htaken hasked
  have hreplays : Replays event = (authorizeAndObserve base.impl context .publishEvaluation
      (evaluateDigest base.impl.evidence setId candidates expectedGeneration)
      (event.input.call.clock 0)).isReplay := by
    unfold Replays
    split
    · next operation haction => simp [evaluationAsked, haction] at hasked
    · rw [hasked, himpl]
      rfl
  rw [hreplays, ← begin_acknowledges_iff, ← houtput]
  refine ⟨fun hacknowledges => ?_, .inr⟩
  rcases hacknowledges with ⟨value, hoperated⟩ | hreports
  · exact absurd (houtput.symm.trans hoperated) (begin_ne_operated _)
  · exact hreports

/-- A committed evaluation carries its mutation out. -/
theorem carriesOut_of_commits {ticket : Nat} {snapshot : EvaluationSnapshot}
    (hsound : Sound event.pre) (htaken : event.Taken step)
    (hcommits : Commits event ticket snapshot) :
    Applied event (.evaluate snapshot.setId snapshot.candidates
      snapshot.expectedGeneration) ∧ Durable event.post.impl := by
  have htransition := step_transition hsound.limits htaken
  have hgate := (htransition.reportsCommit_iff hcommits.toFinishes).mp hcommits.reports
  cases htransition.finishOutcome hcommits.toFinishes with
  | moved _ hmoved => exact absurd hgate.1 hmoved
  | unwritten next _ htarget herror =>
      rw [hgate.2 next htarget] at herror
      cases herror
  | committed next _ _ htarget hpersist _ _ _ _ hpost =>
      obtain ⟨populations, excess, hwrites⟩ := commitTarget_writes htarget
      have hpopulations : next.populations = populations :=
        congrArg Standing.populations hwrites.standing
      refine ⟨⟨ticket, snapshot, hcommits, rfl, rfl, fun record hrecord => ?_, ?_⟩,
        durable_of_persist true hsound.stored hpersist hpost hwrites.fencedBoots
          hwrites.watermarks nofun⟩
      · rw [hpost]
        exact (hwrites.mem_evaluations hrecord).2
      · rw [hpost]
        change findPopulation next.populations snapshot.setId = _
        rw [hpopulations]
        exact findPopulation_commitPopulations hwrites.retained

/-- A request that is acknowledged on its fresh path is carried out. -/
theorem Serves.carriesOut (h : Serves event attempt mutation) (hsound : Sound event.pre)
    (htaken : event.Taken step) : CarriesOut event attempt mutation := by
  suffices hdone : Applied event mutation ∧ Durable event.post.impl from
    ⟨h, hdone.1, hdone.2⟩
  have hbegin : ∀ asked, evaluationAsked event = some asked → False := by
    rintro ⟨context, setId, candidates, expectedGeneration⟩ hasked
    have hreplays := (acknowledges_iff_of_evaluationAsked htaken hasked).mp h.acknowledges
    rw [h.fresh] at hreplays
    cases hreplays
  have hasks := h.asks
  unfold Fabric.asks at hasks
  split at hasks
  · next operation haction => exact carriesOut_of_operate hsound htaken haction h
  · next ticket haction =>
      split at hasks
      · next snapshot hflight =>
          cases hasks
          have hfinish : Finishes event ticket snapshot := ⟨haction, hflight⟩
          have hreports : ReportsCommit event := by
            rcases h.acknowledges with ⟨value, hoperated⟩ | hreports
            · obtain ⟨result, houtput⟩ :=
                (step_transition hsound.limits htaken).finish_output hfinish
              rw [houtput] at hoperated
              cases hoperated
            · exact hreports
          exact carriesOut_of_commits hsound htaken ⟨hfinish, hreports⟩
      · cases hasks
  · simp only [Option.map_eq_some_iff] at hasks
    obtain ⟨asked, hasked, -⟩ := hasks
    exact (hbegin asked hasked).elim

/-- A request that is replayed is acknowledged. -/
theorem acknowledges_of_replays (htaken : event.Taken step)
    (hasks : asks event = some (attempt, mutation)) (h : Replays event = true) :
    Acknowledges event := by
  cases haction : event.input.action with
  | operate operation => exact acknowledges_of_operate htaken haction hasks h
  | evaluateBegin =>
      exact (acknowledges_iff_of_evaluationAsked htaken
        (by simp only [evaluationAsked, haction]; rfl)).mpr h
  | revalidateBegin ticket =>
      cases hasked : evaluationAsked event with
      | none => simp [Replays, haction, hasked] at h
      | some asked => exact (acknowledges_iff_of_evaluationAsked htaken hasked).mpr h
  | evaluateFinish | revalidateRead => simp [Replays, haction, evaluationAsked] at h

end Steps

/-! ## Whole runs -/

/-- In a run, every acknowledged mutation was carried out, in memory and durably, exactly
when every replay repeats a request that was acknowledged on its fresh path. -/
theorem acknowledges_only_carried_out_iff {events : List Event} {last : SystemState}
    (hexecution : Execution events last) :
    AcknowledgesOnlyCarriedOut events ↔ ReplaysOnlyServed events := by
  constructor
  · rintro hcarried before event after rfl hreplays attempt mutation hasks
    have htaken := hexecution.taken
    obtain ⟨earlier, hmem, hearlier⟩ := hcarried before event after rfl attempt mutation hasks
      (acknowledges_of_replays htaken hasks hreplays)
    rcases List.mem_append.mp hmem with hbefore | hlast
    · exact ⟨earlier, hbefore, hearlier.toServes⟩
    · have hfresh := hearlier.fresh
      rw [List.mem_singleton.mp hlast, hreplays] at hfresh
      cases hfresh
  · rintro hserved before event after rfl attempt mutation hasks hacknowledges
    cases hreplays : Replays event with
    | false =>
        have htaken := hexecution.taken
        have hsound := hexecution.split.1.sound
        have hserves : Serves event attempt mutation := ⟨hasks, hreplays, hacknowledges⟩
        exact ⟨event, by simp, hserves.carriesOut hsound htaken⟩
    | true =>
        obtain ⟨earlier, hmem, hearlier⟩ :=
          hserved before event after rfl hreplays attempt mutation hasks
        obtain ⟨first, rest, rfl⟩ := List.append_of_mem hmem
        have hcut : Execution (first ++ earlier :: (rest ++ event :: after)) last := by
          simpa using hexecution
        have htaken := hcut.taken
        have hsound := hcut.split.1.sound
        exact ⟨earlier, by simp, hearlier.carriesOut hsound htaken⟩

/-! ## A refused request that is retried -/

/-- Requirements that ask for an older topology. -/
def sampleOutdated : EvidenceRequirements := { sampleEvidence with topology := ⟨2⟩ }

/-- The same request twice, under one attempt. -/
def sampleRetry : List Input :=
  [sampleInput (.operate (.setEvidenceRequirements (sampleContext 30) sampleOutdated)),
   sampleInput (.operate (.setEvidenceRequirements (sampleContext 30) sampleOutdated))]

/-- The first request is refused, its retry is acknowledged, and the requirements are
not those that it asked for. -/
private def acknowledgesRetry : List Event → Bool
  | [register, first, second] =>
      match first.output, second.output with
      | .operated (.error error), .operated (.ok _) =>
          decide (error.code = .staleGeneration ∧ asks register = none ∧
            asks first = some (⟨30⟩, .evidence sampleOutdated) ∧
            asks second = some (⟨30⟩, .evidence sampleOutdated) ∧ Replays second = true ∧
            second.post.impl.evidence ≠ sampleOutdated)
      | _, _ => false
  | _ => false

private theorem sampleRetry_acknowledges :
    ((sampleRun sampleRetry).any fun run => acknowledgesRetry run.1) = true := by
  decide +kernel

/-- A request that was refused is acknowledged when it is retried, and its mutation was
never carried out. -/
theorem refused_request_acknowledged_on_retry :
    ∃ events last, sampleRun sampleRetry = some (events, last) ∧ Execution events last ∧
      (∃ first ∈ events, ∃ second ∈ events, ∃ error,
        asks first = asks second ∧
        asks second = some (⟨30⟩, .evidence sampleOutdated) ∧
        first.output = .operated (.error error) ∧ error.code = .staleGeneration ∧
        Acknowledges second ∧ second.post.impl.evidence ≠ sampleOutdated) ∧
      ¬ AcknowledgesOnlyCarriedOut events := by
  obtain ⟨events, last, hrun, hexecution, hcheck⟩ :=
    sampleRun_execution _ _ sampleRetry_acknowledges
  refine ⟨events, last, hrun, hexecution, ?_⟩
  unfold acknowledgesRetry at hcheck
  split at hcheck
  · next register first second =>
      split at hcheck
      · next error value hrefused haccepted =>
          obtain ⟨hcode, hnone, hfirst, hsecond, hreplays, hevidence⟩ := of_decide_eq_true hcheck
          have hacknowledges : Acknowledges second := .inl ⟨value, haccepted⟩
          refine ⟨⟨first, by simp, second, by simp, error, hfirst.trans hsecond.symm, hsecond,
            hrefused, hcode, hacknowledges, hevidence⟩, fun hcarried => ?_⟩
          obtain ⟨earlier, hmem, hearlier⟩ := hcarried [register, first] second [] rfl _ _
            hsecond hacknowledges
          simp only [List.cons_append, List.nil_append, List.mem_cons, List.not_mem_nil,
            or_false] at hmem
          rcases hmem with rfl | rfl | rfl
          · rw [hearlier.asks] at hnone
            cases hnone
          · rcases hearlier.acknowledges with ⟨_, hok⟩ | ⟨_, hok, -⟩
            · rw [hrefused] at hok
              cases hok
            · rw [hrefused] at hok
              cases hok
          · rw [hearlier.fresh] at hreplays
            cases hreplays
      · cases hcheck
  · cases hcheck

theorem acknowledges_only_carried_out_iff_sample :
    ∃ events last, sampleRun sampleRetry = some (events, last) ∧
      (AcknowledgesOnlyCarriedOut events ↔ ReplaysOnlyServed events) := by
  obtain ⟨events, last, hrun, hexecution, -⟩ :=
    sampleRun_execution _ _ sampleRetry_acknowledges
  exact ⟨events, last, hrun, acknowledges_only_carried_out_iff hexecution⟩

end ConstraintRouting.Fabric
