import ConstraintRouting.Fabric.Reopening
import ConstraintRouting.Fabric.Sites

/-!
# A coordinator without its store

What a coordinator keeps in memory does not depend on whether it has a store.  A critical
section that saves what it writes leaves in memory what the same section leaves in a
coordinator that was opened without a store, and returns the same reply.
-/

namespace ConstraintRouting.Fabric

open Verified.StepMachine

/-! ## Forgetting the store -/

/-- The configuration of a coordinator in memory. -/
def CoordinatorConfig.volatile (config : CoordinatorConfig) : CoordinatorConfig :=
  { config with storePath := "", allowInitialize := true }

/-- The coordinator as one without a store. -/
def Impl.volatile (impl : Impl) : Impl :=
  { impl with config := impl.config.volatile, store := none, durable := false }

/-- The staged operation of a coordinator without a store. -/
def Staged.volatile {α : Type} : Staged α → Staged α
  | .reply impl result => .reply impl.volatile result
  | .write impl next applies value => .write impl.volatile next applies value

/-- The coordinator without its store, with the same calls in flight. -/
def SystemState.volatile (state : SystemState) : SystemState :=
  { state with impl := state.impl.volatile }

/-- The event without the store of its coordinator. -/
def volatileEvent (event : Event) : Event :=
  { event with pre := event.pre.volatile, post := event.post.volatile }

theorem Staged.map_of_volatile {α β : Type} (f : α → β) {without staged : Staged α}
    (h : without = staged.volatile) : without.map f = (staged.map f).volatile := by
  rw [h]
  cases staged <;> rfl

section Fields

variable (impl : Impl)

theorem Impl.volatile_authority : impl.volatile.authority = impl.authority := rfl

theorem Impl.volatile_limits : impl.volatile.config.limits = impl.config.limits := rfl

theorem Impl.volatile_evidence : impl.volatile.evidence = impl.evidence := rfl

theorem Impl.volatile_watermarks : impl.volatile.watermarks = impl.watermarks := rfl

theorem Impl.volatile_sets : impl.volatile.sets = impl.sets := rfl

theorem Impl.volatile_toState : impl.volatile.toState = impl.toState := rfl

end Fields

/-! ## Requests -/

section Operations

variable {impl : Impl} {call : Call}

/-- The admission to a coordinator without a store. -/
def Admission.volatile : Admission → Admission
  | .fresh impl => .fresh impl.volatile
  | .refused error => .refused error
  | .replay => .replay

theorem authorizeAndObserve_volatile (impl : Impl) (context : AuthorityContext)
    (scope : AuthorityScope) (payload : Digest256) (tick : UInt64) :
    authorizeAndObserve impl.volatile context scope payload tick =
      (authorizeAndObserve impl context scope payload tick).volatile := by
  unfold authorizeAndObserve
  rw [impl.volatile_authority, impl.volatile_limits]
  cases impl.authority.authorize context (scopeBit scope) with
  | error error => rfl
  | ok _ =>
      dsimp only
      rcases impl.authority.observeAttempt context.attempt payload tick impl.config.limits with
        error | ⟨authority, _ | _ | _⟩ <;> rfl

theorem registerPublisher_volatile (context : AuthorityContext) (publisher : PublisherId)
    (boot : WorkerBootId) (scopes : AuthorityScopeMask) (session : SessionId) :
    registerPublisher impl.volatile context publisher boot scopes session call =
      (registerPublisher impl context publisher boot scopes session call).volatile := by
  have hgrants : grantOf impl.volatile.config publisher = grantOf impl.config publisher := rfl
  unfold registerPublisher
  rw [impl.volatile_authority, hgrants, impl.volatile_limits, impl.volatile_toState]
  split
  · rfl
  · cases grantOf impl.config publisher with
    | none => rfl
    | some grant =>
        dsimp only
        split
        · rfl
        · split <;> rfl

theorem fenceBoot_volatile (context : AuthorityContext) (boot : WorkerBootId) :
    fenceBoot impl.volatile context boot call =
      (fenceBoot impl context boot call).volatile := by
  unfold fenceBoot
  rw [authorizeAndObserve_volatile]
  cases authorizeAndObserve impl context .administerFencing {} (call.clock 0) with
  | refused error => rfl
  | replay => rfl
  | fresh fresh =>
      dsimp only [Admission.volatile]
      rw [fresh.volatile_authority, fresh.volatile_limits]
      split <;> rfl

theorem fenceOnSessionLoss_volatile (session : SessionId) :
    fenceOnSessionLoss impl.volatile session call =
      (fenceOnSessionLoss impl session call).volatile := by
  unfold fenceOnSessionLoss
  rw [impl.volatile_authority, impl.volatile_limits]
  split
  · rfl
  · split <;> rfl

theorem dropSession_volatile (context : AuthorityContext) (session : SessionId) :
    dropSession impl.volatile context session =
      (dropSession impl context session).volatile := by
  unfold dropSession
  rw [impl.volatile_authority]
  split
  · rfl
  · split <;> rfl

theorem observeAttempt_volatile (context : AuthorityContext) (payload : Digest256) :
    observeAttempt impl.volatile context payload call =
      (observeAttempt impl context payload call).volatile := by
  unfold observeAttempt
  rw [impl.volatile_authority, impl.volatile_limits]
  split <;> rfl

theorem publishConstraintSet_volatile (context : AuthorityContext) (set : ConstraintSet) :
    publishConstraintSet impl.volatile context set call =
      (publishConstraintSet impl context set call).volatile := by
  unfold publishConstraintSet
  rw [authorizeAndObserve_volatile]
  cases authorizeAndObserve impl context .publishConstraintSet (publishDigest set)
      (call.clock 0) with
  | refused error => rfl
  | replay =>
      dsimp only [Admission.volatile]
      rw [impl.volatile_sets]
      split <;> rfl
  | fresh fresh =>
      dsimp only [Admission.volatile]
      rw [fresh.volatile_limits, fresh.volatile_sets]
      split
      · rfl
      · split <;> rfl

theorem transition_volatile (target : ConstraintSet) (event : LifecycleEvent) :
    transition impl.volatile target event = (transition impl target event).volatile := by
  unfold transition
  split <;> rfl

theorem applyLifecycle_volatile (context : AuthorityContext) (setId : ConstraintSetId)
    (event : LifecycleEvent) :
    applyLifecycle impl.volatile context setId event call =
      (applyLifecycle impl context setId event call).volatile := by
  unfold applyLifecycle
  rw [authorizeAndObserve_volatile]
  cases authorizeAndObserve impl context .applyLifecycle (lifecycleDigest setId event)
      (call.clock 0) with
  | refused error => rfl
  | replay =>
      dsimp only [Admission.volatile]
      rw [impl.volatile_sets]
      split <;> rfl
  | fresh fresh =>
      dsimp only [Admission.volatile]
      rw [fresh.volatile_sets]
      split
      · rfl
      · exact transition_volatile _ event

theorem applyEvidenceRequirements_volatile (context : AuthorityContext)
    (requirements : EvidenceRequirements) :
    applyEvidenceRequirements impl.volatile context requirements call =
      (applyEvidenceRequirements impl context requirements call).volatile := by
  unfold applyEvidenceRequirements
  rw [authorizeAndObserve_volatile]
  cases authorizeAndObserve impl context .publishEvaluation (evidenceDigest requirements)
      (call.clock 0) with
  | refused error => rfl
  | replay => rfl
  | fresh fresh =>
      dsimp only [Admission.volatile]
      rw [fresh.volatile_evidence, fresh.volatile_watermarks]
      split
      · rfl
      · split <;> rfl

theorem advanceFamily_volatile (context : AuthorityContext) (family : EvidenceFamily)
    (generation : UInt64) :
    advanceFamily impl.volatile context family generation call =
      (advanceFamily impl context family generation call).volatile := by
  unfold advanceFamily
  rw [impl.volatile_evidence]
  split
  · rfl
  · split
    · rfl
    · exact applyEvidenceRequirements_volatile context _

theorem invalidateKey_volatile (context : AuthorityContext) (key : InvalidationKey) :
    invalidateKey impl.volatile context key call =
      (invalidateKey impl context key call).volatile := by
  unfold invalidateKey
  rw [authorizeAndObserve_volatile]
  cases authorizeAndObserve impl context .publishEvaluation (invalidateDigest key)
      (call.clock 0) with
  | refused error => rfl
  | replay => rfl
  | fresh fresh =>
      have hadvanced : fresh.volatile.watermarks.advanceKey key
          (fresh.volatile.invalidationSequence + 1) =
          fresh.watermarks.advanceKey key (fresh.invalidationSequence + 1) := rfl
      dsimp only [Admission.volatile]
      rw [hadvanced]
      split <;> rfl

/-- What a request stages does not depend on the store. -/
theorem Operation.stage_volatile (operation : Operation) (impl : Impl) (call : Call) :
    operation.stage impl.volatile call = (operation.stage impl call).volatile := by
  cases operation with
  | registerPublisher context publisher boot scopes session =>
      exact Staged.map_of_volatile _
        (registerPublisher_volatile context publisher boot scopes session)
  | fenceBoot context boot => exact Staged.map_of_volatile _ (fenceBoot_volatile context boot)
  | fenceOnSessionLoss session =>
      exact Staged.map_of_volatile _ (fenceOnSessionLoss_volatile session)
  | dropSession context session =>
      exact Staged.map_of_volatile _ (dropSession_volatile context session)
  | observeAttempt context payload =>
      exact Staged.map_of_volatile _ (observeAttempt_volatile context payload)
  | publishConstraintSet context set =>
      exact Staged.map_of_volatile _ (publishConstraintSet_volatile context set)
  | applyLifecycle context setId event =>
      exact Staged.map_of_volatile _ (applyLifecycle_volatile context setId event)
  | setEvidenceRequirements context requirements =>
      exact Staged.map_of_volatile _ (applyEvidenceRequirements_volatile context requirements)
  | advanceFamily context family generation =>
      exact Staged.map_of_volatile _ (advanceFamily_volatile context family generation)
  | invalidateKey context key => exact Staged.map_of_volatile _ (invalidateKey_volatile context key)
  | flush => rfl

end Operations

/-! ## Evaluations -/

theorem evaluateBegin_volatile (impl : Impl) (context : AuthorityContext)
    (setId : ConstraintSetId) (candidates : List CandidatePath)
    (expectedGeneration : ConstraintSetGeneration) (call : Call) :
    evaluateBegin impl.volatile context setId candidates expectedGeneration call =
      ((evaluateBegin impl context setId candidates expectedGeneration call).1.volatile,
       (evaluateBegin impl context setId candidates expectedGeneration call).2) := by
  unfold evaluateBegin
  rw [authorizeAndObserve_volatile, impl.volatile_evidence]
  cases authorizeAndObserve impl context .publishEvaluation
      (evaluateDigest impl.evidence setId candidates expectedGeneration) (call.clock 0) with
  | refused error => rfl
  | replay => rfl
  | fresh fresh =>
      have hcounter : fresh.volatile.lastGeneration = fresh.lastGeneration := rfl
      dsimp only [Admission.volatile]
      rw [fresh.volatile_sets, fresh.volatile_limits, hcounter]
      split
      · rfl
      · split
        · rfl
        · split <;> rfl

theorem evaluateFinish_volatile (impl : Impl) (snapshot : EvaluationSnapshot) (call : Call) :
    evaluateFinish impl.volatile snapshot call =
      (evaluateFinish impl snapshot call).map Staged.volatile := by
  have hstale : staleReason impl.volatile snapshot = staleReason impl snapshot := rfl
  have hstate : commitState impl.volatile snapshot = commitState impl snapshot := rfl
  unfold evaluateFinish
  dsimp only
  rw [impl.volatile_limits, hstale, hstate, impl.volatile_sets]
  split
  · rfl
  · split
    · rfl
    · rw [Option.map_map]
      rfl

/-! ## Writes -/

/-- A coordinator without a store writes nowhere. -/
theorem persist_of_memory {impl : Impl} (hmemory : impl.durable = false)
    (next : PersistentState) (call : Call) : impl.persist next call = (impl, .ok ()) := by
  unfold Impl.persist
  rw [hmemory]
  rfl

/-- A coordinator without a store acknowledges whatever it stages. -/
theorem Staged.settle_of_memory {α : Type} {staged : Impl} {next : PersistentState}
    {applies : Bool} {value : α} {call : Call} (hmemory : staged.durable = false) :
    (Staged.write staged next applies value).settle call =
      (if applies then staged.applyState next else staged, .ok value) := by
  have hpersist := persist_of_memory hmemory next call
  unfold Staged.settle
  dsimp only
  rw [hpersist]

/-- A write that succeeds leaves in memory what a coordinator without a store would have. -/
theorem Staged.settle_volatile {α : Type} (staged : Staged α) {call : Call}
    (h : ∀ impl next applies value, staged = .write impl next applies value →
      (impl.persist next call).2 = .ok ()) :
    staged.volatile.settle call =
      ((staged.settle call).1.volatile, (staged.settle call).2) := by
  rcases staged.settle_cases call with ⟨impl, result, rfl, hsettle⟩ |
    ⟨impl, next, applies, value, rfl, ⟨error, herror, -⟩ | ⟨-, hsettle⟩⟩
  · rw [hsettle]
    rfl
  · rw [h impl next applies value rfl] at herror
    cases herror
  · obtain ⟨store, -, hsaved⟩ := impl.persist_fst next call
    rw [hsettle, hsaved]
    cases applies <;> rfl

/-- The outcome of a write depends on the store alone. -/
theorem persist_snd_of_same {before after : Impl} {next : PersistentState} {call : Call}
    (hdurable : after.durable = before.durable) (hstore : after.store = before.store) :
    (after.persist next call).2 = (before.persist next call).2 := by
  unfold Impl.persist
  rw [hdurable, hstore]
  split
  · rfl
  · split <;> rfl

/-! ## Steps -/

theorem SystemState.begin_volatile (state : SystemState) (context : AuthorityContext)
    (setId : ConstraintSetId) (candidates : List CandidatePath)
    (expectedGeneration : ConstraintSetGeneration) (call : Call) :
    state.volatile.begin context setId candidates expectedGeneration call =
      ((state.begin context setId candidates expectedGeneration call).1.volatile,
       (state.begin context setId candidates expectedGeneration call).2) := by
  have hbegin := evaluateBegin_volatile state.impl context setId candidates expectedGeneration
    call
  unfold SystemState.begin
  change evaluateBegin state.volatile.impl _ _ _ _ _ = _ at hbegin
  rw [hbegin]
  rcases evaluateBegin state.impl context setId candidates expectedGeneration call with
    ⟨after, error | outcome | snapshot⟩ <;> rfl

/-- A section whose write succeeds is the section of the coordinator without a store. -/
theorem step_volatile (state : SystemState) (input : Input)
    (hsaves : ∀ next, state.volatile.saved input = some next →
      (state.impl.persist next input.call).2 = .ok ()) :
    step state.volatile input =
      (step state input).map fun taken => (taken.1.volatile, taken.2) := by
  obtain ⟨action, call⟩ := input
  have himpl : state.volatile.impl = state.impl.volatile := rfl
  cases action with
  | operate operation =>
      have hprojected := operation.stage_projected state.impl call
      have hwithin := operation.stage_within state.impl call
      have hstage := operation.stage_volatile state.impl call
      have hsettle := @Staged.settle_volatile _ (operation.stage state.impl call) call ?_
      · show some _ = some _
        unfold Operation.run
        rw [himpl, hstage, hsettle]
        rfl
      · intro impl next applies value hwrite
        rw [hwrite] at hprojected hwithin
        have hnext : state.volatile.saved ⟨.operate operation, call⟩ = some next := by
          show (operation.stage state.impl.volatile call).saved call = _
          rw [hstage, hwrite]
          rfl
        have hsame := @persist_snd_of_same _ _ next call hwithin.1.durable hprojected.1
        exact hsame.trans (hsaves next hnext)
  | evaluateBegin context setId candidates expectedGeneration =>
      show some _ = some _
      rw [state.begin_volatile]
  | evaluateFinish ticket =>
      have hflights : state.volatile.flights = state.flights := rfl
      unfold step SystemState.finish
      dsimp only
      rw [hflights]
      cases hflight : state.flights ticket with
      | none => rfl
      | some flight =>
          cases flight with
          | populationRead context setId population => rfl
          | evaluating snapshot =>
              have hfinish := evaluateFinish_volatile state.impl snapshot call
              dsimp only
              rw [himpl, hfinish]
              cases hstaged : evaluateFinish state.impl snapshot call with
              | none => rfl
              | some staged =>
                  have hsettle := @Staged.settle_volatile _ staged call ?_
                  · simp only [Option.map_some, hsettle]
                    rfl
                  · rintro impl next applies value rfl
                    obtain rfl := evaluateFinish_eq_write hstaged
                    apply hsaves
                    unfold SystemState.saved
                    dsimp only
                    rw [hflights, hflight]
                    dsimp only
                    rw [himpl, hfinish, hstaged]
                    rfl
  | revalidateRead context setId =>
      have hread : revalidateRead state.volatile.impl setId = revalidateRead state.impl setId :=
        rfl
      unfold step SystemState.readPopulation
      dsimp only
      rw [hread]
      split <;> rfl
  | revalidateBegin ticket =>
      have hflights : state.volatile.flights = state.flights := rfl
      unfold step SystemState.revalidate
      dsimp only
      rw [hflights]
      cases hflight : state.flights ticket with
      | none => rfl
      | some flight =>
          cases flight with
          | evaluating snapshot => rfl
          | populationRead context setId population =>
              have hbegin := (state.land ticket).begin_volatile context setId population {} call
              have hland : state.volatile.land ticket = (state.land ticket).volatile := rfl
              dsimp only [Option.map_some]
              rw [hland, hbegin]

/-! ## Runs -/

/-- The file write of what the section writes succeeds. -/
def WritesFile (event : Event) : Prop :=
  ∀ next, event.pre.saved event.input = some next → event.input.call.write = .written ∧
    (encodePersistentState next).length ≤
      event.pre.impl.config.limits.maxPersistenceRecordBytes.toNat

/-- Validation accepts what the section writes. -/
def WritesValid (event : Event) : Prop :=
  ∀ next, event.pre.saved event.input = some next →
    Validated next event.pre.impl.config.limits

/-- A write that validation and the file system accept succeeds. -/
theorem persist_eq_ok {impl : Impl} {next : PersistentState} {call : Call}
    (hstored : impl.Stored) (hdurable : impl.durable = true)
    (hvalid : Validated next impl.config.limits) (hwritten : call.write = .written)
    (hsize : (encodePersistentState next).length ≤
      impl.config.limits.maxPersistenceRecordBytes.toNat) :
    (impl.persist next call).2 = .ok () := by
  obtain ⟨store, hstore, hlimits⟩ := Option.map_eq_some_iff.mp (hstored hdurable)
  have hsaved : (store.save next call.write).2 = .ok () := by
    rw [DurableStore.save_status_eq_ok, hlimits]
    exact ⟨hvalid, hsize, hwritten⟩
  unfold Impl.persist
  rw [hdurable, hstore]
  exact hsaved

/-- A run without a store is the run of every coordinator with one, as long as validation
and the file system accept what it writes. -/
theorem run_of_volatile {start last : SystemState} {events : List Event}
    (hrun : Run step start.volatile events last) (hsound : Sound start)
    (hdurable : start.impl.durable = true) (hfiles : ∀ event ∈ events, WritesFile event)
    (hvalid : ∀ event ∈ events, WritesValid event) :
    ∃ durable final, Run step start durable final ∧
      durable.map volatileEvent = events ∧ final.volatile = last := by
  induction events generalizing start with
  | nil =>
      obtain rfl := hrun.eq_of_nil
      exact ⟨[], start, .nil start, rfl, rfl⟩
  | cons event rest ih =>
      generalize hstart : start.volatile = memory at hrun
      cases hrun with
      | cons htaken hrest =>
          have hlimits : event.pre.impl.config.limits = start.impl.config.limits := by
            rw [← hstart]
            rfl
          have hfile := hfiles event List.mem_cons_self
          have haccepts := hvalid event List.mem_cons_self
          have hsteps := step_volatile start event.input ?_
          · unfold Event.Taken at htaken
            rw [← hstart, hsteps, Option.map_eq_some_iff] at htaken
            obtain ⟨⟨next, output⟩, hnext, hsame⟩ := htaken
            obtain ⟨hpost, houtput⟩ := Prod.mk.inj hsame
            let taken : Event := ⟨start, event.input, output, next⟩
            have htransition : Transition start event.input.call event.input.action output
              next := step_transition hsound.limits hnext
            rw [← hpost] at hrest
            obtain ⟨durable, final, hlater, hevents, hfinal⟩ := ih hrest
              (htransition.sound hsound)
              ((htransition.impl_kept hsound.derived).2.1.trans hdurable)
              (fun later hmem => hfiles later (List.mem_cons_of_mem _ hmem))
              (fun later hmem => hvalid later (List.mem_cons_of_mem _ hmem))
            have hfirst : taken.Taken step := hnext
            refine ⟨taken :: durable, final, .cons hfirst hlater, ?_, hfinal⟩
            have hevent : volatileEvent taken = event := by
              obtain ⟨pre, input, reply, post⟩ := event
              dsimp only at hstart hpost houtput
              subst hstart hpost houtput
              rfl
            rw [List.map_cons, hevents, hevent]
          · intro next hnext
            rw [hstart] at hnext
            obtain ⟨hwritten, hsize⟩ := hfile next hnext
            have hchecked := haccepts next hnext
            rw [hlimits] at hsize hchecked
            exact persist_eq_ok hsound.stored hdurable hchecked hwritten hsize

end ConstraintRouting.Fabric
