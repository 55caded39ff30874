import ConstraintRouting.Fabric.Authorization
import ConstraintRouting.Fabric.Lifetimes

/-!
# The window of attempts

A mutating request submits its attempt with a payload to the window of attempts, which
records an attempt that it does not hold.  Nothing else touches the window while the
coordinator runs, and opening a coordinator empties it.
-/

namespace ConstraintRouting.Fabric

open Verified.StepMachine
open Verified.Checks (seq_eq_ok failIf_eq_ok)

/-! ## Submissions -/

/-- The caller of a request and the payload that it submits with its attempt, where the
evidence is required. -/
def Operation.submission (evidence : EvidenceRequirements) :
    Operation → Option (AuthorityContext × Digest256)
  | .fenceBoot context _ => some (context, {})
  | .observeAttempt context payload => some (context, payload)
  | .publishConstraintSet context set => some (context, publishDigest set)
  | .applyLifecycle context setId event => some (context, lifecycleDigest setId event)
  | .setEvidenceRequirements context requirements =>
      some (context, evidenceDigest requirements)
  | .advanceFamily context family generation =>
      if Generation.isRepresentable generation then
        (withFamily evidence family generation).map fun requirements =>
          (context, evidenceDigest requirements)
      else none
  | .invalidateKey context key => some (context, invalidateDigest key)
  | .registerPublisher .. | .fenceOnSessionLoss _ | .dropSession .. | .flush => none

/-- What a section submits.  The last section of an evaluation goes on with what the first
one submitted. -/
def SystemState.submission (state : SystemState) :
    Action → Option (AuthorityContext × Digest256)
  | .operate operation => operation.submission state.impl.evidence
  | .evaluateBegin context setId candidates expectedGeneration =>
      some (context, evaluateDigest state.impl.evidence setId candidates expectedGeneration)
  | .revalidateBegin ticket =>
      match state.flights ticket with
      | some (.populationRead context setId population) =>
          some (context, evaluateDigest state.impl.evidence setId population {})
      | _ => none
  | .evaluateFinish _ | .revalidateRead _ _ => none

/-- The window stays as it is, or records what is submitted. -/
inductive AuthorityRegistry.Window (registry : AuthorityRegistry) (limits : Limits)
    (submission : Option (AuthorityContext × Digest256)) (attempts : List MutationAttemptRecord) :
    Prop
  | kept : attempts = registry.attempts → Window registry limits submission attempts
  | recorded (context : AuthorityContext) (payload : Digest256) (tick : UInt64)
      (after : AuthorityRegistry) : submission = some (context, payload) →
      registry.observeAttempt context.attempt payload tick limits = .ok (after, .fresh) →
      attempts = after.attempts → Window registry limits submission attempts

/-- Only a fresh observation changes the registry. -/
theorem AuthorityRegistry.eq_of_observeAttempt {registry after : AuthorityRegistry}
    {attempt : MutationAttemptId} {payload : Digest256} {tick : UInt64} {limits : Limits}
    {verdict : ReplayVerdict}
    (h : registry.observeAttempt attempt payload tick limits = .ok (after, verdict)) :
    after = registry ∨ verdict = .fresh := by
  simp only [observeAttempt, seq_eq_ok] at h
  obtain ⟨-, h⟩ := h
  split at h
  · cases h
    exact .inl rfl
  · cases h
    exact .inr rfl

section Operations

variable {impl : Impl} {call : Call}

/-- An admitted request leaves the window with what it recorded. -/
private theorem admitted_window {context : AuthorityContext} {scope : AuthorityScope}
    {payload : Digest256} {tick : UInt64} {fresh : Impl}
    (h : authorizeAndObserve impl context scope payload tick = .fresh fresh) :
    impl.authority.Window impl.config.limits (some (context, payload))
      fresh.authority.attempts := by
  obtain ⟨authority, rfl, -, hobserve⟩ := admit_fresh h
  exact .recorded context payload tick authority rfl hobserve rfl

private theorem fenceBoot_window {context : AuthorityContext} {boot : WorkerBootId} :
    impl.authority.Window impl.config.limits (some (context, {}))
      (fenceBoot impl context boot call).authority.attempts := by
  unfold fenceBoot
  split
  · exact .kept rfl
  · exact .kept rfl
  · next fresh hadmitted =>
      have hwindow := admitted_window hadmitted
      split
      · exact hwindow
      · next authority hfenced =>
          rcases AuthorityRegistry.fenceBoot_ok hfenced with ⟨-, rfl⟩ | ⟨-, rfl⟩
          · exact hwindow
          · exact hwindow

private theorem fenceOnSessionLoss_window {session : SessionId}
    {submission : Option (AuthorityContext × Digest256)} :
    impl.authority.Window impl.config.limits submission
      (fenceOnSessionLoss impl session call).authority.attempts := by
  unfold fenceOnSessionLoss
  split
  · exact .kept rfl
  · split
    · exact .kept rfl
    · next fenced hfenced =>
        have hkept : fenced.attempts = impl.authority.attempts := by
          rcases AuthorityRegistry.fenceBoot_ok hfenced with ⟨-, rfl⟩ | ⟨-, rfl⟩ <;> rfl
        refine .kept ?_
        dsimp only [Staged.authority]
        split
        · next hdropped =>
            obtain ⟨registrations, rfl⟩ := AuthorityRegistry.dropSession_ok hdropped
            exact hkept
        · exact hkept

private theorem dropSession_window {context : AuthorityContext} {session : SessionId}
    {submission : Option (AuthorityContext × Digest256)} :
    impl.authority.Window impl.config.limits submission
      (dropSession impl context session).authority.attempts := by
  unfold dropSession
  split
  · exact .kept rfl
  · split
    · exact .kept rfl
    · next hdropped =>
        obtain ⟨registrations, rfl⟩ := AuthorityRegistry.dropSession_ok hdropped
        exact .kept rfl

private theorem registerPublisher_window {context : AuthorityContext}
    {publisher : PublisherId} {boot : WorkerBootId} {scopes : AuthorityScopeMask}
    {session : SessionId} {submission : Option (AuthorityContext × Digest256)} :
    impl.authority.Window impl.config.limits submission
      (registerPublisher impl context publisher boot scopes session call).authority.attempts := by
  unfold registerPublisher
  split
  · exact .kept rfl
  · split
    · exact .kept rfl
    · dsimp only
      split
      · exact .kept rfl
      · split
        · next hrefused =>
            exact .kept (AuthorityRegistry.unobserved_of_registerPublisher hrefused).1
        · next hregistered =>
            exact .kept (AuthorityRegistry.unobserved_of_registerPublisher hregistered).1

private theorem observeAttempt_window {context : AuthorityContext} {payload : Digest256} :
    impl.authority.Window impl.config.limits (some (context, payload))
      (observeAttempt impl context payload call).authority.attempts := by
  unfold observeAttempt
  split
  · exact .kept rfl
  · next authority verdict hobserve =>
      rcases AuthorityRegistry.eq_of_observeAttempt hobserve with rfl | rfl
      · exact .kept rfl
      · exact .recorded context payload _ authority rfl hobserve rfl

private theorem publishConstraintSet_window {context : AuthorityContext}
    {set : ConstraintSet} :
    impl.authority.Window impl.config.limits (some (context, publishDigest set))
      (publishConstraintSet impl context set call).authority.attempts := by
  unfold publishConstraintSet
  split
  · exact .kept rfl
  · split <;> exact .kept rfl
  · next fresh hadmitted =>
      have hwindow := admitted_window hadmitted
      split
      · exact hwindow
      · split <;> exact hwindow

private theorem applyLifecycle_window {context : AuthorityContext}
    {setId : ConstraintSetId} {event : LifecycleEvent} :
    impl.authority.Window impl.config.limits (some (context, lifecycleDigest setId event))
      (applyLifecycle impl context setId event call).authority.attempts := by
  unfold applyLifecycle
  dsimp only
  split
  · exact .kept rfl
  · split <;> exact .kept rfl
  · next fresh hadmitted =>
      have hwindow := admitted_window hadmitted
      split
      · exact hwindow
      · unfold transition
        split <;> exact hwindow

private theorem applyEvidenceRequirements_window {context : AuthorityContext}
    {requirements : EvidenceRequirements} :
    impl.authority.Window impl.config.limits (some (context, evidenceDigest requirements))
      (applyEvidenceRequirements impl context requirements call).authority.attempts := by
  unfold applyEvidenceRequirements
  split
  · exact .kept rfl
  · exact .kept rfl
  · next fresh hadmitted =>
      have hwindow := admitted_window hadmitted
      split
      · exact hwindow
      · dsimp only
        split <;> exact hwindow

private theorem advanceFamily_window {context : AuthorityContext}
    {family : EvidenceFamily} {generation : UInt64} :
    impl.authority.Window impl.config.limits
      ((Operation.advanceFamily context family generation).submission impl.evidence)
      (advanceFamily impl context family generation call).authority.attempts := by
  unfold advanceFamily
  split
  · exact .kept rfl
  · next requirements hfamily =>
      split
      · exact .kept rfl
      · next hrepresentable =>
          have hrepresents : Generation.isRepresentable generation = true := by
            simpa using hrepresentable
          have hsubmits : (Operation.advanceFamily context family generation).submission
              impl.evidence = some (context, evidenceDigest requirements) := by
            simp only [Operation.submission, hrepresents, if_true, hfamily, Option.map_some]
          rw [hsubmits]
          exact applyEvidenceRequirements_window

private theorem invalidateKey_window {context : AuthorityContext} {key : InvalidationKey} :
    impl.authority.Window impl.config.limits (some (context, invalidateDigest key))
      (invalidateKey impl context key call).authority.attempts := by
  unfold invalidateKey
  split
  · exact .kept rfl
  · exact .kept rfl
  · next fresh hadmitted =>
      have hwindow := admitted_window hadmitted
      dsimp only
      split <;> exact hwindow

theorem Operation.stage_window (operation : Operation) (impl : Impl) (call : Call) :
    impl.authority.Window impl.config.limits (operation.submission impl.evidence)
      (operation.stage impl call).authority.attempts := by
  have hmap : ∀ {α : Type} (staged : Staged α) (f : α → Value),
      (staged.map f).authority = staged.authority := by
    intro α staged f
    cases staged <;> rfl
  cases operation
  all_goals dsimp only [Operation.stage]; try rw [hmap]
  · exact registerPublisher_window
  · exact fenceBoot_window
  · exact fenceOnSessionLoss_window
  · exact dropSession_window
  · exact observeAttempt_window
  · exact publishConstraintSet_window
  · exact applyLifecycle_window
  · exact applyEvidenceRequirements_window
  · exact advanceFamily_window
  · exact invalidateKey_window
  · exact .kept rfl

theorem evaluateBegin_window {context : AuthorityContext} {setId : ConstraintSetId}
    {candidates : List CandidatePath} {expectedGeneration : ConstraintSetGeneration} :
    impl.authority.Window impl.config.limits
      (some (context, evaluateDigest impl.evidence setId candidates expectedGeneration))
      (evaluateBegin impl context setId candidates expectedGeneration call).1.authority.attempts := by
  unfold evaluateBegin
  split
  · exact .kept rfl
  · exact .kept rfl
  · next fresh hadmitted =>
      have hwindow := admitted_window hadmitted
      split
      · exact hwindow
      · split
        · exact hwindow
        · split <;> exact hwindow

end Operations

/-- The last section of an evaluation leaves the registry as it is. -/
theorem authority_of_evaluateFinish {impl : Impl} {snapshot : EvaluationSnapshot}
    {call : Call} {staged : Staged CommitOutcome}
    (h : evaluateFinish impl snapshot call = some staged) :
    staged.authority = impl.authority := by
  cases staged with
  | reply after result => exact congrArg Impl.authority (evaluateFinish_reply h)
  | write after next applies value => exact congrArg Impl.authority (evaluateFinish_eq_write h)

/-- Every section leaves the window as it was, or records what it submits. -/
theorem window_of_taken {event : Event} (htaken : event.Taken step) :
    event.pre.impl.authority.Window event.pre.impl.config.limits
      (event.pre.submission event.input.action) event.post.impl.authority.attempts := by
  obtain ⟨pre, ⟨action, call⟩, output, post⟩ := event
  unfold Event.Taken step at htaken
  cases action with
  | operate operation =>
      simp only [Option.some.injEq, Prod.mk.injEq] at htaken
      obtain ⟨rfl, -⟩ := htaken
      have hstage := operation.stage_window pre.impl call
      have hsettle := (operation.stage pre.impl call).settle_authority call
      dsimp only [Operation.run]
      rw [hsettle]
      exact hstage
  | evaluateBegin context setId candidates expectedGeneration =>
      simp only [Option.some.injEq] at htaken
      have himpl := pre.begin_impl context setId candidates expectedGeneration call
      rw [htaken] at himpl
      dsimp only at himpl ⊢
      rw [himpl]
      exact evaluateBegin_window
  | evaluateFinish ticket =>
      unfold SystemState.finish at htaken
      dsimp only at htaken
      split at htaken
      · simp only [Option.map_eq_some_iff, Prod.mk.injEq] at htaken
        obtain ⟨staged, hstaged, rfl, -⟩ := htaken
        have hsettle := staged.settle_authority call
        rw [authority_of_evaluateFinish hstaged] at hsettle
        exact .kept (congrArg AuthorityRegistry.attempts hsettle)
      · cases htaken
  | revalidateRead context setId =>
      simp only [Option.some.injEq] at htaken
      unfold SystemState.readPopulation at htaken
      dsimp only at htaken
      split at htaken <;> cases htaken <;> exact .kept rfl
  | revalidateBegin ticket =>
      unfold SystemState.revalidate at htaken
      dsimp only at htaken
      split at htaken
      · next context setId population hflight =>
          simp only [Option.some.injEq] at htaken
          have himpl := (pre.land ticket).begin_impl context setId population {} call
          rw [htaken] at himpl
          have hsubmits : pre.submission (.revalidateBegin ticket) =
              some (context, evaluateDigest pre.impl.evidence setId population {}) := by
            simp only [SystemState.submission, hflight]
          dsimp only at himpl ⊢
          rw [himpl, hsubmits]
          exact evaluateBegin_window
      · cases htaken

/-! ## Forgotten attempts -/

/-- The window stays as it is, or gives up some of its attempts for one that it did not
hold. -/
theorem AuthorityRegistry.Window.attempts_cases {registry : AuthorityRegistry} {limits : Limits}
    {submission : Option (AuthorityContext × Digest256)} {attempts : List MutationAttemptRecord}
    (h : registry.Window limits submission attempts) :
    attempts = registry.attempts ∨
      ∃ retained context payload tick, submission = some (context, payload) ∧
        context.attempt.isValid = true ∧ registry.findAttempt context.attempt = none ∧
        retained.Sublist registry.attempts ∧
        attempts = retained ++ [⟨context.attempt, payload, tick⟩] := by
  cases h with
  | kept hkept => exact .inl hkept
  | recorded context payload tick after hsubmission hobserve hattempts =>
      have hunseen := observeAttempt_fresh hobserve
      simp only [observeAttempt, seq_eq_ok, hunseen] at hobserve
      obtain ⟨hvalid, hobserved⟩ := hobserve
      cases hobserved
      refine .inr ⟨_, context, payload, tick, hsubmission, ?_, hunseen, ?_, hattempts⟩
      · simpa using failIf_eq_ok.mp hvalid
      · split
        · exact List.drop_sublist _ _
        · exact List.Sublist.refl _

/-- What a submission adds to the window is its own attempt. -/
theorem AuthorityRegistry.Window.mem {registry : AuthorityRegistry} {limits : Limits}
    {submission : Option (AuthorityContext × Digest256)} {attempts : List MutationAttemptRecord}
    (h : registry.Window limits submission attempts) {record : MutationAttemptRecord}
    (hmem : record ∈ attempts) :
    record ∈ registry.attempts ∨ ∃ context, submission = some (context, record.payload) ∧
      context.attempt.isValid = true ∧ registry.findAttempt context.attempt = none ∧
      record.attempt = context.attempt := by
  rcases h.attempts_cases with
    rfl | ⟨retained, context, payload, tick, hsubmission, hvalid, hunseen, hretained, rfl⟩
  · exact .inl hmem
  · rcases List.mem_append.mp hmem with hold | hnew
    · exact .inl (hretained.mem hold)
    · obtain rfl := List.mem_singleton.mp hnew
      exact .inr ⟨context, hsubmission, hvalid, hunseen, rfl⟩

/-- The event submits the attempt. -/
def Submits (event : LifeEvent) (attempt : MutationAttemptId) : Prop :=
  ∃ input context payload, event.input = .serve input ∧
    event.pre.submission input.action = some (context, payload) ∧ context.attempt = attempt

/-- The coordinator takes the attempt for a fresh one, whatever its payload is. -/
def Forgets (impl : Impl) (attempt : MutationAttemptId) : Prop :=
  ∀ context payload call, context.attempt = attempt →
    ((Operation.observeAttempt context payload).run impl call).2 = .ok (.verdict .fresh)

/-- The coordinator recognises the recorded attempt: with its payload as an exact replay,
and with another as a conflict. -/
def Recognises (impl : Impl) (record : MutationAttemptRecord) : Prop :=
  ∀ context payload call, context.attempt = record.attempt →
    ((Operation.observeAttempt context payload).run impl call).2 =
      .ok (.verdict (if payload = record.payload then .exactReplay else .conflict))

theorem Forgets.not_recognises {impl : Impl} {record : MutationAttemptRecord}
    (h : Forgets impl record.attempt) : ¬ Recognises impl record := by
  intro hrecognises
  let context : AuthorityContext := { attempt := record.attempt }
  let call : Call := { clock := fun _ => 0 }
  have hfresh := h context record.payload call rfl
  have hreplay := hrecognises context record.payload call rfl
  rw [if_pos rfl, hfresh] at hreplay
  cases hreplay

/-- A valid attempt that the window does not hold is forgotten. -/
theorem forgets_of_absent {impl : Impl} {attempt : MutationAttemptId}
    (hvalid : attempt.isValid = true)
    (habsent : ∀ record ∈ impl.authority.attempts, record.attempt ≠ attempt) :
    Forgets impl attempt := by
  intro context payload call hattempt
  have hunseen : impl.authority.findAttempt context.attempt = none := by
    unfold AuthorityRegistry.findAttempt
    rw [List.find?_eq_none, hattempt]
    intro record hmem
    simpa using habsent record hmem
  have hobserve : ∃ after, impl.authority.observeAttempt context.attempt payload
      (call.clock 0) impl.config.limits = .ok (after, .fresh) := by
    rw [hattempt] at hunseen ⊢
    simp only [AuthorityRegistry.observeAttempt, hunseen, hvalid, Bool.not_true]
    exact ⟨_, rfl⟩
  obtain ⟨after, hobserve⟩ := hobserve
  unfold Operation.run Operation.stage observeAttempt
  simp only [hobserve]
  rfl

theorem Opened.unobserved {state : SystemState} (h : Opened state) :
    state.impl.authority.attempts = [] := by
  cases h with
  | opened hopened =>
      obtain ⟨_, authority, -, hauthority, hrecovered, -⟩ := openCoordinator_recovered hopened
      dsimp only
      rw [hrecovered.registry]
      exact (nextIncarnation_empty hauthority).2

/-- No attempt that the store held before a restart is recognised after it, until it is
submitted again. -/
theorem recorded_attempts_forgotten {before after : List LifeEvent} {event : LifeEvent}
    {last : SystemState} {config : CoordinatorConfig} {call : Call}
    {loaded : PersistentState} {record : MutationAttemptRecord}
    (h : Lifetime (before ++ event :: after) last) (hrestarting : Restarting event config call)
    (hload : (storeOver config event.pre.impl.storeFile).load = .ok loaded)
    (hrecorded : record ∈ loaded.attempts)
    (hunsubmitted : ∀ later ∈ after, ¬ Submits later record.attempt) :
    Forgets last.impl record.attempt ∧ ¬ Recognises last.impl record := by
  obtain ⟨-, -, hafter⟩ := h.split
  have hvalid : record.attempt.isValid = true :=
    (validatePersistentState_eq_ok.mp (DurableStore.validate_of_load hload)).attempt record
      hrecorded
  let inv : SystemState → Prop := fun state => LifeSound state ∧
    ∀ other ∈ state.impl.authority.attempts, other.attempt ≠ record.attempt
  have hinv : inv last := by
    refine hafter.invariant ⟨hrestarting.opens.lifeSound, ?_⟩ ?_
    · intro other hmem
      rw [hrestarting.opens.unobserved] at hmem
      cases hmem
    · intro later hlater hstep hpre
      obtain ⟨hsound, habsent⟩ := hpre
      refine ⟨hsound.turned hstep, ?_⟩
      intro other hmem
      rcases turn_cases hstep with ⟨served, hserving, hserved⟩ | ⟨config, call, hreopening⟩
      · rw [hserving.post] at hmem
        rcases (window_of_taken hserved).mem hmem with hold | ⟨context, hsubmits, -, -, hnew⟩
        · rw [← hserving.pre] at hold
          exact habsent other hold
        · intro hsame
          refine hunsubmitted later hlater
            ⟨served.input, context, other.payload, hserving.input, ?_, ?_⟩
          · rw [hserving.pre]
            exact hsubmits
          · exact hnew.symm.trans hsame
      · rw [hreopening.opens.unobserved] at hmem
        cases hmem
  have hforgets := forgets_of_absent hvalid hinv.2
  exact ⟨hforgets, hforgets.not_recognises⟩

/-! ## One attempt that was recorded before a restart -/

/-- Fences a boot under an attempt, and starts again. -/
def sampleOblivion : List Turn :=
  [.serve sampleRegister,
   .serve (sampleInput (.operate (.fenceBoot (sampleContext 2) ⟨99⟩))),
   .restart sampleDurable sampleCall]

/-- The event is a restart over a file that holds the attempt with the payload. -/
private def restartsOver (attempt : MutationAttemptId) (payload : Digest256)
    (event : LifeEvent) : Bool :=
  match event.input with
  | .restart config _ =>
      match (storeOver config event.pre.impl.storeFile).load with
      | .ok loaded => loaded.attempts.any fun record =>
          record.attempt == attempt && record.payload == payload
      | .error _ => false
  | .serve _ => false

private theorem restartsOver_sound {attempt : MutationAttemptId} {payload : Digest256}
    {event : LifeEvent} (htaken : event.Taken turn)
    (h : restartsOver attempt payload event = true) :
    ∃ config call loaded record, Restarting event config call ∧
      (storeOver config event.pre.impl.storeFile).load = .ok loaded ∧
      record ∈ loaded.attempts ∧ record.attempt = attempt ∧ record.payload = payload := by
  unfold restartsOver at h
  split at h
  · next config call hinput =>
      split at h
      · next loaded hload =>
          obtain ⟨record, hmem, hrecord⟩ := List.any_eq_true.mp h
          rw [Bool.and_eq_true, beq_iff_eq, beq_iff_eq] at hrecord
          rcases turn_cases htaken with ⟨served, hserving, -⟩ | ⟨other, otherCall, hrestarting⟩
          · rw [hserving.input] at hinput
            cases hinput
          · have hsame := hrestarting.input.symm.trans hinput
            cases hsame
            exact ⟨config, call, loaded, record, hrestarting, hload, hmem, hrecord⟩
      · cases h
  · cases h

private theorem sampleOblivion_restarts :
    ((sampleDurableLife sampleOblivion).any fun run =>
      run.1.getLast?.any (restartsOver ⟨2⟩ {}) &&
        decide (((Operation.observeAttempt (sampleContext 2) {}).run run.2.impl
          sampleCall).2 = .ok (.verdict .fresh))) = true := by
  decide +kernel

/-- An attempt that was recorded before a restart is submitted again with its payload, and
taken for a fresh one. -/
theorem recorded_attempt_taken_as_fresh :
    ∃ events last event config call loaded record,
      sampleDurableLife sampleOblivion = some (events, last) ∧ Lifetime events last ∧
      events.getLast? = some event ∧ Restarting event config call ∧
      (storeOver config event.pre.impl.storeFile).load = .ok loaded ∧
      record ∈ loaded.attempts ∧ record.attempt = ⟨2⟩ ∧ record.payload = {} ∧
      ((Operation.observeAttempt (sampleContext 2) {}).run last.impl sampleCall).2 =
        .ok (.verdict .fresh) := by
  obtain ⟨events, last, hrun, hlifetime, hcheck⟩ :=
    Lifetime.of_run_check _ sampleOblivion_restarts
  rw [Bool.and_eq_true, decide_eq_true_eq] at hcheck
  obtain ⟨event, hlast, hrestarts⟩ := (Option.any_eq_true _ _).mp hcheck.1
  obtain ⟨before, rfl⟩ := List.getLast?_eq_some_iff.mp hlast
  obtain ⟨config, call, loaded, record, hrestarting, hload, hmem, hrecord⟩ :=
    restartsOver_sound hlifetime.split.2.1 hrestarts
  exact ⟨_, last, event, config, call, loaded, record, hrun, hlifetime, hlast, hrestarting,
    hload, hmem, hrecord.1, hrecord.2, hcheck.2⟩

theorem recorded_attempts_forgotten_sample :
    ∃ events last record, sampleDurableLife sampleOblivion = some (events, last) ∧
      Forgets last.impl ⟨2⟩ ∧ record.attempt = ⟨2⟩ ∧ ¬ Recognises last.impl record := by
  obtain ⟨events, last, hrun, hlifetime, hcheck⟩ :=
    Lifetime.of_run_check _ sampleOblivion_restarts
  rw [Bool.and_eq_true] at hcheck
  obtain ⟨event, hlast, hrestarts⟩ := (Option.any_eq_true _ _).mp hcheck.1
  obtain ⟨before, rfl⟩ := List.getLast?_eq_some_iff.mp hlast
  obtain ⟨config, call, loaded, record, hrestarting, hload, hmem, hattempt, -⟩ :=
    restartsOver_sound hlifetime.split.2.1 hrestarts
  obtain ⟨hforgets, hnever⟩ :=
    recorded_attempts_forgotten hlifetime hrestarting hload hmem (by simp)
  rw [hattempt] at hforgets
  exact ⟨_, last, record, hrun, hforgets, hattempt, hnever⟩

end ConstraintRouting.Fabric
