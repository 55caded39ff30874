import ConstraintRouting.Fabric.Attempts

/-!
# Requests that are submitted again

A request that is submitted again while the window retains its attempt is an exact replay
when its payload is the one that was recorded.  The payload of an evaluation or of an
advanced family depends on the state of the coordinator besides the arguments.
-/

namespace ConstraintRouting.Fabric

open Verified.StepMachine
open Verified.Checks (isOk)

/-! ## Requests -/

/-- A request with its arguments, whatever sections serve it. -/
inductive EntryPoint where
  | operation (operation : Operation)
  | evaluate (context : AuthorityContext) (setId : ConstraintSetId)
      (candidates : List CandidatePath) (expectedGeneration : ConstraintSetGeneration)
  | revalidate (context : AuthorityContext) (setId : ConstraintSetId)
deriving DecidableEq

/-- What the payload of a request depends on besides its arguments. -/
inductive Basis where
  | arguments
  | requirements (requirements : Option EvidenceRequirements)
  | generations (topology : TopologyGeneration) (capability : CapabilityGeneration)
  | population (population : List CandidatePath) (topology : TopologyGeneration)
      (capability : CapabilityGeneration)
deriving DecidableEq

namespace SystemState

variable (state : SystemState)

/-- The request that a section submits or answers.  A revalidation is submitted by the
section after its read, or answered by its read when there is no population. -/
def entry : Action → Option EntryPoint
  | .operate operation => some (.operation operation)
  | .evaluateBegin context setId candidates expectedGeneration =>
      some (.evaluate context setId candidates expectedGeneration)
  | .revalidateRead context setId =>
      if (revalidateRead state.impl setId).isEmpty then some (.revalidate context setId) else none
  | .revalidateBegin ticket =>
      match state.flights ticket with
      | some (.populationRead context setId _) => some (.revalidate context setId)
      | _ => none
  | .evaluateFinish _ => none

/-- What the payload of a section depends on besides the arguments of its request. -/
def basis : Action → Basis
  | .operate (.advanceFamily _ family generation) =>
      .requirements (withFamily state.impl.evidence family generation)
  | .evaluateBegin .. => .generations state.impl.evidence.topology state.impl.evidence.capability
  | .revalidateBegin ticket =>
      match state.flights ticket with
      | some (.populationRead _ _ population) =>
          .population population state.impl.evidence.topology state.impl.evidence.capability
      | _ => .arguments
  | .operate _ | .evaluateFinish _ | .revalidateRead .. => .arguments

/-- The section's caller is authorized.  The observation of an attempt does not ask. -/
def admits : Action → Bool
  | .operate (.observeAttempt _ _) => true
  | action => (state.caller action).all fun (context, required) =>
      isOk (state.impl.authority.authorize context required)

/-- How the window classifies what an authorized caller submits. -/
def verdict (input : Input) : Option ReplayVerdict :=
  if state.admits input.action then
    match state.submission input.action with
    | some (context, payload) =>
        match state.impl.authority.observeAttempt context.attempt payload (input.call.clock 0)
            state.impl.config.limits with
        | .ok (_, verdict) => some verdict
        | .error _ => none
    | none => none
  else none

end SystemState

/-- The refusal of an attempt that was used for another request. -/
def reusedAttempt : Error :=
  ⟨.mutationAttemptConflict, "mutation attempt identity was reused with a different payload"⟩

/-- The answer of a mutation to an exact replay. -/
def Operation.recalled (impl : Impl) : Operation → Result Value
  | .publishConstraintSet _ set =>
      match findSet impl.sets set.id with
      | none =>
          failure .idempotentReplay "exact replay of a publication that is no longer present"
      | some existing => .ok (.definition existing)
  | .applyLifecycle _ setId _ =>
      match findSet impl.sets setId with
      | none => failure .notFound "constraint set is not known"
      | some target => .ok (.definition target)
  | _ => .ok .done

/-- The answer of a request whose attempt the window held. -/
def Operation.answer (impl : Impl) (verdict : ReplayVerdict) : Operation → Result Value
  | .observeAttempt _ _ => .ok (.verdict verdict)
  | operation =>
      match verdict with
      | .conflict => .error reusedAttempt
      | .exactReplay | .fresh => operation.recalled impl

/-- The answer of an evaluation whose attempt the window held. -/
def evaluationAnswer (impl : Impl) (setId : ConstraintSetId) :
    ReplayVerdict → Result CommitOutcome
  | .conflict => .error reusedAttempt
  | .exactReplay | .fresh => .ok (replayedOutcome impl setId)

/-- The answer of a section whose attempt the window held. -/
def SystemState.answer (state : SystemState) (verdict : ReplayVerdict) : Action → Option Reply
  | .operate operation => some (.operated (operation.answer state.impl verdict))
  | .evaluateBegin _ setId _ _ => some (.evaluated (evaluationAnswer state.impl setId verdict))
  | .revalidateBegin ticket =>
      match state.flights ticket with
      | some (.populationRead _ setId _) =>
          some (.evaluated (evaluationAnswer state.impl setId verdict))
      | _ => none
  | .evaluateFinish _ | .revalidateRead .. => none

/-- The section is classified as an exact replay, answered as one, and leaves the
coordinator as it was. -/
structure Replayed (event : Event) : Prop where
  classified : event.pre.verdict event.input = some .exactReplay
  answered : some event.output = event.pre.answer .exactReplay event.input.action
  unchanged : event.post.impl = event.pre.impl

/-- The request of the first event was recorded under an attempt that the window did not
hold, a later event submits it again, and the window retained the attempt in between. -/
structure Resubmits (first : Event) (between : List Event) (again : Event) : Prop where
  same : again.pre.entry again.input.action = first.pre.entry first.input.action
  recorded : ∃ context payload,
    first.pre.submission first.input.action = some (context, payload) ∧
    first.pre.impl.authority.findAttempt context.attempt = none ∧
    ∀ event ∈ first :: between,
      (event.post.impl.authority.findAttempt context.attempt).isSome = true

/-- The request is submitted over the same basis again, or over another one that gives the
same payload. -/
def KeepsPayload (first again : Event) : Prop :=
  again.pre.basis again.input.action = first.pre.basis first.input.action ∨
    again.pre.basis again.input.action ≠ first.pre.basis first.input.action ∧
      again.pre.submission again.input.action = first.pre.submission first.input.action

/-! ## Submissions of one request -/

section Submissions

variable {one other state : SystemState} {action again : Action}

theorem action_of_operation {operation : Operation}
    (h : state.entry action = some (.operation operation)) : action = .operate operation := by
  cases action with
  | operate =>
      cases h
      rfl
  | evaluateBegin | evaluateFinish => cases h
  | revalidateRead | revalidateBegin =>
      simp only [SystemState.entry] at h
      split at h <;> cases h

theorem action_of_evaluate {context : AuthorityContext} {setId : ConstraintSetId}
    {candidates : List CandidatePath} {expectedGeneration : ConstraintSetGeneration}
    (h : state.entry action = some (.evaluate context setId candidates expectedGeneration)) :
    action = .evaluateBegin context setId candidates expectedGeneration := by
  cases action with
  | evaluateBegin =>
      cases h
      rfl
  | operate | evaluateFinish => cases h
  | revalidateRead | revalidateBegin =>
      simp only [SystemState.entry] at h
      split at h <;> cases h

theorem action_of_revalidate {context : AuthorityContext} {setId : ConstraintSetId}
    (h : state.entry action = some (.revalidate context setId)) :
    action = .revalidateRead context setId ∨
      ∃ ticket population, action = .revalidateBegin ticket ∧
        state.flights ticket = some (.populationRead context setId population) := by
  cases action with
  | operate | evaluateBegin | evaluateFinish => cases h
  | revalidateRead =>
      simp only [SystemState.entry] at h
      split at h
      · cases h
        exact .inl rfl
      · cases h
  | revalidateBegin ticket =>
      simp only [SystemState.entry] at h
      split at h
      · next population hflight =>
          cases h
          exact .inr ⟨ticket, population, rfl, hflight⟩
      · cases h

/-- The basis and the arguments of a request give its payload. -/
theorem submission_of_basis (hentry : one.entry again = other.entry action)
    (hbasis : one.basis again = other.basis action)
    (hsubmits : (other.submission action).isSome = true) :
    one.submission again = other.submission action := by
  cases action with
  | evaluateFinish | revalidateRead => cases hsubmits
  | operate operation =>
      obtain rfl := action_of_operation hentry
      cases operation with
      | advanceFamily context family generation =>
          simp only [SystemState.basis, Basis.requirements.injEq] at hbasis
          simp only [SystemState.submission, Operation.submission, hbasis]
      | _ => rfl
  | evaluateBegin context setId candidates expectedGeneration =>
      obtain rfl := action_of_evaluate hentry
      simp only [SystemState.basis, Basis.generations.injEq] at hbasis
      simp only [SystemState.submission, evaluateDigest, hbasis.1, hbasis.2]
  | revalidateBegin ticket =>
      simp only [SystemState.submission] at hsubmits
      split at hsubmits
      · next context setId population hflight =>
          simp only [SystemState.entry, hflight] at hentry
          simp only [SystemState.basis, hflight] at hbasis
          rcases action_of_revalidate hentry with rfl | ⟨repeated, read, rfl, hread⟩
          · cases hbasis
          · simp only [hread, Basis.population.injEq] at hbasis
            obtain ⟨rfl, htopology, hcapability⟩ := hbasis
            simp only [SystemState.submission, hread, hflight, evaluateDigest, htopology,
              hcapability]
      · cases hsubmits

/-- A section submits what its caller asks for. -/
theorem caller_of_submission {context : AuthorityContext} {payload : Digest256}
    (h : state.submission action = some (context, payload)) :
    ∃ required, state.caller action = some (context, required) := by
  cases action with
  | evaluateFinish | revalidateRead => cases h
  | evaluateBegin =>
      cases h
      exact ⟨_, rfl⟩
  | revalidateBegin ticket =>
      simp only [SystemState.submission] at h
      split at h
      · next hflight =>
          cases h
          simp only [SystemState.caller, hflight]
          exact ⟨_, rfl⟩
      · cases h
  | operate operation =>
      cases operation with
      | advanceFamily =>
          simp only [SystemState.submission, Operation.submission] at h
          split at h
          · obtain ⟨requirements, -, hsame⟩ := Option.map_eq_some_iff.mp h
            cases hsame
            exact ⟨_, rfl⟩
          · cases h
      | registerPublisher | fenceOnSessionLoss | dropSession | flush => cases h
      | _ =>
          cases h
          exact ⟨_, rfl⟩

/-- One request is submitted under one context. -/
theorem context_of_entry {context repeated : AuthorityContext} {payload digest : Digest256}
    (hentry : one.entry again = other.entry action)
    (hsubmits : other.submission action = some (context, payload))
    (hagain : one.submission again = some (repeated, digest)) : repeated = context := by
  obtain ⟨required, hcaller⟩ := caller_of_submission hsubmits
  obtain ⟨other, hrepeated⟩ := caller_of_submission hagain
  cases action with
  | evaluateFinish | revalidateRead => cases hsubmits
  | operate operation =>
      obtain rfl := action_of_operation hentry
      have hsame := hrepeated.symm.trans hcaller
      cases hsame
      rfl
  | evaluateBegin =>
      obtain rfl := action_of_evaluate hentry
      cases hcaller
      cases hrepeated
      rfl
  | revalidateBegin ticket =>
      simp only [SystemState.caller] at hcaller
      split at hcaller
      · next hflight =>
          cases hcaller
          simp only [SystemState.entry, hflight] at hentry
          rcases action_of_revalidate hentry with rfl | ⟨ticket, read, rfl, hread⟩
          · cases hagain
          · simp only [SystemState.caller, hread] at hrepeated
            cases hrepeated
            rfl
      · cases hcaller

end Submissions

/-! ## What the window retains -/

/-- The window holds the payload that the attempt was recorded with. -/
def AuthorityRegistry.Recalls (registry : AuthorityRegistry) (attempt : MutationAttemptId)
    (payload : Digest256) : Prop :=
  ∃ record, registry.findAttempt attempt = some record ∧ record.payload = payload

section Window

variable {registry after : AuthorityRegistry} {limits : Limits}
  {submission : Option (AuthorityContext × Digest256)} {attempt : MutationAttemptId}
  {payload : Digest256}

/-- The attempts of the window stay distinct. -/
theorem AuthorityRegistry.Window.distinct
    (h : registry.Window limits submission after.attempts)
    (hdistinct : (registry.attempts.map (·.attempt)).Nodup) :
    (after.attempts.map (·.attempt)).Nodup := by
  rcases h.attempts_cases with
    hkept | ⟨retained, context, payload, tick, -, -, hunseen, hretained, hattempts⟩
  · rw [hkept]
    exact hdistinct
  · have hnew : ∀ record ∈ retained, record.attempt ≠ context.attempt := by
      intro record hmem
      have hother := List.find?_eq_none.mp hunseen record (hretained.mem hmem)
      simpa using hother
    rw [hattempts, List.map_append, List.nodup_append]
    refine ⟨hdistinct.sublist (hretained.map _), List.nodup_singleton _, ?_⟩
    intro attempt hold other hother hsame
    obtain ⟨record, hmem, rfl⟩ := List.mem_map.mp hold
    obtain rfl := List.mem_singleton.mp hother
    exact hnew record hmem hsame

/-- An attempt that the window goes on holding keeps its payload. -/
theorem AuthorityRegistry.Window.recalls
    (h : registry.Window limits submission after.attempts)
    (hdistinct : (registry.attempts.map (·.attempt)).Nodup)
    (hretained : (after.findAttempt attempt).isSome = true)
    (hrecalls : registry.Recalls attempt payload) : after.Recalls attempt payload := by
  obtain ⟨record, hfound, hpayload⟩ := hrecalls
  obtain ⟨kept, hkept⟩ := Option.isSome_iff_exists.mp hretained
  refine ⟨kept, hkept, ?_⟩
  have hattempt : record.attempt = attempt := by simpa using List.find?_some hfound
  have hsame : kept.attempt = attempt := by simpa using List.find?_some hkept
  rcases h.mem (List.mem_of_find?_eq_some hkept) with hold | ⟨context, -, -, hunseen, hnew⟩
  · have hrecord := List.inj_on_of_nodup_map hdistinct hold (List.mem_of_find?_eq_some hfound)
      (hsame.trans hattempt.symm)
    rw [hrecord, hpayload]
  · rw [← hnew, hsame, hfound] at hunseen
    cases hunseen

/-- What the window holds of an attempt that it did not hold is what was submitted. -/
theorem AuthorityRegistry.Window.recalls_new {context : AuthorityContext}
    (h : registry.Window limits (some (context, payload)) after.attempts)
    (hunseen : registry.findAttempt context.attempt = none)
    (hretained : (after.findAttempt context.attempt).isSome = true) :
    context.attempt.isValid = true ∧ after.Recalls context.attempt payload := by
  obtain ⟨kept, hkept⟩ := Option.isSome_iff_exists.mp hretained
  rcases h.mem (List.mem_of_find?_eq_some hkept) with hold | ⟨other, hsubmits, hvalid, -, -⟩
  · have hother := List.find?_eq_none.mp hunseen kept hold
    exact absurd (List.find?_some hkept) hother
  · cases hsubmits
    exact ⟨hvalid, kept, hkept, rfl⟩

end Window

/-! ## Attempts that the window held -/

section Answers

variable {impl : Impl} {call : Call} {context : AuthorityContext} {payload : Digest256}
  {after : AuthorityRegistry} {verdict : ReplayVerdict}

/-- How an authorized caller is admitted whose attempt the window held. -/
def Admission.ofHeld : ReplayVerdict → Admission
  | .conflict => .refused reusedAttempt
  | .exactReplay | .fresh => .replay

theorem admit_of_observe {scope : AuthorityScope} {tick : UInt64} (hheld : verdict ≠ .fresh)
    (hauthorized : isOk (impl.authority.authorize context (scopeBit scope)) = true)
    (hobserve : impl.authority.observeAttempt context.attempt payload tick impl.config.limits =
      .ok (after, verdict)) :
    authorizeAndObserve impl context scope payload tick = .ofHeld verdict := by
  obtain ⟨_, hok⟩ := Verified.Checks.isOk_iff.mp hauthorized
  unfold authorizeAndObserve
  rw [hok]
  dsimp only
  rw [hobserve]
  cases verdict with
  | fresh => exact absurd rfl hheld
  | exactReplay | conflict => rfl

/-- A request whose attempt the window held is answered by its verdict and changes
nothing. -/
theorem Operation.run_answer {state : SystemState} {operation : Operation}
    (hheld : verdict ≠ .fresh) (hadmits : state.admits (.operate operation) = true)
    (hsubmits : operation.submission state.impl.evidence = some (context, payload))
    (hobserve : state.impl.authority.observeAttempt context.attempt payload (call.clock 0)
      state.impl.config.limits = .ok (after, verdict)) :
    operation.run state.impl call = (state.impl, operation.answer state.impl verdict) := by
  cases operation with
  | registerPublisher | fenceOnSessionLoss | dropSession | flush => cases hsubmits
  | observeAttempt =>
      cases hsubmits
      rcases AuthorityRegistry.eq_of_observeAttempt hobserve with rfl | hfresh
      · simp only [run, stage, Fabric.observeAttempt, hobserve]
        rfl
      · exact absurd hfresh hheld
  | fenceBoot =>
      cases hsubmits
      have hadmitted := admit_of_observe hheld hadmits hobserve
      unfold run stage Fabric.fenceBoot
      dsimp only
      rw [hadmitted]
      cases verdict <;> rfl
  | publishConstraintSet _ set =>
      cases hsubmits
      have hadmitted := admit_of_observe hheld hadmits hobserve
      unfold run stage Fabric.publishConstraintSet answer recalled
      dsimp only
      rw [hadmitted]
      cases verdict <;> cases findSet state.impl.sets set.id <;> rfl
  | applyLifecycle _ setId =>
      cases hsubmits
      have hadmitted := admit_of_observe hheld hadmits hobserve
      unfold run stage Fabric.applyLifecycle answer recalled
      dsimp only
      rw [hadmitted]
      cases verdict <;> cases findSet state.impl.sets setId <;> rfl
  | setEvidenceRequirements =>
      cases hsubmits
      have hadmitted := admit_of_observe hheld hadmits hobserve
      unfold run stage Fabric.setEvidenceRequirements applyEvidenceRequirements
      dsimp only
      rw [hadmitted]
      cases verdict <;> rfl
  | invalidateKey =>
      cases hsubmits
      have hadmitted := admit_of_observe hheld hadmits hobserve
      unfold run stage Fabric.invalidateKey
      dsimp only
      rw [hadmitted]
      cases verdict <;> rfl
  | advanceFamily =>
      simp only [submission] at hsubmits
      split at hsubmits
      · next hrepresentable =>
          obtain ⟨requirements, hfamily, hsame⟩ := Option.map_eq_some_iff.mp hsubmits
          cases hsame
          have hadmitted := admit_of_observe hheld hadmits hobserve
          unfold run stage Fabric.advanceFamily
          simp only [hfamily, hrepresentable, Bool.not_true, Bool.false_eq_true, if_false]
          unfold applyEvidenceRequirements
          rw [hadmitted]
          cases verdict <;> rfl
      · cases hsubmits

/-- The first section of an evaluation whose attempt the window held is answered by its
verdict. -/
theorem SystemState.begin_answer {base : SystemState} {setId : ConstraintSetId}
    {candidates : List CandidatePath} {expectedGeneration : ConstraintSetGeneration}
    (hheld : verdict ≠ .fresh)
    (hadmits : isOk (base.impl.authority.authorize context (scopeBit .publishEvaluation)) = true)
    (hobserve : base.impl.authority.observeAttempt context.attempt
      (evaluateDigest base.impl.evidence setId candidates expectedGeneration) (call.clock 0)
      base.impl.config.limits = .ok (after, verdict)) :
    base.begin context setId candidates expectedGeneration call =
      (base, .evaluated (evaluationAnswer base.impl setId verdict)) := by
  unfold SystemState.begin evaluateBegin
  rw [admit_of_observe hheld hadmits hobserve]
  cases verdict <;> rfl

theorem SystemState.verdict_eq_some_iff {state : SystemState} {input : Input}
    {verdict : ReplayVerdict} :
    state.verdict input = some verdict ↔
      state.admits input.action = true ∧ ∃ context payload after,
        state.submission input.action = some (context, payload) ∧
        state.impl.authority.observeAttempt context.attempt payload (input.call.clock 0)
          state.impl.config.limits = .ok (after, verdict) := by
  unfold SystemState.verdict
  constructor
  · intro h
    split at h
    · next hadmits =>
        split at h
        · next context payload hsubmits =>
            split at h
            · next after found hobserve =>
                cases h
                exact ⟨hadmits, context, payload, after, hsubmits, hobserve⟩
            · cases h
        · cases h
    · cases h
  · rintro ⟨hadmits, context, payload, after, hsubmits, hobserve⟩
    simp only [hadmits, if_true, hsubmits, hobserve]

/-- A section whose attempt the window held is answered by its verdict and changes
nothing. -/
theorem answer_of_verdict {event : Event} (htaken : event.Taken step) (hheld : verdict ≠ .fresh)
    (h : event.pre.verdict event.input = some verdict) :
    some event.output = event.pre.answer verdict event.input.action ∧
      event.post.impl = event.pre.impl := by
  obtain ⟨hadmits, context, payload, after, hsubmits, hobserve⟩ :=
    SystemState.verdict_eq_some_iff.mp h
  obtain ⟨pre, ⟨action, call⟩, output, post⟩ := event
  unfold Event.Taken step at htaken
  dsimp only at htaken hadmits hsubmits hobserve ⊢
  cases action with
  | evaluateFinish | revalidateRead => cases hsubmits
  | operate operation =>
      have hrun := Operation.run_answer hheld hadmits hsubmits hobserve
      simp only [hrun, Option.some.injEq, Prod.mk.injEq] at htaken
      obtain ⟨rfl, rfl⟩ := htaken
      exact ⟨rfl, rfl⟩
  | evaluateBegin =>
      cases hsubmits
      have hbegin := SystemState.begin_answer hheld hadmits hobserve
      simp only [hbegin, Option.some.injEq, Prod.mk.injEq] at htaken
      obtain ⟨rfl, rfl⟩ := htaken
      exact ⟨rfl, rfl⟩
  | revalidateBegin ticket =>
      simp only [SystemState.submission] at hsubmits
      split at hsubmits
      · next hflight =>
          cases hsubmits
          simp only [SystemState.admits, SystemState.caller, hflight] at hadmits
          have hbegin := @SystemState.begin_answer call _ after verdict (pre.land ticket)
            _ _ _ hheld hadmits hobserve
          simp only [SystemState.revalidate, hflight, hbegin, Option.some.injEq,
            Prod.mk.injEq] at htaken
          obtain ⟨rfl, rfl⟩ := htaken
          simp only [SystemState.answer, hflight]
          exact ⟨rfl, rfl⟩
      · cases hsubmits

end Answers

/-- What is classified as an exact replay is one. -/
theorem replayed_of_verdict {event : Event} (htaken : event.Taken step)
    (h : event.pre.verdict event.input = some .exactReplay) : Replayed event := by
  obtain ⟨hanswered, hunchanged⟩ := answer_of_verdict htaken (by decide) h
  exact ⟨h, hanswered, hunchanged⟩

/-- A held attempt is classified by its payload. -/
theorem observeAttempt_of_recalls {registry : AuthorityRegistry} {limits : Limits}
    {attempt : MutationAttemptId} {payload submitted : Digest256} {tick : UInt64}
    (hvalid : attempt.isValid = true) (hrecalls : registry.Recalls attempt payload) :
    registry.observeAttempt attempt submitted tick limits =
      .ok (registry, if payload = submitted then .exactReplay else .conflict) := by
  obtain ⟨record, hfound, rfl⟩ := hrecalls
  simp only [AuthorityRegistry.observeAttempt, hvalid, hfound]
  rfl

/-! ## Resubmissions -/

theorem Execution.attempts_distinct {events : List Event} {last : SystemState}
    (h : Execution events last) : (last.impl.authority.attempts.map (·.attempt)).Nodup := by
  obtain ⟨start, hopened, hrun⟩ := h
  let inv : SystemState → Prop := fun state =>
    (state.impl.authority.attempts.map (·.attempt)).Nodup
  have hinv : inv last := by
    apply hrun.invariant
    · show (start.impl.authority.attempts.map _).Nodup
      rw [hopened.unobserved]
      exact List.nodup_nil
    · intro event _ htaken hdistinct
      exact (window_of_taken htaken).distinct hdistinct
  exact hinv

/-- Up to its resubmission the window holds the payload that a request recorded. -/
theorem recalls_of_resubmits {before between after : List Event} {first again : Event}
    {last : SystemState} {context : AuthorityContext} {payload : Digest256}
    (h : Execution (before ++ first :: (between ++ again :: after)) last)
    (hsubmits : first.pre.submission first.input.action = some (context, payload))
    (hunseen : first.pre.impl.authority.findAttempt context.attempt = none)
    (hretained : ∀ event ∈ first :: between,
      (event.post.impl.authority.findAttempt context.attempt).isSome = true) :
    context.attempt.isValid = true ∧
      again.pre.impl.authority.Recalls context.attempt payload := by
  have hdistinct := h.split.1.attempts_distinct
  obtain ⟨start, hopened, hrun⟩ := h
  obtain ⟨-, hfirst, hrest⟩ := hrun.split_event
  obtain ⟨hbetween, -, -⟩ := hrest.split_event
  have hwindow := window_of_taken hfirst
  rw [hsubmits] at hwindow
  obtain ⟨hvalid, hnew⟩ := hwindow.recalls_new hunseen (hretained first List.mem_cons_self)
  let inv : SystemState → Prop := fun state =>
    (state.impl.authority.attempts.map (·.attempt)).Nodup ∧
      state.impl.authority.Recalls context.attempt payload
  have hinv : inv again.pre := by
    apply hbetween.invariant ⟨hwindow.distinct hdistinct, hnew⟩
    intro event hmem htaken hbefore
    have hstep := window_of_taken htaken
    exact ⟨hstep.distinct hbefore.1,
      hstep.recalls hbefore.1 (hretained event (List.mem_cons_of_mem _ hmem)) hbefore.2⟩
  exact ⟨hvalid, hinv.2⟩

/-- A request that is submitted again while the window retains its attempt is an exact replay
exactly when its caller is still authorized and its payload is the one that was recorded. -/
theorem resubmission_replayed_iff {before between after : List Event} {first again : Event}
    {last : SystemState} (h : Execution (before ++ first :: (between ++ again :: after)) last)
    (hresubmits : Resubmits first between again) :
    Replayed again ↔
      again.pre.admits again.input.action = true ∧ KeepsPayload first again := by
  obtain ⟨hsame, context, payload, hsubmits, hunseen, hretained⟩ := hresubmits
  obtain ⟨hvalid, hrecalls⟩ := recalls_of_resubmits h hsubmits hunseen hretained
  have hsplit : Execution ((before ++ first :: between) ++ again :: after) last := by
    simpa using h
  have htaken := hsplit.taken
  constructor
  · intro hreplayed
    obtain ⟨hadmits, repeated, submitted, after, hagain, hobserve⟩ :=
      SystemState.verdict_eq_some_iff.mp hreplayed.classified
    obtain rfl := context_of_entry hsame hsubmits hagain
    rw [observeAttempt_of_recalls hvalid hrecalls] at hobserve
    split at hobserve
    · next hpayload =>
        refine ⟨hadmits, ?_⟩
        by_cases hbasis :
            again.pre.basis again.input.action = first.pre.basis first.input.action
        · exact .inl hbasis
        · refine .inr ⟨hbasis, ?_⟩
          rw [hagain, hsubmits, hpayload]
    · cases hobserve
  · rintro ⟨hadmits, hkeeps⟩
    have hagain : again.pre.submission again.input.action = some (context, payload) := by
      rcases hkeeps with hbasis | ⟨-, hpayload⟩
      · rw [submission_of_basis hsame hbasis (by rw [hsubmits]; rfl), hsubmits]
      · rw [hpayload, hsubmits]
    apply replayed_of_verdict htaken
    rw [SystemState.verdict_eq_some_iff]
    refine ⟨hadmits, context, payload, again.pre.impl.authority, hagain, ?_⟩
    rw [observeAttempt_of_recalls hvalid hrecalls, if_pos rfl]

/-- The topology advances, another family advances, and the first advance is submitted
again. -/
def sampleReadvance : List Input :=
  [sampleInput (.operate (.advanceFamily (sampleContext 30) .topology 10)),
   sampleInput (.operate (.advanceFamily (sampleContext 31) .capability 12)),
   sampleInput (.operate (.advanceFamily (sampleContext 30) .topology 10))]

/-- A path is evaluated, the topology advances, and the evaluation is submitted again. -/
def sampleReevaluate : List Input :=
  samplePublish 5 10 ++ [sampleBegin 20 5 [31], sampleFinish 0,
    sampleInput (.operate (.advanceFamily (sampleContext 30) .topology 10)),
    sampleBegin 20 5 [31]]

/-- The last event submits the request of the event at the position again, and is taken for
a conflict. -/
private def resubmitsInVain (position : Nat) (events : List Event) : Bool :=
  match events.drop position with
  | [] => false
  | first :: rest =>
      match rest.getLast?, first.pre.submission first.input.action with
      | some again, some (context, _) =>
          decide (again.pre.entry again.input.action = first.pre.entry first.input.action ∧
            first.pre.impl.authority.findAttempt context.attempt = none ∧
            again.pre.verdict again.input = some .conflict) &&
          (first :: rest.dropLast).all fun event =>
            (event.post.impl.authority.findAttempt context.attempt).isSome
      | _, _ => false

private theorem resubmits_of_vain {position : Nat} {events : List Event}
    (h : resubmitsInVain position events = true) :
    ∃ before first between again, events = before ++ first :: (between ++ [again]) ∧
      Resubmits first between again ∧ again.pre.verdict again.input = some .conflict := by
  unfold resubmitsInVain at h
  split at h
  · cases h
  · next first rest hdrop =>
      split at h
      · next again context payload hlast hsubmits =>
          rw [Bool.and_eq_true, List.all_eq_true] at h
          obtain ⟨hdecided, hretained⟩ := h
          obtain ⟨hsame, hunseen, hverdict⟩ := of_decide_eq_true hdecided
          obtain ⟨between, rfl⟩ := List.getLast?_eq_some_iff.mp hlast
          rw [List.dropLast_concat] at hretained
          refine ⟨events.take position, first, between, again, ?_,
            ⟨hsame, context, payload, hsubmits, hunseen, hretained⟩, hverdict⟩
          rw [← hdrop, List.take_append_drop]
      · cases h

private theorem sampleReadvance_vain :
    ((sampleRun sampleReadvance).any fun run => resubmitsInVain 1 run.1) = true := by
  decide +kernel

private theorem sampleReevaluate_vain :
    ((sampleRun sampleReevaluate).any fun run => resubmitsInVain 3 run.1) = true := by
  decide +kernel

/-- The last event of the run submits an earlier request again, is taken for a conflict and
is no replay. -/
def ResubmitsInVain (inputs : List Input) : Prop :=
  ∃ before first between again last,
    sampleRun inputs = some (before ++ first :: (between ++ [again]), last) ∧
    Execution (before ++ first :: (between ++ [again])) last ∧
    Resubmits first between again ∧ again.pre.verdict again.input = some .conflict ∧
    ¬ Replayed again

private theorem resubmitsInVain_of_check {inputs : List Input} {position : Nat}
    (h : ((sampleRun inputs).any fun run => resubmitsInVain position run.1) = true) :
    ResubmitsInVain inputs := by
  obtain ⟨events, last, hrun, hexecution, hchecked⟩ := sampleRun_execution _ _ h
  obtain ⟨before, first, between, again, rfl, hresubmits, hverdict⟩ :=
    resubmits_of_vain hchecked
  refine ⟨before, first, between, again, last, hrun, hexecution, hresubmits, hverdict, ?_⟩
  intro hreplayed
  rw [hreplayed.classified] at hverdict
  cases hverdict

/-- The advance of a family, and an evaluation, that are submitted again after a family
advanced in between are taken for conflicts. -/
theorem resubmission_conflicts :
    ResubmitsInVain sampleReadvance ∧ ResubmitsInVain sampleReevaluate :=
  ⟨resubmitsInVain_of_check sampleReadvance_vain,
    resubmitsInVain_of_check sampleReevaluate_vain⟩

theorem resubmission_replayed_iff_sample :
    ∃ before first between again last,
      sampleRun sampleReadvance = some (before ++ first :: (between ++ [again]), last) ∧
      (Replayed again ↔
        again.pre.admits again.input.action = true ∧ KeepsPayload first again) := by
  obtain ⟨before, first, between, again, last, hrun, hexecution, hresubmits, -⟩ :=
    resubmitsInVain_of_check sampleReadvance_vain
  exact ⟨before, first, between, again, last, hrun,
    resubmission_replayed_iff hexecution hresubmits⟩

end ConstraintRouting.Fabric
