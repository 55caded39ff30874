import ConstraintRouting.Fabric.Sections
import ConstraintRouting.Fabric.Server

/-!
# Frames of another epoch

The server builds the authority of a request with its own epoch and never looks at the
epoch of the frame, so a frame of another epoch is refused exactly when the same frame of
the current epoch is.
-/

namespace ConstraintRouting.Fabric

open Verified.Checks (seq_eq_ok failIf_eq_ok)

/-! ## Requests -/

/-- The kinds of frame that ask for a mutation.  A handshake carries no epoch: its sender
learns it from the acknowledgment. -/
def MessageId.mutates : MessageId → Bool
  | .publishConstraintSet | .applyLifecycle | .evaluateCandidates => true
  | _ => false

/-- What a frame asks for. -/
inductive Request where
  | publish (set : ConstraintSet)
  | lifecycle (request : LifecycleRequestPayload)
  | evaluate (request : EvaluateCandidatesPayload)
deriving DecidableEq

namespace Request

def scope : Request → AuthorityScope
  | .publish _ => .publishConstraintSet
  | .lifecycle _ => .applyLifecycle
  | .evaluate _ => .publishEvaluation

def setId : Request → ConstraintSetId
  | .publish set => set.id
  | .lifecycle request => request.setId
  | .evaluate request => request.setId

/-- The payload that is recorded for the attempt. -/
def digest (evidence : EvidenceRequirements) : Request → Digest256
  | .publish set => publishDigest set
  | .lifecycle request => lifecycleDigest request.setId request.event
  | .evaluate request =>
      evaluateDigest evidence request.setId request.candidates request.expectedGeneration

/-- A replay of the request answers with the stored set, and so needs one. -/
def answersWithSet : Request → Bool
  | .publish _ | .lifecycle _ => true
  | .evaluate _ => false

end Request

/-- The request that a frame carries, where its payload can be read. -/
def requestOf (config : ServerConfig) (frame : Frame) : Option Request :=
  match frame.header.message with
  | .publishConstraintSet =>
      ((decodeConstraintSet config.limits).toEnd frame.payload).map .publish
  | .applyLifecycle => (decodeLifecycleRequest.toEnd frame.payload).map .lifecycle
  | .evaluateCandidates =>
      ((decodeEvaluateRequest config.limits).toEnd frame.payload).map .evaluate
  | _ => none

/-- The request is not admitted, or it repeats an attempt for a set that is not there. -/
def Refusable (impl : Impl) (context : AuthorityContext) (request : Request) : Prop :=
  impl.authority.authorize context (scopeBit request.scope) ≠ .ok () ∨
    ∃ record, impl.authority.findAttempt context.attempt = some record ∧
      (record.payload ≠ request.digest impl.evidence ∨
        request.answersWithSet = true ∧ findSet impl.sets request.setId = none)

/-- A frame on a registered session that asks for a mutation in another epoch. -/
structure Outdated (state : ServerState) (frame : Frame) : Prop where
  registered : state.session.registered = true
  mutates : frame.header.message.mutates = true
  epoch : frame.header.epoch ≠ state.system.impl.authority.epoch

/-- The frame is answered with error reports alone, and the coordinator is as it was. -/
structure Rejects (state : ServerState) (handled : Handled) : Prop where
  unchanged : handled.state.system.impl = state.system.impl
  refused : ∀ answer ∈ handled.answers, answer.header.message = .errorReport

/-- The frame is handled while no other caller is served, and is rejected. -/
def RejectsFrame (config : ServerConfig) (state : ServerState) (frame : Frame)
    (call finish : Call) : Prop :=
  ∃ handled, handleFrame config state frame { call, finish } = some handled ∧
    Rejects state handled

/-! ## Admission -/

section Admission

variable {impl : Impl} {context : AuthorityContext} {scope : AuthorityScope}
  {payload : Digest256} {tick : UInt64}

/-- What the shared prologue decides, and by what. -/
inductive Decides (impl : Impl) (context : AuthorityContext) (scope : AuthorityScope)
    (payload : Digest256) : Admission → Prop
  | refused {error : Error} :
      (impl.authority.authorize context (scopeBit scope) ≠ .ok () ∨
        ∃ record, impl.authority.findAttempt context.attempt = some record ∧
          record.payload ≠ payload) →
      Decides impl context scope payload (.refused error)
  | replay {record : MutationAttemptRecord} :
      impl.authority.authorize context (scopeBit scope) = .ok () →
      impl.authority.findAttempt context.attempt = some record → record.payload = payload →
      Decides impl context scope payload .replay
  | fresh {authority : AuthorityRegistry} :
      impl.authority.authorize context (scopeBit scope) = .ok () →
      impl.authority.findAttempt context.attempt = none →
      authority.findAttempt context.attempt ≠ none →
      Decides impl context scope payload (.fresh { impl with authority })

theorem AuthorityRegistry.attempt_of_authorize {registry : AuthorityRegistry}
    {required : AuthorityScopeMask} (h : registry.authorize context required = .ok ()) :
    context.attempt.isValid = true := by
  simp only [authorize, seq_eq_ok, failIf_eq_ok, Bool.or_eq_false_iff,
    Bool.not_eq_false'] at h
  exact h.1.1.2

theorem decides (impl : Impl) (context : AuthorityContext) (scope : AuthorityScope)
    (payload : Digest256) (tick : UInt64) :
    Decides impl context scope payload (authorizeAndObserve impl context scope payload tick) := by
  unfold authorizeAndObserve
  cases hauthorize : impl.authority.authorize context (scopeBit scope) with
  | error error => exact .refused (.inl (by rw [hauthorize]; simp))
  | ok _ =>
      have hvalid := AuthorityRegistry.attempt_of_authorize hauthorize
      have hnever : failIf (!context.attempt.isValid) .invalidArgument
          "mutation attempt identity must be non-zero" = .ok () := by
        rw [hvalid]
        rfl
      unfold AuthorityRegistry.observeAttempt
      rw [hnever]
      cases hfound : impl.authority.findAttempt context.attempt with
      | none =>
          refine .fresh hauthorize hfound ?_
          unfold AuthorityRegistry.findAttempt
          simp
      | some record =>
          by_cases hsame : record.payload = payload
          · dsimp only
            rw [if_pos hsame]
            exact .replay hauthorize hfound hsame
          · dsimp only
            rw [if_neg hsame]
            exact .refused (.inr ⟨record, hfound, hsame⟩)

end Admission

/-! ## Requests that change nothing -/

/-- The operation fails, and changes nothing. -/
def Fails {α : Type} (impl : Impl) (ended : Impl × Result α) : Prop :=
  ended.1 = impl ∧ ∃ error, ended.2 = .error error

section Stages

variable {impl : Impl} {context : AuthorityContext} {call : Call}

/-- What records an attempt that was not in the window changes the coordinator. -/
theorem not_fails_of_recorded {α : Type} {ended : Impl × Result α}
    (hunused : impl.authority.findAttempt context.attempt = none)
    (hrecorded : ended.1.authority.findAttempt context.attempt ≠ none) : ¬ Fails impl ended := by
  intro h
  rw [h.1] at hrecorded
  exact hrecorded hunused

/-- How an operation that replies with a stored set ends, by what the prologue decides. -/
inductive Ends (impl : Impl) (setId : ConstraintSetId) :
    Admission → Staged ConstraintSet → Prop
  | refused (error : Error) : Ends impl setId (.refused error) (.reply impl (.error error))
  | missing (error : Error) : findSet impl.sets setId = none →
      Ends impl setId .replay (.reply impl (.error error))
  | repeated {stored : ConstraintSet} : findSet impl.sets setId = some stored →
      Ends impl setId .replay (.reply impl (.ok stored))
  | fresh {fresh : Impl} {staged : Staged ConstraintSet} :
      staged.authority = fresh.authority → Ends impl setId (.fresh fresh) staged

private theorem publishConstraintSet_ends (set : ConstraintSet) :
    Ends impl set.id
      (authorizeAndObserve impl context .publishConstraintSet (publishDigest set) (call.clock 0))
      (publishConstraintSet impl context set call) := by
  unfold publishConstraintSet
  cases authorizeAndObserve impl context .publishConstraintSet (publishDigest set)
    (call.clock 0) with
  | refused error => exact .refused error
  | replay =>
      cases hset : findSet impl.sets set.id with
      | none => exact .missing _ hset
      | some stored => exact .repeated hset
  | fresh admitted =>
      refine .fresh ?_
      dsimp only
      split
      · rfl
      · split <;> rfl

private theorem applyLifecycle_ends (request : LifecycleRequestPayload) :
    Ends impl request.setId
      (authorizeAndObserve impl context .applyLifecycle
        (lifecycleDigest request.setId request.event) (call.clock 0))
      (applyLifecycle impl context request.setId request.event call) := by
  unfold applyLifecycle
  cases authorizeAndObserve impl context .applyLifecycle
    (lifecycleDigest request.setId request.event) (call.clock 0) with
  | refused error => exact .refused error
  | replay =>
      cases hset : findSet impl.sets request.setId with
      | none => exact .missing _ hset
      | some stored => exact .repeated hset
  | fresh admitted =>
      refine .fresh ?_
      dsimp only
      split
      · rfl
      · unfold transition
        split <;> rfl

/-- An operation that replies with a stored set fails without a change exactly when its
request is refusable. -/
theorem fails_iff_refusable {request : Request} {staged : Staged ConstraintSet} {tick : UInt64}
    (hset : request.answersWithSet = true)
    (hends : Ends impl request.setId (authorizeAndObserve impl context request.scope
      (request.digest impl.evidence) tick) staged) :
    Fails impl (staged.settle call) ↔ Refusable impl context request := by
  have hdecides := decides impl context request.scope (request.digest impl.evidence) tick
  generalize authorizeAndObserve impl context request.scope (request.digest impl.evidence) tick
    = admission at hdecides hends
  cases hdecides with
  | refused hwhy =>
      cases hends
      refine iff_of_true ⟨rfl, _, rfl⟩ ?_
      rcases hwhy with hrefused | ⟨record, hfound, hother⟩
      · exact .inl hrefused
      · exact .inr ⟨record, hfound, .inl hother⟩
  | @replay record hauthorized hfound hsame =>
      have hrefusable : Refusable impl context request ↔
          findSet impl.sets request.setId = none := by
        constructor
        · intro h
          rcases h with hrefused | ⟨other, hother, hdiffers | ⟨-, hmissing⟩⟩
          · exact absurd hauthorized hrefused
          · rw [hfound] at hother
            cases hother
            exact absurd hsame hdiffers
          · exact hmissing
        · intro h
          exact .inr ⟨record, hfound, .inr ⟨hset, h⟩⟩
      rw [hrefusable]
      cases hends with
      | missing error hmissing => exact iff_of_true ⟨rfl, _, rfl⟩ hmissing
      | repeated hstored =>
          refine iff_of_false ?_ (by simp [hstored])
          intro h
          obtain ⟨-, error, herror⟩ := h
          cases herror
  | fresh hauthorized hunused hrecorded =>
      cases hends with
      | fresh hauthority =>
          refine iff_of_false ?_ ?_
          · apply not_fails_of_recorded hunused
            rw [Staged.settle_authority, hauthority]
            exact hrecorded
          · intro h
            rcases h with hrefused | ⟨record, hfound, -⟩
            · exact hrefused hauthorized
            · rw [hunused] at hfound
              cases hfound

theorem publishConstraintSet_fails_iff (set : ConstraintSet) :
    Fails impl ((publishConstraintSet impl context set call).settle call) ↔
      Refusable impl context (.publish set) := by
  have hends := @publishConstraintSet_ends impl context call set
  exact @fails_iff_refusable _ _ _ (.publish set) _ _ rfl hends

theorem applyLifecycle_fails_iff (request : LifecycleRequestPayload) :
    Fails impl ((applyLifecycle impl context request.setId request.event call).settle call) ↔
      Refusable impl context (.lifecycle request) := by
  have hends := @applyLifecycle_ends impl context call request
  exact @fails_iff_refusable _ _ _ (.lifecycle request) _ _ rfl hends

/-- The first section of an evaluation that is admitted afresh records its attempt. -/
theorem evaluateBegin_fresh {setId : ConstraintSetId} {candidates : List CandidatePath}
    {expectedGeneration : ConstraintSetGeneration} {fresh : Impl}
    (h : authorizeAndObserve impl context .publishEvaluation
      (evaluateDigest impl.evidence setId candidates expectedGeneration) (call.clock 0) =
        .fresh fresh) :
    (evaluateBegin impl context setId candidates expectedGeneration call).1.authority =
      fresh.authority := by
  unfold evaluateBegin
  rw [h]
  dsimp only
  split
  · rfl
  · split
    · rfl
    · split <;> rfl

end Stages

/-! ## Frames -/

section Frames

variable {config : ServerConfig} {state : ServerState} {frame : Frame} {call finish : Call}

/-- A refusal leaves everything as it is. -/
theorem rejects_refuse {code : ErrorCode} {reason : ReasonCode} {detail : String}
    {proceed : Bool} :
    Rejects state (state.refuse config frame.header code reason detail proceed) := by
  refine ⟨rfl, fun answer hmem => ?_⟩
  rw [List.mem_singleton.mp hmem]
  rfl

/-- What the coordinator returned is a rejection exactly when it is a failure that changed
nothing. -/
theorem rejects_respond_iff {α : Type} {after : ServerState} {reason : ReasonCode}
    {message : MessageId} {encode : α → List UInt8} {result : Result α}
    (hmessage : message ≠ .errorReport) :
    Rejects state (after.respond config frame.header reason message encode result) ↔
      Fails state.system.impl (after.system.impl, result) := by
  cases result with
  | error error =>
      constructor
      · intro h
        exact ⟨h.unchanged, error, rfl⟩
      · intro h
        exact ⟨h.1, (@rejects_refuse _ after frame _ _ _ _).refused⟩
  | ok value =>
      refine iff_of_false ?_ ?_
      · intro h
        exact hmessage (h.refused _ (List.mem_singleton.mpr rfl))
      · intro h
        obtain ⟨-, error, herror⟩ := h
        cases herror

/-- The last section of an evaluation leaves the registry as it is. -/
theorem finish_authority {before after : SystemState} {ticket : Nat} {reply : Reply}
    (h : before.finish ticket finish = some (after, reply)) :
    after.impl.authority = before.impl.authority := by
  unfold SystemState.finish at h
  split at h
  · next snapshot hflight =>
      simp only [Option.map_eq_some_iff, Prod.mk.injEq] at h
      obtain ⟨staged, hstaged, rfl, -⟩ := h
      have hsettled := staged.settle_authority finish
      cases staged with
      | reply impl result =>
          exact hsettled.trans (congrArg Impl.authority (evaluateFinish_reply hstaged))
      | write impl next applies value =>
          exact hsettled.trans (congrArg Impl.authority (evaluateFinish_eq_write hstaged))
  · cases h

/-- An evaluation that nothing interrupts leaves the registry of its first section. -/
theorem evaluate_authority {before after : SystemState} {context : AuthorityContext}
    {setId : ConstraintSetId} {candidates : List CandidatePath}
    {expectedGeneration : ConstraintSetGeneration} {result : Result CommitOutcome}
    (h : before.evaluate context setId candidates expectedGeneration { call, finish } =
      some (after, result)) :
    after.impl.authority =
      (evaluateBegin before.impl context setId candidates expectedGeneration call).1.authority := by
  have hbegin := before.begin_impl context setId candidates expectedGeneration call
  unfold SystemState.evaluate at h
  dsimp only [Verified.StepMachine.exec, Option.bind_some] at h
  split at h
  · next ended _ hstarted =>
      cases h
      rw [hstarted] at hbegin
      exact congrArg Impl.authority hbegin
  · next begun ticket hstarted =>
      rw [hstarted] at hbegin
      simp only [Option.bind_eq_some_iff, Prod.exists] at h
      obtain ⟨finished, reply, hfinished, hresult⟩ := h
      cases reply with
      | evaluated outcome =>
          cases hresult
          exact (finish_authority hfinished).trans (congrArg Impl.authority hbegin)
      | operated | populationRead | evaluating => cases hresult
  · cases h

/-- An evaluation that nothing interrupts fails without a change exactly when it is not
admitted: its replay answers with the current records. -/
theorem evaluate_fails_iff {before : SystemState} {context : AuthorityContext}
    (request : EvaluateCandidatesPayload) :
    (∃ after result, before.evaluate context request.setId request.candidates
        request.expectedGeneration { call, finish } = some (after, result) ∧
        Fails before.impl (after.impl, result)) ↔
      Refusable before.impl context (.evaluate request) := by
  have hdecides := decides before.impl context .publishEvaluation
    ((Request.evaluate request).digest before.impl.evidence) (call.clock 0)
  generalize hadmission : authorizeAndObserve before.impl context .publishEvaluation
    ((Request.evaluate request).digest before.impl.evidence) (call.clock 0) = admission
    at hdecides
  cases hdecides with
  | @refused error hwhy =>
      have hbegin : evaluateBegin before.impl context request.setId request.candidates
          request.expectedGeneration call = (before.impl, .error error) := by
        unfold evaluateBegin
        change authorizeAndObserve _ _ _ (evaluateDigest _ _ _ _) _ = _ at hadmission
        rw [hadmission]
      refine iff_of_true ⟨before, .error error, ?_, rfl, error, rfl⟩ ?_
      · unfold SystemState.evaluate SystemState.begin
        rw [hbegin]
      · rcases hwhy with hrefused | ⟨record, hfound, hother⟩
        · exact .inl hrefused
        · exact .inr ⟨record, hfound, .inl hother⟩
  | @replay record hauthorized hfound hsame =>
      have hbegin : evaluateBegin before.impl context request.setId request.candidates
          request.expectedGeneration call =
            (before.impl, .ok (.replayed (replayedOutcome before.impl request.setId))) := by
        unfold evaluateBegin
        change authorizeAndObserve _ _ _ (evaluateDigest _ _ _ _) _ = _ at hadmission
        rw [hadmission]
      refine iff_of_false ?_ ?_
      · intro h
        obtain ⟨after, result, hevaluate, -, error, herror⟩ := h
        unfold SystemState.evaluate SystemState.begin at hevaluate
        rw [hbegin] at hevaluate
        simp only [Option.some.injEq, Prod.mk.injEq] at hevaluate
        rw [← hevaluate.2] at herror
        cases herror
      · intro h
        rcases h with hrefused | ⟨other, hother, hdiffers | ⟨hanswers, -⟩⟩
        · exact hrefused hauthorized
        · rw [hfound] at hother
          cases hother
          exact hdiffers hsame
        · cases hanswers
  | fresh hauthorized hunused hrecorded =>
      refine iff_of_false ?_ ?_
      · intro h
        obtain ⟨after, result, hevaluate, hfails⟩ := h
        have hauthority := (evaluate_authority hevaluate).trans (evaluateBegin_fresh hadmission)
        refine not_fails_of_recorded hunused ?_ hfails
        show after.impl.authority.findAttempt context.attempt ≠ none
        rw [hauthority]
        exact hrecorded
      · intro h
        rcases h with hrefused | ⟨record, hfound, -⟩
        · exact hrefused hauthorized
        · rw [hunused] at hfound
          cases hfound

/-- The request of the frame, where it can be read, is refused in any epoch. -/
def RefusedAnyway (config : ServerConfig) (state : ServerState) (frame : Frame) : Prop :=
  ∀ request, requestOf config frame = some request →
    Refusable state.system.impl (contextFor state.system.impl state.session frame.header) request

private theorem rejects_publish_iff (hmessage : frame.header.message = .publishConstraintSet) :
    Rejects state (handlePublish config state frame { call, finish }) ↔
      RefusedAnyway config state frame := by
  unfold handlePublish RefusedAnyway requestOf
  rw [hmessage]
  cases (decodeConstraintSet config.limits).toEnd frame.payload with
  | none => exact iff_of_true rejects_refuse (by simp)
  | some set =>
      dsimp only
      rw [rejects_respond_iff (by decide)]
      simpa using publishConstraintSet_fails_iff set

private theorem rejects_lifecycle_iff (hmessage : frame.header.message = .applyLifecycle) :
    Rejects state (handleLifecycle config state frame { call, finish }) ↔
      RefusedAnyway config state frame := by
  unfold handleLifecycle RefusedAnyway requestOf
  rw [hmessage]
  cases decodeLifecycleRequest.toEnd frame.payload with
  | none => exact iff_of_true rejects_refuse (by simp)
  | some request =>
      dsimp only
      rw [rejects_respond_iff (by decide)]
      simpa using applyLifecycle_fails_iff request

private theorem rejects_evaluate_iff (hmessage : frame.header.message = .evaluateCandidates) :
    (∃ handled, handleEvaluate config state frame { call, finish } = some handled ∧
      Rejects state handled) ↔ RefusedAnyway config state frame := by
  unfold handleEvaluate RefusedAnyway requestOf
  rw [hmessage]
  cases (decodeEvaluateRequest config.limits).toEnd frame.payload with
  | none => exact iff_of_true ⟨_, rfl, rejects_refuse⟩ (by simp)
  | some request =>
      have hfails := @evaluate_fails_iff call finish state.system
        (contextFor state.system.impl state.session frame.header) request
      have hanswers : (∃ handled, (state.system.evaluate
          (contextFor state.system.impl state.session frame.header) request.setId
          request.candidates request.expectedGeneration { call, finish }).map
            (fun answer => ({ state with system := answer.1 } : ServerState).respond config
              frame.header .none .evaluateCandidatesAck evaluateAck answer.2) = some handled ∧
          Rejects state handled) ↔
          ∃ after result, state.system.evaluate
            (contextFor state.system.impl state.session frame.header) request.setId
            request.candidates request.expectedGeneration { call, finish } =
              some (after, result) ∧ Fails state.system.impl (after.impl, result) := by
        simp only [Option.map_eq_some_iff, Prod.exists]
        constructor
        · intro h
          obtain ⟨_, ⟨after, result, hevaluate, rfl⟩, hrejects⟩ := h
          exact ⟨after, result, hevaluate, (rejects_respond_iff (by decide)).mp hrejects⟩
        · intro h
          obtain ⟨after, result, hevaluate, hfailed⟩ := h
          exact ⟨_, ⟨after, result, hevaluate, rfl⟩,
            (rejects_respond_iff (by decide)).mpr hfailed⟩
      simpa using hanswers.trans hfails

/-- A frame of another epoch is rejected without a change exactly when its identity is not
the session's, or its request cannot be read or is refused in any epoch. -/
theorem rejectsFrame_iff_refusedAnyway (h : Outdated state frame) :
    RejectsFrame config state frame call finish ↔
      identityMatches state.session frame.header = false ∨
        RefusedAnyway config state frame := by
  have hregistered := h.registered
  have hmutates := h.mutates
  have hhello : frame.header.message ≠ .hello := by
    intro hmessage
    rw [hmessage] at hmutates
    cases hmutates
  unfold RejectsFrame handleFrame
  dsimp only
  rw [if_neg hhello, hregistered]
  cases hidentity : identityMatches state.session frame.header with
  | false => exact iff_of_true ⟨_, rfl, rejects_refuse⟩ (.inl rfl)
  | true =>
      cases hmessage : frame.header.message with
      | publishConstraintSet => simpa using rejects_publish_iff hmessage
      | applyLifecycle => simpa using rejects_lifecycle_iff hmessage
      | evaluateCandidates => simpa using rejects_evaluate_iff hmessage
      | _ => simp [hmessage, MessageId.mutates] at hmutates

end Frames

/-- The publication of the payload, in a frame of epoch nine. -/
def sampleStale (payload : List UInt8) : Frame :=
  let frame := sampleFrame .publishConstraintSet 10 payload
  { frame with header.epoch := ⟨9⟩ }

private def outdated (state : ServerState) : Bool :=
  state.session.registered && state.system.impl.authority.epoch != ⟨9⟩

private theorem outdated_sound {state : ServerState} (h : outdated state = true)
    (payload : List UInt8) : Outdated state (sampleStale payload) := by
  simp only [outdated, Bool.and_eq_true, bne_iff_ne] at h
  exact ⟨h.1, rfl, Ne.symm h.2⟩

private theorem sampleServe_outdated :
    ((sampleServe sampleConfig [sampleHandled (sampleHello ⟨1⟩ ⟨4242⟩ 1)]).any fun run =>
      outdated run.2) = true := by
  decide +kernel

theorem rejectsFrame_iff_refusedAnyway_sample :
    ∃ events state, sampleServe sampleConfig [sampleHandled (sampleHello ⟨1⟩ ⟨4242⟩ 1)] =
        some (events, state) ∧
      RejectsFrame {} state (sampleStale []) sampleCall sampleCall := by
  obtain ⟨⟨events, state⟩, hrun, houtdated⟩ := (Option.any_eq_true _ _).mp sampleServe_outdated
  refine ⟨events, state, hrun, ?_⟩
  refine (rejectsFrame_iff_refusedAnyway (outdated_sound houtdated [])).mpr (.inr ?_)
  intro request hrequest
  cases hrequest

/-- The definition that the stale frame publishes. -/
def sampleCanonical : ConstraintSet :=
  { sampleSet 5 with digest := constraintSetDigest (sampleSet 5) }

private def acceptsStale (state : ServerState) : Bool :=
  outdated state &&
    (handleFrame {} state (sampleStale (encodeConstraintSet sampleCanonical))
      { call := sampleCall, finish := sampleCall }).any fun handled =>
        handled.answers.any fun answer =>
          decide (answer.header.message = .publishConstraintSetAck)

private theorem sampleServe_acceptsStale :
    ((sampleServe sampleConfig [sampleHandled (sampleHello ⟨1⟩ ⟨4242⟩ 1)]).any fun run =>
      acceptsStale run.2) = true := by
  decide +kernel

/-- A publication in a frame of epoch nine is acknowledged by a coordinator in epoch one. -/
theorem stale_frame_acknowledged :
    ∃ events state, sampleServe sampleConfig [sampleHandled (sampleHello ⟨1⟩ ⟨4242⟩ 1)] =
        some (events, state) ∧
      Outdated state (sampleStale (encodeConstraintSet sampleCanonical)) ∧
      ¬ RejectsFrame {} state (sampleStale (encodeConstraintSet sampleCanonical)) sampleCall
        sampleCall := by
  obtain ⟨⟨events, state⟩, hrun, haccepts⟩ :=
    (Option.any_eq_true _ _).mp sampleServe_acceptsStale
  simp only [acceptsStale, Bool.and_eq_true] at haccepts
  obtain ⟨houtdated, haccepts⟩ := haccepts
  refine ⟨events, state, hrun, outdated_sound houtdated _, fun hrejects => ?_⟩
  obtain ⟨handled, hhandled, hunchanged, hrefused⟩ := hrejects
  rw [hhandled, Option.any_some, List.any_eq_true] at haccepts
  obtain ⟨answer, hmem, hack⟩ := haccepts
  rw [decide_eq_true_eq, hrefused answer hmem] at hack
  cases hack

end ConstraintRouting.Fabric
