import ConstraintRouting.Fabric.BatchWire
import ConstraintRouting.Fabric.CommitSpec
import ConstraintRouting.Fabric.FrameAssembly
import ConstraintRouting.Fabric.Server
import ConstraintRouting.Fabric.Worker

/-!
# Evaluations over the wire

The acknowledgment of an evaluation carries the batch and not whether it was committed, and
the client takes every batch for a committed one.  So its outcome agrees with the one that
the coordinator produced exactly when no checked dependency moved in between.
-/

namespace ConstraintRouting.Fabric

open ByteWriter ByteReader
open Verified.Checks (seq_eq_ok bind_eq_ok)
open Verified.Readers.Reader (accept_bind pure_eq_some)
open Verified.PrefixCodes
open Verified.StepMachine

/-! ## The frame that arrives -/

/-- The enumerator of a message, from its protocol value. -/
private def messageOf (code : UInt16) : MessageId :=
  ([.hello, .helloAck, .registerPublisher, .registerPublisherAck, .publishConstraintSet,
    .publishConstraintSetAck, .applyLifecycle, .applyLifecycleAck, .evaluateCandidates,
    .evaluateCandidatesAck, .queryDefinitions, .definitionsReport, .queryResults,
    .resultsReport, .queryCurrentness, .currentnessReport, .heartbeat, .sessionFenced,
    .errorReport, .shutdown].find? fun message => message.code == code).getD MessageId.invalid

theorem MessageId.code_injective : Function.Injective MessageId.code := by
  have hinverse : Function.LeftInverse messageOf MessageId.code := by
    intro message
    cases message <;> rfl
  exact hinverse.injective

theorem encodeFrameHeader_prefixCode : PrefixCode encodeFrameHeader := by
  intro a b rest rest' h
  simp only [encodeFrameHeader, List.append_assoc, putU32_prefixCode.append_inj,
    putU16_prefixCode.append_inj, putGeneration_prefixCode.append_inj,
    putId_prefixCode.append_inj, MessageId.code_injective.eq_iff, true_and] at h
  obtain ⟨hversion, hmessage, hflags, hlength, hepoch, hpublisher, hboot, hattempt, hrequest,
    hscopes, hrest⟩ := h
  refine ⟨?_, hrest⟩
  cases a
  cases b
  simp only [FrameHeader.mk.injEq]
  exact ⟨hversion, hmessage, hflags, hlength, hepoch, hpublisher, hboot, hattempt, hrequest,
    hscopes⟩

/-- The only frame at the front of the bytes of an encoded frame is that frame. -/
theorem Frame.eq_of_bytes {limits : Limits} {frame response : Frame} {rest : List UInt8}
    (hresponse : response.WellFormed limits) (hsize : frame.payload.length < 2 ^ 32)
    (h : response.bytes ++ rest = frame.normalized.bytes) : response = frame.normalized := by
  unfold Frame.bytes at h
  simp only [List.append_assoc] at h
  obtain ⟨hheader, hrest⟩ := encodeFrameHeader_prefixCode h
  have hlength : response.payload.length = frame.normalized.payload.length := by
    rw [← hresponse.length, hheader]
    show (UInt32.ofNat frame.payload.length).toNat = frame.payload.length
    rw [UInt32.toNat_ofNat', Nat.mod_eq_of_lt hsize]
  obtain ⟨hpayload, -⟩ := List.append_inj hrest hlength
  cases response
  exact congrArg₂ Frame.mk hheader hpayload

namespace FrameAssembler

/-- What a healthy assembler pops stands at the front of its buffer. -/
theorem pop_cases (limits : Limits) (buffer : List UInt8) :
    (∃ error, (pop { limits, buffer }).2 = .error error) ∨
      pop { limits, buffer } = ({ limits, buffer }, .ok none) ∨
      ∃ after response rest, pop { limits, buffer } = (after, .ok (some response)) ∧
        response.WellFormed limits ∧ buffer = response.bytes ++ rest := by
  by_cases hstarted : buffer.length < kHeaderBytes
  · refine .inr (.inl ?_)
    unfold pop
    simp only [Bool.false_eq_true, if_false, if_pos hstarted]
  · unfold pop
    simp only [Bool.false_eq_true, if_false, if_neg hstarted]
    split
    · exact .inl ⟨_, rfl⟩
    · next header _ _ =>
        by_cases hversion : (header.protocolVersion != kProtocolVersionValue) = true
        · rw [if_pos hversion]
          exact .inl ⟨_, rfl⟩
        · rw [if_neg hversion]
          by_cases hlimit : limits.maxFrameBytes < header.payloadLength
          · rw [if_pos hlimit]
            exact .inl ⟨_, rfl⟩
          · rw [if_neg hlimit]
            by_cases hshort : buffer.length < frameSize header.payloadLength
            · rw [if_pos hshort]
              exact .inr (.inl rfl)
            · rw [if_neg hshort]
              split
              · exact .inl ⟨_, rfl⟩
              · next response hdecode =>
                  obtain ⟨hbytes, hwell⟩ := decodeFrame_eq_ok.mp hdecode
                  refine .inr (.inr ⟨_, response, buffer.drop (frameSize header.payloadLength),
                    rfl, hwell, ?_⟩)
                  rw [← hbytes]
                  exact (List.take_append_drop _ _).symm

/-- What a healthy assembler takes it appends to its buffer. -/
theorem push_eq_ok {limits : Limits} {buffer chunk : List UInt8} {after : FrameAssembler}
    (h : push { limits, buffer } chunk = (after, .ok ())) :
    after = { limits, buffer := buffer ++ chunk } := by
  unfold push at h
  rw [if_neg Bool.false_ne_true] at h
  split at h
  · cases h
  · cases h
    rfl

end FrameAssembler

namespace WorkerClient

variable {client : WorkerClient} {request response : Frame}

/-- A response that is accepted is the one that arrived, and no error report. -/
theorem accept_eq_ok {arrived : Frame} (h : client.accept request arrived = .ok response) :
    response = arrived ∧ response.header.message ≠ .errorReport := by
  unfold accept at h
  split at h
  · cases h
  · split at h
    · split at h <;> cases h
    · next hmessage =>
        cases h
        exact ⟨rfl, hmessage⟩

/-- What a client takes off its assembler, or that it goes on with what it has. -/
theorem take_eq_ok {buffer : List UInt8} {more : FrameAssembler → Result Frame}
    (h : client.take request { limits := client.limits, buffer } more = .ok response) :
    more { limits := client.limits, buffer } = .ok response ∨
      response.WellFormed client.limits ∧ response.header.message ≠ .errorReport ∧
        ∃ rest, response.bytes ++ rest = buffer := by
  unfold take at h
  rcases FrameAssembler.pop_cases client.limits buffer with
    ⟨error, herror⟩ | hnone | ⟨after, arrived, rest, hpop, hwell, hbuffer⟩
  · split at h
    · cases h
    · next heq =>
        rw [heq] at herror
        cases herror
    · next heq =>
        rw [heq] at herror
        cases herror
  · rw [hnone] at h
    exact .inl h
  · rw [hpop] at h
    obtain ⟨rfl, hmessage⟩ := accept_eq_ok h
    exact .inr ⟨hwell, hmessage, rest, hbuffer.symm⟩

/-- The response that a client returns stands at the front of what arrived. -/
theorem await_eq_ok {arrivals : List (List UInt8)} {buffer : List UInt8}
    (h : client.await request arrivals { limits := client.limits, buffer } = .ok response) :
    response.WellFormed client.limits ∧ response.header.message ≠ .errorReport ∧
      ∃ rest, response.bytes ++ rest = buffer ++ arrivals.flatten := by
  induction arrivals generalizing buffer with
  | nil =>
      unfold await at h
      rcases take_eq_ok h with hclosed | ⟨hwell, hmessage, rest, hrest⟩
      · cases hclosed
      · exact ⟨hwell, hmessage, rest, by rw [List.flatten_nil, List.append_nil, hrest]⟩
  | cons chunk arrivals ih =>
      unfold await at h
      rcases take_eq_ok h with hmore | ⟨hwell, hmessage, rest, hrest⟩
      · split at hmore
        · cases hmore
        · split at hmore
          · cases hmore
          · next pushed hpush =>
              rw [FrameAssembler.push_eq_ok hpush] at hmore
              obtain ⟨hwell, hmessage, rest, hrest⟩ := ih hmore
              refine ⟨hwell, hmessage, rest, ?_⟩
              rw [hrest, List.flatten_cons, List.append_assoc]
      · refine ⟨hwell, hmessage, rest ++ (chunk :: arrivals).flatten, ?_⟩
        rw [← List.append_assoc, hrest]

theorem roundTrip_eq_ok {message : MessageId} {payload : List UInt8}
    {arrivals : List (List UInt8)}
    (h : client.roundTrip message payload arrivals = .ok response) :
    client.await (client.request message payload) arrivals { limits := client.limits } =
      .ok response := by
  unfold roundTrip at h
  rw [seq_eq_ok] at h
  obtain ⟨-, h⟩ := h
  obtain ⟨_, -, hawait⟩ := bind_eq_ok.mp h
  exact hawait

/-- The outcome that a client returns is the batch of the frame that arrived. -/
theorem evaluate_eq_ok {setId : ConstraintSetId} {candidates : List CandidatePath}
    {arrivals : List (List UInt8)} {returned : CommitOutcome}
    (h : client.evaluate setId candidates arrivals = .ok returned) :
    ∃ (response : Frame) (rest left : List UInt8), response.WellFormed client.limits ∧
      response.header.message ≠ .errorReport ∧ response.bytes ++ rest = arrivals.flatten ∧
      decodeEvaluationBatch client.limits response.payload = some (returned.batch, left) ∧
      returned = { batch := returned.batch, committed := true } := by
  unfold evaluate at h
  obtain ⟨response, hresponse, h⟩ := bind_eq_ok.mp h
  obtain ⟨hwell, hmessage, rest, hrest⟩ := await_eq_ok (roundTrip_eq_ok hresponse)
  split at h
  · cases h
  · next ack left hdecoded =>
      cases h
      refine ⟨response, rest, left, hwell, hmessage, hrest, ?_, rfl⟩
      unfold decodeEvaluateResponse at hdecoded
      obtain ⟨batch, after, hbatch, hack⟩ := Verified.Readers.Reader.bind_eq_some.mp hdecoded
      cases hack
      exact hbatch

end WorkerClient

/-! ## The server -/

/-- The bytes of the answer that reach the peer. -/
def Handled.wire (handled : Handled) (config : ServerConfig) : List UInt8 :=
  (handled.replies config).flatMap fun reply =>
    match encodeFrame reply config.limits with
    | .ok bytes => bytes
    | .error _ => []

/-- A frame that asks for an evaluation is answered with an error report, or with the batch
that the coordinator returned. -/
theorem handleFrame_evaluate {config : ServerConfig} {state : ServerState} {frame : Frame}
    {surroundings : Surroundings} {handled : Handled}
    (hmessage : frame.header.message = .evaluateCandidates)
    (h : handleFrame config state frame surroundings = some handled) :
    (∃ reply, handled.answers = [reply] ∧ reply.header.message = .errorReport) ∨
      ∃ request system outcome reply,
        (decodeEvaluateRequest config.limits).toEnd frame.payload = some request ∧
        state.system.evaluate (contextFor state.system.impl state.session frame.header)
          request.setId request.candidates request.expectedGeneration surroundings =
            some (system, .ok outcome) ∧
        handled.state.system = system ∧ handled.answers = [reply] ∧
        reply.header.message = .evaluateCandidatesAck ∧ reply.payload = evaluateAck outcome := by
  have hrefused : ∀ {code : ErrorCode} {reason : ReasonCode} {detail : String}
      {proceed : Bool} {answered : Handled} {after : ServerState},
      answered = after.refuse config frame.header code reason detail proceed →
      ∃ reply, answered.answers = [reply] ∧ reply.header.message = .errorReport := by
    intro code reason detail proceed answered after hanswered
    rw [hanswered]
    exact ⟨_, rfl, rfl⟩
  unfold handleFrame at h
  dsimp only at h
  rw [if_neg (by rw [hmessage]; decide)] at h
  split at h
  · exact .inl (hrefused (Option.some.inj h).symm)
  · split at h
    · exact .inl (hrefused (Option.some.inj h).symm)
    · rw [hmessage] at h
      dsimp only at h
      unfold handleEvaluate at h
      dsimp only at h
      split at h
      · exact .inl (hrefused (Option.some.inj h).symm)
      · next request hrequest =>
          obtain ⟨⟨system, result⟩, hevaluate, hanswered⟩ := Option.map_eq_some_iff.mp h
          dsimp only at hanswered
          cases result with
          | error error => exact .inl (hrefused hanswered.symm)
          | ok outcome =>
              subst hanswered
              exact .inr ⟨request, system, outcome, _, hrequest, hevaluate, rfl, rfl, rfl, rfl⟩

/-! ## Outcomes that agree -/

/-- No checked dependency of the evaluation moves: its attempt is replayed, or the last of
its sections finds what the first one captured.  The generations that it reports are within
the ceiling. -/
inductive Steady (state : SystemState) (context : AuthorityContext) (setId : ConstraintSetId)
    (candidates : List CandidatePath) (expectedGeneration : ConstraintSetGeneration)
    (surroundings : Surroundings) : Prop
  | replayed :
      authorizeAndObserve state.impl context .publishEvaluation
        (evaluateDigest state.impl.evidence setId candidates expectedGeneration)
        (surroundings.call.clock 0) = .replay →
      (∀ set, findSet state.impl.sets setId = some set → set.generation.Storable) →
      Steady state context setId candidates expectedGeneration surroundings
  | unchanged (begun middle : SystemState) (ticket : Nat) (snapshot : EvaluationSnapshot)
      (events : List Event) :
      state.begin context setId candidates expectedGeneration surroundings.call =
        (begun, .evaluating ticket) →
      exec step begun surroundings.between = some (events, middle) →
      middle.flights ticket = some (.evaluating snapshot) →
      DependenciesUnchanged middle.impl snapshot →
      snapshot.set.generation.Storable → snapshot.generation.Storable →
      Steady state context setId candidates expectedGeneration surroundings

/-- A batch is about the set and the generation of its evaluation. -/
theorem evaluateBatch_generations {context : EvaluationContext}
    {candidates : List CandidatePath} {batch : EvaluationBatch}
    (h : evaluateBatch context candidates = .ok batch) :
    batch.setGeneration = context.set.generation ∧ batch.generation = context.generation := by
  unfold evaluateBatch at h
  dsimp only at h
  split at h
  · cases h
    exact ⟨rfl, rfl⟩
  · obtain ⟨records, -, hbatch⟩ := bind_eq_ok.mp h
    cases hbatch
    exact ⟨rfl, rfl⟩

/-- The last section of an evaluation that ends with an outcome. -/
theorem evaluateFinish_outcome {impl : Impl} {snapshot : EvaluationSnapshot} {call : Call}
    {staged : Staged CommitOutcome} {outcome : CommitOutcome}
    (h : evaluateFinish impl snapshot call = some staged)
    (hok : (staged.settle call).2 = .ok outcome) :
    (outcome.committed = true ↔ DependenciesUnchanged impl snapshot) ∧
      outcome.batch.setGeneration = snapshot.set.generation ∧
      outcome.batch.generation = snapshot.generation := by
  unfold evaluateFinish at h
  dsimp only at h
  split at h
  · cases h
    cases hok
  · next batch hbatch =>
      obtain ⟨hset, hgeneration⟩ := evaluateBatch_generations hbatch
      rw [← staleReason_eq_none_iff]
      by_cases hstale : staleReason impl snapshot = .none
      · rw [if_neg (not_not.mpr hstale)] at h
        obtain ⟨next, -, rfl⟩ := Option.map_eq_some_iff.mp h
        unfold Staged.settle at hok
        dsimp only at hok
        split at hok
        · cases hok
        · cases hok
          exact ⟨iff_of_true rfl hstale, hset, hgeneration⟩
      · rw [if_pos hstale] at h
        cases h
        cases hok
        exact ⟨iff_of_false Bool.false_ne_true hstale, hset, hgeneration⟩

/-- A first section that replays was admitted as a replay. -/
theorem evaluateBegin_replayed {impl after : Impl} {context : AuthorityContext}
    {setId : ConstraintSetId} {candidates : List CandidatePath}
    {expectedGeneration : ConstraintSetGeneration} {call : Call} {outcome : CommitOutcome}
    (h : evaluateBegin impl context setId candidates expectedGeneration call =
      (after, .ok (.replayed outcome))) :
    authorizeAndObserve impl context .publishEvaluation
        (evaluateDigest impl.evidence setId candidates expectedGeneration)
        (call.clock 0) = .replay ∧
      outcome = replayedOutcome impl setId := by
  unfold evaluateBegin at h
  split at h
  · cases h
  · next hreplay =>
      cases h
      exact ⟨hreplay, rfl⟩
  · split at h
    · cases h
    · split at h
      · cases h
      · split at h <;> cases h

/-- An evaluation that ends in its first section with an outcome was replayed. -/
theorem begin_outcome {state ended : SystemState} {context : AuthorityContext}
    {setId : ConstraintSetId} {candidates : List CandidatePath}
    {expectedGeneration : ConstraintSetGeneration} {call : Call} {outcome : CommitOutcome}
    (h : state.begin context setId candidates expectedGeneration call =
      (ended, .evaluated (.ok outcome))) :
    authorizeAndObserve state.impl context .publishEvaluation
        (evaluateDigest state.impl.evidence setId candidates expectedGeneration)
        (call.clock 0) = .replay ∧
      outcome = replayedOutcome state.impl setId := by
  unfold SystemState.begin at h
  split at h
  · cases h
  · next hbegin =>
      cases h
      exact evaluateBegin_replayed hbegin
  · cases h

/-- A replay captures nothing. -/
theorem begin_ne_of_replay {state begun : SystemState} {context : AuthorityContext}
    {setId : ConstraintSetId} {candidates : List CandidatePath}
    {expectedGeneration : ConstraintSetGeneration} {call : Call} {ticket : Nat}
    (hreplay : authorizeAndObserve state.impl context .publishEvaluation
      (evaluateDigest state.impl.evidence setId candidates expectedGeneration)
      (call.clock 0) = .replay) :
    state.begin context setId candidates expectedGeneration call ≠
      (begun, .evaluating ticket) := by
  intro hbegin
  unfold SystemState.begin evaluateBegin at hbegin
  rw [hreplay] at hbegin
  cases hbegin

/-- An evaluation that ends with an outcome reports a commit, with generations within the
ceiling, exactly when it is steady. -/
theorem evaluate_steady_iff {state system : SystemState} {context : AuthorityContext}
    {setId : ConstraintSetId} {candidates : List CandidatePath}
    {expectedGeneration : ConstraintSetGeneration} {surroundings : Surroundings}
    {outcome : CommitOutcome}
    (h : state.evaluate context setId candidates expectedGeneration surroundings =
      some (system, .ok outcome)) :
    (outcome.committed = true ∧ outcome.batch.setGeneration.Storable ∧
        outcome.batch.generation.Storable) ↔
      Steady state context setId candidates expectedGeneration surroundings := by
  unfold SystemState.evaluate at h
  split at h
  · next ended result hbegin =>
      cases h
      obtain ⟨hreplay, rfl⟩ := begin_outcome hbegin
      have hunset : ({} : EvaluationGeneration).Storable := by
        show (0 : UInt64) ≤ Generation.kMaxGeneration
        decide
      constructor
      · intro hcommitted
        refine .replayed hreplay fun set hfound => ?_
        have hset := hcommitted.2.1
        simp only [replayedOutcome, hfound, Option.map_some, Option.getD_some] at hset
        exact hset
      · intro hsteady
        cases hsteady with
        | replayed _ hset =>
            refine ⟨rfl, ?_, hunset⟩
            cases hfound : findSet state.impl.sets setId with
            | none =>
                simp only [replayedOutcome, hfound, Option.map_none, Option.getD_none]
                exact hunset
            | some set =>
                simp only [replayedOutcome, hfound, Option.map_some, Option.getD_some]
                exact hset set hfound
        | unchanged begun middle ticket snapshot events hstarted =>
            rw [hbegin] at hstarted
            cases hstarted
  · next begun ticket hbegin =>
      obtain ⟨⟨events, middle⟩, hbetween, h⟩ := Option.bind_eq_some_iff.mp h
      obtain ⟨⟨finished, reply⟩, hfinish, h⟩ := Option.bind_eq_some_iff.mp h
      unfold SystemState.finish at hfinish
      dsimp only at hfinish h
      split at hfinish
      · next snapshot hflight =>
          obtain ⟨staged, hstaged, hsettled⟩ := Option.map_eq_some_iff.mp hfinish
          cases hsettled
          have hresult := congrArg Prod.snd (Option.some.inj h)
          obtain ⟨hcommitted, hset, hgeneration⟩ := evaluateFinish_outcome hstaged hresult
          rw [hcommitted, hset, hgeneration]
          constructor
          · intro hall
            exact .unchanged begun middle ticket snapshot events hbegin hbetween hflight hall.1
              hall.2.1 hall.2.2
          · intro hsteady
            cases hsteady with
            | replayed hreplay =>
                exact absurd hbegin (begin_ne_of_replay hreplay)
            | unchanged other last number found _ hstarted hran hfound hdependencies hs hg =>
                rw [hbegin] at hstarted
                cases hstarted
                rw [hbetween] at hran
                cases hran
                rw [hflight] at hfound
                cases hfound
                exact ⟨hdependencies, hs, hg⟩
      · cases hfinish
  · cases h

/-! ## The exchange -/

/-- An evaluation request in which no generation is expected is read as it was sent. -/
theorem decodeEvaluateRequest_toEnd {limits : Limits} {setId : ConstraintSetId}
    {candidates : List CandidatePath} {request : EvaluateCandidatesPayload}
    (hsize : (WorkerClient.evaluatePayload setId candidates).length < 2 ^ 32) :
    (decodeEvaluateRequest limits).toEnd (WorkerClient.evaluatePayload setId candidates) =
        some request ↔
      (setId.isValid = true ∧
        candidates.length ≤ limits.maxCandidatesPerEvaluation.toNat ∧
        ∀ candidate ∈ candidates, candidate.Storable limits ∧
          validateCandidate candidate limits = .ok ()) ∧
      { setId, candidates } = request := by
  unfold WorkerClient.evaluatePayload encodeEvaluateRequest at hsize ⊢
  simp only [List.length_append] at hsize
  have hcandidates := fun rest => @all_bind _ EvaluateCandidatesPayload _ _ _
    (decodeCandidate_reads limits) encodeCandidate_ne_nil limits.maxCandidatesPerEvaluation
    candidates rest
  refine Verified.Readers.Reader.toEnd_eq_some fun out => ?_
  rw [← List.append_nil (putAll encodeCandidate candidates)]
  unfold decodeEvaluateRequest
  simp (disch := omega) only [List.append_assoc, id_bind, generationField_bind, accept_bind,
    hcandidates, pure_eq_some, and_assoc]
  constructor
  · intro hread
    exact hread.2
  · intro hread
    exact ⟨Nat.zero_le _, hread⟩

/-- One evaluation of a connected client: the server handles the frame that the client sent,
and what the client receives is as much of the answer as arrives. -/
structure Exchange (config : ServerConfig) (client : WorkerClient) (setId : ConstraintSetId)
    (candidates : List CandidatePath) (state : ServerState) (surroundings : Surroundings)
    (handled : Handled) (arrivals : List (List UInt8)) : Prop where
  received : ∃ bytes received,
    encodeFrame (client.request .evaluateCandidates
      (WorkerClient.evaluatePayload setId candidates)) client.limits = .ok bytes ∧
    decodeFrame bytes config.limits = .ok received ∧
    handleFrame config state received surroundings = some handled
  arrived : arrivals.flatten <+: handled.wire config

/-- The only answer that reaches the peer is the frame that the server sent. -/
theorem eq_normalized_of_wire {config : ServerConfig} {limits : Limits} {handled : Handled}
    {reply response : Frame} {arrived rest : List UInt8} (hanswers : handled.answers = [reply])
    (hresponse : response.WellFormed limits) (hbytes : response.bytes ++ rest = arrived)
    (hwire : arrived <+: handled.wire config) :
    response = reply.normalized ∧ reply.payload.length < 2 ^ 32 := by
  obtain ⟨more, hwire⟩ := hwire
  rw [← hbytes, List.append_assoc] at hwire
  have hpresent : response.bytes ++ (rest ++ more) ≠ [] :=
    List.append_ne_nil_of_left_ne_nil response.bytes_ne_nil _
  unfold Handled.wire Handled.replies at hwire
  rw [hanswers, List.filter_cons, List.filter_nil] at hwire
  cases hencoded : encodeFrame reply config.limits with
  | error error =>
      have hsends : config.sends reply = false := by
        unfold ServerConfig.sends
        rw [hencoded]
        rfl
      rw [if_neg (by rw [hsends]; exact Bool.false_ne_true)] at hwire
      exact absurd hwire hpresent
  | ok bytes =>
      have hsends : config.sends reply = true := by
        unfold ServerConfig.sends
        rw [hencoded]
        rfl
      obtain ⟨hsize, -, hreply⟩ := encodeFrame_eq_ok.mp hencoded
      have hfits : reply.payload.length < 2 ^ 32 :=
        Nat.lt_of_le_of_lt hsize config.limits.maxFrameBytes.toNat_lt
      rw [if_pos hsends, List.flatMap_singleton, hencoded] at hwire
      dsimp only at hwire
      rw [← hreply] at hwire
      exact ⟨Frame.eq_of_bytes hresponse hfits hwire, hfits⟩

/-- What a connected client returns for an evaluation agrees with what the coordinator
produced exactly when no checked dependency moved in between. -/
theorem evaluate_agrees_iff {config : ServerConfig} {client : WorkerClient}
    {setId : ConstraintSetId} {candidates : List CandidatePath} {state : ServerState}
    {surroundings : Surroundings} {handled : Handled} {arrivals : List (List UInt8)}
    {returned : CommitOutcome}
    (hexchange : Exchange config client setId candidates state surroundings handled arrivals)
    (hreturned : client.evaluate setId candidates arrivals = .ok returned) :
    let header := (client.request .evaluateCandidates
      (WorkerClient.evaluatePayload setId candidates)).header
    let context := contextFor state.system.impl state.session header
    ∃ outcome,
      state.system.evaluate context setId candidates {} surroundings =
        some (handled.state.system, .ok outcome) ∧
      ((returned.committed = outcome.committed ∧ returned.batch = outcome.batch) ↔
        Steady state.system context setId candidates {} surroundings) := by
  intro header context
  obtain ⟨bytes, received, hsent, hreceived, hhandled⟩ := hexchange.received
  obtain ⟨hsize, -, hbytes⟩ := encodeFrame_eq_ok.mp hsent
  obtain ⟨hframe, hwell⟩ := decodeFrame_eq_ok.mp hreceived
  have hfits : (WorkerClient.evaluatePayload setId candidates).length < 2 ^ 32 :=
    Nat.lt_of_le_of_lt hsize client.limits.maxFrameBytes.toNat_lt
  have hsame : received = (client.request .evaluateCandidates
      (WorkerClient.evaluatePayload setId candidates)).normalized := by
    have hwhole : received.bytes ++ [] = (client.request .evaluateCandidates
        (WorkerClient.evaluatePayload setId candidates)).normalized.bytes := by
      rw [List.append_nil, ← hframe, hbytes]
    exact Frame.eq_of_bytes hwell hfits hwhole
  subst hsame
  obtain ⟨response, rest, left, hresponse, hmessage, hrest, hbatch, houtcome⟩ :=
    WorkerClient.evaluate_eq_ok hreturned
  rcases handleFrame_evaluate rfl hhandled with ⟨reply, hanswers, herror⟩ |
    ⟨request, system, outcome, reply, hrequest, hevaluate, hsystem, hanswers, hack, hpayload⟩
  · obtain ⟨rfl, -⟩ := eq_normalized_of_wire hanswers hresponse hrest hexchange.arrived
    exact absurd herror hmessage
  · obtain ⟨rfl, hreply⟩ := eq_normalized_of_wire hanswers hresponse hrest hexchange.arrived
    obtain ⟨-, rfl⟩ := (decodeEvaluateRequest_toEnd hfits).mp hrequest
    subst hsystem
    refine ⟨outcome, hevaluate, ?_⟩
    have hencoded : reply.payload = encodeEvaluationBatch outcome.batch := hpayload
    rw [hencoded] at hreply
    have hdecoded : decodeEvaluationBatch client.limits
        (encodeEvaluationBatch outcome.batch ++ []) = some (returned.batch, left) := by
      rw [List.append_nil, ← hencoded]
      exact hbatch
    obtain ⟨-, hread⟩ := (decodeEvaluationBatch_iff hreply [] _).mp hdecoded
    have hcarried : returned.batch = outcome.batch.received := (congrArg Prod.fst hread).symm
    have hcommitted : returned.committed = true := congrArg CommitOutcome.committed houtcome
    refine Iff.trans ?_ (evaluate_steady_iff hevaluate)
    rw [hcommitted, hcarried, EvaluationBatch.received_eq_iff, eq_comm (a := true)]

namespace WorkerClient

/-- A whole answer that arrives in one read is the response. -/
theorem await_whole {client : WorkerClient} {request response : Frame}
    (hwell : response.WellFormed client.limits)
    (hfits : response.bytes.length ≤ client.limits.maxFrameAssemblyBytes.toNat)
    (hrequest : response.header.request = request.header.request)
    (hmessage : response.header.message ≠ .errorReport) :
    client.await request [response.bytes] { limits := client.limits } = .ok response := by
  have hpresent : response.bytes.isEmpty = false :=
    List.isEmpty_eq_false_iff.mpr response.bytes_ne_nil
  have haccept : client.accept request response = .ok response := by
    unfold accept
    rw [hrequest, if_neg (by simp), if_neg hmessage]
  have hempty : FrameAssembler.pop { limits := client.limits, buffer := [] } =
      ({ limits := client.limits, buffer := [] }, .ok none) := rfl
  have hpush := @FrameAssembler.push_of_le client.limits [] response.bytes (by simpa using hfits)
  have hpop := FrameAssembler.pop_whole hwell []
  rw [List.append_nil] at hpop
  unfold await take
  rw [hempty]
  dsimp only
  rw [hpresent, if_neg Bool.false_ne_true, hpush]
  dsimp only [List.nil_append]
  unfold await take
  rw [hpop]
  exact haccept

/-- A whole answer with a batch that can be read is what the client returns. -/
theorem evaluate_whole {client : WorkerClient} {setId : ConstraintSetId}
    {candidates : List CandidatePath} {response : Frame} {batch : EvaluationBatch}
    {bytes left : List UInt8} (hsession : client.session.isValid = true)
    (hsent : encodeFrame (client.request .evaluateCandidates
      (evaluatePayload setId candidates)) client.limits = .ok bytes)
    (hwell : response.WellFormed client.limits)
    (hfits : response.bytes.length ≤ client.limits.maxFrameAssemblyBytes.toNat)
    (hrequest : response.header.request = ⟨client.attemptCounter + 1⟩)
    (hmessage : response.header.message ≠ .errorReport)
    (hdecode : decodeEvaluationBatch client.limits response.payload = some (batch, left)) :
    client.evaluate setId candidates [response.bytes] = .ok { batch, committed := true } := by
  have hround : client.roundTrip .evaluateCandidates (evaluatePayload setId candidates)
      [response.bytes] = .ok response := by
    unfold roundTrip
    rw [hsession]
    exact seq_eq_ok.mpr ⟨rfl, bind_eq_ok.mpr
      ⟨bytes, hsent, await_whole hwell hfits hrequest hmessage⟩⟩
  have hread : decodeEvaluateResponse client.limits response.payload =
      some (({ batch } : EvaluateCandidatesAckPayload), left) := by
    unfold decodeEvaluateResponse
    exact Verified.Readers.Reader.bind_eq_some.mpr ⟨batch, left, hdecode, rfl⟩
  unfold evaluate
  refine bind_eq_ok.mpr ⟨response, hround, ?_⟩
  rw [hread]
  rfl

end WorkerClient

/-! ## A worker and another caller -/

/-- The sample worker after its handshake. -/
def sampleWorker : WorkerClient :=
  { publisher := ⟨1⟩, boot := ⟨4242⟩, session := ⟨1⟩, epoch := ⟨1⟩, grantedScopes := 127 }

/-- What the worker asks for. -/
private def asked : Frame :=
  sampleWorker.request .evaluateCandidates (WorkerClient.evaluatePayload ⟨5⟩ [samplePath 31])

/-- Another caller operates the coordinator in the session of the worker. -/
private def operated (operation : AuthorityContext → Operation) (attempt : UInt64) : Input :=
  sampleInput (.operate (operation { sampleContext attempt with session := ⟨1⟩ }))

/-- A handshake, after which a set is published and activated. -/
def sampleConnected : List Activity :=
  [sampleHandled (sampleHello ⟨1⟩ ⟨4242⟩ 1),
   .elsewhere (operated (.publishConstraintSet · (sampleSet 5)) 10),
   .elsewhere (operated (.applyLifecycle · ⟨5⟩ .activate) 11)]

/-- Path authority advances between the two sections of the evaluation. -/
def sampleOvertaken : Surroundings :=
  { call := sampleCall, finish := sampleCall
    between := [operated (.advanceFamily · .pathAuthority 10) 30] }

/-- The worker is acknowledged with a batch that it can read. -/
private def acknowledges (state : ServerState) : Bool :=
  (handleFrame {} state asked.normalized sampleOvertaken).any fun handled =>
    match handled.answers with
    | [reply] =>
        decide (reply.header.request = ⟨1⟩ ∧
          reply.header.message = .evaluateCandidatesAck ∧
          reply.header.epoch.value ≤ Generation.kMaxGeneration ∧
          reply.payload.length ≤ 1000) &&
          (decodeEvaluationBatch {} reply.payload).isSome
    | _ => false

private def uncommitted (state : ServerState) : Bool :=
  match state.system.evaluate (contextFor state.system.impl state.session asked.header) ⟨5⟩
    [samplePath 31] {} sampleOvertaken with
  | some (_, .ok outcome) => !outcome.committed
  | _ => false

private theorem sampleConnected_uncommitted :
    ((sampleServe sampleConfig sampleConnected).any fun run =>
      acknowledges run.2 && uncommitted run.2) = true := by
  decide +kernel

private theorem asked_sent :
    encodeFrame asked {} = .ok asked.normalized.bytes ∧
      decodeFrame asked.normalized.bytes {} = .ok asked.normalized := by
  have hsize : asked.payload.length ≤ ({} : Limits).maxFrameBytes.toNat := by
    decide +kernel
  have hmessage : asked.header.message ≠ .invalid := by decide
  have hepoch : asked.header.epoch.Storable := by
    show (1 : UInt64) ≤ Generation.kMaxGeneration
    decide
  exact ⟨encodeFrame_eq_ok.mpr ⟨hsize, hmessage, rfl⟩,
    decodeFrame_eq_ok.mpr ⟨rfl, Frame.wellFormed_normalized hsize hmessage hepoch⟩⟩

/-- A worker that is acknowledged returns an outcome. -/
private theorem exchange_of_acknowledges {state : ServerState} (h : acknowledges state = true) :
    ∃ handled arrivals batch,
      Exchange {} sampleWorker ⟨5⟩ [samplePath 31] state sampleOvertaken handled arrivals ∧
      sampleWorker.evaluate ⟨5⟩ [samplePath 31] arrivals =
        .ok { batch, committed := true } := by
  obtain ⟨handled, hhandled, hanswers⟩ := (Option.any_eq_true _ _).mp h
  split at hanswers
  · next reply hreply =>
      rw [Bool.and_eq_true, decide_eq_true_eq] at hanswers
      obtain ⟨⟨hrequest, hmessage, hepoch, hlength⟩, hread⟩ := hanswers
      obtain ⟨⟨batch, left⟩, hdecode⟩ := Option.isSome_iff_exists.mp hread
      obtain ⟨hsent, hreceived⟩ := asked_sent
      have hsize : reply.payload.length ≤ ({} : Limits).maxFrameBytes.toNat :=
        Nat.le_trans hlength (by decide)
      have hknown : reply.header.message ≠ .invalid := by
        rw [hmessage]
        decide
      have hwell := Frame.wellFormed_normalized hsize hknown hepoch
      have hencoded : encodeFrame reply {} = .ok reply.normalized.bytes :=
        encodeFrame_eq_ok.mpr ⟨hsize, hknown, rfl⟩
      have hwire : handled.wire {} = reply.normalized.bytes := by
        have hsends : ServerConfig.sends {} reply = true := by
          unfold ServerConfig.sends
          rw [hencoded]
          rfl
        unfold Handled.wire Handled.replies
        rw [hreply, List.filter_cons_of_pos hsends, List.filter_nil, List.flatMap_singleton,
          hencoded]
      refine ⟨handled, [reply.normalized.bytes], batch,
        ⟨⟨_, _, hsent, hreceived, hhandled⟩, ?_⟩, ?_⟩
      · rw [hwire, List.flatten_singleton]
      · refine WorkerClient.evaluate_whole rfl hsent hwell ?_ hrequest ?_ hdecode
        · rw [Frame.length_bytes]
          have hpayload : reply.normalized.payload.length ≤ 1000 := hlength
          have hheader : kHeaderBytes + 1000 ≤
              sampleWorker.limits.maxFrameAssemblyBytes.toNat := by decide
          omega
        · show reply.header.message ≠ .errorReport
          rw [hmessage]
          decide
  · cases hanswers

theorem evaluate_agrees_iff_sample :
    ∃ events state arrivals returned system outcome,
      sampleServe sampleConfig sampleConnected = some (events, state) ∧
      sampleWorker.evaluate ⟨5⟩ [samplePath 31] arrivals = .ok returned ∧
      state.system.evaluate (contextFor state.system.impl state.session
          (sampleWorker.request .evaluateCandidates
            (WorkerClient.evaluatePayload ⟨5⟩ [samplePath 31])).header)
        ⟨5⟩ [samplePath 31] {} sampleOvertaken = some (system, .ok outcome) ∧
      ((returned.committed = outcome.committed ∧ returned.batch = outcome.batch) ↔
        Steady state.system (contextFor state.system.impl state.session
            (sampleWorker.request .evaluateCandidates
              (WorkerClient.evaluatePayload ⟨5⟩ [samplePath 31])).header)
          ⟨5⟩ [samplePath 31] {} sampleOvertaken) := by
  obtain ⟨⟨events, state⟩, hrun, hcheck⟩ :=
    (Option.any_eq_true _ _).mp sampleConnected_uncommitted
  rw [Bool.and_eq_true] at hcheck
  obtain ⟨handled, arrivals, batch, hexchange, hreturned⟩ := exchange_of_acknowledges hcheck.1
  obtain ⟨outcome, hevaluate, hagrees⟩ := evaluate_agrees_iff hexchange hreturned
  exact ⟨events, state, arrivals, _, _, outcome, hrun, hreturned, hevaluate, hagrees⟩

/-- The client reports a commit of an evaluation that the coordinator did not commit. -/
theorem uncommitted_reported_as_committed :
    ∃ events state handled arrivals returned system outcome,
      sampleServe sampleConfig sampleConnected = some (events, state) ∧
      Exchange {} sampleWorker ⟨5⟩ [samplePath 31] state sampleOvertaken handled arrivals ∧
      sampleWorker.evaluate ⟨5⟩ [samplePath 31] arrivals = .ok returned ∧
      state.system.evaluate (contextFor state.system.impl state.session
          (sampleWorker.request .evaluateCandidates
            (WorkerClient.evaluatePayload ⟨5⟩ [samplePath 31])).header)
        ⟨5⟩ [samplePath 31] {} sampleOvertaken = some (system, .ok outcome) ∧
      returned.committed = true ∧ outcome.committed = false := by
  obtain ⟨⟨events, state⟩, hrun, hcheck⟩ :=
    (Option.any_eq_true _ _).mp sampleConnected_uncommitted
  rw [Bool.and_eq_true] at hcheck
  obtain ⟨hacknowledges, huncommitted⟩ := hcheck
  obtain ⟨handled, arrivals, batch, hexchange, hreturned⟩ :=
    exchange_of_acknowledges hacknowledges
  unfold uncommitted at huncommitted
  split at huncommitted
  · next system outcome hevaluate =>
      rw [Bool.not_eq_true'] at huncommitted
      exact ⟨events, state, handled, arrivals, _, system, outcome, hrun, hexchange, hreturned,
        hevaluate, rfl, huncommitted⟩
  · cases huncommitted

end ConstraintRouting.Fabric
