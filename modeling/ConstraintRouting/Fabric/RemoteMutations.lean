import ConstraintRouting.Fabric.Exchanges
import ConstraintRouting.Fabric.LifecycleResults
import ConstraintRouting.Fabric.RecordDigests

/-!
# Mutations over the wire

A publication or a lifecycle event of a connected client is acknowledged with the identity,
the generation and the digest of the definition that the coordinator stores by then.
-/

namespace ConstraintRouting.Fabric

open ByteWriter ByteReader
open Verified.Checks (bind_eq_ok)
open Verified.Readers.Reader (accept_bind pure_eq_some)

/-! ## Mutations -/

section Mutations

variable {impl after : Impl} {context : AuthorityContext} {call : Call}

/-- A staged write that ends well publishes what it wrote. -/
theorem settle_write_eq_ok {α : Type} {next : PersistentState} {value a : α}
    (h : (Staged.write impl next true value).settle call = (after, .ok a)) :
    a = value ∧ after.sets = next.sets := by
  unfold Staged.settle at h
  dsimp only at h
  split at h
  · cases h
  · cases h
    exact ⟨rfl, rfl⟩

/-- An acknowledged publication is what the coordinator stores. -/
theorem findSet_of_publish {set stored : ConstraintSet}
    (h : (publishConstraintSet impl context set call).settle call = (after, .ok stored)) :
    findSet after.sets set.id = some stored := by
  unfold publishConstraintSet at h
  split at h
  · cases h
  · split at h
    · cases h
    · next hfound =>
        cases h
        exact hfound
  · split at h
    · cases h
    · next hfinalized =>
        split at h
        · cases h
        · next sets published hstored =>
            obtain ⟨rfl, hsets⟩ := settle_write_eq_ok h
            rw [hsets]
            have hid := id_of_publishInto hfinalized hstored
            have hfound : findSet sets published.id = some published := by
              rcases publishInto_cases hstored with ⟨hmissing, rfl, rfl⟩ |
                ⟨existing, hfound, hrepublished, rfl⟩
              · unfold findSet at hmissing ⊢
                rw [List.find?_append, hmissing, Option.none_or]
                exact List.find?_cons_of_pos (beq_self_eq_true _)
              · have hsame := republish_id hrepublished
                rw [← hsame] at hfound ⊢
                exact findSet_replaceFirst_self rfl hfound
            rw [← hid, hfound]
            rfl

/-- An acknowledged event is what the coordinator stores. -/
theorem findSet_of_lifecycle {setId : ConstraintSetId} {event : LifecycleEvent}
    {stored : ConstraintSet}
    (h : (applyLifecycle impl context setId event call).settle call = (after, .ok stored)) :
    findSet after.sets setId = some stored := by
  unfold applyLifecycle at h
  dsimp only at h
  split at h
  · cases h
  · split at h
    · cases h
    · next hfound =>
        cases h
        exact hfound
  · split at h
    · cases h
    · next target hfound =>
        unfold transition at h
        dsimp only at h
        split at h
        · cases h
        · next state happly =>
            obtain ⟨rfl, hsets⟩ := settle_write_eq_ok h
            have hmoved := @findSet_moved _ _ _ state hfound
            obtain rfl := id_of_findSet hfound
            rw [hsets, hmoved]
            rfl

end Mutations

/-! ## Mutations over the wire -/

theorem LifecycleEvent.read_bind {γ : Type} (event : LifecycleEvent)
    (next : LifecycleEvent → Reader γ) (rest : List UInt8) :
    (LifecycleEvent.read >>= next) (putU8 event.code ++ rest) = next event rest :=
  enum8_bind (by cases event <;> rfl) rest next

theorem decodeLifecycleRequest_reads {request : LifecycleRequestPayload}
    {out : LifecycleRequestPayload × List UInt8} :
    decodeLifecycleRequest (encodeLifecycleRequest request ++ []) = some out ↔
      request.setId.isValid = true ∧ (request, []) = out := by
  unfold decodeLifecycleRequest encodeLifecycleRequest
  simp only [List.append_assoc, id_bind, LifecycleEvent.read_bind, padding8_bind,
    padding16_bind, padding32_bind, accept_bind, pure_eq_some]

theorem decodePublishAck_reads {set : ConstraintSet}
    {out : PublishConstraintSetAckPayload × List UInt8} :
    decodePublishAck (publishAck set ++ []) = some out ↔
      (set.id.isValid = true ∧ Generation.isRepresentable set.generation.value = true) ∧
        (⟨set.id, set.generation, set.digest⟩, []) = out := by
  unfold decodePublishAck publishAck encodePublishAck
  simp only [List.append_assoc, id_bind, generation_bind, digest_bind, accept_bind,
    pure_eq_some, Bool.and_eq_true]

section Acknowledged

variable {config : ServerConfig} {client : WorkerClient} {message answer : MessageId}
  {payload : List UInt8} {state after : ServerState} {surroundings : Surroundings}
  {handled : Handled} {arrivals : List (List UInt8)} {reason : ReasonCode}
  {result : Result ConstraintSet} {published : ConstraintSet}

theorem WorkerClient.publishConstraintSet_eq_ok {set : ConstraintSet} :
    client.publishConstraintSet set arrivals = .ok published ↔
      ∃ response out, client.roundTrip .publishConstraintSet (encodeConstraintSet set) arrivals =
          .ok response ∧ decodePublishAck response.payload = some out ∧
        { set with id := out.1.setId, generation := out.1.generation, digest := out.1.digest } =
          published := by
  unfold publishConstraintSet
  rw [bind_eq_ok]
  refine exists_congr fun response => ?_
  cases decodePublishAck response.payload with
  | none => simp [failure]
  | some out => simp [pure, Except.pure]

theorem WorkerClient.applyLifecycle_eq_ok {setId : ConstraintSetId} {event : LifecycleEvent} :
    client.applyLifecycle setId event arrivals = .ok published ↔
      ∃ response out,
        client.roundTrip .applyLifecycle (encodeLifecycleRequest { setId, event }) arrivals =
          .ok response ∧ decodePublishAck response.payload = some out ∧
        ({ id := out.1.setId, generation := out.1.generation, digest := out.1.digest } :
          ConstraintSet) = published := by
  unfold applyLifecycle
  rw [bind_eq_ok]
  refine exists_congr fun response => ?_
  cases decodePublishAck response.payload with
  | none => simp [failure]
  | some out => simp [pure, Except.pure]

/-- A call that is answered with a definition returns the acknowledgment of it, when the
operation went well and the answer arrives. -/
theorem RemoteCall.acknowledged_iff
    (shown : PublishConstraintSetAckPayload → ConstraintSet)
    (h : RemoteCall config client message payload state surroundings handled arrivals)
    (hhandled : handled = after.respond config
      (client.request message payload).normalized.header reason answer publishAck result)
    (hknown : answer ≠ .invalid) (hreport : answer ≠ .errorReport) :
    (∃ response out, client.roundTrip message payload arrivals = .ok response ∧
        decodePublishAck response.payload = some out ∧ shown out.1 = published) ↔
      handled.Arrives config client.limits ∧ ∃ stored, result = .ok stored ∧
        stored.id.isValid = true ∧
        Generation.isRepresentable stored.generation.value = true ∧
        shown ⟨stored.id, stored.generation, stored.digest⟩ = published := by
  cases result with
  | error error =>
      have hanswers : handled.Answers client (sendError config after.system.impl after.session
          (client.request message payload).normalized.header error.code reason
          error.detail) := by
        rw [hhandled]
        exact ⟨rfl, rfl, (fun hinvalid => nomatch hinvalid)⟩
      refine iff_of_false (fun hreturned => ?_) (fun hall => ?_)
      · obtain ⟨response, out, hround, -⟩ := hreturned
        exact ((h.roundTrip_eq_ok hanswers).mp hround).2.1 rfl
      · obtain ⟨-, stored, hstored, -⟩ := hall
        cases hstored
  | ok stored =>
      have hanswers : handled.Answers client (sendFrame after.system.impl answer after.session
          (client.request message payload).normalized.header (publishAck stored)) := by
        rw [hhandled]
        exact ⟨rfl, rfl, hknown⟩
      have hreads := fun out => @decodePublishAck_reads stored out
      rw [List.append_nil] at hreads
      constructor
      · intro hreturned
        obtain ⟨response, out, hround, hread, hshown⟩ := hreturned
        obtain ⟨harrives, -, rfl⟩ := (h.roundTrip_eq_ok hanswers).mp hround
        obtain ⟨⟨hid, hgeneration⟩, hout⟩ := (hreads out).mp hread
        cases hout
        exact ⟨harrives, stored, rfl, hid, hgeneration, hshown⟩
      · intro hall
        obtain ⟨harrives, own, hown, hid, hgeneration, hshown⟩ := hall
        cases hown
        exact ⟨_, _, (h.roundTrip_eq_ok hanswers).mpr ⟨harrives, hreport, rfl⟩,
          (hreads _).mpr ⟨⟨hid, hgeneration⟩, rfl⟩, hshown⟩

end Acknowledged

section Mutated

variable {config : ServerConfig} {client : WorkerClient} {message : MessageId}
  {payload : List UInt8} {state : ServerState} {surroundings : Surroundings}
  {handled : Handled} {arrivals : List (List UInt8)}

theorem Paired.handleFrame_mutation (h : Paired client state.session)
    (surroundings : Surroundings) (payload : List UInt8) :
    handleFrame config state (client.request .publishConstraintSet payload).normalized
        surroundings =
      some (handlePublish config state
        (client.request .publishConstraintSet payload).normalized surroundings) ∧
    handleFrame config state (client.request .applyLifecycle payload).normalized
        surroundings =
      some (handleLifecycle config state
        (client.request .applyLifecycle payload).normalized surroundings) := by
  refine ⟨?_, ?_⟩
  all_goals
    unfold handleFrame
    dsimp only
    rw [if_neg (by intro hhello; cases hhello), h.registered, h.identityMatches]
    rfl

/-- The authority of a request does not depend on the length that is sent with it. -/
theorem contextFor_normalized (impl : Impl) (held : SessionState) (frame : Frame) :
    contextFor impl held frame.normalized.header = contextFor impl held frame.header := rfl

/-- A call that is refused returns nothing. -/
theorem RemoteCall.refused {code : ErrorCode} {reason : ReasonCode} {detail : String}
    {proceed : Bool} {response : Frame}
    (h : RemoteCall config client message payload state surroundings handled arrivals)
    (hhandled : handled = state.refuse config
      (client.request message payload).normalized.header code reason detail proceed) :
    client.roundTrip message payload arrivals ≠ .ok response := by
  have hanswers : handled.Answers client (sendError config state.system.impl state.session
      (client.request message payload).normalized.header code reason detail) := by
    rw [hhandled]
    exact ⟨rfl, rfl, (fun hinvalid => nomatch hinvalid)⟩
  intro hround
  exact ((h.roundTrip_eq_ok hanswers).mp hround).2.1 rfl

/-- A mutation that settles with a definition settles with the one that is stored. -/
theorem settled_iff {last : Impl} {settled : Impl × Result ConstraintSet}
    {setId : ConstraintSetId} (shown : ConstraintSetId → ConstraintSet → Prop)
    (hstate : settled.1 = last) (hvalid : setId.isValid = true)
    (hfound : ∀ impl stored, settled = (impl, .ok stored) →
      findSet impl.sets setId = some stored) :
    (∃ stored, settled.2 = .ok stored ∧ stored.id.isValid = true ∧
        Generation.isRepresentable stored.generation.value = true ∧ shown stored.id stored) ↔
      ∃ stored, settled = (last, .ok stored) ∧ findSet last.sets setId = some stored ∧
        Generation.isRepresentable stored.generation.value = true ∧ shown setId stored := by
  constructor
  · intro hall
    obtain ⟨stored, hstored, -, hgeneration, hshown⟩ := hall
    have hsettled : settled = (last, .ok stored) := Prod.ext hstate hstored
    have hset := hfound _ _ hsettled
    rw [id_of_findSet hset] at hshown
    exact ⟨stored, hsettled, hset, hgeneration, hshown⟩
  · intro hall
    obtain ⟨stored, hsettled, hset, hgeneration, hshown⟩ := hall
    have hid := id_of_findSet hset
    refine ⟨stored, congrArg Prod.snd hsettled, ?_, hgeneration, ?_⟩
    · rw [hid]
      exact hvalid
    · rw [hid]
      exact hshown

/-- A publication over the wire returns the definition that the coordinator stores by then. -/
theorem RemoteCall.publish_eq_ok {set published : ConstraintSet}
    (h : RemoteCall config client .publishConstraintSet (encodeConstraintSet set) state
      surroundings handled arrivals) :
    client.publishConstraintSet set arrivals = .ok published ↔
      handled.Arrives config client.limits ∧
      (set.Storable config.limits ∧
        verifyCanonicalConstraintSet set config.limits = .ok ()) ∧
      ∃ stored,
        (publishConstraintSet state.system.impl
          (contextFor state.system.impl state.session
            (client.request .publishConstraintSet (encodeConstraintSet set)).header)
          set surroundings.call).settle surroundings.call =
            (handled.state.system.impl, .ok stored) ∧
        findSet handled.state.system.impl.sets set.id = some stored ∧
        Generation.isRepresentable stored.generation.value = true ∧
        { set with generation := stored.generation, digest := stored.digest } =
          published := by
  rw [WorkerClient.publishConstraintSet_eq_ok]
  obtain ⟨hserved, hsize⟩ := h.handles
  rw [(h.paired.handleFrame_mutation surroundings _).1] at hserved
  have hhandled := (Option.some.inj hserved).symm
  have hpayload : (client.request .publishConstraintSet
      (encodeConstraintSet set)).normalized.payload = encodeConstraintSet set := rfl
  have hdecode := fun other => @Verified.Readers.Reader.toEnd_eq_some _ _ _ _ set other _
    (fun out => decodeConstraintSet_reads config.limits set [] out hsize)
  rw [List.append_nil] at hdecode
  unfold handlePublish at hhandled
  dsimp only at hhandled
  rw [hpayload, contextFor_normalized] at hhandled
  split at hhandled
  · next hnone =>
      refine iff_of_false (fun hreturned => ?_) (fun hall => ?_)
      · obtain ⟨response, out, hround, -⟩ := hreturned
        exact h.refused hhandled hround
      · have hread := (hdecode set).mpr ⟨hall.2.1, rfl⟩
        rw [hnone] at hread
        cases hread
  · next other hother =>
      obtain ⟨hcanonical, rfl⟩ := (hdecode other).mp hother
      have hfound := fun after stored => @findSet_of_publish state.system.impl after
        (contextFor state.system.impl state.session
          (client.request .publishConstraintSet (encodeConstraintSet set)).header)
        surroundings.call set stored
      generalize (publishConstraintSet state.system.impl _ set
        surroundings.call).settle surroundings.call = settled at hhandled hfound ⊢
      have hstate := congrArg (fun handled => handled.state.system.impl) hhandled
      rw [ServerState.respond_state] at hstate
      refine (h.acknowledged_iff (fun ack => { set with
        id := ack.setId, generation := ack.generation, digest := ack.digest }) hhandled
        (by decide) (by decide)).trans (and_congr_right fun _ => ?_)
      rw [and_iff_right hcanonical]
      have hvalid : set.id.isValid = true :=
        (verifyCanonicalConstraintSet_eq_ok_iff.mp hcanonical.2).1.id
      exact settled_iff (fun id stored =>
        { set with id, generation := stored.generation, digest := stored.digest } = published)
        hstate.symm hvalid hfound

/-- An event over the wire returns what the coordinator stores by then. -/
theorem RemoteCall.lifecycle_eq_ok {setId : ConstraintSetId} {event : LifecycleEvent}
    {published : ConstraintSet}
    (h : RemoteCall config client .applyLifecycle (encodeLifecycleRequest { setId, event })
      state surroundings handled arrivals) :
    client.applyLifecycle setId event arrivals = .ok published ↔
      handled.Arrives config client.limits ∧ setId.isValid = true ∧
      ∃ stored,
        (applyLifecycle state.system.impl
          (contextFor state.system.impl state.session
            (client.request .applyLifecycle (encodeLifecycleRequest { setId, event })).header)
          setId event surroundings.call).settle surroundings.call =
            (handled.state.system.impl, .ok stored) ∧
        findSet handled.state.system.impl.sets setId = some stored ∧
        Generation.isRepresentable stored.generation.value = true ∧
        ({ id := setId, generation := stored.generation, digest := stored.digest } :
          ConstraintSet) = published := by
  rw [WorkerClient.applyLifecycle_eq_ok]
  obtain ⟨hserved, -⟩ := h.handles
  rw [(h.paired.handleFrame_mutation surroundings _).2] at hserved
  have hhandled := (Option.some.inj hserved).symm
  have hpayload : (client.request .applyLifecycle
      (encodeLifecycleRequest { setId, event })).normalized.payload =
        encodeLifecycleRequest { setId, event } := rfl
  have hdecode := fun other => @Verified.Readers.Reader.toEnd_eq_some _ _ _ _
    ({ setId, event } : LifecycleRequestPayload) other _
    (fun out => @decodeLifecycleRequest_reads { setId, event } out)
  rw [List.append_nil] at hdecode
  unfold handleLifecycle at hhandled
  dsimp only at hhandled
  rw [hpayload, contextFor_normalized] at hhandled
  split at hhandled
  · next hnone =>
      refine iff_of_false (fun hreturned => ?_) (fun hall => ?_)
      · obtain ⟨response, out, hround, -⟩ := hreturned
        exact h.refused hhandled hround
      · have hread := (hdecode { setId, event }).mpr ⟨hall.2.1, rfl⟩
        rw [hnone] at hread
        cases hread
  · next other hother =>
      obtain ⟨hvalid, rfl⟩ := (hdecode other).mp hother
      have hfound := fun after stored => @findSet_of_lifecycle state.system.impl after
        (contextFor state.system.impl state.session
          (client.request .applyLifecycle (encodeLifecycleRequest { setId, event })).header)
        surroundings.call setId event stored
      generalize (applyLifecycle state.system.impl _ setId event
        surroundings.call).settle surroundings.call = settled at hhandled hfound ⊢
      have hstate := congrArg (fun handled => handled.state.system.impl) hhandled
      rw [ServerState.respond_state] at hstate
      refine (h.acknowledged_iff (fun ack =>
        { id := ack.setId, generation := ack.generation, digest := ack.digest }) hhandled
        (by decide) (by decide)).trans (and_congr_right fun _ => ?_)
      rw [and_iff_right hvalid]
      exact settled_iff (fun id stored =>
        { id, generation := stored.generation, digest := stored.digest } = published)
        hstate.symm hvalid hfound

/-- What a mutation over the wire returns is the identity, the generation and the digest of
the definition that the coordinator stores by then.  It returns nothing where the payload is
refused, the coordinator's own operation fails, or the answer does not arrive. -/
theorem mutations_faithful (config : ServerConfig) (client : WorkerClient)
    (state : ServerState) (surroundings : Surroundings) (handled : Handled)
    (arrivals : List (List UInt8)) (published : ConstraintSet) :
    (∀ set, RemoteCall config client .publishConstraintSet (encodeConstraintSet set) state
        surroundings handled arrivals →
      (client.publishConstraintSet set arrivals = .ok published ↔
        handled.Arrives config client.limits ∧
        (set.Storable config.limits ∧
          verifyCanonicalConstraintSet set config.limits = .ok ()) ∧
        ∃ stored,
          (publishConstraintSet state.system.impl
            (contextFor state.system.impl state.session
              (client.request .publishConstraintSet (encodeConstraintSet set)).header)
            set surroundings.call).settle surroundings.call =
              (handled.state.system.impl, .ok stored) ∧
          findSet handled.state.system.impl.sets set.id = some stored ∧
          Generation.isRepresentable stored.generation.value = true ∧
          { set with generation := stored.generation, digest := stored.digest } =
            published)) ∧
    (∀ setId event, RemoteCall config client .applyLifecycle
        (encodeLifecycleRequest { setId, event }) state surroundings handled arrivals →
      (client.applyLifecycle setId event arrivals = .ok published ↔
        handled.Arrives config client.limits ∧ setId.isValid = true ∧
        ∃ stored,
          (applyLifecycle state.system.impl
            (contextFor state.system.impl state.session
              (client.request .applyLifecycle (encodeLifecycleRequest { setId, event })).header)
            setId event surroundings.call).settle surroundings.call =
              (handled.state.system.impl, .ok stored) ∧
          findSet handled.state.system.impl.sets setId = some stored ∧
          Generation.isRepresentable stored.generation.value = true ∧
          ({ id := setId, generation := stored.generation, digest := stored.digest } :
            ConstraintSet) = published)) :=
  ⟨fun _ h => h.publish_eq_ok, fun _ _ h => h.lifecycle_eq_ok⟩

end Mutated

/-- The sample worker suspends a set that another caller published. -/
theorem mutations_faithful_sample :
    ∃ events state, sampleServe sampleConfig sampleConnected = some (events, state) ∧
      ∃ handled : Handled, ∃ arrivals, ∀ published,
        (sampleWorker.applyLifecycle ⟨5⟩ .suspend arrivals = .ok published ↔
          handled.Arrives {} sampleWorker.limits ∧ (⟨5⟩ : ConstraintSetId).isValid = true ∧
          ∃ stored,
            (applyLifecycle state.system.impl
              (contextFor state.system.impl state.session
                (sampleWorker.request .applyLifecycle
                  (encodeLifecycleRequest { setId := ⟨5⟩, event := .suspend })).header)
              ⟨5⟩ .suspend sampleAround.call).settle sampleAround.call =
                (handled.state.system.impl, .ok stored) ∧
            findSet handled.state.system.impl.sets ⟨5⟩ = some stored ∧
            Generation.isRepresentable stored.generation.value = true ∧
            ({ id := ⟨5⟩, generation := stored.generation, digest := stored.digest } :
              ConstraintSet) = published) := by
  obtain ⟨events, state, hrun, hsession⟩ := sampleConnected_paired
  have hpaired : Paired sampleWorker state.session := hsession ▸ sampleWorker_paired
  have hepoch : sampleWorker.epoch.Storable := by
    show (1 : UInt64) ≤ Generation.kMaxGeneration
    decide
  have hsize : (encodeLifecycleRequest { setId := ⟨5⟩, event := .suspend }).length ≤
      ({} : Limits).maxFrameBytes.toNat := by
    decide
  obtain ⟨arrivals, hcall⟩ := remoteCall_of_handled rfl hpaired (by decide) (by decide) hepoch
    hsize hsize (@Paired.handleFrame_mutation {} sampleWorker state hpaired sampleAround _).2
  exact ⟨events, state, hrun, _, arrivals, fun published =>
    (mutations_faithful {} _ _ _ _ _ published).2 _ _ hcall⟩

end ConstraintRouting.Fabric
