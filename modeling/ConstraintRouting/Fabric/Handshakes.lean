import ConstraintRouting.Fabric.Exchanges

/-!
# Sessions over the wire

A handshake gives a worker exactly the session that the server registered for it.  From then
on the two hold the same session, whatever other callers do, and every call of the worker
returns the one answer that the server gives to it.
-/

namespace ConstraintRouting.Fabric

open ByteWriter ByteReader
open Verified.Checks (seq_eq_ok bind_eq_ok failIf_eq_ok)
open Verified.Readers.Reader (accept_bind bind_eq pure_eq_some toEnd_eq_some)
open Verified.StepMachine

/-! ## Payloads of a handshake -/

theorem decodeHello_reads {limits : Limits} {payload : HelloPayload}
    {out : HelloPayload × List UInt8} (hsize : (encodeHello payload).length < 2 ^ 32) :
    decodeHello limits (encodeHello payload ++ []) = some out ↔
      payload.Storable limits ∧ (payload, []) = out := by
  unfold encodeHello at hsize
  simp only [List.length_append] at hsize
  have hname : payload.clientName.length < 2 ^ 32 := by
    have hstring : (putString payload.clientName).length < 2 ^ 32 := by omega
    rw [putString, List.length_append] at hstring
    exact Nat.lt_of_le_of_lt (Nat.le_add_left _ _) hstring
  unfold decodeHello encodeHello
  simp (disch := omega) only [List.append_assoc, id_bind, u32_bind, string_bind, accept_bind,
    pure_eq_some, listWithin_eq_true, Bool.and_eq_true, and_assoc]
  constructor
  · intro h
    obtain ⟨hpublisher, hboot, hname, hout⟩ := h
    exact ⟨⟨hpublisher, hboot, hname⟩, hout⟩
  · intro h
    obtain ⟨hstorable, hout⟩ := h
    exact ⟨hstorable.publisher, hstorable.workerBoot, hstorable.clientName, hout⟩

theorem decodeHelloAck_reads {payload : HelloAckPayload} {out : HelloAckPayload × List UInt8} :
    decodeHelloAck (encodeHelloAck payload ++ []) = some out ↔
      payload.epoch.Storable ∧ (payload, []) = out := by
  have hu16 : ∀ rest (next : UInt16 → Reader HelloAckPayload),
      (u16 >>= next) (putU16 payload.protocolVersion ++ rest) =
        next payload.protocolVersion rest :=
    fun rest next => bind_eq (u16_putU16 _ rest) next
  unfold decodeHelloAck encodeHelloAck
  simp only [List.append_assoc, id_bind, u32_bind, generationField_bind, hu16, boolean_bind,
    padding8_bind, pure_eq_some]
  rfl

/-! ## The frames of a handshake -/

/-- A frame at the front of bytes that start with an encoded frame is that frame. -/
theorem Frame.eq_of_bytes_append {limits : Limits} {frame response : Frame}
    {rest more : List UInt8} (hresponse : response.WellFormed limits)
    (hsize : frame.payload.length < 2 ^ 32)
    (h : response.bytes ++ rest = frame.normalized.bytes ++ more) :
    response = frame.normalized := by
  have hlength : response.payload.length = frame.normalized.payload.length := by
    have hcode := h
    unfold Frame.bytes at hcode
    simp only [List.append_assoc] at hcode
    have hheader := (encodeFrameHeader_prefixCode hcode).1
    rw [← hresponse.length, hheader]
    show (UInt32.ofNat frame.payload.length).toNat = frame.payload.length
    rw [UInt32.toNat_ofNat', Nat.mod_eq_of_lt hsize]
  have hbytes := (List.append_inj h (by rw [Frame.length_bytes, Frame.length_bytes, hlength])).1
  have hwhole : response.bytes ++ [] = frame.normalized.bytes := by
    rw [List.append_nil, hbytes]
  exact Frame.eq_of_bytes hresponse hsize hwhole

/-- The frame that a peer finds first is one of those that the server answered with. -/
theorem mem_answers_of_wire {config : ServerConfig} {limits : Limits} {handled : Handled}
    {response : Frame} {rest : List UInt8} (hresponse : response.WellFormed limits)
    (hbytes : response.bytes ++ rest = handled.wire config) :
    ∃ reply ∈ handled.answers, reply.payload.length ≤ config.limits.maxFrameBytes.toNat ∧
      response = reply.normalized := by
  unfold Handled.wire at hbytes
  cases hreplies : handled.replies config with
  | nil =>
      rw [hreplies, List.flatMap_nil] at hbytes
      exact absurd (List.append_eq_nil_iff.mp hbytes).1 response.bytes_ne_nil
  | cons reply replies =>
      have hmem : reply ∈ handled.replies config := by
        rw [hreplies]
        exact List.mem_cons_self
      obtain ⟨hanswer, hsends⟩ := List.mem_filter.mp hmem
      unfold ServerConfig.sends at hsends
      rw [hreplies, List.flatMap_cons] at hbytes
      cases hencoded : encodeFrame reply config.limits with
      | error error =>
          rw [hencoded] at hsends
          cases hsends
      | ok bytes =>
          rw [hencoded] at hbytes
          obtain ⟨hsize, -, hreply⟩ := encodeFrame_eq_ok.mp hencoded
          have hfits : reply.payload.length < 2 ^ 32 :=
            Nat.lt_of_le_of_lt hsize config.limits.maxFrameBytes.toNat_lt
          dsimp only at hbytes
          rw [← hreply] at hbytes
          exact ⟨reply, hanswer, hsize, Frame.eq_of_bytes_append hresponse hfits hbytes⟩

/-! ## How the server greets -/

/-- What a handshake leaves, with the frames that answer it. -/
inductive Greeted (state : ServerState) (id : SessionId) (hello : HelloPayload)
    (handled : Handled) : Prop
  | malformed {reply : Frame} :
      handled.answers = [reply] → reply.header.message = .errorReport →
      handled.state.session = state.session → Greeted state id hello handled
  | refused {acknowledged reply : Frame} {ack : HelloAckPayload} :
      handled.answers = [acknowledged, reply] → acknowledged.payload = encodeHelloAck ack →
      ack.accepted = false → reply.header.message = .errorReport →
      handled.state.session = state.session → Greeted state id hello handled
  | registered {reply : Frame} {scopes : AuthorityScopeMask} :
      handled.answers = [reply] → reply.header.message = .helloAck →
      reply.header.epoch = handled.state.system.impl.authority.epoch →
      reply.payload = encodeHelloAck
        { epoch := handled.state.system.impl.authority.epoch, session := id
          grantedScopes := scopes, accepted := true } →
      id.isValid = true →
      handled.state.session =
        { session := id, publisher := hello.publisher, boot := hello.workerBoot, scopes,
          registered := true } →
      Greeted state id hello handled

section Greetings

variable {config : ServerConfig} {state : ServerState} {frame : Frame}
  {surroundings : Surroundings} {handled : Handled} {hello : HelloPayload}

/-- A registration that was granted is for a session that is set. -/
theorem session_of_registered {impl : Impl} {context : AuthorityContext}
    {publisher : PublisherId} {boot : WorkerBootId} {scopes : AuthorityScopeMask}
    {session : SessionId} {call : Call} {granted : PublisherRegistration}
    (h : ((registerPublisher impl context publisher boot scopes session call).settle call).2 =
      .ok granted) :
    session.isValid = true := by
  unfold registerPublisher at h
  split at h
  · cases h
  · split at h
    · cases h
    · dsimp only at h
      split at h
      · cases h
      · split at h
        · cases h
        · next hregistered =>
            unfold AuthorityRegistry.registerPublisher at hregistered
            split at hregistered
            · cases hregistered
            · next hadmitted =>
                unfold AuthorityRegistry.admitRegistration at hadmitted
                simp only [seq_eq_ok, failIf_eq_ok, Bool.not_eq_false'] at hadmitted
                exact hadmitted.2.2.1

theorem handleHello_greeted
    (hdecode : ∀ other, (decodeHello config.limits).toEnd frame.payload = some other →
      other = hello) :
    Greeted state (state.numbered surroundings) hello
      (handleHello config state frame surroundings) := by
  unfold handleHello
  dsimp only
  split
  · exact .malformed rfl rfl rfl
  · next other hother =>
      obtain rfl := hdecode other hother
      split
      · exact .refused rfl rfl rfl rfl rfl
      · next granted hgranted =>
          exact .registered rfl rfl rfl rfl (session_of_registered hgranted) rfl

end Greetings

/-! ## The handshake of a worker -/

/-- The worker opens a connection: the server handles its hello, and the whole answer
arrives, cut in any pieces. -/
structure Greeting (server : ServerConfig) (config : WorkerConfig) (limits : Limits)
    (fresh : WorkerBootId) (state : ServerState) (surroundings : Surroundings)
    (handled : Handled) (arrivals : List (List UInt8)) : Prop where
  opened : state.session.registered = false
  received : ∃ bytes received,
    encodeFrame (config.hello (config.bootOr fresh)) limits = .ok bytes ∧
    decodeFrame bytes server.limits = .ok received ∧
    handleFrame server state received surroundings = some handled
  arrived : arrivals.flatten = handled.wire server
  pieces : ∀ chunk ∈ arrivals, chunk ≠ []

/-- The client of the session that the server holds. -/
def ServerState.client (state : ServerState) (limits : Limits) : WorkerClient :=
  { limits, publisher := state.session.publisher, boot := state.session.boot,
    session := state.session.session, epoch := state.system.impl.authority.epoch,
    grantedScopes := state.session.scopes }

section Connect

variable {server : ServerConfig} {config : WorkerConfig} {limits : Limits}
  {fresh : WorkerBootId} {state : ServerState} {surroundings : Surroundings}
  {handled : Handled} {arrivals : List (List UInt8)} {client : WorkerClient}

/-- The payload of the hello that a worker sends. -/
def WorkerConfig.payload (config : WorkerConfig) (boot : WorkerBootId) : HelloPayload :=
  { publisher := config.publisher, workerBoot := boot,
    requestedScopes := config.requestedScopes, clientName := config.clientName }

theorem Greeting.greeted (h : Greeting server config limits fresh state surroundings handled
    arrivals) :
    Greeted state (state.numbered surroundings) (config.payload (config.bootOr fresh))
      handled := by
  obtain ⟨bytes, received, hsent, hreceived, hhandled⟩ := h.received
  obtain ⟨rfl, hsize⟩ := eq_normalized_of_decoded hsent hreceived
  unfold handleFrame at hhandled
  dsimp only at hhandled
  rw [if_pos (by rfl)] at hhandled
  obtain rfl := Option.some.inj hhandled
  apply handleHello_greeted
  intro other hother
  have hpayload : (config.hello (config.bootOr fresh)).normalized.payload =
      encodeHello (config.payload (config.bootOr fresh)) := rfl
  have hread := fun out => @decodeHello_reads server.limits
    (config.payload (config.bootOr fresh)) out hsize
  rw [List.append_nil] at hread
  rw [hpayload, toEnd_eq_some hread] at hother
  exact hother.2.symm

/-- A worker is connected when the limits are sound, its hello is sent, and the first frame
that arrives accepts it. -/
theorem WorkerConfig.connect_eq_ok :
    config.connect limits fresh arrivals = .ok client ↔
      validateLimits limits = .ok () ∧
      (∃ bytes, encodeFrame (config.hello (config.bootOr fresh)) limits = .ok bytes) ∧
      ∃ response out, awaitAck arrivals { limits } = .ok response ∧
        response.header.message = .helloAck ∧
        decodeHelloAck response.payload = some out ∧ out.1.accepted = true ∧
        { limits, publisher := config.publisher, boot := config.bootOr fresh,
          session := out.1.session, epoch := out.1.epoch,
          grantedScopes := out.1.grantedScopes } = client := by
  unfold connect
  cases validateLimits limits with
  | error why => exact iff_of_false (fun h => nomatch h) (fun h => nomatch h.1)
  | ok _ =>
      rw [and_iff_right rfl]
      show (encodeFrame (config.hello (config.bootOr fresh)) limits >>= fun _ => _) = _ ↔ _
      rw [bind_eq_ok]
      constructor
      · intro h
        obtain ⟨bytes, hsent, h⟩ := h
        obtain ⟨response, hresponse, h⟩ := bind_eq_ok.mp h
        rw [seq_eq_ok, failIf_eq_ok, decide_eq_false_iff_not, not_not] at h
        obtain ⟨hmessage, h⟩ := h
        split at h
        · cases h
        · next ack left hread =>
            rw [seq_eq_ok, failIf_eq_ok, Bool.not_eq_false'] at h
            exact ⟨⟨bytes, hsent⟩, response, (ack, left), hresponse, hmessage, hread, h.1,
              Except.ok.inj h.2⟩
      · intro h
        obtain ⟨⟨bytes, hsent⟩, response, out, hresponse, hmessage, hread, haccepted,
          rfl⟩ := h
        refine ⟨bytes, hsent, bind_eq_ok.mpr ⟨response, hresponse, ?_⟩⟩
        rw [seq_eq_ok, failIf_eq_ok, decide_eq_false_iff_not, not_not]
        refine ⟨hmessage, ?_⟩
        rw [hread]
        dsimp only
        rw [seq_eq_ok, failIf_eq_ok, Bool.not_eq_false']
        exact ⟨haccepted, rfl⟩

/-- A worker that is connected was registered: the acknowledgment arrived, and the client
holds the session that the server holds. -/
theorem Greeting.of_connected (h : Greeting server config limits fresh state surroundings
    handled arrivals) (hconnected : config.connect limits fresh arrivals = .ok client) :
    handled.state.session.registered = true ∧ handled.Arrives server limits ∧
      handled.state.client limits = client := by
  have hclosed : ∀ frame, WorkerConfig.closedEarly ≠ .ok frame := by
    intro frame hframe
    cases hframe
  rw [WorkerConfig.connect_eq_ok] at hconnected
  obtain ⟨-, -, response, out, hresponse, hmessage, hread, haccepted, hclient⟩ := hconnected
  rw [WorkerConfig.awaitAck_eq_gather] at hresponse
  obtain ⟨found, rest, hfound, hwell, hlength, hbytes⟩ :=
    gather_within hclosed hresponse (Nat.zero_le _)
  obtain rfl := Except.ok.inj hfound
  rw [List.nil_append, h.arrived] at hbytes
  obtain ⟨reply, hreply, hsize, rfl⟩ := mem_answers_of_wire hwell hbytes
  cases h.greeted with
  | malformed hanswers hreport _ =>
      rw [hanswers, List.mem_singleton] at hreply
      have hother : reply.header.message = .helloAck := hmessage
      rw [hreply, hreport] at hother
      cases hother
  | @refused acknowledged last ack hanswers hack hrefused hreport _ =>
      rw [hanswers] at hreply
      rcases List.mem_pair.mp hreply with hfirst | hlast
      · have hpayload : reply.normalized.payload = encodeHelloAck ack ++ [] := by
          rw [List.append_nil, hfirst, ← hack]
          rfl
        rw [hpayload, decodeHelloAck_reads] at hread
        rw [← hread.2, hrefused] at haccepted
        cases haccepted
      · have hother : reply.header.message = .helloAck := hmessage
        rw [hlast, hreport] at hother
        cases hother
  | @registered only scopes hanswers hack hepoch hpayload hid hsession =>
      rw [hanswers, List.mem_singleton] at hreply
      subst hreply
      rw [Frame.length_bytes] at hlength
      have hread' : decodeHelloAck (reply.payload ++ []) = some out := by
        rw [List.append_nil]
        exact hread
      rw [hpayload, decodeHelloAck_reads] at hread'
      refine ⟨by rw [hsession], ?_, ?_⟩
      · unfold Handled.Arrives
        rw [hanswers]
        exact List.forall_mem_singleton.mpr ⟨hsize, hwell.size, hlength, hwell.epoch⟩
      · rw [← hclient, ← hread'.2]
        unfold ServerState.client
        rw [hsession]
        rfl

/-- A worker that the server registered is connected when the acknowledgment arrives. -/
theorem Greeting.connects (h : Greeting server config limits fresh state surroundings
    handled arrivals) (hlimits : validateLimits limits = .ok ())
    (hregistered : handled.state.session.registered = true)
    (harrives : handled.Arrives server limits) :
    config.connect limits fresh arrivals = .ok (handled.state.client limits) := by
  rw [WorkerConfig.connect_eq_ok]
  cases h.greeted with
  | malformed _ _ hsession =>
      rw [hsession, h.opened] at hregistered
      cases hregistered
  | refused _ _ _ _ hsession =>
      rw [hsession, h.opened] at hregistered
      cases hregistered
  | @registered only scopes hanswers hack hepoch hpayload hid hsession =>
      have hreaches := harrives only (by rw [hanswers]; exact List.mem_singleton.mpr rfl)
      have hknown : only.header.message ≠ .invalid := by
        rw [hack]
        decide
      have hwell := Frame.wellFormed_normalized hreaches.taken hknown hreaches.epoch
      have hlength : (only.normalized.bytes ++ []).length ≤
          limits.maxFrameAssemblyBytes.toNat := by
        rw [List.append_nil, Frame.length_bytes]
        exact hreaches.assembled
      have hcode : [] ++ arrivals.flatten = only.normalized.bytes ++ [] := by
        rw [List.nil_append, List.append_nil, h.arrived,
          wire_eq_bytes hanswers hknown hreaches.sent]
      obtain ⟨bytes, received, hsent, -⟩ := h.received
      have hread : decodeHelloAck (only.normalized.payload ++ []) = _ :=
        (congrArg (fun payload => decodeHelloAck (payload ++ [])) hpayload).trans
          (decodeHelloAck_reads.mpr ⟨hepoch ▸ hreaches.epoch, rfl⟩)
      rw [List.append_nil] at hread
      refine ⟨hlimits, ⟨bytes, hsent⟩, only.normalized, _, ?_, hack, hread, rfl, ?_⟩
      · rw [WorkerConfig.awaitAck_eq_gather]
        exact gather_delivered hwell hlength h.pieces hcode
      · unfold ServerState.client
        rw [hsession]
        rfl

/-- A worker is connected exactly when the server registered it and the acknowledgment
arrives; the client then holds the session that the server holds. -/
theorem Greeting.connect_iff (h : Greeting server config limits fresh state surroundings
    handled arrivals) :
    config.connect limits fresh arrivals = .ok client ↔
      validateLimits limits = .ok () ∧ handled.state.session.registered = true ∧
        handled.Arrives server limits ∧ handled.state.client limits = client := by
  constructor
  · intro hconnected
    have hlimits := (WorkerConfig.connect_eq_ok.mp hconnected).1
    exact ⟨hlimits, h.of_connected hconnected⟩
  · intro hall
    obtain ⟨hlimits, hregistered, harrives, hclient⟩ := hall
    rw [← hclient]
    exact h.connects hlimits hregistered harrives

/-- The client that a handshake gives is paired with the session of the server, which is
set. -/
theorem Greeting.paired (h : Greeting server config limits fresh state surroundings handled
    arrivals) (hconnected : config.connect limits fresh arrivals = .ok client) :
    Paired client handled.state.session ∧ client.session.isValid = true := by
  obtain ⟨-, hregistered, -, rfl⟩ := h.connect_iff.mp hconnected
  refine ⟨⟨hregistered, rfl, rfl, rfl, rfl⟩, ?_⟩
  cases h.greeted with
  | malformed _ _ hsession =>
      rw [hsession, h.opened] at hregistered
      cases hregistered
  | refused _ _ _ _ hsession =>
      rw [hsession, h.opened] at hregistered
      cases hregistered
  | registered _ _ _ _ hid hsession =>
      unfold ServerState.client
      rw [hsession]
      exact hid

end Connect

/-! ## The calls of a session -/

/-- A client with the server at the other end of its connection. -/
structure Joined where
  client : WorkerClient
  server : ServerState

/-- What happens while a session lasts: the client makes a call, another caller takes a
section, or another connection numbers a session. -/
inductive ClientTurn where
  | call (message : MessageId) (payload : List UInt8) (surroundings : Surroundings)
      (arrivals : List (List UInt8))
  | elsewhere (input : Input)
  | numbered

/-- One turn of a session.  A call takes place once the server has handled the frame that
the client sent and the whole answer has arrived, cut in any pieces. -/
def converse (config : ServerConfig) (joined : Joined) :
    ClientTurn → Option (Joined × Option (Result Frame))
  | .call message payload surroundings arrivals =>
      let request := joined.client.request message payload
      if message = .hello || !joined.server.running then none
      else
        match encodeFrame request joined.client.limits with
        | .error _ => none
        | .ok bytes =>
            match decodeFrame bytes config.limits with
            | .error _ => none
            | .ok received =>
                (handleFrame config joined.server received surroundings).bind fun handled =>
                  if arrivals.flatten = handled.wire config ∧
                      arrivals.all (!·.isEmpty) = true then
                    some (⟨joined.client.called, handled.state⟩,
                      some (joined.client.roundTrip message payload arrivals))
                  else none
  | .elsewhere input =>
      (step joined.server.system input).map fun (system, _) =>
        ({ joined with server := { joined.server with system } }, none)
  | .numbered =>
      some ({ joined with server :=
        { joined.server with nextSession := joined.server.nextSession + 1 } }, none)

/-- One turn that took place. -/
abbrev SessionEvent := Verified.StepMachine.Event Joined ClientTurn (Option (Result Frame))

/-- What a call is: the server gives its one answer, which names the request, and the call
returns that answer where it arrives and is no error report. -/
structure Answered (config : ServerConfig) (event : SessionEvent) (message : MessageId)
    (payload : List UInt8) (surroundings : Surroundings) (handled : Handled)
    (reply : Frame) : Prop where
  handles : handleFrame config event.pre.server
    (event.pre.client.request message payload).normalized surroundings = some handled
  state : event.post.server = handled.state
  answers : handled.Answers event.pre.client reply
  returns : ∀ response, event.output = some (.ok response) ↔
    handled.Arrives config event.pre.client.limits ∧
      reply.header.message ≠ .errorReport ∧ reply.normalized = response

section Conversations

variable {config : ServerConfig} {event : SessionEvent} {events : List SessionEvent}
  {start last : Joined}

/-- The two ends of a session agree. -/
structure Joined.Lockstep (joined : Joined) : Prop where
  paired : Paired joined.client joined.server.session
  session : joined.client.session.isValid = true

/-- A call of a client that is in lockstep with its server is answered, and leaves them in
lockstep. -/
theorem Joined.Lockstep.called {message : MessageId} {payload : List UInt8}
    {surroundings : Surroundings} {arrivals : List (List UInt8)}
    (h : event.pre.Lockstep) (htaken : event.Taken (converse config))
    (hinput : event.input = .call message payload surroundings arrivals) :
    event.post.Lockstep ∧ event.post.client = event.pre.client.called ∧
      ∃ handled reply, Answered config event message payload surroundings handled reply := by
  obtain ⟨pre, input, output, post⟩ := event
  dsimp only at h hinput
  subst hinput
  unfold Event.Taken converse at htaken
  dsimp only at htaken
  split at htaken
  · cases htaken
  · next hhello =>
      split at htaken
      · cases htaken
      · next bytes hsent =>
          split at htaken
          · cases htaken
          · next received hreceived =>
              obtain ⟨handled, hhandled, htaken⟩ := Option.bind_eq_some_iff.mp htaken
              split at htaken
              · next harrived =>
                  cases htaken
                  rw [Bool.or_eq_true, decide_eq_true_eq, not_or] at hhello
                  have hcall : RemoteCall config pre.client message payload pre.server
                      surroundings handled arrivals :=
                    { session := h.session
                      paired := h.paired
                      request := hhello.1
                      received := ⟨bytes, received, hsent, hreceived, hhandled⟩
                      arrived := harrived.1
                      pieces := by
                        intro chunk hmem hempty
                        have hchunk := List.all_eq_true.mp harrived.2 chunk hmem
                        rw [hempty] at hchunk
                        cases hchunk }
                  obtain ⟨hserved, -⟩ := hcall.handles
                  obtain ⟨reply, hanswers⟩ := h.paired.answered hhello.1 hserved
                  have hclient : pre.client.called =
                      { pre.client with attemptCounter := pre.client.attemptCounter + 1 } := by
                    unfold WorkerClient.called
                    rw [if_pos h.session]
                  have hsession : handled.state.session = pre.server.session :=
                    (handleFrame_other hhello.1 hserved).1
                  refine ⟨⟨?_, ?_⟩, rfl, handled, reply, hserved, rfl, hanswers, ?_⟩
                  · show Paired pre.client.called handled.state.session
                    rw [hclient, hsession]
                    exact ⟨h.paired.registered, h.paired.publisher, h.paired.boot,
                      h.paired.session, h.paired.scopes⟩
                  · show pre.client.called.session.isValid = true
                    rw [hclient]
                    exact h.session
                  · intro response
                    rw [Option.some.injEq]
                    exact hcall.roundTrip_eq_ok hanswers
              · cases htaken

/-- Another caller leaves a session in lockstep, and the client as it is. -/
theorem Joined.Lockstep.elsewhere (h : event.pre.Lockstep)
    (htaken : event.Taken (converse config))
    (hinput : ∀ message payload surroundings arrivals,
      event.input ≠ .call message payload surroundings arrivals) :
    event.post.Lockstep ∧ event.post.client = event.pre.client := by
  obtain ⟨pre, input, output, post⟩ := event
  unfold Event.Taken converse at htaken
  cases input with
  | call message payload surroundings arrivals => exact absurd rfl (hinput _ _ _ _)
  | elsewhere input =>
      obtain ⟨taken, -, hpost⟩ := Option.map_eq_some_iff.mp htaken
      dsimp only at hpost h
      cases hpost
      exact ⟨⟨h.paired, h.session⟩, rfl⟩
  | numbered =>
      dsimp only at htaken h
      cases htaken
      exact ⟨⟨h.paired, h.session⟩, rfl⟩

/-- A call that is carried takes place. -/
theorem converse_of_remoteCall {client : WorkerClient} {server : ServerState}
    {message : MessageId} {payload : List UInt8} {surroundings : Surroundings}
    {handled : Handled} {arrivals : List (List UInt8)}
    (h : RemoteCall config client message payload server surroundings handled arrivals)
    (hrunning : server.running = true) :
    converse config ⟨client, server⟩ (.call message payload surroundings arrivals) =
      some (⟨client.called, handled.state⟩,
        some (client.roundTrip message payload arrivals)) := by
  obtain ⟨bytes, received, hsent, hreceived, hhandled⟩ := h.received
  have hpieces : arrivals.all (!·.isEmpty) = true := by
    rw [List.all_eq_true]
    intro chunk hmem
    rw [Bool.not_eq_true', List.isEmpty_eq_false_iff]
    exact h.pieces chunk hmem
  unfold converse
  dsimp only
  rw [if_neg (by simp [h.request, hrunning]), hsent]
  dsimp only
  rw [hreceived]
  dsimp only
  rw [hhandled, Option.bind_some, if_pos ⟨h.arrived, hpieces⟩]

/-- The turn is a call. -/
def ClientTurn.isCall : ClientTurn → Bool
  | .call .. => true
  | .elsewhere _ | .numbered => false

/-- The number of calls among the events. -/
def calls (events : List SessionEvent) : Nat := events.countP (·.input.isCall)

/-- Every turn keeps a session in lockstep, and the calls are counted by the client. -/
theorem Joined.Lockstep.turn (h : event.pre.Lockstep) (htaken : event.Taken (converse config)) :
    event.post.Lockstep ∧ event.post.client =
      { event.pre.client with
        attemptCounter := event.pre.client.attemptCounter + UInt64.ofNat (calls [event]) } := by
  cases hinput : event.input with
  | call message payload surroundings arrivals =>
      obtain ⟨hpost, hclient, -⟩ := h.called htaken hinput
      refine ⟨hpost, hclient.trans ?_⟩
      unfold WorkerClient.called calls
      rw [if_pos h.session, List.countP_singleton, hinput]
      rfl
  | elsewhere | numbered =>
      have hother : ∀ message payload surroundings arrivals,
          event.input ≠ .call message payload surroundings arrivals := by
        rw [hinput]
        intros
        exact nofun
      obtain ⟨hpost, hclient⟩ := h.elsewhere htaken hother
      refine ⟨hpost, hclient.trans ?_⟩
      unfold calls
      rw [List.countP_singleton, hinput]
      exact congrArg (fun attemptCounter => { event.pre.client with attemptCounter })
        (UInt64.add_zero _).symm

/-- The client of a run in lockstep is the one at its start, with the calls counted. -/
theorem client_of_run (hrun : Run (converse config) start events last)
    (hstart : start.Lockstep) :
    last.Lockstep ∧ last.client =
      { start.client with
        attemptCounter := start.client.attemptCounter + UInt64.ofNat (calls events) } := by
  induction hrun with
  | nil state =>
      refine ⟨hstart, ?_⟩
      exact congrArg (fun attemptCounter => { state.client with attemptCounter })
        (UInt64.add_zero _).symm
  | @cons event later last htaken _ ih =>
      obtain ⟨hpost, hclient⟩ := hstart.turn htaken
      obtain ⟨hlast, hcounted⟩ := ih hpost
      refine ⟨hlast, ?_⟩
      have hcalls : calls (event :: later) = calls [event] + calls later :=
        @List.countP_append _ _ [event] later
      rw [hcounted, hclient, hcalls, UInt64.ofNat_add, UInt64.add_assoc]

end Conversations

/-- A worker connects exactly when its limits are sound, the server registered it, and the
acknowledgment arrives; then it holds the session that the server holds, under the epoch of
the coordinator. -/
theorem handshake_exact {server : ServerConfig} {config : WorkerConfig} {limits : Limits}
    {fresh : WorkerBootId} {state : ServerState} {surroundings : Surroundings}
    {handled : Handled} {arrivals : List (List UInt8)}
    (h : Greeting server config limits fresh state surroundings handled arrivals)
    (client : WorkerClient) :
    (config.connect limits fresh arrivals = .ok client ↔
      validateLimits limits = .ok () ∧ handled.state.session.registered = true ∧
        handled.Arrives server limits ∧ handled.state.client limits = client) ∧
    (config.connect limits fresh arrivals = .ok client →
      Paired client handled.state.session ∧ client.session.isValid = true ∧
        client.epoch = handled.state.system.impl.authority.epoch ∧
        client.publisher = config.publisher ∧ client.boot = config.bootOr fresh) := by
  refine ⟨h.connect_iff, fun hconnected => ?_⟩
  obtain ⟨hpaired, hsession⟩ := h.paired hconnected
  obtain ⟨-, -, response, out, -, -, -, -, hclient⟩ := WorkerConfig.connect_eq_ok.mp hconnected
  obtain ⟨-, -, -, rfl⟩ := h.connect_iff.mp hconnected
  exact ⟨hpaired, hsession, rfl, (congrArg WorkerClient.publisher hclient).symm,
    (congrArg WorkerClient.boot hclient).symm⟩

/-! ## A worker that connects and calls -/

/-- A worker that asks for every scope. -/
def sampleWorkerConfig : WorkerConfig :=
  { publisher := ⟨1⟩, requestedScopes := 127, boot := ⟨4242⟩ }

/-- What the server makes of the hello of the sample worker. -/
def sampleGreeted (impl : Impl) : Handled :=
  handleHello {} { system := { impl } } (sampleWorkerConfig.hello ⟨4242⟩).normalized
    sampleAround

/-- The server registered the sample worker, with answers that are small. -/
def greets (impl : Impl) : Bool :=
  (sampleGreeted impl).state.session.registered && (sampleGreeted impl).state.running &&
    decide ((sampleGreeted impl).state.system.impl.authority.epoch.value ≤
      Generation.kMaxGeneration) &&
    (sampleGreeted impl).answers.all fun reply =>
      decide (reply.payload.length ≤ 1000) &&
        decide (reply.header.epoch.value ≤ Generation.kMaxGeneration)

/-- The worker that was greeted is connected. -/
private theorem connected_of_greets {impl : Impl} (h : greets impl = true) :
    ∃ arrivals,
      Greeting {} sampleWorkerConfig {} {} { system := { impl } } sampleAround
        (sampleGreeted impl) arrivals ∧
      sampleWorkerConfig.connect {} {} arrivals =
        .ok ((sampleGreeted impl).state.client {}) := by
  unfold greets at h
  rw [Bool.and_eq_true, Bool.and_eq_true, Bool.and_eq_true, List.all_eq_true] at h
  obtain ⟨⟨⟨hregistered, -⟩, -⟩, hanswers⟩ := h
  have hepoch : (sampleWorkerConfig.hello ⟨4242⟩).header.epoch.Storable := by
    show (0 : UInt64) ≤ Generation.kMaxGeneration
    decide
  have hsize : (sampleWorkerConfig.hello ⟨4242⟩).payload.length ≤
      ({} : Limits).maxFrameBytes.toNat := by
    decide
  have hsent : encodeFrame (sampleWorkerConfig.hello ⟨4242⟩) {} =
      .ok (sampleWorkerConfig.hello ⟨4242⟩).normalized.bytes :=
    encodeFrame_eq_ok.mpr ⟨hsize, by decide, rfl⟩
  have hreceived : decodeFrame (sampleWorkerConfig.hello ⟨4242⟩).normalized.bytes {} =
      .ok (sampleWorkerConfig.hello ⟨4242⟩).normalized :=
    decodeFrame_eq_ok.mpr ⟨rfl, Frame.wellFormed_normalized hsize (by decide) hepoch⟩
  have harrives : (sampleGreeted impl).Arrives {} {} := by
    intro reply hmem
    have hreply := hanswers reply hmem
    rw [Bool.and_eq_true, decide_eq_true_eq, decide_eq_true_eq] at hreply
    obtain ⟨hlength, hstorable⟩ := hreply
    have hframe : 1000 ≤ ({} : Limits).maxFrameBytes.toNat := by decide
    have hassembly : kHeaderBytes + 1000 ≤ ({} : Limits).maxFrameAssemblyBytes.toNat := by decide
    exact ⟨Nat.le_trans hlength hframe, Nat.le_trans hlength hframe, by omega, hstorable⟩
  have hgreeting : ∀ arrivals : List (List UInt8),
      arrivals.flatten = (sampleGreeted impl).wire {} → (∀ chunk ∈ arrivals, chunk ≠ []) →
      Greeting {} sampleWorkerConfig {} {} { system := { impl } } sampleAround
        (sampleGreeted impl) arrivals :=
    fun arrivals harrived hpieces =>
      ⟨rfl, ⟨_, _, hsent, hreceived, rfl⟩, harrived, hpieces⟩
  by_cases hnone : (sampleGreeted impl).wire {} = []
  · have hempty := hgreeting [] hnone.symm (List.forall_mem_nil _)
    exact ⟨[], hempty, hempty.connect_iff.mpr ⟨rfl, hregistered, harrives, rfl⟩⟩
  · have hwhole := hgreeting [(sampleGreeted impl).wire {}] List.flatten_singleton
      (List.forall_mem_singleton.mpr hnone)
    exact ⟨_, hwhole, hwhole.connect_iff.mpr ⟨by decide, hregistered, harrives, rfl⟩⟩

theorem sample_greets :
    ∃ impl, openInMemory sampleConfig sampleCall = .ok impl ∧ greets impl = true := by
  have hcheck : ((openInMemory sampleConfig sampleCall).toOption.any greets) = true := by
    decide +kernel
  obtain ⟨impl, himpl, hgreets⟩ := (Option.any_eq_true _ _).mp hcheck
  refine ⟨impl, ?_, hgreets⟩
  cases hopened : openInMemory sampleConfig sampleCall with
  | error error =>
      rw [hopened] at himpl
      cases himpl
  | ok other =>
      rw [hopened] at himpl
      cases himpl
      rfl

theorem handshake_exact_sample :
    ∃ impl arrivals, openInMemory sampleConfig sampleCall = .ok impl ∧
      (sampleWorkerConfig.connect {} {} arrivals =
          .ok ((sampleGreeted impl).state.client {}) ↔
        validateLimits {} = .ok () ∧ (sampleGreeted impl).state.session.registered = true ∧
          (sampleGreeted impl).Arrives {} {} ∧
          (sampleGreeted impl).state.client {} = (sampleGreeted impl).state.client {}) ∧
      Paired ((sampleGreeted impl).state.client {}) (sampleGreeted impl).state.session := by
  obtain ⟨impl, hopened, hgreets⟩ := sample_greets
  obtain ⟨arrivals, hgreeting, hconnected⟩ := connected_of_greets hgreets
  exact ⟨impl, arrivals, hopened, (handshake_exact hgreeting _).1,
    ((handshake_exact hgreeting _).2 hconnected).1⟩

/-- The worker that was greeted sends a heartbeat, which is answered. -/
private theorem heartbeat_of_greets {impl : Impl} (h : greets impl = true)
    (hpaired : Paired ((sampleGreeted impl).state.client {}) (sampleGreeted impl).state.session)
    (hsession : ((sampleGreeted impl).state.client {}).session.isValid = true) :
    ∃ event : SessionEvent, ∃ arrivals,
      event.input = .call .heartbeat [] sampleAround arrivals ∧
      Run (converse {}) ⟨(sampleGreeted impl).state.client {}, (sampleGreeted impl).state⟩
        [event] event.post := by
  unfold greets at h
  rw [Bool.and_eq_true, Bool.and_eq_true, Bool.and_eq_true, decide_eq_true_eq] at h
  obtain ⟨⟨⟨-, hrunning⟩, hepoch⟩, -⟩ := h
  let client := (sampleGreeted impl).state.client {}
  have hhandled : handleFrame {} (sampleGreeted impl).state
      (client.request .heartbeat []).normalized sampleAround =
        some ((sampleGreeted impl).state.answer (client.request .heartbeat []).normalized.header
          .heartbeat []) := by
    unfold handleFrame
    dsimp only
    rw [if_neg (by intro hhello; cases hhello), hpaired.registered, hpaired.identityMatches]
    rfl
  obtain ⟨arrivals, hcall⟩ := @remoteCall_of_handled {} client .heartbeat [] _ _ _ hsession
    hpaired (by decide) (by decide) hepoch (Nat.zero_le _) (Nat.zero_le _) hhandled
  have htaken : Event.Taken (converse {}) ⟨⟨client, (sampleGreeted impl).state⟩,
      .call .heartbeat [] sampleAround arrivals, _, _⟩ :=
    converse_of_remoteCall hcall hrunning
  exact ⟨_, arrivals, rfl, .cons htaken (.nil _)⟩

end ConstraintRouting.Fabric
