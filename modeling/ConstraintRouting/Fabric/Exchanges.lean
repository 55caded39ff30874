import ConstraintRouting.Fabric.Connections
import ConstraintRouting.Fabric.PayloadBytes
import ConstraintRouting.Fabric.RemoteEvaluation

/-!
# Calls over the wire

A call of a connected client against the connection that serves it.  The server answers a
frame that is no handshake with exactly one frame, which names the request.  When its bytes
arrive, in whatever pieces, the call returns that answer: the transport adds nothing.
-/

namespace ConstraintRouting.Fabric

open ByteWriter ByteReader
open Verified.Checks (seq_eq_ok bind_eq_ok)

/-! ## The frame that arrives -/

/-- Reads until a frame has arrived: `found` takes it, and `closed` is the end of the
connection before it. -/
def gather {α : Type} (closed : Result α) (found : Frame → Result α) :
    List (List UInt8) → FrameAssembler → Result α
  | arrivals, assembler =>
      match assembler.pop with
      | (_, .error error) => .error error
      | (_, .ok (some response)) => found response
      | (assembler, .ok none) =>
          match arrivals with
          | [] => closed
          | chunk :: arrivals =>
              if chunk.isEmpty then closed
              else
                match assembler.push chunk with
                | (_, .error error) => .error error
                | (assembler, .ok ()) => gather closed found arrivals assembler

theorem WorkerClient.await_eq_gather (client : WorkerClient) (request : Frame)
    (arrivals : List (List UInt8)) (assembler : FrameAssembler) :
    client.await request arrivals assembler =
      gather closed (client.accept request) arrivals assembler := by
  induction arrivals generalizing assembler with
  | nil =>
      unfold await take gather
      rcases assembler.pop with ⟨later, popped⟩
      rcases popped with error | _ | response
      all_goals rfl
  | cons chunk arrivals ih =>
      unfold await take gather
      rcases assembler.pop with ⟨later, popped⟩
      rcases popped with error | _ | response
      · rfl
      · dsimp only
        rcases later.push chunk with ⟨grown, pushed⟩
        rcases pushed with error | accepted
        · rfl
        · simp only [ih]
      · rfl

theorem WorkerConfig.awaitAck_eq_gather (arrivals : List (List UInt8))
    (assembler : FrameAssembler) :
    awaitAck arrivals assembler = gather closedEarly .ok arrivals assembler := by
  induction arrivals generalizing assembler with
  | nil =>
      unfold awaitAck takeAck gather
      rcases assembler.pop with ⟨later, popped⟩
      rcases popped with error | _ | response
      all_goals rfl
  | cons chunk arrivals ih =>
      unfold awaitAck takeAck gather
      rcases assembler.pop with ⟨later, popped⟩
      rcases popped with error | _ | response
      · rfl
      · dsimp only
        rcases later.push chunk with ⟨grown, pushed⟩
        rcases pushed with error | accepted
        · rfl
        · simp only [ih]
      · rfl

/-- A frame whose bytes arrive within the bound is found, however they are cut and whatever
follows them. -/
theorem gather_delivered {α : Type} {limits : Limits} {closed : Result α}
    {found : Frame → Result α} {response : Frame} (hwell : response.WellFormed limits)
    {buffer rest : List UInt8} {arrivals : List (List UInt8)}
    (hfits : (response.bytes ++ rest).length ≤ limits.maxFrameAssemblyBytes.toNat)
    (hchunks : ∀ chunk ∈ arrivals, chunk ≠ [])
    (hcode : buffer ++ arrivals.flatten = response.bytes ++ rest) :
    gather closed found arrivals { limits, buffer } = found response := by
  induction arrivals generalizing buffer with
  | nil =>
      rw [List.flatten_nil, List.append_nil] at hcode
      unfold gather
      rw [hcode, FrameAssembler.pop_whole hwell rest]
  | cons chunk arrivals ih =>
      obtain ⟨hchunk, hlater⟩ := List.forall_mem_cons.mp hchunks
      by_cases hwhole : response.bytes.length ≤ buffer.length
      · -- the whole frame is buffered: the rest of the arrivals is not read
        obtain ⟨tail, hbuffer⟩ := List.prefix_of_prefix_length_le
          (List.prefix_append response.bytes rest)
          (hcode ▸ List.prefix_append buffer (chunk :: arrivals).flatten) hwhole
        unfold gather
        rw [← hbuffer, FrameAssembler.pop_whole hwell tail]
      · obtain ⟨more, hmore⟩ := List.prefix_of_prefix_length_le
          (hcode ▸ List.prefix_append buffer (chunk :: arrivals).flatten)
          (List.prefix_append response.bytes rest) (by omega)
        have hne : more ≠ [] := by
          intro hnil
          rw [hnil, List.append_nil] at hmore
          exact hwhole (Nat.le_of_eq (congrArg List.length hmore).symm)
        have hpush : FrameAssembler.push { limits, buffer } chunk =
            ({ limits, buffer := buffer ++ chunk }, .ok ()) := by
          apply FrameAssembler.push_of_le
          have hlength := congrArg List.length hcode
          rw [List.flatten_cons, List.length_append, List.length_append] at hlength
          omega
        unfold gather
        rw [FrameAssembler.pop_started hwell hmore hne]
        dsimp only
        rw [if_neg (by rw [List.isEmpty_iff]; exact hchunk), hpush]
        dsimp only
        apply ih hlater
        rw [← hcode, List.flatten_cons, List.append_assoc]

namespace FrameAssembler

variable {limits : Limits} {buffer chunk : List UInt8} {after : FrameAssembler}
  {response : Frame}

theorem pop_found (h : pop { limits, buffer } = (after, .ok (some response))) :
    response.WellFormed limits ∧ ∃ rest, buffer = response.bytes ++ rest := by
  rcases pop_cases limits buffer with
    ⟨error, herror⟩ | hnone | ⟨later, found, rest, hpop, hwell, hbytes⟩
  · rw [h] at herror
    cases herror
  · rw [h] at hnone
    cases hnone
  · rw [h] at hpop
    cases hpop
    exact ⟨hwell, rest, hbytes⟩

theorem pop_waits (h : pop { limits, buffer } = (after, .ok none)) :
    after = { limits, buffer } := by
  rcases pop_cases limits buffer with
    ⟨error, herror⟩ | hnone | ⟨later, found, rest, hpop, -, -⟩
  · rw [h] at herror
    cases herror
  · rw [h] at hnone
    exact congrArg Prod.fst hnone
  · rw [h] at hpop
    cases hpop

theorem push_within (h : push { limits, buffer } chunk = (after, .ok ())) :
    (buffer ++ chunk).length ≤ limits.maxFrameAssemblyBytes.toNat := by
  unfold push at h
  rw [if_neg Bool.false_ne_true] at h
  split at h
  · cases h
  · next hwithin =>
      rw [List.length_append]
      exact Nat.not_lt.mp hwithin

end FrameAssembler

/-! ## The session of a client -/

/-- The client and the connection that serves it hold the same session. -/
structure Paired (client : WorkerClient) (held : SessionState) : Prop where
  registered : held.registered = true
  publisher : held.publisher = client.publisher
  boot : held.boot = client.boot
  session : held.session = client.session
  scopes : held.scopes = client.grantedScopes

/-- The frame is the whole answer to the next request of the client. -/
structure Handled.Answers (handled : Handled) (client : WorkerClient) (reply : Frame) :
    Prop where
  answers : handled.answers = [reply]
  request : reply.header.request = ⟨client.attemptCounter + 1⟩
  known : reply.header.message ≠ .invalid

section Requests

variable {config : ServerConfig} {client : WorkerClient} {state : ServerState}
  {surroundings : Surroundings} {message : MessageId} {payload : List UInt8}
  {handled : Handled} {header : FrameHeader}

/-- A request of a paired client carries the identity of the session. -/
theorem Paired.identityMatches (h : Paired client state.session) :
    identityMatches state.session (client.request message payload).normalized.header =
      true := by
  unfold Fabric.identityMatches
  rw [h.publisher, h.boot]
  simp only [Frame.normalized, WorkerClient.request, beq_self_eq_true, Bool.and_self]

theorem ServerState.refuse_answers {code : ErrorCode} {reason : ReasonCode} {detail : String}
    {proceed : Bool} (hrequest : header.request = ⟨client.attemptCounter + 1⟩) :
    ∃ reply, (state.refuse config header code reason detail proceed).Answers client reply :=
  ⟨_, rfl, hrequest, (fun hinvalid => nomatch hinvalid)⟩

theorem ServerState.respond_answers {α : Type} {reason : ReasonCode} {answer : MessageId}
    {encode : α → List UInt8} {result : Result α} (hknown : answer ≠ .invalid)
    (hrequest : header.request = ⟨client.attemptCounter + 1⟩) :
    ∃ reply,
      (state.respond config header reason answer encode result).Answers client reply := by
  cases result with
  | error error => exact state.refuse_answers hrequest
  | ok value => exact ⟨_, rfl, hrequest, hknown⟩

theorem handleQuery_answers {frame : Frame} {answer : MessageId}
    {report : Impl → ConstraintSetId → List UInt8} {malformed : String}
    (hknown : answer ≠ .invalid)
    (hrequest : frame.header.request = ⟨client.attemptCounter + 1⟩) :
    ∃ reply, (handleQuery config state frame answer report malformed).Answers client reply := by
  unfold handleQuery
  split
  · exact state.refuse_answers hrequest
  · exact ⟨_, rfl, hrequest, hknown⟩

/-- Every request of a paired client is answered with exactly one frame, which names it. -/
theorem Paired.answered (h : Paired client state.session) (hhello : message ≠ .hello)
    (hhandled : handleFrame config state (client.request message payload).normalized
      surroundings = some handled) :
    ∃ reply, handled.Answers client reply := by
  have hrequest : (client.request message payload).normalized.header.request =
      ⟨client.attemptCounter + 1⟩ := rfl
  have hmessage : (client.request message payload).normalized.header.message = message := rfl
  unfold handleFrame at hhandled
  dsimp only at hhandled
  rw [if_neg (by rw [hmessage]; exact hhello), h.registered, h.identityMatches, hmessage]
    at hhandled
  rw [if_neg (by decide), if_neg (by decide)] at hhandled
  cases message
  case hello => exact absurd rfl hhello
  case publishConstraintSet =>
    cases hhandled
    unfold handlePublish
    dsimp only
    split
    · exact state.refuse_answers hrequest
    · exact ServerState.respond_answers (by decide) hrequest
  case applyLifecycle =>
    cases hhandled
    unfold handleLifecycle
    dsimp only
    split
    · exact state.refuse_answers hrequest
    · exact ServerState.respond_answers (by decide) hrequest
  case evaluateCandidates =>
    dsimp only at hhandled
    unfold handleEvaluate at hhandled
    dsimp only at hhandled
    split at hhandled
    · cases hhandled
      exact state.refuse_answers hrequest
    · obtain ⟨evaluated, -, hanswered⟩ := Option.map_eq_some_iff.mp hhandled
      rw [← hanswered]
      exact ServerState.respond_answers (by decide) hrequest
  case queryDefinitions | queryResults | queryCurrentness =>
    cases hhandled
    exact handleQuery_answers (by decide) hrequest
  case heartbeat | shutdown =>
    cases hhandled
    exact ⟨_, rfl, hrequest, (fun hinvalid => nomatch hinvalid)⟩
  all_goals
    cases hhandled
    exact state.refuse_answers hrequest

end Requests

/-! ## The exchange -/

/-- A frame that was encoded is read as it was sent. -/
theorem eq_normalized_of_decoded {limits other : Limits} {frame received : Frame}
    {bytes : List UInt8} (hsent : encodeFrame frame limits = .ok bytes)
    (hreceived : decodeFrame bytes other = .ok received) :
    received = frame.normalized ∧ frame.payload.length < 2 ^ 32 := by
  obtain ⟨hsize, -, hbytes⟩ := encodeFrame_eq_ok.mp hsent
  obtain ⟨hframe, hwell⟩ := decodeFrame_eq_ok.mp hreceived
  have hfits : frame.payload.length < 2 ^ 32 :=
    Nat.lt_of_le_of_lt hsize limits.maxFrameBytes.toNat_lt
  have hwhole : received.bytes ++ [] = frame.normalized.bytes := by
    rw [List.append_nil, ← hframe, hbytes]
  exact ⟨Frame.eq_of_bytes hwell hfits hwhole, hfits⟩

/-- One call of a client in its session: the server handles the frame that the client sent,
and its whole answer arrives, cut in any pieces. -/
structure RemoteCall (config : ServerConfig) (client : WorkerClient) (message : MessageId)
    (payload : List UInt8) (state : ServerState) (surroundings : Surroundings)
    (handled : Handled) (arrivals : List (List UInt8)) : Prop where
  session : client.session.isValid = true
  paired : Paired client state.session
  request : message ≠ .hello
  received : ∃ bytes received,
    encodeFrame (client.request message payload) client.limits = .ok bytes ∧
    decodeFrame bytes config.limits = .ok received ∧
    handleFrame config state received surroundings = some handled
  arrived : arrivals.flatten = handled.wire config
  pieces : ∀ chunk ∈ arrivals, chunk ≠ []

/-- Both sides have room for the frame, and the client can read its epoch. -/
structure Reaches (config : ServerConfig) (limits : Limits) (reply : Frame) : Prop where
  sent : reply.payload.length ≤ config.limits.maxFrameBytes.toNat
  taken : reply.payload.length ≤ limits.maxFrameBytes.toNat
  assembled : kHeaderBytes + reply.payload.length ≤ limits.maxFrameAssemblyBytes.toNat
  epoch : reply.header.epoch.Storable

/-- Every frame of the answer reaches the client. -/
def Handled.Arrives (handled : Handled) (config : ServerConfig) (limits : Limits) : Prop :=
  ∀ reply ∈ handled.answers, Reaches config limits reply

section Calls

variable {config : ServerConfig} {client : WorkerClient} {message : MessageId}
  {payload : List UInt8} {state : ServerState} {surroundings : Surroundings}
  {handled : Handled} {arrivals : List (List UInt8)} {reply response : Frame}

theorem RemoteCall.handles (h : RemoteCall config client message payload state surroundings handled
    arrivals) :
    handleFrame config state (client.request message payload).normalized surroundings =
        some handled ∧
      payload.length < 2 ^ 32 := by
  obtain ⟨bytes, received, hsent, hreceived, hhandled⟩ := h.received
  obtain ⟨hsame, hfits⟩ := eq_normalized_of_decoded hsent hreceived
  rw [hsame] at hhandled
  exact ⟨hhandled, hfits⟩

theorem RemoteCall.encoded (h : RemoteCall config client message payload state surroundings handled
    arrivals) :
    ∃ bytes, encodeFrame (client.request message payload) client.limits = .ok bytes := by
  obtain ⟨bytes, _, hsent, -⟩ := h.received
  exact ⟨bytes, hsent⟩

theorem Handled.Answers.arrives_iff (h : handled.Answers client reply) :
    handled.Arrives config client.limits ↔ Reaches config client.limits reply := by
  unfold Handled.Arrives
  rw [h.answers]
  exact List.forall_mem_singleton

/-- The payload of an answer that arrives is shorter than its length field can say. -/
theorem Handled.Answers.size (h : handled.Answers client reply)
    (harrives : handled.Arrives config client.limits) : reply.payload.length < 2 ^ 32 :=
  Nat.lt_of_le_of_lt (h.arrives_iff.mp harrives).taken client.limits.maxFrameBytes.toNat_lt

/-- The bytes of an answer that the server can send. -/
theorem wire_eq_bytes (hanswers : handled.answers = [reply])
    (hknown : reply.header.message ≠ .invalid)
    (hsize : reply.payload.length ≤ config.limits.maxFrameBytes.toNat) :
    handled.wire config = reply.normalized.bytes := by
  have hencoded : encodeFrame reply config.limits = .ok reply.normalized.bytes :=
    encodeFrame_eq_ok.mpr ⟨hsize, hknown, rfl⟩
  have hsends : config.sends reply = true := by
    unfold ServerConfig.sends
    rw [hencoded]
    rfl
  unfold Handled.wire Handled.replies
  rw [hanswers, List.filter_cons_of_pos hsends, List.filter_nil,
    List.flatMap_singleton, hencoded]

/-- The bytes of an answer that does not fit the server's limits are none. -/
theorem wire_eq_nil (hanswers : handled.Answers client reply)
    (hsize : ¬ reply.payload.length ≤ config.limits.maxFrameBytes.toNat) :
    handled.wire config = [] := by
  have hsends : config.sends reply = false := by
    unfold ServerConfig.sends
    cases hencoded : encodeFrame reply config.limits with
    | error error => rfl
    | ok bytes => exact absurd (encodeFrame_eq_ok.mp hencoded).1 hsize
  unfold Handled.wire Handled.replies
  rw [hanswers.answers, List.filter_cons_of_neg (by rw [hsends]; exact Bool.false_ne_true),
    List.filter_nil, List.flatMap_nil]

/-- What is found was buffered within the bound. -/
theorem gather_within {α : Type} {limits : Limits} {closed : Result α}
    {found : Frame → Result α} {buffer : List UInt8} {a : α}
    (hclosed : ∀ b, closed ≠ .ok b)
    (h : gather closed found arrivals { limits, buffer } = .ok a)
    (hbuffer : buffer.length ≤ limits.maxFrameAssemblyBytes.toNat) :
    ∃ response rest, found response = .ok a ∧ response.WellFormed limits ∧
      response.bytes.length ≤ limits.maxFrameAssemblyBytes.toNat ∧
      response.bytes ++ rest = buffer ++ arrivals.flatten := by
  induction arrivals generalizing buffer with
  | nil =>
      unfold gather at h
      rcases hpop : FrameAssembler.pop { limits, buffer } with ⟨after, popped⟩
      rw [hpop] at h
      rcases popped with error | _ | response
      · cases h
      · exact absurd h (hclosed a)
      · obtain ⟨hwell, rest, rfl⟩ := FrameAssembler.pop_found hpop
        rw [List.length_append] at hbuffer
        exact ⟨response, rest, h, hwell, Nat.le_trans (Nat.le_add_right _ _) hbuffer,
          by rw [List.flatten_nil, List.append_nil]⟩
  | cons chunk arrivals ih =>
      unfold gather at h
      rcases hpop : FrameAssembler.pop { limits, buffer } with ⟨after, popped⟩
      rw [hpop] at h
      rcases popped with error | _ | response
      · cases h
      · obtain rfl := FrameAssembler.pop_waits hpop
        dsimp only at h
        split at h
        · exact absurd h (hclosed a)
        · rcases hpush : FrameAssembler.push { limits, buffer } chunk with ⟨grown, pushed⟩
          rw [hpush] at h
          rcases pushed with error | _
          · cases h
          · obtain rfl := FrameAssembler.push_eq_ok hpush
            obtain ⟨response, rest, hfound, hwell, hlength, hbytes⟩ :=
              ih h (FrameAssembler.push_within hpush)
            refine ⟨response, rest, hfound, hwell, hlength, ?_⟩
            rw [hbytes, List.flatten_cons, List.append_assoc]
      · obtain ⟨hwell, rest, rfl⟩ := FrameAssembler.pop_found hpop
        rw [List.length_append] at hbuffer
        exact ⟨response, rest ++ (chunk :: arrivals).flatten, h, hwell,
          Nat.le_trans (Nat.le_add_right _ _) hbuffer, by rw [List.append_assoc]⟩

/-- A call returns the answer of the server when it reaches the client and is no error
report, and nothing else. -/
theorem RemoteCall.roundTrip_eq_ok (h : RemoteCall config client message payload state
    surroundings handled arrivals) (hanswers : handled.Answers client reply) :
    client.roundTrip message payload arrivals = .ok response ↔
      handled.Arrives config client.limits ∧ reply.header.message ≠ .errorReport ∧
        reply.normalized = response := by
  rw [hanswers.arrives_iff]
  obtain ⟨bytes, hencoded⟩ := h.encoded
  have haccept : reply.header.message ≠ .errorReport →
      client.accept (client.request message payload) reply.normalized =
        .ok reply.normalized := by
    intro hmessage
    have hrequest : reply.normalized.header.request =
        (client.request message payload).header.request := hanswers.request
    have hother : reply.normalized.header.message ≠ .errorReport := hmessage
    unfold WorkerClient.accept
    rw [hrequest, if_neg (by simp), if_neg hother]
  constructor
  · intro hround
    have hclosed : ∀ frame, WorkerClient.closed ≠ .ok frame := by
      intro frame hframe
      cases hframe
    have hawait := WorkerClient.roundTrip_eq_ok hround
    rw [WorkerClient.await_eq_gather] at hawait
    obtain ⟨arrived, rest, hfound, hwell, hlength, hbytes⟩ :=
      gather_within hclosed hawait (Nat.zero_le _)
    obtain ⟨rfl, hmessage⟩ := WorkerClient.accept_eq_ok hfound
    rw [List.nil_append, h.arrived] at hbytes
    by_cases hsize : reply.payload.length ≤ config.limits.maxFrameBytes.toNat
    · rw [wire_eq_bytes hanswers.answers hanswers.known hsize] at hbytes
      have hfits : reply.payload.length < 2 ^ 32 :=
        Nat.lt_of_le_of_lt hsize config.limits.maxFrameBytes.toNat_lt
      obtain rfl := Frame.eq_of_bytes hwell hfits hbytes
      rw [Frame.length_bytes] at hlength
      exact ⟨⟨hsize, hwell.size, hlength, hwell.epoch⟩, hmessage, rfl⟩
    · rw [wire_eq_nil hanswers hsize] at hbytes
      exact absurd (List.append_eq_nil_iff.mp hbytes).1 response.bytes_ne_nil
  · intro hreaches
    obtain ⟨hreaches, hmessage, rfl⟩ := hreaches
    have hwell := Frame.wellFormed_normalized hreaches.taken hanswers.known hreaches.epoch
    have hlength : (reply.normalized.bytes ++ []).length ≤
        client.limits.maxFrameAssemblyBytes.toNat := by
      rw [List.append_nil, Frame.length_bytes]
      exact hreaches.assembled
    have hcode : [] ++ arrivals.flatten = reply.normalized.bytes ++ [] := by
      rw [List.nil_append, List.append_nil, h.arrived,
        wire_eq_bytes hanswers.answers hanswers.known hreaches.sent]
    unfold WorkerClient.roundTrip
    rw [h.session]
    refine seq_eq_ok.mpr ⟨rfl, bind_eq_ok.mpr ⟨bytes, hencoded, ?_⟩⟩
    rw [WorkerClient.await_eq_gather, gather_delivered hwell hlength h.pieces hcode]
    exact haccept hmessage

/-- A call is carried when the frames of both sides have room for its request, the server can
read the epoch of the client, and the answer arrives in one piece. -/
theorem remoteCall_of_handled (hsession : client.session.isValid = true)
    (hpaired : Paired client state.session) (hrequest : message ≠ .hello)
    (hknown : message ≠ .invalid) (hepoch : client.epoch.Storable)
    (hsends : payload.length ≤ client.limits.maxFrameBytes.toNat)
    (htakes : payload.length ≤ config.limits.maxFrameBytes.toNat)
    (hhandled : handleFrame config state (client.request message payload).normalized
      surroundings = some handled) :
    ∃ arrivals, RemoteCall config client message payload state surroundings handled
      arrivals := by
  have hsent : encodeFrame (client.request message payload) client.limits =
      .ok (client.request message payload).normalized.bytes :=
    encodeFrame_eq_ok.mpr ⟨hsends, hknown, rfl⟩
  have hwell : (client.request message payload).normalized.WellFormed config.limits :=
    Frame.wellFormed_normalized htakes hknown hepoch
  have hreceived : decodeFrame (client.request message payload).normalized.bytes
      config.limits = .ok (client.request message payload).normalized :=
    decodeFrame_eq_ok.mpr ⟨rfl, hwell⟩
  by_cases hnone : handled.wire config = []
  · exact ⟨[], hsession, hpaired, hrequest, ⟨_, _, hsent, hreceived, hhandled⟩, hnone.symm,
      List.forall_mem_nil _⟩
  · exact ⟨[handled.wire config], hsession, hpaired, hrequest,
      ⟨_, _, hsent, hreceived, hhandled⟩, List.flatten_singleton,
      List.forall_mem_singleton.mpr hnone⟩

end Calls

/-! ## A worker that is connected -/

/-- Nothing happens around the handling of a frame. -/
def sampleAround : Surroundings := { call := sampleCall, finish := sampleCall }

/-- The session of the sample worker. -/
def sampleSession : SessionState :=
  { session := ⟨1⟩, publisher := ⟨1⟩, boot := ⟨4242⟩, scopes := 127, registered := true }

theorem sampleWorker_paired : Paired sampleWorker sampleSession := ⟨rfl, rfl, rfl, rfl, rfl⟩

theorem sampleConnected_paired :
    ∃ events state, sampleServe sampleConfig sampleConnected = some (events, state) ∧
      state.session = sampleSession := by
  have hcheck : ((sampleServe sampleConfig sampleConnected).any fun run =>
      decide (run.2.session = sampleSession)) = true := by
    decide +kernel
  obtain ⟨⟨events, state⟩, hrun, hsession⟩ := (Option.any_eq_true _ _).mp hcheck
  exact ⟨events, state, hrun, of_decide_eq_true hsession⟩

end ConstraintRouting.Fabric
