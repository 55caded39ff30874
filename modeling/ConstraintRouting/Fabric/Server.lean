import ConstraintRouting.Fabric.Messages
import ConstraintRouting.Fabric.System

/-!
# Coordinator server

One connection of the server: the frames that arrive on it, what it answers and what it
asks of the coordinator.  Other callers use the coordinator at the same time.
-/

namespace ConstraintRouting.Fabric

open Verified.Checks (isOk)

structure ServerConfig where
  limits : Limits := {}
deriving DecidableEq

/-- The session of a connection; a later handshake replaces it. -/
structure SessionState where
  session : SessionId := {}
  publisher : PublisherId := {}
  boot : WorkerBootId := {}
  scopes : AuthorityScopeMask := 0
  registered : Bool := false
deriving DecidableEq

/-- The server as one connection sees it: the coordinator, the counter of sessions, and the
state of the connection. -/
structure ServerState where
  system : SystemState
  nextSession : UInt64 := 0
  session : SessionState := {}
  running : Bool := true

/-- What surrounds the handling of one frame: the calls of its one section, or of the two of
an evaluation with what other callers do between them, how many sessions other connections
number between the increment and the read of the counter, and whether the peer still takes
what is sent. -/
structure Surroundings where
  call : Call
  finish : Call
  between : List Input := []
  handedOut : UInt64 := 0
  delivered : Bool := true

/-- A handled frame: the state after it, the frames to send, and whether the connection goes
on with the frames that it has buffered. -/
structure Handled where
  state : ServerState
  answers : List Frame
  proceed : Bool := true

/-! ## Answers -/

/-- The frame that answers a request. -/
def sendFrame (impl : Impl) (message : MessageId) (state : SessionState)
    (request : FrameHeader) (payload : List UInt8) : Frame :=
  { header :=
      { message, epoch := impl.authority.epoch, publisher := state.publisher,
        workerBoot := state.boot, attempt := request.attempt, request := request.request,
        scopes := state.scopes }
    payload }

/-- The frame fits the wire; what does not is not sent. -/
def ServerConfig.sends (config : ServerConfig) (frame : Frame) : Bool :=
  isOk (encodeFrame frame config.limits)

/-- The frames of the answer that reach the peer. -/
def Handled.replies (handled : Handled) (config : ServerConfig) : List Frame :=
  handled.answers.filter config.sends

def sendError (config : ServerConfig) (impl : Impl) (state : SessionState)
    (request : FrameHeader) (code : ErrorCode) (reason : ReasonCode) (detail : String) :
    Frame :=
  let detail := detail.toUTF8.toList.take config.limits.maxDetailBytes.toNat
  sendFrame impl .errorReport state request (encodeErrorReport { code, reason, detail })

namespace ServerState

variable (config : ServerConfig) (state : ServerState) (header : FrameHeader)

/-- The state with another coordinator. -/
def withImpl (impl : Impl) : ServerState :=
  { state with system := { state.system with impl } }

@[simp] theorem withImpl_impl (impl : Impl) : (state.withImpl impl).system.impl = impl := rfl

/-- The frame is refused with an error report. -/
def refuse (code : ErrorCode) (reason : ReasonCode) (detail : String) (proceed : Bool) :
    Handled :=
  { state, proceed
    answers := [sendError config state.system.impl state.session header code reason detail] }

/-- The frame is answered. -/
def answer (message : MessageId) (payload : List UInt8) : Handled :=
  { state, answers := [sendFrame state.system.impl message state.session header payload] }

/-- The frame is answered with what the coordinator returned. -/
def respond {α : Type} (reason : ReasonCode) (message : MessageId) (encode : α → List UInt8) :
    Result α → Handled
  | .error error => state.refuse config header error.code reason error.detail true
  | .ok value => state.answer header message (encode value)

end ServerState

/-! ## Handshake -/

def handleHello (config : ServerConfig) (state : ServerState) (frame : Frame)
    (surroundings : Surroundings) : Handled :=
  let header := frame.header
  match (decodeHello config.limits).toEnd frame.payload with
  | none =>
      state.refuse config header .malformed .malformedFrame "hello payload is malformed" false
  | some hello =>
      let nextSession := state.nextSession + 1 + surroundings.handedOut
      let candidate : SessionState :=
        { session := ⟨nextSession⟩, publisher := hello.publisher, boot := hello.workerBoot }
      let impl := state.system.impl
      let context : AuthorityContext :=
        { epoch := impl.authority.epoch, publisher := hello.publisher,
          workerBoot := hello.workerBoot, session := candidate.session,
          attempt := if header.attempt.isValid then header.attempt else ⟨1⟩,
          request := header.request, scopes := 0 }
      let registration := (registerPublisher impl context hello.publisher hello.workerBoot
        hello.requestedScopes candidate.session surroundings.call).settle surroundings.call
      let after := { state.withImpl registration.1 with nextSession }
      let ack : HelloAckPayload :=
        { epoch := registration.1.authority.epoch, session := candidate.session }
      match registration.2 with
      | .error error =>
          { state := after, proceed := false
            answers :=
              [sendFrame registration.1 .helloAck state.session header (encodeHelloAck ack),
               sendError config registration.1 state.session header error.code
                 (if reasonClassOf .unknownPublisher = .callerIdentity then .unknownPublisher
                  else .scopeNotAuthorized)
                 error.detail] }
      | .ok granted =>
          let session := { candidate with scopes := granted.scopes, registered := true }
          let reply := sendFrame registration.1 .helloAck session header
            (encodeHelloAck { ack with grantedScopes := session.scopes, accepted := true })
          { state := { after with session }, answers := [reply]
            proceed := config.sends reply && surroundings.delivered }

/-! ## Mutations -/

/-- The authority of a request: the epoch is the coordinator's own. -/
def contextFor (impl : Impl) (state : SessionState) (header : FrameHeader) :
    AuthorityContext :=
  { epoch := impl.authority.epoch, publisher := state.publisher, workerBoot := state.boot,
    attempt := header.attempt, request := header.request, session := state.session,
    scopes := state.scopes }

def identityMatches (state : SessionState) (header : FrameHeader) : Bool :=
  header.publisher == state.publisher && header.workerBoot == state.boot

/-- The acknowledgment of a stored definition. -/
def publishAck (set : ConstraintSet) : List UInt8 :=
  encodePublishAck { setId := set.id, generation := set.generation, digest := set.digest }

def handlePublish (config : ServerConfig) (state : ServerState) (frame : Frame)
    (surroundings : Surroundings) : Handled :=
  let header := frame.header
  match (decodeConstraintSet config.limits).toEnd frame.payload with
  | none =>
      state.refuse config header .malformed .malformedConstraint
        "constraint set payload is malformed" true
  | some set =>
      let impl := state.system.impl
      let published := (publishConstraintSet impl (contextFor impl state.session header) set
        surroundings.call).settle surroundings.call
      (state.withImpl published.1).respond config header .malformedConstraint
        .publishConstraintSetAck publishAck published.2

def handleLifecycle (config : ServerConfig) (state : ServerState) (frame : Frame)
    (surroundings : Surroundings) : Handled :=
  let header := frame.header
  match decodeLifecycleRequest.toEnd frame.payload with
  | none =>
      state.refuse config header .malformed .malformedFrame "lifecycle payload is malformed"
        true
  | some request =>
      let impl := state.system.impl
      let applied := (applyLifecycle impl (contextFor impl state.session header)
        request.setId request.event surroundings.call).settle surroundings.call
      (state.withImpl applied.1).respond config header .constraintSetNotActive
        .applyLifecycleAck publishAck applied.2

/-- An evaluation with what other callers do between its two sections; none where they take
no step, or where the source's behaviour is undefined. -/
def SystemState.evaluate (state : SystemState) (context : AuthorityContext)
    (setId : ConstraintSetId) (candidates : List CandidatePath)
    (expectedGeneration : ConstraintSetGeneration) (surroundings : Surroundings) :
    Option (SystemState × Result CommitOutcome) :=
  match state.begin context setId candidates expectedGeneration surroundings.call with
  | (ended, .evaluated result) => some (ended, result)
  | (begun, .evaluating ticket) =>
      (Verified.StepMachine.exec step begun surroundings.between).bind fun (_, middle) =>
        (middle.finish ticket surroundings.finish).bind fun
          | (finished, .evaluated result) => some (finished, result)
          | _ => none
  | _ => none

/-- The acknowledgment of an evaluation carries its batch alone. -/
def evaluateAck (outcome : CommitOutcome) : List UInt8 :=
  encodeEvaluateResponse { batch := outcome.batch }

def handleEvaluate (config : ServerConfig) (state : ServerState) (frame : Frame)
    (surroundings : Surroundings) : Option Handled :=
  let header := frame.header
  match (decodeEvaluateRequest config.limits).toEnd frame.payload with
  | none =>
      state.refuse config header .malformed .malformedCandidate
        "candidate payload is malformed" true
  | some request =>
      let context := contextFor state.system.impl state.session header
      (state.system.evaluate context request.setId request.candidates
        request.expectedGeneration surroundings).map fun (system, outcome) =>
          { state with system }.respond config header .none .evaluateCandidatesAck evaluateAck
            outcome

/-! ## Queries -/

def definitionsReport (impl : Impl) (setId : ConstraintSetId) : List UInt8 :=
  encodeDefinitionsReport <|
    match impl.snapshotDefinitions setId with
    | .error _ => {}
    | .ok snapshot => { found := true, snapshot }

def resultsReport (impl : Impl) (setId : ConstraintSetId) : List UInt8 :=
  encodeResultsReport <|
    match impl.snapshotResults setId with
    | .error _ => {}
    | .ok snapshot => { found := true, snapshot }

def currentnessReport (impl : Impl) (setId : ConstraintSetId) : List UInt8 :=
  encodeCurrentnessReport <|
    match impl.currentness setId with
    | .error _ => {}
    | .ok report => { found := true, report }

/-- Answers a query about one set.  No scope is asked for. -/
def handleQuery (config : ServerConfig) (state : ServerState) (frame : Frame)
    (message : MessageId) (report : Impl → ConstraintSetId → List UInt8)
    (malformed : String) : Handled :=
  match decodeQuery.toEnd frame.payload with
  | none => state.refuse config frame.header .malformed .malformedFrame malformed true
  | some setId => state.answer frame.header message (report state.system.impl setId)

def handleQueryDefinitions (config : ServerConfig) (state : ServerState) (frame : Frame) :
    Handled :=
  handleQuery config state frame .definitionsReport definitionsReport
    "definitions query payload is malformed"

def handleQueryResults (config : ServerConfig) (state : ServerState) (frame : Frame) :
    Handled :=
  handleQuery config state frame .resultsReport resultsReport
    "results query payload is malformed"

def handleQueryCurrentness (config : ServerConfig) (state : ServerState) (frame : Frame) :
    Handled :=
  handleQuery config state frame .currentnessReport currentnessReport
    "currentness query payload is malformed"

/-! ## Frames -/

def handleFrame (config : ServerConfig) (state : ServerState) (frame : Frame)
    (surroundings : Surroundings) : Option Handled :=
  let header := frame.header
  if header.message = .hello then handleHello config state frame surroundings
  else if !state.session.registered then
    state.refuse config header .unauthorized .missingAuthorityContext
      "default deny: the session has not registered a publisher" false
  else if !identityMatches state.session header then
    state.refuse config header .fenced .fencedWorkerBoot
      "frame identity does not match the registered session identity" false
  else
    match header.message with
    | .publishConstraintSet => handlePublish config state frame surroundings
    | .applyLifecycle => handleLifecycle config state frame surroundings
    | .evaluateCandidates => handleEvaluate config state frame surroundings
    | .queryDefinitions => handleQueryDefinitions config state frame
    | .queryResults => handleQueryResults config state frame
    | .queryCurrentness => handleQueryCurrentness config state frame
    | .heartbeat => state.answer header .heartbeat []
    | .shutdown =>
        some { state.answer header .shutdown [] with
          state := { state with running := false }
          proceed := false }
    | _ =>
        state.refuse config header .protocolViolation .unknownMessageId
          "message identifier is not valid in the client-to-server direction" false

/-! ## Connections -/

/-- What happens while a connection lasts: it handles the next frame, another caller takes a
section, or another connection numbers a session. -/
inductive Activity where
  | frame (frame : Frame) (surroundings : Surroundings)
  | elsewhere (input : Input)
  | numbered

/-- One activity of a connection; no frame is handled once it stopped. -/
def serveStep (config : ServerConfig) (state : ServerState) :
    Activity → Option (ServerState × List Frame)
  | .frame frame surroundings =>
      if state.running then
        (handleFrame config state frame surroundings).map fun handled =>
          (handled.state, handled.replies config)
      else none
  | .elsewhere input =>
      (step state.system input).map fun (system, _) => ({ state with system }, [])
  | .numbered => some ({ state with nextSession := state.nextSession + 1 }, [])

/-- The end of a connection: the boot of its session is fenced. -/
def hangUp (state : ServerState) (call : Call) : ServerState :=
  if state.session.registered then
    state.withImpl
      ((fenceOnSessionLoss state.system.impl state.session.session call).settle call).1
  else state

/-! ## A small server -/

/-- A handshake of the worker under the mutation attempt. -/
def sampleHello (publisher : PublisherId) (boot : WorkerBootId) (attempt : UInt64) : Frame :=
  { header := { message := .hello, publisher, workerBoot := boot, attempt := ⟨attempt⟩ }
    payload := encodeHello { publisher, workerBoot := boot, requestedScopes := 127 } }

/-- A frame of the sample worker. -/
def sampleFrame (message : MessageId) (attempt : UInt64) (payload : List UInt8) : Frame :=
  { header :=
      { message, epoch := ⟨1⟩, publisher := ⟨1⟩, workerBoot := ⟨4242⟩, attempt := ⟨attempt⟩ }
    payload }

def sampleHandled (frame : Frame) : Activity :=
  .frame frame { call := sampleCall, finish := sampleCall }

/-- The activities on a first connection to a coordinator that was just opened. -/
def sampleServe (config : CoordinatorConfig) (activities : List Activity) :
    Option (List (Verified.StepMachine.Event ServerState Activity (List Frame)) ×
      ServerState) :=
  match openInMemory config sampleCall with
  | .ok impl => Verified.StepMachine.exec (serveStep {}) { system := { impl } } activities
  | .error _ => none

end ConstraintRouting.Fabric
