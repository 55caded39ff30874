import ConstraintRouting.Fabric.Coordinator
import ConstraintRouting.Fabric.Messages

/-!
# Worker client

The client side of a session.  A call encodes its request, sends it as one frame and reads
until the frame that answers it has arrived.
-/

namespace ConstraintRouting.Fabric

/-- A connected client, after its handshake. -/
structure WorkerClient where
  limits : Limits := {}
  publisher : PublisherId := {}
  boot : WorkerBootId := {}
  session : SessionId := {}
  epoch : CoordinatorEpoch := {}
  grantedScopes : AuthorityScopeMask := 0
  attemptCounter : UInt64 := 0
deriving DecidableEq

/-- Mixes a counter into an attempt identity. -/
def mix (value : UInt64) : UInt64 :=
  let value := value + 0x9e3779b97f4a7c15
  let value := (value ^^^ (value >>> 30)) * 0xbf58476d1ce4e5b9
  let value := (value ^^^ (value >>> 27)) * 0x94d049bb133111eb
  value ^^^ (value >>> 31)

/-- Bytes of a detail text, each as the character with its code. -/
def detailText (detail : List UInt8) : String :=
  String.ofList (detail.map fun byte => Char.ofNat byte.toNat)

namespace WorkerClient

/-- The frame of the next request, which takes the next attempt. -/
def request (client : WorkerClient) (message : MessageId) (payload : List UInt8) : Frame :=
  let counter := client.attemptCounter + 1
  let attempt := mix (client.boot.value ^^^ (counter * 0x9e3779b97f4a7c15))
  { header :=
      { message, epoch := client.epoch, publisher := client.publisher,
        workerBoot := client.boot, scopes := client.grantedScopes,
        attempt := ⟨if attempt = 0 then 1 else attempt⟩
        request := ⟨counter⟩ }
    payload }

/-- What a response frame means for the request that it should answer. -/
def accept (client : WorkerClient) (request response : Frame) : Result Frame :=
  if response.header.request != request.header.request then
    failure .protocolViolation "response request identity does not match the request"
  else if response.header.message = .errorReport then
    match decodeErrorReport client.limits response.payload with
    | none => failure .malformed "error report is malformed"
    | some (report, _) => failure report.code (detailText report.detail)
  else .ok response

/-- The end of the connection before an answer. -/
def closed : Result Frame :=
  failure .transportFailure "coordinator closed the connection"

/-- Takes the answer off the assembler, or goes on when it has not arrived. -/
def take (client : WorkerClient) (request : Frame) (assembler : FrameAssembler)
    (more : FrameAssembler → Result Frame) : Result Frame :=
  match assembler.pop with
  | (_, .error error) => .error error
  | (_, .ok (some response)) => client.accept request response
  | (assembler, .ok none) => more assembler

/-- Reads until a frame has arrived.  The list is what the successive reads of the socket
give; its end, or an empty read, is the end of the connection. -/
def await (client : WorkerClient) (request : Frame) :
    List (List UInt8) → FrameAssembler → Result Frame
  | [], assembler => client.take request assembler fun _ => closed
  | chunk :: arrivals, assembler =>
      client.take request assembler fun assembler =>
        if chunk.isEmpty then closed
        else
          match assembler.push chunk with
          | (_, .error error) => .error error
          | (assembler, .ok ()) => client.await request arrivals assembler

/-- Sends a request and awaits its answer. -/
def roundTrip (client : WorkerClient) (message : MessageId) (payload : List UInt8)
    (arrivals : List (List UInt8)) : Result Frame := do
  failIf (!client.session.isValid) .unauthorized "session is not established"
  let request := client.request message payload
  let _ ← encodeFrame request client.limits
  client.await request arrivals { limits := client.limits }

/-- The payload of an evaluation request: no generation is expected. -/
def evaluatePayload (setId : ConstraintSetId) (candidates : List CandidatePath) :
    List UInt8 :=
  encodeEvaluateRequest { setId, candidates }

/-- Evaluates candidates on the coordinator.  The outcome is put together from the batch
that came back. -/
def evaluate (client : WorkerClient) (setId : ConstraintSetId)
    (candidates : List CandidatePath) (arrivals : List (List UInt8)) :
    Result CommitOutcome := do
  let response ← client.roundTrip .evaluateCandidates (evaluatePayload setId candidates)
    arrivals
  match decodeEvaluateResponse client.limits response.payload with
  | none => failure .malformed "evaluation response is malformed"
  | some (ack, _) => return { batch := ack.batch, committed := true }

/-! ## Other calls -/

/-- The client after a call: without a session no attempt is taken. -/
def called (client : WorkerClient) : WorkerClient :=
  if client.session.isValid then { client with attemptCounter := client.attemptCounter + 1 }
  else client

/-- The attempt identity under a counter. -/
def attemptAt (boot : WorkerBootId) (counter : UInt64) : MutationAttemptId :=
  let value := mix (boot.value ^^^ (counter * 0x9e3779b97f4a7c15))
  ⟨if value = 0 then 1 else value⟩

/-- Draws the authority context of the next mutation. -/
def nextContext (client : WorkerClient) : WorkerClient × AuthorityContext :=
  let counter := client.attemptCounter + 1
  ({ client with attemptCounter := counter },
    { epoch := client.epoch, publisher := client.publisher, workerBoot := client.boot,
      session := client.session, scopes := client.grantedScopes,
      attempt := attemptAt client.boot counter, request := ⟨counter⟩ })

/-- Publishes a set.  The published set is the one that was sent, under what the coordinator
acknowledged. -/
def publishConstraintSet (client : WorkerClient) (set : ConstraintSet)
    (arrivals : List (List UInt8)) : Result ConstraintSet := do
  let response ← client.roundTrip .publishConstraintSet (encodeConstraintSet set) arrivals
  match decodePublishAck response.payload with
  | none => failure .malformed "publication acknowledgement is malformed"
  | some (ack, _) =>
      return { set with id := ack.setId, generation := ack.generation, digest := ack.digest }

/-- Applies a lifecycle event.  What is returned is only what was acknowledged. -/
def applyLifecycle (client : WorkerClient) (setId : ConstraintSetId) (event : LifecycleEvent)
    (arrivals : List (List UInt8)) : Result ConstraintSet := do
  let response ← client.roundTrip .applyLifecycle (encodeLifecycleRequest { setId, event })
    arrivals
  match decodePublishAck response.payload with
  | none => failure .malformed "lifecycle acknowledgement is malformed"
  | some (ack, _) =>
      return { id := ack.setId, generation := ack.generation, digest := ack.digest }

/-- The answer to a query: a report that cannot be read counts as one on an unknown set. -/
def reported {α β : Type} (read : ByteReader.Reader α) (found : α → Bool) (shown : α → β)
    (response : Frame) : Result β :=
  match read response.payload with
  | none => failure .notFound "coordinator has no such constraint set"
  | some (report, _) =>
      if found report then .ok (shown report)
      else failure .notFound "coordinator has no such constraint set"

def queryDefinitions (client : WorkerClient) (setId : ConstraintSetId)
    (arrivals : List (List UInt8)) : Result DefinitionsSnapshot := do
  let response ← client.roundTrip .queryDefinitions (ByteWriter.putId setId) arrivals
  reported (decodeDefinitionsReport client.limits) (·.found) (·.snapshot) response

def queryResults (client : WorkerClient) (setId : ConstraintSetId)
    (arrivals : List (List UInt8)) : Result ResultsSnapshot := do
  let response ← client.roundTrip .queryResults (ByteWriter.putId setId) arrivals
  reported (decodeResultsReport client.limits) (·.found) (·.snapshot) response

def queryCurrentness (client : WorkerClient) (setId : ConstraintSetId)
    (arrivals : List (List UInt8)) : Result CurrentnessReport := do
  let response ← client.roundTrip .queryCurrentness (ByteWriter.putId setId) arrivals
  reported decodeCurrentnessReport (·.found) (·.report) response

def heartbeat (client : WorkerClient) (arrivals : List (List UInt8)) : Status := do
  let _ ← client.roundTrip .heartbeat [] arrivals
  return ()

/-- Ends the session; what the server answers is not looked at. -/
def close (client : WorkerClient) : WorkerClient := { client.called with session := {} }

end WorkerClient

/-! ## Handshake -/

structure WorkerConfig where
  publisher : PublisherId := {}
  requestedScopes : AuthorityScopeMask := 0
  clientName : List UInt8 := []
  boot : WorkerBootId := {}
deriving DecidableEq

namespace WorkerConfig

/-- The boot that the client declares: its own, or a fresh one. -/
def bootOr (config : WorkerConfig) (fresh : WorkerBootId) : WorkerBootId :=
  if config.boot.isValid then config.boot else fresh

/-- The frame that opens a session, under the first attempt and request. -/
def hello (config : WorkerConfig) (boot : WorkerBootId) : Frame :=
  { header :=
      { message := .hello, publisher := config.publisher, workerBoot := boot, attempt := ⟨1⟩,
        request := ⟨1⟩, scopes := config.requestedScopes }
    payload := encodeHello
      { publisher := config.publisher, workerBoot := boot,
        requestedScopes := config.requestedScopes, clientName := config.clientName } }

def closedEarly : Result Frame :=
  failure .transportFailure "coordinator closed the connection during the handshake"

/-- The first frame, or what comes when it has not arrived. -/
def takeAck (assembler : FrameAssembler) (more : FrameAssembler → Result Frame) :
    Result Frame :=
  match assembler.pop with
  | (_, .error error) => .error error
  | (_, .ok (some response)) => .ok response
  | (assembler, .ok none) => more assembler

/-- Reads until the first frame has arrived. -/
def awaitAck : List (List UInt8) → FrameAssembler → Result Frame
  | [], assembler => takeAck assembler fun _ => closedEarly
  | chunk :: arrivals, assembler =>
      takeAck assembler fun assembler =>
        if chunk.isEmpty then closedEarly
        else
          match assembler.push chunk with
          | (_, .error error) => .error error
          | (assembler, .ok ()) => awaitAck arrivals assembler

/-- Opens a session with a coordinator over a connected socket. -/
def connect (config : WorkerConfig) (limits : Limits) (fresh : WorkerBootId)
    (arrivals : List (List UInt8)) : Result WorkerClient := do
  match validateLimits limits with
  | .ok () => pure ()
  | .error why => failure .invalidArgument why
  let boot := config.bootOr fresh
  let _ ← encodeFrame (config.hello boot) limits
  let response ← awaitAck arrivals { limits }
  failIf (response.header.message ≠ .helloAck) .protocolViolation
    "coordinator did not answer the handshake with a hello acknowledgement"
  match decodeHelloAck response.payload with
  | none => failure .malformed "hello acknowledgement is malformed"
  | some (ack, _) => do
      failIf (!ack.accepted) .unauthorized
        "default deny: the coordinator refused the publisher registration"
      return { limits, publisher := config.publisher, boot, session := ack.session,
               epoch := ack.epoch, grantedScopes := ack.grantedScopes }

end WorkerConfig

end ConstraintRouting.Fabric
