import ConstraintRouting.Fabric.LoopRefinement

/-!
# The connections of one server

The server serves its connections at the same time: they share the coordinator and the
counter of sessions, and between the two parts of a handshake or of an evaluation the others
go on.  What one connection does among the others is what it does alone, with the others as
its surroundings; so what holds of every connection holds of every connection of a server.
-/

namespace ConstraintRouting.Fabric

open Verified.StepMachine

/-! ## The server -/

/-- Where a connection stands: between two frames, between the increment and the read of the
counter of sessions, between the two sections of an evaluation, or at its end. -/
inductive LinkWork where
  | idle
  | numbering (frame : Frame) (hello : HelloPayload)
  | evaluating (frame : Frame) (ticket : Nat)
  | over

/-- One connection of the server. -/
structure Link where
  session : SessionState := {}
  running : Bool := true
  work : LinkWork := .idle

/-- The server with all its connections. -/
structure HostState where
  system : SystemState
  nextSession : UInt64 := 0
  links : Nat → Link := fun _ => {}

/-- What happens on the server: a frame comes on a connection, a connection goes on with its
frame, a connection ends, or a caller outside the server takes a section. -/
inductive HostInput where
  | arrived (who : Nat) (frame : Frame) (call : Call)
  | resumed (who : Nat) (call : Call)
  | ended (who : Nat) (call : Call)
  | elsewhere (input : Input)

/-- The second part of a handshake: the number of the session is read and the publisher is
registered. -/
def greetSession (config : ServerConfig) (state : ServerState) (header : FrameHeader)
    (hello : HelloPayload) (call : Call) : Handled :=
  let candidate : SessionState :=
    { session := ⟨state.nextSession⟩, publisher := hello.publisher, boot := hello.workerBoot }
  let impl := state.system.impl
  let context : AuthorityContext :=
    { epoch := impl.authority.epoch, publisher := hello.publisher,
      workerBoot := hello.workerBoot, session := candidate.session,
      attempt := if header.attempt.isValid then header.attempt else ⟨1⟩,
      request := header.request, scopes := 0 }
  let registration := (registerPublisher impl context hello.publisher hello.workerBoot
    hello.requestedScopes candidate.session call).settle call
  let after := state.withImpl registration.1
  let ack : HelloAckPayload :=
    { epoch := registration.1.authority.epoch, session := candidate.session }
  match registration.2 with
  | .error error =>
      { state := after, proceed := false
        answers :=
          [sendFrame registration.1 .helloAck state.session header (encodeHelloAck ack),
           sendError config registration.1 state.session header error.code
             (if reasonClassOf .unknownPublisher = .callerIdentity then .unknownPublisher
              else .scopeNotAuthorized)
             error.detail] }
  | .ok granted =>
      let session := { candidate with scopes := granted.scopes, registered := true }
      let reply := sendFrame registration.1 .helloAck session header
        (encodeHelloAck { ack with grantedScopes := session.scopes, accepted := true })
      { state := { after with session }, answers := [reply], proceed := config.sends reply }

/-- The second part of an evaluation. -/
def concludeEvaluation (config : ServerConfig) (state : ServerState) (header : FrameHeader)
    (ticket : Nat) (call : Call) : Option Handled :=
  (state.system.finish ticket call).bind fun
    | (system, .evaluated outcome) =>
        some ({ state with system }.respond config header .none .evaluateCandidatesAck
          evaluateAck outcome)
    | _ => none

namespace HostState

/-- The server as one of its connections sees it. -/
def view (host : HostState) (who : Nat) : ServerState :=
  { system := host.system, nextSession := host.nextSession,
    session := (host.links who).session, running := (host.links who).running }

/-- The server after one of its connections acted. -/
def seat (host : HostState) (who : Nat) (state : ServerState) (work : LinkWork) : HostState :=
  { system := state.system, nextSession := state.nextSession
    links := Function.update host.links who
      { session := state.session, running := state.running, work } }

@[simp] theorem view_seat (host : HostState) (who : Nat) (state : ServerState)
    (work : LinkWork) : (host.seat who state work).view who = state := by
  simp [view, seat]

@[simp] theorem work_seat (host : HostState) (who : Nat) (state : ServerState)
    (work : LinkWork) : ((host.seat who state work).links who).work = work := by
  simp [seat]

@[simp] theorem links_seat_of_ne (host : HostState) {who other : Nat} (state : ServerState)
    (work : LinkWork) (h : other ≠ who) :
    (host.seat who state work).links other = host.links other :=
  Function.update_of_ne h _ _

end HostState

/-- The parts of a frame's handling between which the other connections go on. -/
inductive Pause where
  | numbering (hello : HelloPayload)
  | evaluating (system : SystemState) (ticket : Nat)

/-- Where the handling of a frame pauses: a handshake once the counter is incremented, an
evaluation once its first section started it. -/
def pauseOf (config : ServerConfig) (state : ServerState) (frame : Frame) (call : Call) :
    Option Pause :=
  let header := frame.header
  if header.message = .hello then
    ((decodeHello config.limits).toEnd frame.payload).map .numbering
  else if header.message = .evaluateCandidates ∧ state.session.registered ∧
      identityMatches state.session header then
    ((decodeEvaluateRequest config.limits).toEnd frame.payload).bind fun request =>
      match state.system.begin (contextFor state.system.impl state.session header)
        request.setId request.candidates request.expectedGeneration call with
      | (system, .evaluating ticket) => some (.evaluating system ticket)
      | _ => none
  else none

namespace HostState

variable (config : ServerConfig) (host : HostState) (who : Nat)

/-- A frame comes on a connection. -/
def arrive (frame : Frame) (call : Call) : Option (HostState × List Frame) :=
  let state := host.view who
  match pauseOf config state frame call with
  | some (.numbering hello) =>
      some (host.seat who { state with nextSession := state.nextSession + 1 }
        (.numbering frame hello), [])
  | some (.evaluating system ticket) =>
      some (host.seat who { state with system } (.evaluating frame ticket), [])
  | none =>
      (handleFrame config state frame { call, finish := call }).map fun handled =>
        (host.seat who handled.state .idle, handled.replies config)

/-- A connection goes on with its frame. -/
def resume (call : Call) : Option (HostState × List Frame) :=
  let state := host.view who
  match (host.links who).work with
  | .numbering frame hello =>
      let handled := greetSession config state frame.header hello call
      some (host.seat who handled.state .idle, handled.replies config)
  | .evaluating frame ticket =>
      (concludeEvaluation config state frame.header ticket call).map fun handled =>
        (host.seat who handled.state .idle, handled.replies config)
  | .idle | .over => none

end HostState

/-- One step of the server. -/
def hostStep (config : ServerConfig) (host : HostState) :
    HostInput → Option (HostState × List Frame)
  | .arrived who frame call =>
      match (host.links who).work with
      | .idle => if (host.links who).running then host.arrive config who frame call else none
      | _ => none
  | .resumed who call => host.resume config who call
  | .ended who call =>
      match (host.links who).work with
      | .idle => some (host.seat who (hangUp (host.view who) call) .over, [])
      | _ => none
  | .elsewhere input =>
      (step host.system input).map fun (system, _) => ({ host with system }, [])

/-- One step of the server that was taken. -/
abbrev HostEvent := Verified.StepMachine.Event HostState HostInput (List Frame)

/-- The connection that the event is on. -/
def HostInput.actor : HostInput → Option Nat
  | .arrived who _ _ | .resumed who _ | .ended who _ => some who
  | .elsewhere _ => none

/-- The frame that comes on the connection. -/
def arrivalOn (who : Nat) (event : HostEvent) : Option Frame :=
  match event.input with
  | .arrived other frame _ => if other = who then some frame else none
  | _ => none

/-- What the event sends on the connection. -/
def sentOn (who : Nat) (event : HostEvent) : List Frame :=
  if event.input.actor = some who then event.output else []

/-! ## Steps of the server -/

/-- What one step of the server is. -/
inductive HostMoves (config : ServerConfig) : HostEvent → Prop
  | counted {host : HostState} {who : Nat} {frame : Frame} {call : Call}
      {hello : HelloPayload} :
      (host.links who).work = .idle → (host.links who).running = true →
      pauseOf config (host.view who) frame call = some (.numbering hello) →
      HostMoves config ⟨host, .arrived who frame call, [],
        host.seat who { host.view who with nextSession := host.nextSession + 1 }
          (.numbering frame hello)⟩
  | begun {host : HostState} {who : Nat} {frame : Frame} {call : Call}
      {system : SystemState} {ticket : Nat} :
      (host.links who).work = .idle → (host.links who).running = true →
      pauseOf config (host.view who) frame call = some (.evaluating system ticket) →
      HostMoves config ⟨host, .arrived who frame call, [],
        host.seat who { host.view who with system } (.evaluating frame ticket)⟩
  | handled {host : HostState} {who : Nat} {frame : Frame} {call : Call} {handled : Handled} :
      (host.links who).work = .idle → (host.links who).running = true →
      pauseOf config (host.view who) frame call = none →
      handleFrame config (host.view who) frame { call, finish := call } = some handled →
      HostMoves config ⟨host, .arrived who frame call, handled.replies config,
        host.seat who handled.state .idle⟩
  | greeted {host : HostState} {who : Nat} {frame : Frame} {hello : HelloPayload}
      {call : Call} :
      (host.links who).work = .numbering frame hello →
      HostMoves config ⟨host, .resumed who call,
        (greetSession config (host.view who) frame.header hello call).replies config,
        host.seat who (greetSession config (host.view who) frame.header hello call).state .idle⟩
  | concluded {host : HostState} {who : Nat} {frame : Frame} {ticket : Nat} {call : Call}
      {handled : Handled} :
      (host.links who).work = .evaluating frame ticket →
      concludeEvaluation config (host.view who) frame.header ticket call = some handled →
      HostMoves config ⟨host, .resumed who call, handled.replies config,
        host.seat who handled.state .idle⟩
  | ended {host : HostState} {who : Nat} {call : Call} :
      (host.links who).work = .idle →
      HostMoves config ⟨host, .ended who call, [],
        host.seat who (hangUp (host.view who) call) .over⟩
  | elsewhere {host : HostState} {input : Input} {system : SystemState} {reply : Reply} :
      step host.system input = some (system, reply) →
      HostMoves config ⟨host, .elsewhere input, [], { host with system }⟩

theorem hostMoves_of_taken {config : ServerConfig} {event : HostEvent}
    (htaken : event.Taken (hostStep config)) : HostMoves config event := by
  obtain ⟨host, input, output, post⟩ := event
  unfold Event.Taken hostStep at htaken
  dsimp only at htaken
  cases input with
  | arrived who frame call =>
      dsimp only at htaken
      split at htaken
      · next hidle =>
          split at htaken
          · next hrunning =>
              unfold HostState.arrive at htaken
              dsimp only at htaken
              split at htaken
              · next hpause =>
                  cases htaken
                  exact .counted hidle hrunning hpause
              · next hpause =>
                  cases htaken
                  exact .begun hidle hrunning hpause
              · next hpause =>
                  obtain ⟨handled, hhandled, hpost⟩ := Option.map_eq_some_iff.mp htaken
                  cases hpost
                  exact .handled hidle hrunning hpause hhandled
          · cases htaken
      · cases htaken
  | resumed who call =>
      unfold HostState.resume at htaken
      dsimp only at htaken
      split at htaken
      · next hwork =>
          cases htaken
          exact .greeted hwork
      · next hwork =>
          obtain ⟨handled, hconcluded, hpost⟩ := Option.map_eq_some_iff.mp htaken
          cases hpost
          exact .concluded hwork hconcluded
      · cases htaken
      · cases htaken
  | ended who call =>
      dsimp only at htaken
      split at htaken
      · next hidle =>
          cases htaken
          exact .ended hidle
      · cases htaken
  | elsewhere input =>
      obtain ⟨took, hstep, hpost⟩ := Option.map_eq_some_iff.mp htaken
      cases hpost
      exact .elsewhere hstep

/-! ## Parts of a frame -/

section Parts

variable {config : ServerConfig} {state : ServerState} {frame : Frame} {call : Call}

/-- A handshake is its second part, on the counter as that part reads it. -/
theorem handleHello_of_decoded {hello : HelloPayload} {surroundings : Surroundings}
    (hdecoded : (decodeHello config.limits).toEnd frame.payload = some hello)
    (hdelivered : surroundings.delivered = true) :
    handleHello config state frame surroundings =
      greetSession config
        { state with nextSession := state.nextSession + 1 + surroundings.handedOut }
        frame.header hello surroundings.call := by
  unfold handleHello greetSession
  dsimp only
  rw [hdecoded]
  dsimp only [ServerState.withImpl]
  generalize (registerPublisher state.system.impl _ hello.publisher hello.workerBoot
    hello.requestedScopes _ surroundings.call).settle surroundings.call = registered
  obtain ⟨impl, granted⟩ := registered
  cases granted with
  | error error => rfl
  | ok granted =>
      dsimp only
      rw [hdelivered, Bool.and_true]

/-- A handshake pauses where it was understood. -/
theorem pauseOf_numbering {hello : HelloPayload}
    (h : pauseOf config state frame call = some (.numbering hello)) :
    frame.header.message = .hello ∧
      (decodeHello config.limits).toEnd frame.payload = some hello := by
  unfold pauseOf at h
  dsimp only at h
  split at h
  · next hhello =>
      obtain ⟨decoded, hdecoded, hpause⟩ := Option.map_eq_some_iff.mp h
      cases hpause
      exact ⟨hhello, hdecoded⟩
  · split at h
    · obtain ⟨request, -, hbegun⟩ := Option.bind_eq_some_iff.mp h
      split at hbegun
      · cases hbegun
      · cases hbegun
    · cases h

/-- What an evaluation is in when it pauses. -/
theorem pauseOf_evaluating {system : SystemState} {ticket : Nat}
    (h : pauseOf config state frame call = some (.evaluating system ticket)) :
    frame.header.message = .evaluateCandidates ∧ state.session.registered = true ∧
      identityMatches state.session frame.header = true ∧
      ∃ request, (decodeEvaluateRequest config.limits).toEnd frame.payload = some request ∧
        state.system.begin (contextFor state.system.impl state.session frame.header)
          request.setId request.candidates request.expectedGeneration call =
            (system, .evaluating ticket) := by
  unfold pauseOf at h
  dsimp only at h
  split at h
  · obtain ⟨decoded, -, hpause⟩ := Option.map_eq_some_iff.mp h
    cases hpause
  · split at h
    · next hserved =>
        obtain ⟨request, hrequest, hbegun⟩ := Option.bind_eq_some_iff.mp h
        split at hbegun
        · next hbegin =>
            cases hbegun
            exact ⟨hserved.1, hserved.2.1, hserved.2.2, request, hrequest, hbegin⟩
        · cases hbegun
    · cases h

/-- An evaluation is its two parts, with what was done between them. -/
theorem handleFrame_of_parts {system middle : SystemState} {ticket : Nat}
    {served : List Event} {finish : Call} {handled : Handled} {number : UInt64}
    (hpause : pauseOf config state frame call = some (.evaluating system ticket))
    (hrun : Run step system served middle)
    (hconcluded : concludeEvaluation config
      { state with system := middle, nextSession := number } frame.header ticket finish =
        some handled) :
    handleFrame config { state with nextSession := number } frame
      { call, finish, between := served.map (·.input) } = some handled := by
  obtain ⟨hmessage, hregistered, hidentity, request, hrequest, hbegin⟩ :=
    pauseOf_evaluating hpause
  unfold concludeEvaluation at hconcluded
  obtain ⟨⟨finished, reply⟩, hfinish, hreply⟩ := Option.bind_eq_some_iff.mp hconcluded
  cases reply with
  | evaluated outcome =>
      cases hreply
      have hevaluate : state.system.evaluate
          (contextFor state.system.impl state.session frame.header) request.setId
          request.candidates request.expectedGeneration
          { call, finish, between := served.map (·.input) } = some (finished, outcome) := by
        unfold SystemState.evaluate
        rw [hbegin]
        dsimp only
        rw [exec_of_run hrun]
        dsimp only [Option.bind]
        rw [hfinish]
      have hhello : frame.header.message ≠ .hello := by
        rw [hmessage]
        decide
      unfold handleFrame
      dsimp only
      rw [if_neg hhello, hregistered, hidentity, hmessage]
      unfold handleEvaluate
      dsimp only
      rw [hrequest]
      dsimp only
      rw [hevaluate]
      rfl
  | operated | populationRead | evaluating => cases hreply

/-- No frame but a handshake touches the counter of sessions. -/
theorem handleFrame_nextSession {surroundings : Surroundings} {handled : Handled}
    (hhello : frame.header.message ≠ .hello)
    (h : handleFrame config state frame surroundings = some handled) :
    handled.state.nextSession = state.nextSession := by
  unfold handleFrame at h
  dsimp only at h
  rw [if_neg hhello] at h
  split at h
  · cases h
    rfl
  · split at h
    · cases h
      rfl
    · split at h
      · cases h
        unfold handlePublish
        dsimp only
        split
        · rfl
        · rw [ServerState.respond_state]
          rfl
      · cases h
        unfold handleLifecycle
        dsimp only
        split
        · rfl
        · rw [ServerState.respond_state]
          rfl
      · unfold handleEvaluate at h
        dsimp only at h
        split at h
        · cases h
          rfl
        · obtain ⟨outcome, -, houtcome⟩ := Option.map_eq_some_iff.mp h
          rw [← houtcome, ServerState.respond_state]
      iterate 3
        · cases h
          exact congrArg ServerState.nextSession handleQuery_state
      all_goals
        cases h
        rfl

/-- A handshake that does not pause is refused. -/
theorem handleFrame_malformed {surroundings : Surroundings} {handled : Handled}
    (hhello : frame.header.message = .hello)
    (hpause : pauseOf config state frame call = none)
    (h : handleFrame config state frame surroundings = some handled) :
    handled.state = state := by
  unfold pauseOf at hpause
  dsimp only at hpause
  rw [if_pos hhello, Option.map_eq_none_iff] at hpause
  unfold handleFrame at h
  dsimp only at h
  rw [if_pos hhello] at h
  cases h
  unfold handleHello
  dsimp only
  rw [hpause]
  rfl

end Parts

/-! ## What the others do -/

section Others

variable {config : ServerConfig} {event : HostEvent}

/-- The connection is in the middle of a handshake: the counter is incremented and not read. -/
def LinkWork.isNumbering : LinkWork → Bool
  | .numbering _ _ => true
  | .idle | .evaluating _ _ | .over => false

/-- The event increments the counter of sessions. -/
def counts (event : HostEvent) : Bool :=
  match event.input with
  | .arrived who _ _ => (event.post.links who).work.isNumbering
  | .resumed _ _ | .ended _ _ | .elsewhere _ => false

/-- What a step does to what the connections share: it takes sections of the coordinator, or
numbers a session. -/
def Passes (event : HostEvent) : Prop :=
  (∃ served, Run step event.pre.system served event.post.system) ∧
      event.post.nextSession = event.pre.nextSession ∧ counts event = false ∨
    event.post.system = event.pre.system ∧
      event.post.nextSession = event.pre.nextSession + 1 ∧ counts event = true

theorem run_of_step {before after : SystemState} {input : Input} {reply : Reply}
    (h : step before input = some (after, reply)) : ∃ served, Run step before served after := by
  have htaken : Event.Taken step ⟨before, input, reply, after⟩ := h
  exact ⟨_, .cons htaken (.nil _)⟩

/-- A registration is one section of the coordinator. -/
theorem greetSession_passes {state : ServerState} {header : FrameHeader}
    {hello : HelloPayload} {call : Call} :
    (∃ served, Run step state.system served
      (greetSession config state header hello call).state.system) ∧
      (greetSession config state header hello call).state.nextSession = state.nextSession := by
  have hstate : ∃ context : AuthorityContext,
      (greetSession config state header hello call).state.system =
        { state.system with
          impl := ((registerPublisher state.system.impl context hello.publisher
            hello.workerBoot hello.requestedScopes ⟨state.nextSession⟩ call).settle call).1 } ∧
      (greetSession config state header hello call).state.nextSession = state.nextSession := by
    unfold greetSession
    dsimp only
    split
    · exact ⟨_, rfl, rfl⟩
    · exact ⟨_, rfl, rfl⟩
  obtain ⟨context, hsystem, hnumber⟩ := hstate
  refine ⟨?_, hnumber⟩
  rw [hsystem]
  obtain ⟨served, hrun, -⟩ := @Advances.operated (fun _ => False) _ _ _ state.system
    (.registerPublisher context hello.publisher hello.workerBoot hello.requestedScopes
      ⟨state.nextSession⟩) call rfl fun _ hnone => hnone.elim
  exact ⟨served, hrun⟩

theorem passes_of_moves (h : HostMoves config event) : Passes event := by
  cases h with
  | @counted host who frame call hello =>
      refine .inr ⟨rfl, rfl, ?_⟩
      unfold counts
      dsimp only
      rw [HostState.work_seat]
      rfl
  | @begun host who frame call system ticket _ _ hpause =>
      obtain ⟨-, -, -, request, -, hbegin⟩ := pauseOf_evaluating hpause
      have hstep : step host.system ⟨.evaluateBegin
          (contextFor host.system.impl (host.links who).session frame.header) request.setId
          request.candidates request.expectedGeneration, call⟩ =
            some (system, .evaluating ticket) := congrArg some hbegin
      refine .inl ⟨run_of_step hstep, rfl, ?_⟩
      unfold counts
      dsimp only
      rw [HostState.work_seat]
      rfl
  | @handled host who frame call handled _ _ hpause hhandled =>
      have hcounts : ∀ output, counts ⟨host, .arrived who frame call, output,
          host.seat who handled.state .idle⟩ = false := by
        intro output
        unfold counts
        dsimp only
        rw [HostState.work_seat]
        rfl
      by_cases hhello : frame.header.message = .hello
      · have hsame := handleFrame_malformed hhello hpause hhandled
        have hsystem : (host.seat who handled.state .idle).system = host.system :=
          congrArg ServerState.system hsame
        have hnumber : (host.seat who handled.state .idle).nextSession = host.nextSession :=
          congrArg ServerState.nextSession hsame
        refine .inl ⟨⟨[], ?_⟩, hnumber, hcounts _⟩
        rw [hsystem]
        exact .nil _
      · obtain ⟨-, served, hrun, -⟩ := handleFrame_other hhello hhandled
        exact .inl ⟨⟨served, hrun⟩, handleFrame_nextSession hhello hhandled, hcounts _⟩
  | greeted =>
      obtain ⟨hrun, hnumber⟩ := greetSession_passes
      exact .inl ⟨hrun, hnumber, rfl⟩
  | @concluded host who frame ticket call handled _ hconcluded =>
      unfold concludeEvaluation at hconcluded
      obtain ⟨⟨finished, reply⟩, hfinish, hreply⟩ := Option.bind_eq_some_iff.mp hconcluded
      have hstep : step host.system ⟨.evaluateFinish ticket, call⟩ = some (finished, reply) :=
        hfinish
      cases reply with
      | evaluated outcome =>
          cases hreply
          rw [ServerState.respond_state]
          exact .inl ⟨run_of_step hstep, rfl, rfl⟩
      | operated | populationRead | evaluating => cases hreply
  | @ended host who call hidle =>
      rcases hangUp_eq (host.view who) call with ⟨input, -, system, reply, hstep, hpost⟩ | hnone
      · rw [hpost]
        exact .inl ⟨run_of_step hstep, rfl, rfl⟩
      · rw [hnone.2]
        exact .inl ⟨⟨[], .nil _⟩, rfl, rfl⟩
  | elsewhere hstep => exact .inl ⟨run_of_step hstep, rfl, rfl⟩

/-- A step leaves the other connections as they were. -/
theorem links_of_moves {who : Nat} (h : HostMoves config event)
    (hother : event.input.actor ≠ some who) : event.post.links who = event.pre.links who := by
  cases h with
  | elsewhere => rfl
  | counted | begun | handled | greeted | concluded | ended =>
      exact HostState.links_seat_of_ne _ _ _ fun hsame => hother (congrArg some hsame.symm)

end Others

/-! ## One connection among the others -/

/-- A connection alone handles the frames and sends the replies, from the one state to the
other. -/
def Alone (config : ServerConfig) (start : ServerState) (requests replies : List Frame)
    (last : ServerState) : Prop :=
  ∃ shown, Run (serveStep config) start shown last ∧ shown.filterMap askedFrame = requests ∧
    sentFrames shown = replies

namespace Alone

variable {config : ServerConfig} {start state : ServerState} {requests replies : List Frame}

theorem snoc (h : Alone config start requests replies state) {activity : Activity}
    {output : List Frame} {after : ServerState}
    (hstep : serveStep config state activity = some (after, output)) :
    Alone config start
      (requests ++ (askedFrame ⟨state, activity, output, after⟩).toList)
      (replies ++ output) after := by
  obtain ⟨shown, hrun, hrequests, hreplies⟩ := h
  have htaken : Event.Taken (serveStep config) ⟨state, activity, output, after⟩ := hstep
  refine ⟨shown ++ [_], hrun.append (.cons htaken (.nil _)), ?_, ?_⟩
  · rw [List.filterMap_append, hrequests]
    cases hrequest : askedFrame ⟨state, activity, output, after⟩ <;> simp [hrequest]
  · rw [sentFrames_concat, hreplies]

/-- Other callers take sections of the coordinator. -/
theorem elsewhere (h : Alone config start requests replies state) {served : List Event}
    {system : SystemState} (hrun : Run step state.system served system) :
    Alone config start requests replies { state with system } := by
  suffices general : ∀ before events after, Run step before events after →
      Alone config start requests replies { state with system := before } →
      Alone config start requests replies { state with system := after } by
    exact general _ _ _ hrun h
  intro before events after hserved
  induction hserved with
  | nil => exact id
  | @cons event rest last htaken _ ih =>
      intro hbefore
      apply ih
      have hstep : serveStep config { state with system := event.pre } (.elsewhere event.input) =
          some ({ state with system := event.post }, []) := by
        unfold serveStep
        dsimp only
        rw [show step event.pre event.input = some (event.post, event.output) from htaken]
        rfl
      have hnext := hbefore.snoc hstep
      simpa [askedFrame] using hnext

/-- Another connection numbers a session. -/
theorem numbered (h : Alone config start requests replies state) :
    Alone config start requests replies
      { state with nextSession := state.nextSession + 1 } := by
  have hnext := @snoc _ _ _ _ _ h .numbered _ _ rfl
  simpa [askedFrame] using hnext

theorem frame (h : Alone config start requests replies state) {frame : Frame}
    {surroundings : Surroundings} {handled : Handled} (hrunning : state.running = true)
    (hhandled : handleFrame config state frame surroundings = some handled) :
    Alone config start (requests ++ [frame]) (replies ++ handled.replies config)
      handled.state := by
  have hstep : serveStep config state (.frame frame surroundings) =
      some (handled.state, handled.replies config) := by
    unfold serveStep
    dsimp only
    rw [if_pos hrunning, hhandled]
    rfl
  exact h.snoc hstep

end Alone

/-- What a connection of the server did so far, as if it were alone: the frame that it is in
the middle of is not handled yet, and the others acted before it, or between its sections. -/
inductive Watched (config : ServerConfig) (start : ServerState)
    (requests replies : List Frame) (state : ServerState) (work : LinkWork) : Prop
  | between : work = .idle ∨ work = .over → Alone config start requests replies state →
      Watched config start requests replies state work
  | numbering {frame : Frame} {hello : HelloPayload} {handled : List Frame}
      {number handedOut : UInt64} :
      work = .numbering frame hello → requests = handled ++ [frame] →
      state.running = true → frame.header.message = .hello →
      (decodeHello config.limits).toEnd frame.payload = some hello →
      state.nextSession = number + 1 + handedOut →
      Alone config start handled replies { state with nextSession := number } →
      Watched config start requests replies state work
  | evaluating {frame : Frame} {ticket : Nat} {call : Call} {handled : List Frame}
      {opened system : SystemState} {served : List Event} :
      work = .evaluating frame ticket → requests = handled ++ [frame] →
      state.running = true →
      pauseOf config { state with system := opened } frame call =
        some (.evaluating system ticket) →
      Run step system served state.system →
      Alone config start handled replies { state with system := opened } →
      Watched config start requests replies state work

namespace Watched

variable {config : ServerConfig} {start state : ServerState} {requests replies : List Frame}
  {work : LinkWork}

/-- Between two frames a connection did all that it was asked. -/
theorem alone (h : Watched config start requests replies state work)
    (hwork : work = .idle ∨ work = .over) : Alone config start requests replies state := by
  cases h with
  | between _ halone => exact halone
  | numbering hnumbering =>
      rw [hnumbering] at hwork
      rcases hwork with hwork | hwork <;> cases hwork
  | evaluating hevaluating =>
      rw [hevaluating] at hwork
      rcases hwork with hwork | hwork <;> cases hwork

/-- The others take sections of the coordinator. -/
theorem elsewhere (h : Watched config start requests replies state work) {served : List Event}
    {system : SystemState} (hrun : Run step state.system served system) :
    Watched config start requests replies { state with system } work := by
  cases h with
  | between hwork halone => exact .between hwork (halone.elsewhere hrun)
  | numbering hwork hrequests hrunning hmessage hdecoded hnumber halone =>
      exact .numbering hwork hrequests hrunning hmessage hdecoded hnumber (halone.elsewhere hrun)
  | evaluating hwork hrequests hrunning hpause hserved halone =>
      exact .evaluating hwork hrequests hrunning hpause (hserved.append hrun) halone

/-- Another connection numbers a session. -/
theorem numbered (h : Watched config start requests replies state work) :
    Watched config start requests replies { state with nextSession := state.nextSession + 1 }
      work := by
  cases h with
  | between hwork halone => exact .between hwork halone.numbered
  | @numbering frame hello handled number handedOut hwork hrequests hrunning hmessage hdecoded
      hnumber halone =>
      have hnext : state.nextSession + 1 = number + 1 + (handedOut + 1) := by
        rw [hnumber, UInt64.add_assoc (number + 1)]
      exact .numbering hwork hrequests hrunning hmessage hdecoded hnext halone
  | evaluating hwork hrequests hrunning hpause hserved halone =>
      exact .evaluating hwork hrequests hrunning hpause hserved halone.numbered

/-- A handshake goes on. -/
theorem greeted (h : Watched config start requests replies state work) {frame : Frame}
    {hello : HelloPayload} (hwork : work = .numbering frame hello) (call : Call) :
    Alone config start requests
      (replies ++ (greetSession config state frame.header hello call).replies config)
      (greetSession config state frame.header hello call).state := by
  cases h with
  | between hidle =>
      rw [hwork] at hidle
      rcases hidle with hidle | hidle <;> cases hidle
  | evaluating hevaluating =>
      rw [hwork] at hevaluating
      cases hevaluating
  | @numbering frame hello handled number handedOut hnumbering hrequests hrunning hmessage
      hdecoded hnumber halone =>
      rw [hwork] at hnumbering
      cases hnumbering
      have hhandled : handleFrame config { state with nextSession := number } frame
          { call, finish := call, handedOut } =
            some (greetSession config state frame.header hello call) := by
        unfold handleFrame
        dsimp only
        rw [if_pos hmessage, handleHello_of_decoded hdecoded rfl]
        dsimp only
        rw [← hnumber]
      rw [hrequests]
      exact halone.frame hrunning hhandled

/-- An evaluation is concluded. -/
theorem concluded (h : Watched config start requests replies state work) {frame : Frame}
    {ticket : Nat} {call : Call} {handled : Handled}
    (hwork : work = .evaluating frame ticket)
    (hconcluded : concludeEvaluation config state frame.header ticket call = some handled) :
    Alone config start requests (replies ++ handled.replies config) handled.state := by
  cases h with
  | between hidle =>
      rw [hwork] at hidle
      rcases hidle with hidle | hidle <;> cases hidle
  | numbering hnumbering =>
      rw [hwork] at hnumbering
      cases hnumbering
  | evaluating hevaluating hrequests hrunning hpause hserved halone =>
      rw [hwork] at hevaluating
      cases hevaluating
      have hhandled := handleFrame_of_parts hpause hserved hconcluded
      rw [hrequests]
      exact halone.frame hrunning hhandled

end Watched

section Projection

variable {config : ServerConfig} {start : ServerState} {requests replies : List Frame}
  {event : HostEvent} {who : Nat}

theorem arrivalOn_of_arrived {host post : HostState} {frame : Frame} {call : Call}
    {output : List Frame} :
    arrivalOn who ⟨host, .arrived who frame call, output, post⟩ = some frame := if_pos rfl

theorem sentOn_of_actor (h : event.input.actor = some who) : sentOn who event = event.output :=
  if_pos h

theorem arrivalOn_of_other (h : event.input.actor ≠ some who) : arrivalOn who event = none := by
  unfold arrivalOn
  cases hinput : event.input with
  | arrived other frame call =>
      rw [hinput] at h
      exact if_neg fun hsame => h (congrArg some hsame)
  | resumed | ended | elsewhere => rfl

/-- What one step of the server is to one of its connections. -/
theorem Watched.step
    (h : Watched config start requests replies (event.pre.view who)
      (event.pre.links who).work) (hmoves : HostMoves config event) :
    Watched config start (requests ++ (arrivalOn who event).toList)
      (replies ++ sentOn who event) (event.post.view who) (event.post.links who).work := by
  by_cases hactor : event.input.actor = some who
  · rw [sentOn_of_actor hactor]
    cases hmoves with
    | @counted host other frame call hello hidle hrunning hpause =>
        cases hactor
        obtain ⟨hmessage, hdecoded⟩ := pauseOf_numbering hpause
        have halone := h.alone (.inl hidle)
        rw [arrivalOn_of_arrived, List.append_nil, HostState.view_seat, HostState.work_seat]
        have hnumber : host.nextSession + 1 = host.nextSession + 1 + 0 :=
          (UInt64.add_zero _).symm
        exact .numbering rfl rfl hrunning hmessage hdecoded hnumber halone
    | @begun host other frame call system ticket hidle hrunning hpause =>
        cases hactor
        have halone := h.alone (.inl hidle)
        rw [arrivalOn_of_arrived, List.append_nil, HostState.view_seat, HostState.work_seat]
        exact .evaluating rfl rfl hrunning hpause (.nil _) halone
    | @handled host other frame call handled hidle hrunning hpause hhandled =>
        cases hactor
        have halone := (h.alone (.inl hidle)).frame hrunning hhandled
        rw [arrivalOn_of_arrived, HostState.view_seat, HostState.work_seat]
        exact .between (.inl rfl) halone
    | @greeted host other frame hello call hwork =>
        cases hactor
        have halone := h.greeted hwork call
        rw [HostState.view_seat, HostState.work_seat]
        refine .between (.inl rfl) ?_
        rw [show arrivalOn who _ = none from rfl, Option.toList_none, List.append_nil]
        exact halone
    | @concluded host other frame ticket call handled hwork hconcluded =>
        cases hactor
        have halone := h.concluded hwork hconcluded
        rw [HostState.view_seat, HostState.work_seat]
        refine .between (.inl rfl) ?_
        rw [show arrivalOn who _ = none from rfl, Option.toList_none, List.append_nil]
        exact halone
    | @ended host other call hidle =>
        cases hactor
        have halone := h.alone (.inl hidle)
        rw [HostState.view_seat, HostState.work_seat]
        refine .between (.inr rfl) ?_
        rw [show arrivalOn who _ = none from rfl, Option.toList_none, List.append_nil,
          List.append_nil]
        rcases hangUp_eq (host.view who) call with
          ⟨input, -, system, reply, hstep, hpost⟩ | hnone
        · obtain ⟨served, hrun⟩ := run_of_step hstep
          rw [hpost]
          exact halone.elsewhere hrun
        · rw [hnone.2]
          exact halone
    | elsewhere => cases hactor
  · have hlink := links_of_moves hmoves hactor
    rw [arrivalOn_of_other hactor, show sentOn who event = [] from if_neg hactor,
      Option.toList_none, List.append_nil, List.append_nil]
    have hview : event.post.view who =
        { event.pre.view who with
          system := event.post.system, nextSession := event.post.nextSession } := by
      unfold HostState.view
      rw [hlink]
    rw [hview, hlink]
    rcases passes_of_moves hmoves with ⟨⟨served, hrun⟩, hnumber, -⟩ | ⟨hsystem, hnumber, -⟩
    · rw [hnumber]
      exact h.elsewhere hrun
    · rw [hsystem, hnumber]
      exact h.numbered

/-- Whatever the order in which the server takes the parts of its connections' frames, each
connection that is not in the middle of a frame did what it does alone, on exactly the frames
that came on it, and with exactly the frames that were sent on it; the other connections are
callers that take sections before its frames and between their parts. -/
theorem connection_of_host {events : List HostEvent} {host last : HostState}
    (h : Run (hostStep config) host events last) (who : Nat)
    (hidle : (host.links who).work = .idle)
    (hwork : (last.links who).work = .idle ∨ (last.links who).work = .over) :
    ∃ shown, Run (serveStep config) (host.view who) shown (last.view who) ∧
      shown.filterMap askedFrame = events.filterMap (arrivalOn who) ∧
      sentFrames shown = events.flatMap (sentOn who) := by
  have hwatched : (fun done state => Watched config (host.view who)
      (done.filterMap (arrivalOn who)) (done.flatMap (sentOn who)) (HostState.view state who)
      (state.links who).work) events last := by
    apply h.history_invariant
    · exact .between (.inl hidle) ⟨[], .nil _, rfl, rfl⟩
    · intro before event after _ htaken hbefore
      have hnext := hbefore.step (hostMoves_of_taken htaken)
      rw [List.filterMap_append, List.flatMap_append, List.flatMap_singleton]
      cases harrival : arrivalOn who event with
      | none =>
          rw [harrival] at hnext
          rw [List.filterMap_cons_none harrival]
          exact hnext
      | some frame =>
          rw [harrival] at hnext
          rw [List.filterMap_cons_some harrival]
          exact hnext
  exact hwatched.alone hwork

end Projection

/-! ## Two workers at once -/

/-- The first frame of the sample worker's next boot. -/
def sampleNextHello : Frame := sampleHello ⟨1⟩ ⟨4343⟩ 2

/-- Two boots of a worker connect at the same time. -/
def sampleArrivals : List HostInput :=
  [.arrived 0 (sampleHello ⟨1⟩ ⟨4242⟩ 1) sampleCall, .resumed 0 sampleCall,
   .arrived 1 sampleNextHello sampleCall, .resumed 1 sampleCall]

/-- A run of the server on a coordinator that was just opened. -/
def sampleHost (inputs : List HostInput) : Option (List HostEvent × HostState) :=
  match openInMemory sampleConfig sampleCall with
  | .ok impl => exec (hostStep {}) { system := { impl } } inputs
  | .error _ => none

private def rests (who : Nat) (host : HostState) : Bool :=
  match (host.links who).work with
  | .idle => (host.links who).session.registered
  | _ => false

private theorem sampleHost_rests :
    ((sampleHost sampleArrivals).any fun run => rests 0 run.2 && rests 1 run.2) = true := by
  decide +kernel

private theorem idle_of_rests {who : Nat} {host : HostState} (h : rests who host = true) :
    (host.links who).work = .idle ∧ (host.links who).session.registered = true := by
  unfold rests at h
  split at h
  · next hidle => exact ⟨hidle, h⟩
  · cases h

theorem arrivals_of_run {config : ServerConfig} {start last : HostState}
    {events : List HostEvent} {inputs : List HostInput}
    (h : exec (hostStep config) start inputs = some (events, last)) (who : Nat) :
    events.filterMap (arrivalOn who) =
      inputs.filterMap fun input => arrivalOn who ⟨start, input, [], start⟩ := by
  rw [← inputs_of_exec h, List.filterMap_map]
  rfl

theorem connection_of_host_sample :
    ∃ events last shown, sampleHost sampleArrivals = some (events, last) ∧
      (last.links 0).session.registered = true ∧ (last.links 1).session.registered = true ∧
      (∃ start, Run (serveStep {}) start shown (last.view 1)) ∧
      shown.filterMap askedFrame = [sampleNextHello] := by
  obtain ⟨⟨events, last⟩, hrun, hcheck⟩ := (Option.any_eq_true _ _).mp sampleHost_rests
  simp only [Bool.and_eq_true] at hcheck
  obtain ⟨hfirst, hsecond⟩ := hcheck
  obtain ⟨-, hregistered⟩ := idle_of_rests hfirst
  obtain ⟨hidle, hnext⟩ := idle_of_rests hsecond
  unfold sampleHost at hrun
  split at hrun
  · next impl hopened =>
      obtain ⟨shown, hshown, hrequests, -⟩ :=
        connection_of_host (Run.of_exec hrun) 1 rfl (.inl hidle)
      refine ⟨events, last, shown, ?_, hregistered, hnext, ⟨_, hshown⟩, ?_⟩
      · unfold sampleHost
        rw [hopened]
        exact hrun
      · rw [hrequests, arrivals_of_run hrun 1]
        rfl
  · cases hrun

end ConstraintRouting.Fabric
