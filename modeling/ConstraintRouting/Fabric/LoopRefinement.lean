import ConstraintRouting.Fabric.ServeLoop
import ConstraintRouting.Verified.Views

/-!
# The loop refines the connection

The connection is given whole frames.  What the loop does on the bytes of a peer is what the
connection does on the frames that the loop takes off its buffer; the end of the loop is one
more section of the coordinator.  So what holds of every run of a connection holds of the
loop.
-/

namespace ConstraintRouting.Fabric

open Verified.StepMachine

/-! ## What the connection sees -/

/-- The section that gives up the session of a connection. -/
def ServerState.givesUp (state : ServerState) (call : Call) : Option Input :=
  if state.session.registered then
    some ⟨.operate (.fenceOnSessionLoss state.session.session), call⟩
  else none

/-- The activity of the connection that an event of the loop is. -/
def activityOf (event : ServeEvent) : Option Activity :=
  match event.input with
  | .next surroundings => (frameOf event).map (.frame · surroundings)
  | .givenUp call => (event.pre.server.givesUp call).map .elsewhere
  | .elsewhere input => some (.elsewhere input)
  | .numbered => some .numbered
  | .received _ | .closed => none

/-- The event as the connection sees it. -/
def connectionEvent (event : ServeEvent) : Option ServerEvent :=
  (activityOf event).map fun activity =>
    ⟨event.pre.server, activity, event.output, event.post.server⟩

def connectionEvents (events : List ServeEvent) : List ServerEvent :=
  events.filterMap connectionEvent

/-- The frames that a run sends. -/
def sentFrames {σ ι : Type} (events : List (Verified.StepMachine.Event σ ι (List Frame))) :
    List Frame :=
  events.flatMap (·.output)

/-! ## Steps -/

section Steps

variable {config : ServerConfig} {event : ServeEvent}

/-- A frame that is proceeded from leaves the connection as it was: it runs. -/
theorem running_of_proceed {state : ServerState} {frame : Frame} {surroundings : Surroundings}
    {handled : Handled} (h : handleFrame config state frame surroundings = some handled)
    (hproceed : handled.proceed = true) : handled.state.running = state.running := by
  unfold handleFrame at h
  dsimp only at h
  split at h
  · cases h
    unfold handleHello
    dsimp only
    split
    · rfl
    · split <;> rfl
  · split at h
    · cases h
      rfl
    · split at h
      · cases h
        rfl
      · split at h
        · cases h
          unfold handlePublish
          dsimp only
          split
          · rfl
          · rw [ServerState.respond_state]
            rfl
        · cases h
          unfold handleLifecycle
          dsimp only
          split
          · rfl
          · rw [ServerState.respond_state]
            rfl
        · unfold handleEvaluate at h
          dsimp only at h
          split at h
          · cases h
            rfl
          · obtain ⟨outcome, -, houtcome⟩ := Option.map_eq_some_iff.mp h
            rw [← houtcome, ServerState.respond_state]
        iterate 3
          · cases h
            exact congrArg ServerState.running handleQuery_state
        · cases h
          rfl
        · cases h
          cases hproceed
        · cases h
          rfl

/-- The loop goes on only while the connection runs. -/
def ServeState.Runs (serving : ServeState) : Prop :=
  serving.Open → serving.server.running = true

theorem not_open_of_ending {serving : ServeState} (h : serving.phase = .ending) :
    ¬ serving.Open := by
  unfold ServeState.Open
  rw [h]
  intro hopen
  rcases hopen with hopen | hopen <;> cases hopen

theorem running_of_await {server : ServerState} {assembler : FrameAssembler}
    (h : ServeState.Open ⟨server, assembler, ServeState.await server⟩) :
    server.running = true := by
  cases hrunning : server.running with
  | true => rfl
  | false =>
      unfold ServeState.Open ServeState.await at h
      rw [hrunning] at h
      rcases h with h | h <;> cases h

theorem ServeState.Runs.step (h : event.pre.Runs) (hlooped : Looped config event) :
    event.post.Runs := by
  intro hopen
  cases hlooped with
  | buffered hphase => exact h (.inl hphase)
  | overran => exact absurd hopen (not_open_of_ending rfl)
  | waited => exact running_of_await hopen
  | broken => exact absurd hopen (not_open_of_ending rfl)
  | @handled serving surroundings after frame handled hphase hpop hhandled =>
      have hrunning := h (.inr hphase)
      cases hproceed : handled.proceed with
      | true => exact (running_of_proceed hhandled hproceed).trans hrunning
      | false =>
          unfold ServeState.phaseAfter at hopen
          rw [hproceed, if_neg Bool.false_ne_true] at hopen
          exact running_of_await hopen
  | closed => exact absurd hopen (not_open_of_ending rfl)
  | givenUp => rcases hopen with hopen | hopen <;> cases hopen
  | elsewhere => exact h hopen
  | numbered => exact h hopen

theorem hangUp_eq (state : ServerState) (call : Call) :
    (∃ input, state.givesUp call = some input ∧
      ∃ system reply, Fabric.step state.system input = some (system, reply) ∧
        hangUp state call = { state with system }) ∨
    (state.givesUp call = none ∧ hangUp state call = state) := by
  unfold ServerState.givesUp hangUp
  cases state.session.registered with
  | false => exact .inr ⟨rfl, rfl⟩
  | true =>
      refine .inl ⟨_, rfl, _, _, rfl, ?_⟩
      unfold Operation.run Operation.stage
      dsimp only
      rw [Staged.map_settle_fst]
      rfl

/-- An event is an activity of the connection, or leaves its server as it is. -/
theorem shown_of_looped (h : event.pre.Runs) (hlooped : Looped config event) :
    Shown ServeState.server connectionEvent (serveStep config) event := by
  cases hlooped with
  | buffered => exact .hidden rfl rfl
  | overran => exact .hidden rfl rfl
  | @waited serving surroundings after hphase hpop =>
      refine .hidden ?_ rfl
      unfold connectionEvent activityOf
      dsimp only
      rw [frameOf_of_pop hpop]
      rfl
  | @broken serving surroundings after error hphase hpop =>
      refine .hidden ?_ rfl
      unfold connectionEvent activityOf
      dsimp only
      rw [frameOf_of_broken hpop]
      rfl
  | @handled serving surroundings after frame handled hphase hpop hhandled =>
      have hseen : ∀ output post,
          connectionEvent ⟨serving, .next surroundings, output, post⟩ =
            some ⟨serving.server, .frame frame surroundings, output, post.server⟩ := by
        intro output post
        unfold connectionEvent activityOf
        dsimp only
        rw [frameOf_of_pop hpop]
        rfl
      refine .seen (hseen _ _) ?_ rfl rfl
      show serveStep config serving.server (.frame frame surroundings) = _
      unfold serveStep
      dsimp only
      rw [if_pos (h (.inr hphase)), hhandled]
      rfl
  | closed => exact .hidden rfl rfl
  | @givenUp serving call =>
      rcases hangUp_eq serving.server call with ⟨input, hinput, system, reply, hstep, hpost⟩ | hnone
      · have hseen : ∀ output post, connectionEvent ⟨serving, .givenUp call, output, post⟩ =
            some ⟨serving.server, .elsewhere input, output, post.server⟩ := by
          intro output post
          unfold connectionEvent activityOf
          dsimp only
          rw [hinput]
          rfl
        refine .seen (hseen _ _) ?_ rfl rfl
        show serveStep config serving.server (.elsewhere input) = _
        unfold serveStep
        dsimp only
        rw [hstep, hpost]
        rfl
      · obtain ⟨hinput, hpost⟩ := hnone
        refine .hidden ?_ hpost
        unfold connectionEvent activityOf
        dsimp only
        rw [hinput]
        rfl
  | @elsewhere serving input system reply hstep =>
      refine .seen rfl ?_ rfl rfl
      show serveStep config serving.server (.elsewhere input) = _
      unfold serveStep
      dsimp only
      rw [hstep]
      rfl
  | numbered => exact .seen rfl rfl rfl rfl

/-- The frame of an event is the frame that the connection handles. -/
def askedFrame (event : ServerEvent) : Option Frame :=
  match event.input with
  | .frame frame _ => some frame
  | .elsewhere _ | .numbered => none

theorem askedFrame_connectionEvent (event : ServeEvent) :
    (connectionEvent event).bind askedFrame = frameOf event := by
  unfold connectionEvent activityOf
  cases hinput : event.input with
  | next surroundings =>
      dsimp only
      cases hframe : frameOf event <;> rfl
  | givenUp call =>
      have hframe : frameOf event = none := by
        unfold frameOf
        rw [hinput]
      rw [hframe]
      dsimp only
      cases event.pre.server.givesUp call <;> rfl
  | received | closed | elsewhere | numbered =>
      unfold frameOf
      rw [hinput]
      rfl

/-- A report that an error of the assembler leaves is all that the connection does not see of
what a run sends. -/
structure Reported (events : List ServeEvent) (serving : ServeState) (report : List Frame) :
    Prop where
  sent : sentFrames events = sentFrames (connectionEvents events) ++ report
  single : report.length ≤ 1
  outside : ∀ frame ∈ report, frame.header.message = .errorReport ∧ frame.header.request = {}
  left : report ≠ [] → ¬ serving.Open

variable {before : List ServeEvent} {report : List Frame}

theorem sentFrames_concat {σ ι : Type}
    (before : List (Verified.StepMachine.Event σ ι (List Frame)))
    (event : Verified.StepMachine.Event σ ι (List Frame)) :
    sentFrames (before ++ [event]) = sentFrames before ++ event.output := by
  unfold sentFrames
  rw [List.flatMap_append, List.flatMap_singleton]

theorem sentFrames_seen {shown : ServerEvent} (h : connectionEvent event = some shown) :
    sentFrames (connectionEvents (before ++ [event])) =
      sentFrames (connectionEvents before) ++ event.output := by
  have houtput : shown.output = event.output := by
    unfold connectionEvent at h
    obtain ⟨activity, -, hshown⟩ := Option.map_eq_some_iff.mp h
    rw [← hshown]
  unfold connectionEvents
  rw [List.filterMap_append, List.filterMap_cons_some h, List.filterMap_nil,
    sentFrames_concat, houtput]

theorem sentFrames_hidden (h : connectionEvent event = none) :
    sentFrames (connectionEvents (before ++ [event])) =
      sentFrames (connectionEvents before) := by
  unfold connectionEvents
  rw [List.filterMap_append, List.filterMap_cons_none h, List.filterMap_nil, List.append_nil]

/-- An event that sends nothing. -/
theorem Reported.quiet (h : Reported before event.pre report) (houtput : event.output = [])
    (hopen : event.post.Open → event.pre.Open) :
    Reported (before ++ [event]) event.post report := by
  refine ⟨?_, h.single, h.outside, ?_⟩
  · rw [sentFrames_concat, houtput, List.append_nil, h.sent]
    cases hseen : connectionEvent event with
    | none => rw [sentFrames_hidden hseen]
    | some shown => rw [sentFrames_seen hseen, houtput, List.append_nil]
  · intro hne hpost
    exact h.left hne (hopen hpost)

/-- An event of a loop that goes on. -/
theorem Reported.nil_of_open (h : Reported before event.pre report) (hopen : event.pre.Open) :
    report = [] := by
  by_contra hne
  exact h.left hne hopen

/-- The report after an error of the assembler. -/
theorem Reported.abandoned {reason : ReasonCode} {error : Error}
    (h : Reported before event.pre report) (hopen : event.pre.Open)
    (hseen : connectionEvent event = none)
    (houtput : event.output = [sendError config event.pre.server.system.impl
      event.pre.server.session {} error.code reason error.detail].filter config.sends)
    (hphase : event.post.phase = .ending) :
    Reported (before ++ [event]) event.post event.output := by
  refine ⟨?_, ?_, ?_, fun _ => not_open_of_ending hphase⟩
  · rw [sentFrames_concat, sentFrames_hidden hseen, h.sent, h.nil_of_open hopen, List.append_nil]
  · rw [houtput]
    exact List.length_filter_le _ _
  · rw [houtput]
    intro frame hmem
    obtain ⟨hreport, -⟩ := List.mem_filter.mp hmem
    rw [List.mem_singleton.mp hreport]
    exact ⟨rfl, rfl⟩

theorem Reported.step (h : Reported before event.pre report) (hlooped : Looped config event) :
    ∃ later, Reported (before ++ [event]) event.post later := by
  cases hlooped with
  | buffered hphase => exact ⟨_, h.quiet rfl fun _ => .inl hphase⟩
  | overran hphase => exact ⟨_, h.abandoned (.inl hphase) rfl rfl rfl⟩
  | waited hphase => exact ⟨_, h.quiet rfl fun _ => .inr hphase⟩
  | broken hphase hpop =>
      refine ⟨_, h.abandoned (.inr hphase) ?_ rfl rfl⟩
      unfold connectionEvent activityOf
      dsimp only
      rw [frameOf_of_broken hpop]
      rfl
  | @handled serving surroundings after frame handled hphase hpop hhandled =>
      have hseen : connectionEvent ⟨serving, .next surroundings, handled.replies config,
          ⟨handled.state, after, ServeState.phaseAfter handled⟩⟩ =
            some ⟨serving.server, .frame frame surroundings, handled.replies config,
              handled.state⟩ := by
        unfold connectionEvent activityOf
        dsimp only
        rw [frameOf_of_pop hpop]
        rfl
      obtain rfl := h.nil_of_open (.inr hphase)
      refine ⟨[], ?_, Nat.zero_le _, (fun _ hmem => nomatch hmem), (fun hne => absurd rfl hne)⟩
      rw [sentFrames_concat, sentFrames_seen hseen, h.sent, List.append_nil, List.append_nil]
  | closed hphase => exact ⟨_, h.quiet rfl fun _ => .inl hphase⟩
  | givenUp =>
      refine ⟨_, h.quiet rfl ?_⟩
      intro hopen
      rcases hopen with hopen | hopen <;> cases hopen
  | elsewhere => exact ⟨_, h.quiet rfl id⟩
  | numbered => exact ⟨_, h.quiet rfl id⟩

end Steps

/-! ## Runs -/

/-- What the loop does on the bytes of a peer is a run of the connection, from the server
that it was opened with to the one that it leaves, on exactly the frames that the loop
handled; the loop sends what the connection sends, and after that at most one report, outside
any request, when it gave up what it was sent. -/
theorem loop_refines_connection {config : ServerConfig} {server : ServerState}
    {events : List ServeEvent} {last : ServeState}
    (h : Run (serveLoop config) (.opened config server) events last)
    (hrunning : server.running = true) :
    Run (serveStep config) server (connectionEvents events) last.server ∧
    (connectionEvents events).filterMap askedFrame = handledFrames events ∧
    ∃ report, sentFrames events = sentFrames (connectionEvents events) ++ report ∧
      report.length ≤ 1 ∧
      (∀ frame ∈ report, frame.header.message = .errorReport ∧ frame.header.request = {}) ∧
      (report ≠ [] → last.phase = .ending ∨ last.phase = .over) := by
  have hruns : ServeState.Runs (.opened config server) := fun _ => hrunning
  refine ⟨?_, ?_, ?_⟩
  · exact h.shown hruns (fun _ _ htaken hinv => hinv.step (looped_of_taken htaken))
      fun _ _ htaken hinv => shown_of_looped hinv (looped_of_taken htaken)
  · unfold connectionEvents handledFrames
    rw [List.filterMap_filterMap]
    exact List.filterMap_congr fun event _ => askedFrame_connectionEvent event
  · have hreported : (fun done serving => ∃ report, Reported done serving report)
        events last := by
      apply h.history_invariant
      · exact ⟨[], rfl, Nat.zero_le _, (fun _ hmem => nomatch hmem), (fun hne => absurd rfl hne)⟩
      · intro before event after _ htaken hinv
        obtain ⟨report, hreport⟩ := hinv
        exact hreport.step (looped_of_taken htaken)
    obtain ⟨report, hreport⟩ := hreported
    refine ⟨report, hreport.sent, hreport.single, hreport.outside, ?_⟩
    intro hne
    have hleft := hreport.left hne
    unfold ServeState.Open at hleft
    cases hphase : last.phase with
    | receiving => exact absurd (.inl hphase) hleft
    | draining => exact absurd (.inr hphase) hleft
    | ending => exact .inl rfl
    | _ => exact .inr rfl

theorem loop_refines_connection_sample :
    ∃ impl events last, openInMemory sampleConfig sampleCall = .ok impl ∧
      Run (serveLoop {}) (.opened {} { system := { impl } }) events last ∧
      handledFrames events = [sampleHelloFrame] ∧
      Run (serveStep {}) { system := { impl } } (connectionEvents events) last.server ∧
      (connectionEvents events).filterMap askedFrame = [sampleHelloFrame] := by
  obtain ⟨impl, hopened, -⟩ := sample_greets
  obtain ⟨events, last, hrun, hhandled, -⟩ := hello_looped impl
  obtain ⟨hconnection, hframes, -⟩ := loop_refines_connection hrun rfl
  exact ⟨impl, events, last, hopened, hrun, hhandled, hconnection, hframes.trans hhandled⟩

end ConstraintRouting.Fabric
