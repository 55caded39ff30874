import ConstraintRouting.Fabric.Handshakes

/-!
# The loop of a connection

The server reads bytes as they come, buffers them, takes the whole frames off the buffer and
handles them one by one.  Between any two of these steps other callers act.  The loop handles
exactly the frames that its peer sent, each once and in order, so what it does is what the
connection does that is given whole frames.
-/

namespace ConstraintRouting.Fabric

open Verified.StepMachine

/-! ## The loop -/

/-- Where the loop stands: it waits for bytes, takes frames off its buffer, has been left, or
has given up the session of the connection. -/
inductive ServePhase where
  | receiving | draining | ending | over
deriving DecidableEq

structure ServeState where
  server : ServerState
  assembler : FrameAssembler
  phase : ServePhase := .receiving

/-- What happens while a connection is served: bytes come, the next frame is taken off the
buffer, the peer closes or the server stops, the session is given up, another caller takes a
section, or another connection numbers a session. -/
inductive ServeInput where
  | received (chunk : List UInt8)
  | next (surroundings : Surroundings)
  | closed
  | givenUp (call : Call)
  | elsewhere (input : Input)
  | numbered

namespace ServeState

/-- The loop is left after an error of the assembler, which is reported outside any
request. -/
def abandon (config : ServerConfig) (serving : ServeState) (assembler : FrameAssembler)
    (reason : ReasonCode) (error : Error) : ServeState × List Frame :=
  let state := serving.server
  let report := sendError config state.system.impl state.session {} error.code reason
    error.detail
  ({ serving with assembler, phase := .ending }, [report].filter config.sends)

/-- Bytes have come. -/
def receive (config : ServerConfig) (serving : ServeState) (chunk : List UInt8) :
    ServeState × List Frame :=
  match serving.assembler.push chunk with
  | (assembler, .error error) => serving.abandon config assembler .oversizedVector error
  | (assembler, .ok ()) => ({ serving with assembler, phase := .draining }, [])

/-- The loop waits for bytes as long as the connection runs. -/
def await (server : ServerState) : ServePhase :=
  if server.running then .receiving else .ending

/-- The phase after a frame.  A frame that is not proceeded from leaves the frames behind it
in the buffer until more bytes come. -/
def phaseAfter (handled : Handled) : ServePhase :=
  if handled.proceed then .draining else await handled.state

/-- The next frame is taken off the buffer and handled. -/
def drain (config : ServerConfig) (serving : ServeState) (surroundings : Surroundings) :
    Option (ServeState × List Frame) :=
  match serving.assembler.pop with
  | (assembler, .error error) => some (serving.abandon config assembler .malformedFrame error)
  | (assembler, .ok none) =>
      some ({ serving with assembler, phase := await serving.server }, [])
  | (assembler, .ok (some frame)) =>
      (handleFrame config serving.server frame surroundings).map fun handled =>
        ({ server := handled.state, assembler, phase := phaseAfter handled },
          handled.replies config)

end ServeState

/-- One step of the loop, or of what surrounds it. -/
def serveLoop (config : ServerConfig) (serving : ServeState) :
    ServeInput → Option (ServeState × List Frame)
  | .received chunk =>
      if serving.phase = .receiving && !chunk.isEmpty then some (serving.receive config chunk)
      else none
  | .next surroundings =>
      if serving.phase = .draining then serving.drain config surroundings else none
  | .closed =>
      if serving.phase = .receiving then some ({ serving with phase := .ending }, []) else none
  | .givenUp call =>
      if serving.phase = .ending then
        some ({ serving with server := hangUp serving.server call, phase := .over }, [])
      else none
  | .elsewhere input =>
      (step serving.server.system input).map fun (system, _) =>
        ({ serving with server := { serving.server with system } }, [])
  | .numbered =>
      some ({ serving with server :=
        { serving.server with nextSession := serving.server.nextSession + 1 } }, [])

/-- A connection that was just accepted. -/
def ServeState.opened (config : ServerConfig) (server : ServerState) : ServeState :=
  { server, assembler := { limits := config.limits } }

/-- One step of the loop that was taken. -/
abbrev ServeEvent := Verified.StepMachine.Event ServeState ServeInput (List Frame)

/-- What one step of the loop is. -/
inductive Looped (config : ServerConfig) : ServeEvent → Prop
  | buffered {serving : ServeState} {chunk : List UInt8} {after : FrameAssembler} :
      serving.phase = .receiving → serving.assembler.push chunk = (after, .ok ()) →
      Looped config
        ⟨serving, .received chunk, [], { serving with assembler := after, phase := .draining }⟩
  | overran {serving : ServeState} {chunk : List UInt8} {after : FrameAssembler}
      {error : Error} :
      serving.phase = .receiving → serving.assembler.push chunk = (after, .error error) →
      Looped config
        ⟨serving, .received chunk, (serving.abandon config after .oversizedVector error).2,
          (serving.abandon config after .oversizedVector error).1⟩
  | waited {serving : ServeState} {surroundings : Surroundings} {after : FrameAssembler} :
      serving.phase = .draining → serving.assembler.pop = (after, .ok none) →
      Looped config
        ⟨serving, .next surroundings, [],
          { serving with assembler := after, phase := ServeState.await serving.server }⟩
  | broken {serving : ServeState} {surroundings : Surroundings} {after : FrameAssembler}
      {error : Error} :
      serving.phase = .draining → serving.assembler.pop = (after, .error error) →
      Looped config
        ⟨serving, .next surroundings, (serving.abandon config after .malformedFrame error).2,
          (serving.abandon config after .malformedFrame error).1⟩
  | handled {serving : ServeState} {surroundings : Surroundings} {after : FrameAssembler}
      {frame : Frame} {handled : Handled} :
      serving.phase = .draining → serving.assembler.pop = (after, .ok (some frame)) →
      handleFrame config serving.server frame surroundings = some handled →
      Looped config
        ⟨serving, .next surroundings, handled.replies config,
          { server := handled.state, assembler := after, phase := ServeState.phaseAfter handled }⟩
  | closed {serving : ServeState} : serving.phase = .receiving →
      Looped config ⟨serving, .closed, [], { serving with phase := .ending }⟩
  | givenUp {serving : ServeState} {call : Call} : serving.phase = .ending →
      Looped config ⟨serving, .givenUp call, [],
        { serving with server := hangUp serving.server call, phase := .over }⟩
  | elsewhere {serving : ServeState} {input : Input} {system : SystemState} {reply : Reply} :
      step serving.server.system input = some (system, reply) →
      Looped config ⟨serving, .elsewhere input, [],
        { serving with server := { serving.server with system } }⟩
  | numbered {serving : ServeState} :
      Looped config ⟨serving, .numbered, [],
        { serving with server :=
          { serving.server with nextSession := serving.server.nextSession + 1 } }⟩

theorem looped_of_taken {config : ServerConfig} {event : ServeEvent}
    (htaken : event.Taken (serveLoop config)) : Looped config event := by
  obtain ⟨serving, input, output, post⟩ := event
  unfold Event.Taken serveLoop at htaken
  dsimp only at htaken
  cases input with
  | received chunk =>
      dsimp only at htaken
      split at htaken
      · next hready =>
          rw [Bool.and_eq_true, decide_eq_true_eq] at hready
          obtain ⟨hphase, -⟩ := hready
          unfold ServeState.receive at htaken
          split at htaken
          · next hpush =>
              cases htaken
              exact .overran hphase hpush
          · next hpush =>
              cases htaken
              exact .buffered hphase hpush
      · cases htaken
  | next surroundings =>
      dsimp only at htaken
      split at htaken
      · next hphase =>
          unfold ServeState.drain at htaken
          split at htaken
          · next hpop =>
              cases htaken
              exact .broken hphase hpop
          · next hpop =>
              cases htaken
              exact .waited hphase hpop
          · next hpop =>
              obtain ⟨handled, hhandled, hpost⟩ := Option.map_eq_some_iff.mp htaken
              cases hpost
              exact .handled hphase hpop hhandled
      · cases htaken
  | closed =>
      dsimp only at htaken
      split at htaken
      · next hphase =>
          cases htaken
          exact .closed hphase
      · cases htaken
  | givenUp call =>
      dsimp only at htaken
      split at htaken
      · next hphase =>
          cases htaken
          exact .givenUp hphase
      · cases htaken
  | elsewhere input =>
      obtain ⟨took, hstep, hpost⟩ := Option.map_eq_some_iff.mp htaken
      cases hpost
      exact .elsewhere hstep
  | numbered =>
      cases htaken
      exact .numbered

/-! ## What a run receives and handles -/

/-- The bytes that came with the event. -/
def bytesOf (event : ServeEvent) : List UInt8 :=
  match event.input with
  | .received chunk => chunk
  | _ => []

/-- The frame that the event handled. -/
def frameOf (event : ServeEvent) : Option Frame :=
  match event.input with
  | .next _ =>
      match event.pre.assembler.pop with
      | (_, .ok produced) => produced
      | (_, .error _) => none
  | _ => none

def receivedBytes (events : List ServeEvent) : List UInt8 := events.flatMap bytesOf

def handledFrames (events : List ServeEvent) : List Frame := events.filterMap frameOf

theorem receivedBytes_concat (before : List ServeEvent) (event : ServeEvent) :
    receivedBytes (before ++ [event]) = receivedBytes before ++ bytesOf event := by
  unfold receivedBytes
  rw [List.flatMap_append, List.flatMap_singleton]

theorem handledFrames_concat (before : List ServeEvent) (event : ServeEvent) :
    handledFrames (before ++ [event]) = handledFrames before ++ (frameOf event).toList := by
  unfold handledFrames
  rw [List.filterMap_append]
  cases hframe : frameOf event <;> simp [hframe]

theorem frameOf_of_pop {serving post : ServeState} {surroundings : Surroundings}
    {output : List Frame} {after : FrameAssembler} {produced : Option Frame}
    (h : serving.assembler.pop = (after, .ok produced)) :
    frameOf ⟨serving, .next surroundings, output, post⟩ = produced := by
  unfold frameOf
  dsimp only
  rw [h]

theorem frameOf_of_broken {serving post : ServeState} {surroundings : Surroundings}
    {output : List Frame} {after : FrameAssembler} {error : Error}
    (h : serving.assembler.pop = (after, .error error)) :
    frameOf ⟨serving, .next surroundings, output, post⟩ = none := by
  unfold frameOf
  dsimp only
  rw [h]

/-- An assembler fails for good with its error. -/
theorem failed_of_call {assembler after : FrameAssembler} {request : AssemblerCall}
    {error : Error} (h : assembler.call request = (after, .error error)) :
    after.failed = true ∧ after.limits = assembler.limits := by
  have hmoves := FrameAssembler.call_moves assembler request
  rw [h] at hmoves
  cases hmoves with
  | refused hfailed _ => exact ⟨hfailed, rfl⟩
  | failed => exact ⟨rfl, rfl⟩

theorem failed_of_push {assembler after : FrameAssembler} {chunk : List UInt8} {error : Error}
    (h : assembler.push chunk = (after, .error error)) :
    after.failed = true ∧ after.limits = assembler.limits := by
  have hcall : assembler.call (.push chunk) = (after, .error error) := by
    show ((assembler.push chunk).1, (assembler.push chunk).2.map fun _ => none) = _
    rw [h]
    rfl
  exact failed_of_call hcall

theorem failed_of_pop {assembler after : FrameAssembler} {error : Error}
    (h : assembler.pop = (after, .error error)) :
    after.failed = true ∧ after.limits = assembler.limits :=
  @failed_of_call _ _ .pop _ h

/-- The loop goes on. -/
def ServeState.Open (serving : ServeState) : Prop :=
  serving.phase = .receiving ∨ serving.phase = .draining

/-- What the loop holds: the bytes that came are those of the frames that it handled, and
what it buffers; and the loop is left once its assembler failed. -/
structure Conserves (config : ServerConfig) (events : List ServeEvent) (serving : ServeState) :
    Prop where
  limits : serving.assembler.limits = config.limits
  frames : ∀ frame ∈ handledFrames events, frame.WellFormed config.limits
  started : (handledFrames events).flatMap Frame.bytes <+: receivedBytes events
  buffered : serving.assembler.failed = false →
    receivedBytes events =
      (handledFrames events).flatMap Frame.bytes ++ serving.assembler.buffer
  left : serving.assembler.failed = true → ¬ serving.Open

section Steps

variable {config : ServerConfig} {event : ServeEvent} {before : List ServeEvent}
  {serving : ServeState}

/-- The assembler of a loop that goes on. -/
theorem Conserves.healthy (h : Conserves config before serving) (hopen : serving.Open) :
    serving.assembler = { limits := config.limits, buffer := serving.assembler.buffer } := by
  have hfailed : serving.assembler.failed = false := by
    cases hfailed : serving.assembler.failed with
    | false => rfl
    | true => exact absurd hopen (h.left hfailed)
  have hlimits := h.limits
  cases hassembler : serving.assembler with
  | mk limits buffer failed =>
      rw [hassembler] at hfailed hlimits
      cases hfailed
      cases hlimits
      rfl

/-- An event that neither brings bytes nor handles a frame, and keeps the assembler. -/
theorem Conserves.idle (h : Conserves config before event.pre) (hbytes : bytesOf event = [])
    (hframe : frameOf event = none)
    (hassembler : event.post.assembler = event.pre.assembler)
    (hopen : event.post.Open → event.pre.Open) :
    Conserves config (before ++ [event]) event.post := by
  have hreceived : receivedBytes (before ++ [event]) = receivedBytes before := by
    rw [receivedBytes_concat, hbytes, List.append_nil]
  have hhandled : handledFrames (before ++ [event]) = handledFrames before := by
    rw [handledFrames_concat, hframe, Option.toList_none, List.append_nil]
  constructor
  · rw [hassembler]
    exact h.limits
  · rw [hhandled]
    exact h.frames
  · rw [hhandled, hreceived]
    exact h.started
  · rw [hhandled, hreceived, hassembler]
    exact h.buffered
  · rw [hassembler]
    intro hfailed hpost
    exact h.left hfailed (hopen hpost)

/-- An event that leaves the loop with a failed assembler. -/
theorem Conserves.abandoned (h : Conserves config before event.pre)
    (hframe : frameOf event = none)
    (hfailed : event.post.assembler.failed = true ∧
      event.post.assembler.limits = event.pre.assembler.limits)
    (hphase : event.post.phase = .ending) :
    Conserves config (before ++ [event]) event.post := by
  have hhandled : handledFrames (before ++ [event]) = handledFrames before := by
    rw [handledFrames_concat, hframe, Option.toList_none, List.append_nil]
  constructor
  · rw [hfailed.2]
    exact h.limits
  · rw [hhandled]
    exact h.frames
  · rw [hhandled, receivedBytes_concat]
    exact h.started.trans (List.prefix_append _ _)
  · intro hhealthy
    rw [hfailed.1] at hhealthy
    cases hhealthy
  · intro _ hopen
    unfold ServeState.Open at hopen
    rw [hphase] at hopen
    rcases hopen with hopen | hopen <;> cases hopen

/-- An event after which the buffer and the frames that were handled make up what came. -/
theorem Conserves.kept {buffer : List UInt8}
    (hframes : ∀ frame ∈ handledFrames (before ++ [event]), frame.WellFormed config.limits)
    (hassembler : event.post.assembler = { limits := config.limits, buffer })
    (hbytes : receivedBytes (before ++ [event]) =
      (handledFrames (before ++ [event])).flatMap Frame.bytes ++ buffer) :
    Conserves config (before ++ [event]) event.post := by
  constructor
  · rw [hassembler]
  · exact hframes
  · exact ⟨buffer, hbytes.symm⟩
  · rw [hassembler]
    intro _
    exact hbytes
  · rw [hassembler]
    intro hfailed
    cases hfailed

/-- What a loop takes off its buffer stood at the front. -/
theorem Conserves.popped {after : FrameAssembler} {produced : Option Frame}
    (h : Conserves config before serving) (hphase : serving.phase = .draining)
    (hpop : serving.assembler.pop = (after, .ok produced)) :
    ∃ rest, after = { limits := config.limits, buffer := rest } ∧
      serving.assembler.buffer = produced.toList.flatMap Frame.bytes ++ rest ∧
      ∀ frame ∈ produced.toList, frame.WellFormed config.limits := by
  rw [h.healthy (.inr hphase)] at hpop
  cases produced with
  | none => exact ⟨_, FrameAssembler.pop_waits hpop, rfl, fun _ hmem => nomatch hmem⟩
  | some frame =>
      obtain ⟨hwell, rest, hfront⟩ := FrameAssembler.pop_found hpop
      rw [hfront, FrameAssembler.pop_whole hwell rest] at hpop
      refine ⟨rest, (congrArg Prod.fst hpop).symm, ?_, List.forall_mem_singleton.mpr hwell⟩
      rw [hfront, Option.toList_some, List.flatMap_singleton]

theorem Conserves.drained {serving post : ServeState} {surroundings : Surroundings}
    {output : List Frame} {produced : Option Frame} (h : Conserves config before serving)
    (hphase : serving.phase = .draining)
    (hpop : serving.assembler.pop = (post.assembler, .ok produced)) :
    Conserves config (before ++ [⟨serving, .next surroundings, output, post⟩]) post := by
  obtain ⟨rest, hafter, hfront, hwell⟩ := h.popped hphase hpop
  have hbuffered := h.buffered (congrArg FrameAssembler.failed (h.healthy (.inr hphase)))
  have hadded : handledFrames (before ++ [⟨serving, .next surroundings, output, post⟩]) =
      handledFrames before ++ produced.toList := by
    rw [handledFrames_concat, frameOf_of_pop hpop]
  apply @Conserves.kept _ ⟨serving, .next surroundings, output, post⟩ _ rest
  · rw [hadded, List.forall_mem_append]
    exact ⟨h.frames, hwell⟩
  · exact hafter
  · rw [hadded, receivedBytes_concat, hbuffered, hfront, List.flatMap_append]
    show _ ++ (produced.toList.flatMap Frame.bytes ++ rest) ++ [] = _
    rw [List.append_nil, List.append_assoc]

/-- Every step of the loop conserves the bytes. -/
theorem Conserves.step (h : Conserves config before event.pre) (hlooped : Looped config event) :
    Conserves config (before ++ [event]) event.post := by
  cases hlooped with
  | @buffered serving chunk after hphase hpush =>
      have hhealthy := h.healthy (.inl hphase)
      have hbuffered := h.buffered (congrArg FrameAssembler.failed hhealthy)
      have hhandled : ∀ last, handledFrames (before ++ [⟨serving, .received chunk, [], last⟩]) =
          handledFrames before := by
        intro last
        rw [handledFrames_concat]
        exact List.append_nil _
      rw [hhealthy] at hpush
      apply @Conserves.kept _ _ _ (serving.assembler.buffer ++ chunk)
      · rw [hhandled]
        exact h.frames
      · exact FrameAssembler.push_eq_ok hpush
      · rw [hhandled, receivedBytes_concat, hbuffered, List.append_assoc]
        rfl
  | overran _ hpush => exact h.abandoned rfl (failed_of_push hpush) rfl
  | waited hphase hpop => exact h.drained hphase hpop
  | broken _ hpop => exact h.abandoned (frameOf_of_broken hpop) (failed_of_pop hpop) rfl
  | handled hphase hpop => exact h.drained hphase hpop
  | closed hphase => exact h.idle rfl rfl rfl fun _ => .inl hphase
  | givenUp =>
      refine h.idle rfl rfl rfl ?_
      intro hopen
      rcases hopen with hopen | hopen <;> cases hopen
  | elsewhere => exact h.idle rfl rfl rfl id
  | numbered => exact h.idle rfl rfl rfl id

/-- The frame that the event handled, if any, was proceeded from. -/
def Proceeds (event : ServeEvent) : Prop :=
  frameOf event ≠ none → event.post.phase = .draining

/-- A loop that waits for bytes has no whole frame in its buffer, when it proceeded from
every frame. -/
def Rests (events : List ServeEvent) (serving : ServeState) : Prop :=
  (∀ event ∈ events, Proceeds event) → serving.phase = .receiving →
    serving.assembler.pop = (serving.assembler, .ok none)

theorem Rests.step (h : Rests before event.pre) (hconserves : Conserves config before event.pre)
    (hlooped : Looped config event) : Rests (before ++ [event]) event.post := by
  intro hproceeds hreceiving
  obtain ⟨hbefore, hlast⟩ := List.forall_mem_append.mp hproceeds
  have hproceeds := hlast event (List.mem_singleton.mpr rfl)
  cases hlooped with
  | buffered => cases hreceiving
  | overran => cases hreceiving
  | @waited serving surroundings after hphase hpop =>
      obtain ⟨rest, hafter, hfront, -⟩ := hconserves.popped hphase hpop
      have hsame : after = serving.assembler := by
        rw [hconserves.healthy (.inr hphase), hfront]
        exact hafter
      rw [hsame] at hpop ⊢
      exact hpop
  | broken => cases hreceiving
  | handled hphase hpop hhandled =>
      have hdraining := hproceeds (by rw [frameOf_of_pop hpop]; nofun)
      rw [hreceiving] at hdraining
      cases hdraining
  | closed => cases hreceiving
  | givenUp => cases hreceiving
  | elsewhere => exact h hbefore hreceiving
  | numbered => exact h hbefore hreceiving

/-- Bytes came that did not fit the buffer. -/
def Overran (config : ServerConfig) (event : ServeEvent) : Prop :=
  ∃ chunk, event.input = .received chunk ∧
    config.limits.maxFrameAssemblyBytes.toNat <
      event.pre.assembler.buffer.length + chunk.length

/-- What is buffered of well-formed frames is the start of those that are not handled. -/
theorem Conserves.behind {sent : List Frame} (h : Conserves config before serving)
    (hopen : serving.Open) (hsent : ∀ frame ∈ sent, frame.WellFormed config.limits)
    (hreceived : receivedBytes before <+: sent.flatMap Frame.bytes) :
    ∃ rest, handledFrames before ++ rest = sent ∧
      serving.assembler.buffer <+: rest.flatMap Frame.bytes := by
  have hbuffered := h.buffered (congrArg FrameAssembler.failed (h.healthy hopen))
  obtain ⟨rest, hrest⟩ := (FrameAssembler.assembles config.limits).prefix_of_codes h.frames
    hsent (h.started.trans hreceived)
  refine ⟨rest, hrest, ?_⟩
  rw [hbuffered, ← hrest, List.flatMap_append] at hreceived
  exact (List.prefix_append_right_inj _).mp hreceived

/-- An assembler that is given well-formed frames fails only when they do not fit it. -/
theorem overran_of_step {sent : List Frame} (hconserves : Conserves config before event.pre)
    (hlooped : Looped config event) (hsent : ∀ frame ∈ sent, frame.WellFormed config.limits)
    (hreceived : receivedBytes (before ++ [event]) <+: sent.flatMap Frame.bytes)
    (hhealthy : event.pre.assembler.failed = false)
    (hfailed : event.post.assembler.failed = true) : Overran config event := by
  have hbefore : receivedBytes before <+: sent.flatMap Frame.bytes := by
    rw [receivedBytes_concat] at hreceived
    exact (List.prefix_append _ _).trans hreceived
  cases hlooped with
  | buffered hphase hpush =>
      rw [hconserves.healthy (.inl hphase)] at hpush
      rw [FrameAssembler.push_eq_ok hpush] at hfailed
      cases hfailed
  | @overran serving chunk after error hphase hpush =>
      refine ⟨chunk, rfl, ?_⟩
      apply Nat.lt_of_not_le
      intro hfits
      rw [hconserves.healthy (.inl hphase), FrameAssembler.push_of_le hfits] at hpush
      cases congrArg Prod.snd hpush
  | waited hphase hpop =>
      obtain ⟨rest, hafter, -, -⟩ := hconserves.popped hphase hpop
      rw [hafter] at hfailed
      cases hfailed
  | broken hphase hpop =>
      -- a prefix of well-formed frames is popped from, or waited for
      obtain ⟨rest, hrest, hbuffer⟩ := hconserves.behind (.inr hphase) hsent hbefore
      have hwell : ∀ frame ∈ rest, frame.WellFormed config.limits := by
        rw [← hrest, List.forall_mem_append] at hsent
        exact hsent.2
      obtain ⟨after, produced, hpops⟩ :=
        (FrameAssembler.assembles config.limits).pops hwell hbuffer
      rw [hconserves.healthy (.inr hphase), hpops] at hpop
      cases hpop
  | handled hphase hpop hhandled =>
      obtain ⟨rest, hafter, -, -⟩ := hconserves.popped hphase hpop
      rw [hafter] at hfailed
      cases hfailed
  | closed => exact absurd (hhealthy.symm.trans hfailed) Bool.false_ne_true
  | givenUp => exact absurd (hhealthy.symm.trans hfailed) Bool.false_ne_true
  | elsewhere => exact absurd (hhealthy.symm.trans hfailed) Bool.false_ne_true
  | numbered => exact absurd (hhealthy.symm.trans hfailed) Bool.false_ne_true

end Steps

/-! ## Runs of the loop -/

section Runs

variable {config : ServerConfig} {server : ServerState} {events : List ServeEvent}
  {last : ServeState}

theorem Conserves.opened : Conserves config [] (.opened config server) := by
  constructor
  · rfl
  · intro frame hmem
    cases hmem
  · exact List.nil_prefix
  · intro _
    rfl
  · intro hfailed
    cases hfailed

/-- A run conserves the bytes, and its loop rests when it waits for more. -/
theorem conserves_of_run (h : Run (serveLoop config) (.opened config server) events last) :
    Conserves config events last ∧ Rests events last := by
  apply h.history_invariant
  · exact ⟨.opened, fun _ _ => rfl⟩
  · intro before event after _ htaken hinv
    obtain ⟨hconserves, hrests⟩ := hinv
    have hlooped := looped_of_taken htaken
    exact ⟨hconserves.step hlooped, hrests.step hconserves hlooped⟩

/-- A run whose assembler was given well-formed frames and failed received more than it could
buffer. -/
theorem overran_of_run {sent : List Frame}
    (h : Run (serveLoop config) (.opened config server) events last)
    (hsent : ∀ frame ∈ sent, frame.WellFormed config.limits)
    (hreceived : receivedBytes events <+: sent.flatMap Frame.bytes)
    (hfailed : last.assembler.failed = true) : ∃ event ∈ events, Overran config event := by
  have hinv : Conserves config events last ∧
      (last.assembler.failed = true → ∃ event ∈ events, Overran config event) := by
    have hgeneral : (fun done serving => Conserves config done serving ∧
        (serving.assembler.failed = true → ∃ event ∈ done, Overran config event))
        events last := by
      apply h.history_invariant
      · refine ⟨.opened, ?_⟩
        intro hfailed
        cases hfailed
      · intro before event after hevents htaken hinv
        obtain ⟨hconserves, hbefore⟩ := hinv
        have hlooped := looped_of_taken htaken
        refine ⟨hconserves.step hlooped, ?_⟩
        intro hfailed
        cases hhealthy : event.pre.assembler.failed with
        | true =>
            obtain ⟨cause, hmem, hoverran⟩ := hbefore hhealthy
            exact ⟨cause, List.mem_append_left _ hmem, hoverran⟩
        | false =>
            have hprefix : receivedBytes (before ++ [event]) <+: sent.flatMap Frame.bytes := by
              refine List.IsPrefix.trans ⟨receivedBytes after, ?_⟩ hreceived
              unfold receivedBytes
              rw [hevents, ← List.flatMap_append, List.append_assoc, List.singleton_append]
            exact ⟨event, List.mem_append_right _ (List.mem_singleton.mpr rfl),
              overran_of_step hconserves hlooped hsent hprefix hhealthy hfailed⟩
    exact hgeneral
  exact hinv.2 hfailed

end Runs

/-! ## A worker that says hello -/

section Delivered

variable {config : ServerConfig} {serving : ServeState}

theorem taken_of_push {chunk : List UInt8} {after : FrameAssembler}
    (hphase : serving.phase = .receiving) (hchunk : chunk ≠ [])
    (hpush : serving.assembler.push chunk = (after, .ok ())) :
    Event.Taken (serveLoop config)
      ⟨serving, .received chunk, [],
        { serving with assembler := after, phase := .draining }⟩ := by
  have hne : chunk.isEmpty = false := List.isEmpty_eq_false_iff.mpr hchunk
  unfold Event.Taken serveLoop ServeState.receive
  dsimp only
  rw [hphase, hne, if_pos (by rfl), hpush]

theorem taken_of_handled {frame : Frame} {after : FrameAssembler} {handled : Handled}
    {surroundings : Surroundings} (hphase : serving.phase = .draining)
    (hpop : serving.assembler.pop = (after, .ok (some frame)))
    (hhandled : handleFrame config serving.server frame surroundings = some handled) :
    Event.Taken (serveLoop config)
      ⟨serving, .next surroundings, handled.replies config,
        { server := handled.state, assembler := after,
          phase := ServeState.phaseAfter handled }⟩ := by
  unfold Event.Taken serveLoop ServeState.drain
  dsimp only
  rw [if_pos hphase, hpop]
  dsimp only
  rw [hhandled]
  rfl

/-- A loop that is given a frame in one piece handles it. -/
theorem looped_of_handled {server : ServerState} {frame : Frame} {handled : Handled}
    {surroundings : Surroundings} (hwell : frame.WellFormed config.limits)
    (hlength : frame.bytes.length ≤ config.limits.maxFrameAssemblyBytes.toNat)
    (hhandled : handleFrame config server frame surroundings = some handled) :
    ∃ events last, Run (serveLoop config) (.opened config server) events last ∧
      handledFrames events = [frame] ∧ receivedBytes events = frame.bytes := by
  have hpush : FrameAssembler.push { limits := config.limits } frame.bytes =
      ({ limits := config.limits, buffer := frame.bytes }, .ok ()) := by
    apply FrameAssembler.push_of_le
    rw [List.length_nil, Nat.zero_add]
    exact hlength
  have hpop : FrameAssembler.pop { limits := config.limits, buffer := frame.bytes } =
      ({ limits := config.limits }, .ok (some frame)) := by
    have hwhole := FrameAssembler.pop_whole hwell []
    rw [List.append_nil] at hwhole
    exact hwhole
  have hreceives : Event.Taken (serveLoop config)
      ⟨.opened config server, .received frame.bytes, [],
        ⟨server, { limits := config.limits, buffer := frame.bytes }, .draining⟩⟩ :=
    taken_of_push rfl frame.bytes_ne_nil hpush
  have hhandles := @taken_of_handled config
    ⟨server, { limits := config.limits, buffer := frame.bytes }, .draining⟩ frame _ handled
    surroundings rfl hpop hhandled
  have hframe : ∀ output post,
      frameOf ⟨⟨server, { limits := config.limits, buffer := frame.bytes }, .draining⟩,
        .next surroundings, output, post⟩ = some frame :=
    fun output post => @frameOf_of_pop
      ⟨server, { limits := config.limits, buffer := frame.bytes }, .draining⟩ post surroundings
      output _ _ hpop
  refine ⟨_, _, .cons hreceives (.cons hhandles (.nil _)), ?_, ?_⟩
  · unfold handledFrames
    rw [List.filterMap_cons_none rfl, List.filterMap_cons_some (hframe _ _), List.filterMap_nil]
  · unfold receivedBytes bytesOf
    rw [List.flatMap_cons, List.flatMap_singleton]
    dsimp only
    rw [List.append_nil]

end Delivered

/-- The hello of the sample worker, as it is sent. -/
def sampleHelloFrame : Frame := (sampleWorkerConfig.hello ⟨4242⟩).normalized

theorem sampleHelloFrame_wellFormed : sampleHelloFrame.WellFormed {} :=
  Frame.wellFormed_normalized (by decide) (by decide)
    (by show (0 : UInt64) ≤ Generation.kMaxGeneration; decide)

theorem hello_looped (impl : Impl) :
    ∃ events last, Run (serveLoop {}) (.opened {} { system := { impl } }) events last ∧
      handledFrames events = [sampleHelloFrame] ∧
      receivedBytes events = sampleHelloFrame.bytes := by
  have hlength : sampleHelloFrame.bytes.length ≤
      ({} : Limits).maxFrameAssemblyBytes.toNat := by
    rw [Frame.length_bytes]
    decide
  have hhandled : handleFrame {} { system := { impl } } sampleHelloFrame sampleAround =
      some (sampleGreeted impl) := by
    unfold handleFrame
    dsimp only
    rw [if_pos (by rfl)]
    rfl
  exact looped_of_handled sampleHelloFrame_wellFormed hlength hhandled

end ConstraintRouting.Fabric
