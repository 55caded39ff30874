import ConstraintRouting.Fabric.Frames
import ConstraintRouting.Verified.Assemblers
import ConstraintRouting.Verified.StepMachine

/-!
# Reassembly of frames

The assembler gives back exactly the frames whose bytes were pushed, however they were
cut.  It never buffers more than its bound, and once it failed it produces nothing until it
is reset.
-/

namespace ConstraintRouting.Fabric

open Verified.StepMachine (Event Run)
open Verified.Assemblers

namespace FrameAssembler

variable {limits : Limits} {frame : Frame}

/-! ## Pushing and popping -/

theorem push_of_le {buffer chunk : List UInt8}
    (h : buffer.length + chunk.length ≤ limits.maxFrameAssemblyBytes.toNat) :
    push { limits, buffer } chunk = ({ limits, buffer := buffer ++ chunk }, .ok ()) := by
  unfold push
  rw [if_neg Bool.false_ne_true, if_neg (Nat.not_lt.mpr h)]

/-- The header of a frame is read from the first bytes of a buffer that starts with it. -/
private theorem header_of_started (h : frame.WellFormed limits) {buffer more : List UInt8}
    (hcode : buffer ++ more = frame.bytes) (hsize : kHeaderBytes ≤ buffer.length) :
    decodeFrameHeader ((buffer.take kHeaderBytes).take kSemanticHeaderBytes) =
      some (frame.header, []) := by
  have hsemantic : kSemanticHeaderBytes ≤ kHeaderBytes := by decide
  have hbytes : buffer.take kSemanticHeaderBytes = encodeFrameHeader frame.header := by
    have htake : frame.bytes.take kSemanticHeaderBytes = encodeFrameHeader frame.header :=
      List.take_left' (length_encodeFrameHeader frame.header)
    rw [← htake, ← hcode, List.take_append_of_le_length (by omega)]
  rw [List.take_take, Nat.min_eq_left hsemantic, hbytes]
  exact (decodeFrameHeader_parses _ _ _).mpr
    ⟨(List.append_nil _).symm, h.message, h.epoch⟩

private theorem length_of_wellFormed (h : frame.WellFormed limits) :
    frame.bytes.length = frameSize frame.header.payloadLength := by
  rw [frame.length_bytes, frameSize, h.length]

private theorem limit_of_wellFormed (h : frame.WellFormed limits) :
    ¬ limits.maxFrameBytes < frame.header.payloadLength := by
  rw [UInt32.lt_iff_toNat_lt, h.length]
  exact Nat.not_lt.mpr h.size

/-- A whole frame at the front of the buffer is popped, and only its bytes are taken. -/
theorem pop_whole (h : frame.WellFormed limits) (rest : List UInt8) :
    pop { limits, buffer := frame.bytes ++ rest } =
      ({ limits, buffer := rest }, .ok (some frame)) := by
  have hlength := length_of_wellFormed h
  have hsize : kHeaderBytes ≤ frame.bytes.length := by
    rw [frame.length_bytes]
    exact Nat.le_add_right _ _
  have hheader : decodeFrameHeader (((frame.bytes ++ rest).take kHeaderBytes).take
      kSemanticHeaderBytes) = some (frame.header, []) := by
    rw [List.take_append_of_le_length hsize]
    exact header_of_started h (List.append_nil _) hsize
  have hfull : ¬ (frame.bytes ++ rest).length < kHeaderBytes := by
    rw [List.length_append]
    omega
  have htotal : ¬ (frame.bytes ++ rest).length < frame.bytes.length := by
    rw [List.length_append]
    omega
  have hdecode : decodeFrame frame.bytes limits = .ok frame := decodeFrame_eq_ok.mpr ⟨rfl, h⟩
  have hversion : ¬ (frame.header.protocolVersion != kProtocolVersionValue) = true := by
    rw [h.version]
    decide
  unfold pop
  simp only [if_neg hfull, hheader, if_neg hversion, if_neg (limit_of_wellFormed h),
    Bool.false_eq_true, if_false, ← hlength, if_neg htotal, List.take_left, List.drop_left,
    hdecode]

/-- A frame that has only started stays buffered. -/
theorem pop_started (h : frame.WellFormed limits) {buffer more : List UInt8}
    (hcode : buffer ++ more = frame.bytes) (hmore : more ≠ []) :
    pop { limits, buffer } = ({ limits, buffer }, .ok none) := by
  have hshort : buffer.length < frameSize frame.header.payloadLength := by
    have hpos := List.length_pos_iff.mpr hmore
    rw [← length_of_wellFormed h, ← hcode, List.length_append]
    omega
  by_cases hsize : kHeaderBytes ≤ buffer.length
  · have hfull : ¬ buffer.length < kHeaderBytes := Nat.not_lt.mpr hsize
    have hversion : ¬ (frame.header.protocolVersion != kProtocolVersionValue) = true := by
      rw [h.version]
      decide
    unfold pop
    simp only [if_neg hfull, header_of_started h hcode hsize, if_neg hversion,
      if_neg (limit_of_wellFormed h), if_pos hshort, Bool.false_eq_true, if_false]
  · unfold pop
    simp only [if_pos (Nat.not_le.mp hsize), Bool.false_eq_true, if_false]

/-- A healthy assembler reassembles the well-formed frames. -/
theorem assembles (limits : Limits) :
    Assembles push pop (fun buffer => { limits, buffer }) Frame.bytes (Frame.WellFormed limits)
      limits.maxFrameAssemblyBytes.toNat where
  pushed := fun _ _ hfits => push_of_le hfits
  empty := rfl
  whole := fun _ rest hwell => pop_whole hwell rest
  started := fun _ _ _ hwell hcode hmore => pop_started hwell hcode hmore

/-! ## Runs of an assembler -/

end FrameAssembler

/-- A call of the assembler. -/
inductive AssemblerCall where
  | push (chunk : List UInt8)
  | pop
  | reset

namespace FrameAssembler

variable {limits : Limits} {assembler : FrameAssembler}

/-- The call, and the frame that it produces if it succeeds. -/
def call (assembler : FrameAssembler) : AssemblerCall → FrameAssembler × Result (Option Frame)
  | .push chunk => ((assembler.push chunk).1, (assembler.push chunk).2.map fun _ => none)
  | .pop => assembler.pop
  | .reset => (assembler.reset, .ok none)

/-- What a call does: it fails into the failed state, or it is a reset, or it keeps the
assembler healthy with a buffer within the bound; a failed assembler stays as it is. -/
inductive Moves (assembler : FrameAssembler) :
    AssemblerCall → FrameAssembler → Result (Option Frame) → Prop
  | refused {request : AssemblerCall} {error : Error} :
      assembler.failed = true → request ≠ .reset →
      Moves assembler request assembler (.error error)
  | failed {request : AssemblerCall} {error : Error} :
      Moves assembler request { assembler with buffer := [], failed := true } (.error error)
  | kept {request : AssemblerCall} {buffer : List UInt8} {produced : Option Frame} :
      assembler.failed = false → request ≠ .reset →
      (assembler.buffer.length ≤ assembler.limits.maxFrameAssemblyBytes.toNat →
        buffer.length ≤ assembler.limits.maxFrameAssemblyBytes.toNat) →
      Moves assembler request { assembler with buffer } (.ok produced)
  | reset : Moves assembler .reset { assembler with buffer := [], failed := false } (.ok none)

private theorem push_moves (assembler : FrameAssembler) (chunk : List UInt8) :
    Moves assembler (.push chunk) (assembler.call (.push chunk)).1
      (assembler.call (.push chunk)).2 := by
  have hreset : AssemblerCall.push chunk ≠ .reset := AssemblerCall.noConfusion
  by_cases hfailed : assembler.failed = true
  · have hpush : assembler.push chunk = _ := if_pos hfailed
    simp only [call, hpush]
    exact .refused hfailed hreset
  · by_cases hfits : assembler.limits.maxFrameAssemblyBytes.toNat <
        assembler.buffer.length + chunk.length
    · have hpush : assembler.push chunk = _ := (if_neg hfailed).trans (if_pos hfits)
      simp only [call, hpush, fail]
      exact .failed
    · have hpush : assembler.push chunk = _ := (if_neg hfailed).trans (if_neg hfits)
      simp only [call, hpush]
      refine .kept (Bool.eq_false_of_not_eq_true hfailed) hreset fun _ => ?_
      rw [List.length_append]
      omega

private theorem pop_moves (assembler : FrameAssembler) :
    Moves assembler .pop assembler.pop.1 assembler.pop.2 := by
  have hreset : AssemblerCall.pop ≠ .reset := AssemblerCall.noConfusion
  by_cases hfailed : assembler.failed = true
  · have hpop : assembler.pop = _ := if_pos hfailed
    rw [hpop]
    exact .refused hfailed hreset
  · have hhealthy := Bool.eq_false_of_not_eq_true hfailed
    have hidle : Moves assembler .pop assembler (.ok none) :=
      .kept hhealthy hreset fun hbound => hbound
    unfold pop
    rw [if_neg hfailed]
    split
    · exact hidle
    · split
      · exact .failed
      · next header _ _ =>
          by_cases hversion : (header.protocolVersion != kProtocolVersionValue) = true
          · rw [if_pos hversion]
            exact .failed
          · rw [if_neg hversion]
            by_cases hlimit : assembler.limits.maxFrameBytes < header.payloadLength
            · rw [if_pos hlimit]
              exact .failed
            · rw [if_neg hlimit]
              by_cases hshort : assembler.buffer.length < frameSize header.payloadLength
              · rw [if_pos hshort]
                exact hidle
              · rw [if_neg hshort]
                split
                · exact .failed
                · refine .kept hhealthy hreset fun hbound => ?_
                  rw [List.length_drop]
                  omega

theorem call_moves (assembler : FrameAssembler) (request : AssemblerCall) :
    Moves assembler request (assembler.call request).1 (assembler.call request).2 := by
  cases request with
  | push chunk => exact push_moves assembler chunk
  | pop => exact pop_moves assembler
  | reset => exact .reset

/-- One call as a step of a machine that never refuses. -/
def step (assembler : FrameAssembler) (request : AssemblerCall) :
    Option (FrameAssembler × Result (Option Frame)) :=
  some (assembler.call request)

variable {events before after : List (Event FrameAssembler AssemblerCall (Result (Option Frame)))}
  {event : Event FrameAssembler AssemblerCall (Result (Option Frame))}
  {last : FrameAssembler}

theorem moves_of_taken (h : event.Taken step) :
    Moves event.pre event.input event.post event.output := by
  have hcall : event.pre.call event.input = (event.post, event.output) := Option.some.inj h
  have hmoves := call_moves event.pre event.input
  rw [hcall] at hmoves
  exact hmoves

/-- The buffer stays within the bound in every run. -/
theorem buffer_le (h : Run step { limits } events last) :
    last.limits = limits ∧ last.buffer.length ≤ limits.maxFrameAssemblyBytes.toNat := by
  let inv : List (Event FrameAssembler AssemblerCall (Result (Option Frame))) →
      FrameAssembler → Prop := fun _ assembler =>
    assembler.limits = limits ∧
      assembler.buffer.length ≤ limits.maxFrameAssemblyBytes.toNat
  have hinv : inv events last := by
    refine h.history_invariant ⟨rfl, Nat.zero_le _⟩ ?_
    intro before event after _ htaken hpre
    obtain ⟨hlimits, hbuffer⟩ := hpre
    have hmoves := moves_of_taken htaken
    obtain ⟨pre, request, output, post⟩ := event
    dsimp only at hmoves hlimits hbuffer ⊢
    subst hlimits
    cases hmoves with
    | refused => exact ⟨rfl, hbuffer⟩
    | failed => exact ⟨rfl, Nat.zero_le _⟩
    | kept _ _ hkept => exact ⟨rfl, hkept hbuffer⟩
    | reset => exact ⟨rfl, Nat.zero_le _⟩
  exact hinv

/-- A call that fails leaves the assembler failed. -/
theorem failed_of_error {error : Error} (h : event.Taken step)
    (herror : event.output = .error error) : event.post.failed = true := by
  have hmoves := moves_of_taken h
  obtain ⟨pre, request, output, post⟩ := event
  dsimp only at hmoves herror ⊢
  subst herror
  cases hmoves with
  | refused hfailed => exact hfailed
  | failed => rfl

/-- From a failed assembler every call fails until the reset. -/
theorem errors_of_failed {assembler : FrameAssembler} (h : Run step assembler events last)
    (hfailed : assembler.failed = true) (hreset : ∀ event ∈ events, event.input ≠ .reset) :
    ∀ event ∈ events, ∃ error, event.output = .error error := by
  induction h with
  | nil => exact List.forall_mem_nil _
  | @cons event rest last htaken hrest ih =>
      obtain ⟨hfirst, hlater⟩ := List.forall_mem_cons.mp hreset
      have hmoves := moves_of_taken htaken
      obtain ⟨pre, request, output, post⟩ := event
      dsimp only at hmoves hfailed hfirst ih ⊢
      refine List.forall_mem_cons.mpr ?_
      cases hmoves with
      | refused => exact ⟨⟨_, rfl⟩, ih hfailed hlater⟩
      | failed => exact ⟨⟨_, rfl⟩, ih rfl hlater⟩
      | kept hhealthy =>
          rw [hhealthy] at hfailed
          cases hfailed
      | reset => exact absurd rfl hfirst

/-! ## The stream of a sequence of frames -/

/-- The codes of frames with readable epochs are the bytes of well-formed frames. -/
private theorem codes_of_encoded {frames : List Frame} {codes : List (List UInt8)}
    (hcodes : List.Forall₂ (fun frame code => encodeFrame frame limits = .ok code) frames codes)
    (hepochs : ∀ frame ∈ frames, frame.header.epoch.Storable) :
    codes = (frames.map Frame.normalized).map Frame.bytes ∧
      ∀ frame ∈ frames.map Frame.normalized, frame.WellFormed limits := by
  induction hcodes with
  | nil => exact ⟨rfl, List.forall_mem_nil _⟩
  | @cons frame code frames codes hcode _ ih =>
      obtain ⟨hepoch, hrest⟩ := List.forall_mem_cons.mp hepochs
      obtain ⟨hsize, hmessage, hbytes⟩ := encodeFrame_eq_ok.mp hcode
      obtain ⟨hcodes, hwell⟩ := ih hrest
      refine ⟨?_, List.forall_mem_cons.mpr
        ⟨Frame.wellFormed_normalized hsize hmessage hepoch, hwell⟩⟩
      rw [List.map_cons, List.map_cons, hbytes, ← hcodes]

/-- The frames of a stream come out in order for every cut within the bound, the buffer is
within the bound in every run, and after a failure nothing is produced until a reset. -/
theorem reassembles_and_fails_closed (limits : Limits) :
    (∀ (frames : List Frame) (codes chunks : List (List UInt8)),
      List.Forall₂ (fun frame code => encodeFrame frame limits = .ok code) frames codes →
      (∀ frame ∈ frames, frame.header.epoch.Storable) →
      chunks.flatten = codes.flatten →
      CutWithin limits.maxFrameAssemblyBytes.toNat (codes.map List.length) 0 chunks →
      Receives push pop { limits } chunks (frames.map Frame.normalized) { limits }) ∧
    (∀ events last, Run step { limits } events last →
      last.buffer.length ≤ limits.maxFrameAssemblyBytes.toNat) ∧
    ∀ before event after last error, Run step { limits } (before ++ event :: after) last →
      event.output = .error error → (∀ later ∈ after, later.input ≠ .reset) →
      ∀ later ∈ after, ∃ error, later.output = .error error := by
  refine ⟨?_, fun events last h => (buffer_le h).2, ?_⟩
  · intro frames codes chunks hcodes hepochs hchunks hcut
    obtain ⟨hbytes, hwell⟩ := codes_of_encoded hcodes hepochs
    rw [hbytes, ← List.flatMap_def] at hchunks
    rw [hbytes, List.map_map] at hcut
    exact (assembles limits).receives Frame.bytes_ne_nil hwell hchunks hcut
  · intro before event after last error h herror hreset
    obtain ⟨-, htaken, hrest⟩ := h.split_event
    exact errors_of_failed hrest (failed_of_error htaken herror) hreset

/-- One frame cut after its tenth byte. -/
theorem reassembles_and_fails_closed_sample :
    Receives push pop { limits := {} }
      [sampleHeartbeat.normalized.bytes.take 10, sampleHeartbeat.normalized.bytes.drop 10]
      [sampleHeartbeat.normalized] { limits := {} } := by
  have hencoded : encodeFrame sampleHeartbeat {} = .ok sampleHeartbeat.normalized.bytes :=
    encodeFrame_eq_ok.mpr ⟨by decide, by decide, rfl⟩
  have hepoch : (3 : UInt64) ≤ Generation.kMaxGeneration := by decide
  have hlength : sampleHeartbeat.normalized.bytes.length = 98 := Frame.length_bytes _
  refine (reassembles_and_fails_closed {}).1 [sampleHeartbeat]
    [sampleHeartbeat.normalized.bytes] _ (.cons hencoded .nil)
    (List.forall_mem_singleton.mpr hepoch) ?_ ?_
  · simp only [List.flatten_cons, List.flatten_nil, List.append_nil, List.take_append_drop]
  · simp only [CutWithin, startedLength, List.map_cons, List.map_nil, List.length_take,
      List.length_drop, hlength]
    decide

/-- A frame whose epoch is above the ceiling. -/
def sampleUnreadable : Frame := { header := { message := .heartbeat, epoch := ⟨0 - 1⟩ } }

private theorem sampleUnreadable_refused :
    Verified.Checks.isOk
      ((push { limits := {} } sampleUnreadable.normalized.bytes).1.pop).2 = false := by
  decide +kernel

/-- The frame is encoded, but the assembler that receives its bytes fails. -/
theorem unreadable_epoch_not_reassembled :
    encodeFrame sampleUnreadable {} = .ok sampleUnreadable.normalized.bytes ∧
      CutWithin ({} : Limits).maxFrameAssemblyBytes.toNat
        [sampleUnreadable.normalized.bytes.length] 0 [sampleUnreadable.normalized.bytes] ∧
      ¬ ∃ last, Receives push pop { limits := {} } [sampleUnreadable.normalized.bytes]
        [sampleUnreadable.normalized] last := by
  have hlength : sampleUnreadable.normalized.bytes.length = 96 := Frame.length_bytes _
  refine ⟨encodeFrame_eq_ok.mpr ⟨by decide, by decide, rfl⟩, ?_, ?_⟩
  · simp only [CutWithin, startedLength, hlength]
    decide
  · intro h
    obtain ⟨last, h⟩ := h
    have hrefused := sampleUnreadable_refused
    generalize hvalues : [sampleUnreadable.normalized] = values at h
    cases h with
    | chunk hpush hdrains _ =>
        rw [hpush] at hrefused
        dsimp only at hrefused
        cases hdrains with
        | idle hpop =>
            rw [hpop] at hrefused
            cases hrefused
        | produced hpop _ =>
            rw [hpop] at hrefused
            cases hrefused

end FrameAssembler

end ConstraintRouting.Fabric
