import ConstraintRouting.Fabric.FrameAssembly

/-!
# The bound of the frame assembler

A limit set is accepted when the assembler may hold the largest payload.  It must hold the
header and the trailer of the frame as well.
-/

namespace ConstraintRouting.Fabric

open Verified.Assemblers

namespace FrameAssembler

variable {limits : Limits}

/-- What is popped is a well-formed frame whose bytes were in the buffer. -/
theorem pop_produced {buffer : List UInt8} {next : FrameAssembler} {frame : Frame}
    (h : pop { limits, buffer } = (next, .ok (some frame))) :
    frame.WellFormed limits ∧ frame.bytes.length ≤ buffer.length ∧
      ∃ rest, next = { limits, buffer := rest } ∧ rest.length ≤ buffer.length := by
  unfold pop at h
  simp only [Bool.false_eq_true, if_false] at h
  split at h
  · cases h
  · split at h
    · cases h
    · next header _ _ =>
        split at h
        · cases h
        · split at h
          · cases h
          · split at h
            · cases h
            · split at h
              · cases h
              · next decoded hdecoded =>
                  cases h
                  obtain ⟨hbytes, hwell⟩ := decodeFrame_eq_ok.mp hdecoded
                  refine ⟨hwell, ?_, _, rfl, ?_⟩
                  · rw [← hbytes, List.length_take]
                    omega
                  · rw [List.length_drop]
                    omega

theorem pop_idle {buffer : List UInt8} {next : FrameAssembler}
    (h : pop { limits, buffer } = (next, .ok none)) : next = { limits, buffer } := by
  unfold pop at h
  simp only [Bool.false_eq_true, if_false] at h
  split at h
  · cases h
    rfl
  · split at h
    · cases h
    · split at h
      · cases h
      · split at h
        · cases h
        · split at h
          · cases h
            rfl
          · split at h
            · cases h
            · cases h

/-- Everything that a healthy assembler produces is well formed and fits what it held. -/
theorem drains_fit {state last : FrameAssembler} {frames : List Frame}
    (h : Drains pop state frames last) {buffer : List UInt8} (hstate : state = { limits, buffer }) :
    (∀ frame ∈ frames, frame.WellFormed limits ∧ frame.bytes.length ≤ buffer.length) ∧
      ∃ rest, last = { limits, buffer := rest } ∧ rest.length ≤ buffer.length := by
  induction h generalizing buffer with
  | idle hpop =>
      rw [hstate] at hpop
      exact ⟨List.forall_mem_nil _, buffer, pop_idle hpop, Nat.le_refl _⟩
  | produced hpop _ ih =>
      rw [hstate] at hpop
      obtain ⟨hwell, hfits, rest, hrest, hshorter⟩ := pop_produced hpop
      obtain ⟨hlater, left, hlast, hleft⟩ := ih hrest
      refine ⟨List.forall_mem_cons.mpr ⟨⟨hwell, hfits⟩, ?_⟩, left, hlast, by omega⟩
      intro frame hmem
      obtain ⟨hframe, hlength⟩ := hlater frame hmem
      exact ⟨hframe, by omega⟩

theorem push_fits {buffer chunk : List UInt8} {next : FrameAssembler}
    (h : push { limits, buffer } chunk = (next, .ok ())) :
    next = { limits, buffer := buffer ++ chunk } ∧
      (buffer ++ chunk).length ≤ limits.maxFrameAssemblyBytes.toNat := by
  unfold push at h
  simp only [Bool.false_eq_true, if_false] at h
  split at h
  · cases h
  · cases h
    refine ⟨rfl, ?_⟩
    rw [List.length_append]
    omega

/-- No frame longer than the bound is ever produced, however its bytes are cut. -/
theorem receives_fit {state last : FrameAssembler} {chunks : List (List UInt8)}
    {frames : List Frame} (h : Receives push pop state chunks frames last)
    {buffer : List UInt8} (hstate : state = { limits, buffer }) :
    ∀ frame ∈ frames, frame.WellFormed limits ∧
      frame.bytes.length ≤ limits.maxFrameAssemblyBytes.toNat := by
  induction h generalizing buffer with
  | done => exact List.forall_mem_nil _
  | chunk hpush hdrains _ ih =>
      rw [hstate] at hpush
      obtain ⟨hpushed, hbound⟩ := push_fits hpush
      obtain ⟨hframes, rest, hrest, -⟩ := drains_fit hdrains hpushed
      intro frame hmem
      rcases List.mem_append.mp hmem with hnow | hlater
      · obtain ⟨hwell, hlength⟩ := hframes frame hnow
        exact ⟨hwell, by omega⟩
      · exact ih hrest frame hlater

theorem length_normalized_bytes (frame : Frame) :
    frame.normalized.bytes.length = kHeaderBytes + frame.payload.length :=
  frame.normalized.length_bytes

/-- A frame that was encoded is produced from its bytes, however they are cut, exactly when
header, payload and trailer fit the assembly bound and its epoch can be read. -/
theorem encoded_frame_reassembled_iff (limits : Limits) (frame : Frame) (code : List UInt8)
    (chunks : List (List UInt8)) (hencoded : encodeFrame frame limits = .ok code)
    (hchunks : chunks.flatten = code) :
    (∃ last, Receives push pop { limits } chunks [frame.normalized] last) ↔
      kHeaderBytes + frame.payload.length ≤ limits.maxFrameAssemblyBytes.toNat ∧
        frame.header.epoch.Storable := by
  obtain ⟨hsize, hmessage, hbytes⟩ := encodeFrame_eq_ok.mp hencoded
  have hlength := length_normalized_bytes frame
  constructor
  · rintro ⟨last, h⟩
    obtain ⟨hwell, hfits⟩ := receives_fit h rfl frame.normalized (List.mem_singleton_self _)
    rw [hlength] at hfits
    exact ⟨hfits, hwell.epoch⟩
  · rintro ⟨hfits, hepoch⟩
    refine ⟨{ limits }, (assembles limits).receives Frame.bytes_ne_nil ?_ ?_ ?_⟩
    · exact List.forall_mem_singleton.mpr (Frame.wellFormed_normalized hsize hmessage hepoch)
    · rw [List.flatMap_cons, List.flatMap_nil, List.append_nil, hbytes]
      exact hchunks
    · apply cutWithin_of_length_le
      rw [hchunks, ← hbytes, hlength, Nat.zero_add]
      exact hfits

/-- A heartbeat in two chunks, under the default limits. -/
theorem encoded_frame_reassembled_iff_sample :
    (∃ last, Receives push pop { limits := {} }
      [sampleHeartbeat.normalized.bytes.take 10, sampleHeartbeat.normalized.bytes.drop 10]
      [sampleHeartbeat.normalized] last) ↔
      kHeaderBytes + sampleHeartbeat.payload.length ≤
          ({} : Limits).maxFrameAssemblyBytes.toNat ∧
        sampleHeartbeat.header.epoch.Storable := by
  have hencoded : encodeFrame sampleHeartbeat {} = .ok sampleHeartbeat.normalized.bytes :=
    encodeFrame_eq_ok.mpr ⟨by decide, by decide, rfl⟩
  apply encoded_frame_reassembled_iff {} sampleHeartbeat _ _ hencoded
  simp only [List.flatten_cons, List.flatten_nil, List.append_nil, List.take_append_drop]

/-- The assembler may hold one largest payload. -/
def sampleTight : Limits := { maxFrameAssemblyBytes := (1 : UInt32) <<< 20 }

/-- A heartbeat with a payload of the largest size. -/
def sampleLargest : Frame :=
  { header := { message := .heartbeat, epoch := ⟨3⟩ }, payload := List.replicate (2 ^ 20) 0 }

/-- A frame is encoded under a valid limit set that no cut of its bytes delivers. -/
theorem largest_frame_not_reassembled :
    validateLimits sampleTight = .ok () ∧
      ∃ code, encodeFrame sampleLargest sampleTight = .ok code ∧
        ∀ chunks : List (List UInt8), chunks.flatten = code →
          ¬ ∃ last, Receives push pop { limits := sampleTight } chunks
            [sampleLargest.normalized] last := by
  have hpayload : sampleLargest.payload.length = 2 ^ 20 := List.length_replicate
  have hlargest : sampleTight.maxFrameBytes.toNat = 2 ^ 20 := by decide
  have hassembly : sampleTight.maxFrameAssemblyBytes.toNat = 2 ^ 20 := by decide
  have hencoded : encodeFrame sampleLargest sampleTight =
      .ok sampleLargest.normalized.bytes :=
    encodeFrame_eq_ok.mpr ⟨by rw [hpayload, hlargest], by decide, rfl⟩
  refine ⟨by decide, _, hencoded, ?_⟩
  rintro chunks - ⟨last, h⟩
  obtain ⟨-, hfits⟩ := receives_fit h rfl sampleLargest.normalized (List.mem_singleton_self _)
  have hlength := length_normalized_bytes sampleLargest
  have hheader : 0 < kHeaderBytes := by decide
  omega

end FrameAssembler

end ConstraintRouting.Fabric
