import ConstraintRouting.Fabric.DecodeSpec
import ConstraintRouting.Fabric.Protocol

/-!
# Frames

A frame is its semantic header, its payload, a checksum and a digest, and nothing else:
`decodeFrame` accepts exactly the bytes of the well-formed frames.
-/

namespace ConstraintRouting.Fabric

open ByteWriter ByteReader
open Verified.Readers (Parses)
open Verified.Readers.Reader (bind_eq_some accept_eq_some pure_eq_some)
open Verified.Checks (seq_eq_ok)

/-! ## The semantic header -/

theorem MessageId.read_eq_some {input rest : List UInt8} {message : MessageId} :
    MessageId.read input = some (message, rest) ↔
      input = putU16 message.code ++ rest ∧ message ≠ .invalid := by
  rw [MessageId.read, enum16_eq_some]
  refine and_congr_right' ?_
  cases message <;> decide

@[simp] theorem length_encodeFrameHeader (header : FrameHeader) :
    (encodeFrameHeader header).length = kSemanticHeaderBytes := rfl

theorem decodeFrameHeader_parses :
    Parses decodeFrameHeader encodeFrameHeader fun header =>
      header.message ≠ .invalid ∧ header.epoch.Storable := by
  intro input header rest
  simp only [decodeFrameHeader, encodeFrameHeader, bind_eq_some, accept_eq_some, pure_eq_some,
    u16_eq_some, u32_eq_some, MessageId.read_eq_some, generationField_eq_some, id_eq_some,
    Bool.and_eq_true, decide_eq_true_eq, List.append_assoc]
  constructor
  · intro h
    obtain ⟨magic, _, hinput, version, _, h1, message, _, ⟨h2, hmessage⟩, flags, _, h3,
      reserved, _, h4, length, _, h5, epoch, _, ⟨h6, hepoch⟩, publisher, _, h7, boot, _, h8,
      attempt, _, h9, request, _, h10, scopes, _, h11, _, _, ⟨⟨hmagic, hreserved⟩, h12⟩,
      hout⟩ := h
    cases h12
    cases hout
    refine ⟨?_, hmessage, hepoch⟩
    rw [hinput, h1, h2, h3, h4, h5, h6, h7, h8, h9, h10, h11, hmagic, hreserved]
  · intro h
    obtain ⟨hinput, hmessage, hepoch⟩ := h
    exact ⟨_, _, hinput, _, _, rfl, _, _, ⟨rfl, hmessage⟩, _, _, rfl, _, _, rfl, _, _, rfl,
      _, _, ⟨rfl, hepoch⟩, _, _, rfl, _, _, rfl, _, _, rfl, _, _, rfl, _, _, rfl, (), _,
      ⟨⟨rfl, rfl⟩, rfl⟩, rfl⟩

/-! ## Whole frames -/

/-- The frame with the version and the length that `encodeFrame` writes. -/
def Frame.normalized (frame : Frame) : Frame :=
  { frame with header :=
      { frame.header with
        protocolVersion := kProtocolVersionValue
        payloadLength := UInt32.ofNat frame.payload.length } }

/-- The bytes of a frame as its header stands. -/
def Frame.bytes (frame : Frame) : List UInt8 :=
  encodeFrameHeader frame.header ++
    (frame.payload ++
      (putU32 (crc32c (encodeFrameHeader frame.header ++ frame.payload)) ++
        (Sha256.digest (encodeFrameHeader frame.header ++ frame.payload)).bytes))

/-- What `decodeFrame` accepts: a known message of an epoch that is zero or representable,
in this version, with a payload of the declared length within the limit. -/
structure Frame.WellFormed (limits : Limits) (frame : Frame) : Prop where
  version : frame.header.protocolVersion = kProtocolVersionValue
  length : frame.header.payloadLength.toNat = frame.payload.length
  message : frame.header.message ≠ .invalid
  epoch : frame.header.epoch.Storable
  size : frame.payload.length ≤ limits.maxFrameBytes.toNat

variable {limits : Limits} {frame : Frame} {raw : List UInt8}

theorem Frame.length_bytes (frame : Frame) :
    frame.bytes.length = kHeaderBytes + frame.payload.length := by
  rw [Frame.bytes, List.length_append, List.length_append, List.length_append,
    length_encodeFrameHeader, length_putU32, Digest256.size]
  show kSemanticHeaderBytes + (frame.payload.length + 36) =
    kSemanticHeaderBytes + 36 + frame.payload.length
  omega

theorem Frame.bytes_ne_nil (frame : Frame) : frame.bytes ≠ [] := by
  apply List.ne_nil_of_length_pos
  have hheader : 0 < kHeaderBytes := by decide
  rw [frame.length_bytes]
  omega

theorem encodeFrame_eq_ok :
    encodeFrame frame limits = .ok raw ↔
      frame.payload.length ≤ limits.maxFrameBytes.toNat ∧ frame.header.message ≠ .invalid ∧
        frame.normalized.bytes = raw := by
  unfold encodeFrame
  simp only [seq_eq_ok, failIf_eq_ok, Bool.not_eq_false', listWithin_eq_true,
    decide_eq_false_iff_not]
  refine and_congr_right' (and_congr_right' ?_)
  rw [Frame.bytes, ← List.append_assoc, ← List.append_assoc]
  exact ⟨fun h => Except.ok.inj h, fun h => congrArg Except.ok h⟩

theorem Frame.WellFormed.normalized_eq (h : frame.WellFormed limits) :
    frame.normalized = frame := by
  have hlength : UInt32.ofNat frame.payload.length = frame.header.payloadLength := by
    rw [← h.length, UInt32.ofNat_toNat]
  rw [Frame.normalized, hlength, ← h.version]

/-- The frame that was encoded is well formed, once its epoch can be read. -/
theorem Frame.wellFormed_normalized
    (hsize : frame.payload.length ≤ limits.maxFrameBytes.toNat)
    (hmessage : frame.header.message ≠ .invalid) (hepoch : frame.header.epoch.Storable) :
    frame.normalized.WellFormed limits := by
  have hfits : frame.payload.length < 2 ^ 32 :=
    Nat.lt_of_le_of_lt hsize limits.maxFrameBytes.toNat_lt
  refine ⟨rfl, ?_, hmessage, hepoch, hsize⟩
  show (UInt32.ofNat frame.payload.length).toNat = frame.payload.length
  rw [UInt32.toNat_ofNat', Nat.mod_eq_of_lt hfits]

/-- The checks of the parts of an accepted frame. -/
private theorem frame_of_decodeFrame (h : decodeFrame raw limits = .ok frame) :
    raw = frame.bytes ∧ frame.WellFormed limits := by
  unfold decodeFrame at h
  rw [seq_eq_ok] at h
  obtain ⟨-, h⟩ := h
  cases hheader : decodeFrameHeader raw with
  | none =>
      rw [hheader] at h
      cases h
  | some out =>
      obtain ⟨header, rest⟩ := out
      rw [hheader] at h
      simp only [seq_eq_ok, failIf_eq_ok, bne_eq_false_iff_eq, decide_eq_false_iff_not] at h
      obtain ⟨hversion, hlimit, htotal, hcrc, hdigest, hout⟩ := h
      obtain ⟨hraw, hmessage, hepoch⟩ := (decodeFrameHeader_parses raw header rest).mp hheader
      have hsemantic : raw.take kSemanticHeaderBytes = encodeFrameHeader header := by
        rw [hraw, List.take_left' (length_encodeFrameHeader header)]
      have hrest : raw.drop kSemanticHeaderBytes = rest := by
        rw [hraw, List.drop_left' (length_encodeFrameHeader header)]
      have hrestSize : rest.length = header.payloadLength.toNat + 36 := by
        rw [← hrest, List.length_drop, htotal]
        show kSemanticHeaderBytes + 36 + header.payloadLength.toNat - kSemanticHeaderBytes = _
        omega
      rw [← List.drop_drop, hsemantic, hrest] at hcrc hdigest
      rw [hrest] at hout
      cases hout
      have htrailer := (trailer_checks_iff (by rw [List.length_drop]; omega)).mp
        ⟨hcrc, hdigest⟩
      have hpayloadSize : (rest.take header.payloadLength.toNat).length =
          header.payloadLength.toNat := by
        rw [List.length_take]
        omega
      constructor
      · rw [Frame.bytes, ← htrailer, List.take_append_drop]
        exact hraw
      · refine ⟨hversion, hpayloadSize.symm, hmessage, hepoch, ?_⟩
        rw [UInt32.lt_iff_toNat_lt] at hlimit
        show (rest.take header.payloadLength.toNat).length ≤ _
        omega

/-- A well-formed frame is read back from its bytes. -/
private theorem decodeFrame_bytes (h : frame.WellFormed limits) :
    decodeFrame frame.bytes limits = .ok frame := by
  have hlength := frame.length_bytes
  have hheader : decodeFrameHeader frame.bytes = some (frame.header, _) :=
    (decodeFrameHeader_parses _ _ _).mpr ⟨rfl, h.message, h.epoch⟩
  have hsemantic : frame.bytes.take kSemanticHeaderBytes = encodeFrameHeader frame.header :=
    List.take_left' (length_encodeFrameHeader frame.header)
  have hrest : frame.bytes.drop kSemanticHeaderBytes = _ :=
    List.drop_left' (length_encodeFrameHeader frame.header)
  have htotal : frame.bytes.length = frameSize frame.header.payloadLength := by
    rw [hlength, frameSize, h.length]
  have hlimit : ¬ limits.maxFrameBytes < frame.header.payloadLength := by
    rw [UInt32.lt_iff_toNat_lt, h.length]
    exact Nat.not_lt.mpr h.size
  have htrailer := (@trailer_checks_iff _
    (crc32c (encodeFrameHeader frame.header ++ frame.payload))
    (Sha256.digest (encodeFrameHeader frame.header ++ frame.payload))
    (by rw [List.length_append, length_putU32, Digest256.size])).mpr rfl
  have hfull : ¬ frame.bytes.length < kHeaderBytes := by omega
  unfold decodeFrame
  simp only [hheader, seq_eq_ok, failIf_eq_ok, ← List.drop_drop, hsemantic, hrest, h.length,
    List.take_left' (rfl : frame.payload.length = _),
    List.drop_left' (rfl : frame.payload.length = _), htrailer.1, htrailer.2, h.version,
    bne_self_eq_false, hlimit, htotal.symm, hfull, decide_false, true_and]
  rfl

/-- The accepted byte strings are the bytes of the well-formed frames. -/
theorem decodeFrame_eq_ok :
    decodeFrame raw limits = .ok frame ↔ raw = frame.bytes ∧ frame.WellFormed limits := by
  constructor
  · exact frame_of_decodeFrame
  · intro h
    rw [h.1]
    exact decodeFrame_bytes h.2

/-- A frame with a known message, a readable epoch and a payload within the limit is
encoded and read back normalized, and an accepted byte string is the encoding of the frame
that it was read as. -/
theorem decodeFrame_exact (limits : Limits) :
    (∀ frame : Frame, frame.header.message ≠ .invalid → frame.header.epoch.Storable →
      frame.payload.length ≤ limits.maxFrameBytes.toNat →
      ∃ raw, encodeFrame frame limits = .ok raw ∧
        decodeFrame raw limits = .ok frame.normalized) ∧
    ∀ raw frame, decodeFrame raw limits = .ok frame → encodeFrame frame limits = .ok raw := by
  constructor
  · intro frame hmessage hepoch hsize
    refine ⟨frame.normalized.bytes, encodeFrame_eq_ok.mpr ⟨hsize, hmessage, rfl⟩, ?_⟩
    exact decodeFrame_eq_ok.mpr ⟨rfl, Frame.wellFormed_normalized hsize hmessage hepoch⟩
  · intro raw frame h
    obtain ⟨hraw, hwell⟩ := decodeFrame_eq_ok.mp h
    refine encodeFrame_eq_ok.mpr ⟨hwell.size, hwell.message, ?_⟩
    rw [hwell.normalized_eq, hraw]

/-- A heartbeat of epoch 3 with two payload bytes. -/
def sampleHeartbeat : Frame :=
  { header := { message := .heartbeat, epoch := ⟨3⟩ }, payload := [0x22, 0x22] }

theorem decodeFrame_exact_sample :
    (∃ raw, encodeFrame sampleHeartbeat {} = .ok raw ∧
      decodeFrame raw {} = .ok sampleHeartbeat.normalized) ∧
    encodeFrame sampleHeartbeat.normalized {} = .ok sampleHeartbeat.normalized.bytes := by
  have hepoch : sampleHeartbeat.header.epoch.Storable := by
    show (3 : UInt64) ≤ Generation.kMaxGeneration
    decide
  refine ⟨(decodeFrame_exact {}).1 _ (by decide) hepoch (by decide), ?_⟩
  exact (decodeFrame_exact {}).2 _ _ (decodeFrame_eq_ok.mpr
    ⟨rfl, Frame.wellFormed_normalized (by decide) (by decide) hepoch⟩)

end ConstraintRouting.Fabric
