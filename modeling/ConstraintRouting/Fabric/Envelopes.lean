import ConstraintRouting.Fabric.RoundTrip

/-!
# Envelopes

The envelope of the store file is exact: what `decodeEnvelope` accepts is the envelope of
the payload that it gives back, and of no other payload.
-/

namespace ConstraintRouting.Fabric

open ByteWriter ByteReader
open Verified.Readers.Reader (bind_eq_some pure_eq_some)
open Verified.Checks (seq_eq_ok)

theorem readEnvelopeHeader_eq_some {input rest : List UInt8} {version : UInt32}
    {payloadLength : UInt64} :
    readEnvelopeHeader input = some ((version, payloadLength), rest) ↔
      input = putU32 version ++ (putU64 payloadLength ++ rest) := by
  simp only [readEnvelopeHeader, bind_eq_some, pure_eq_some, u32_eq_some, u64_eq_some]
  constructor
  · intro h
    obtain ⟨_, middle, hinput, _, last, hmiddle, hout⟩ := h
    cases hout
    rw [hinput, hmiddle]
  · intro h
    exact ⟨version, _, h, payloadLength, rest, rfl, rfl⟩

/-- The bytes of an accepted envelope, part by part. -/
private theorem envelope_of_decodeEnvelope {raw payload : List UInt8} {limits : Limits}
    (h : decodeEnvelope raw limits = .ok payload) :
    raw = encodeEnvelope payload ∧
      payload.length ≤ limits.maxPersistenceRecordBytes.toNat := by
  unfold decodeEnvelope at h
  rw [seq_eq_ok, seq_eq_ok, failIf_eq_ok, failIf_eq_ok, bne_eq_false_iff_eq] at h
  obtain ⟨-, hmagic, h⟩ := h
  cases hheader : readEnvelopeHeader (raw.drop kMagicSize) with
  | none =>
      rw [hheader] at h
      cases h
  | some header =>
      obtain ⟨⟨version, payloadLength⟩, rest⟩ := header
      rw [hheader] at h
      simp only [seq_eq_ok, failIf_eq_ok, bne_eq_false_iff_eq, decide_eq_false_iff_not] at h
      obtain ⟨hversion, hlimit, htotal, hcrc, hdigest, hout⟩ := h
      have hfields := readEnvelopeHeader_eq_some.mp hheader
      have hraw : raw = kStoreMagic ++ (putU32 version ++ (putU64 payloadLength ++ rest)) := by
        rw [← hfields, ← hmagic, List.take_append_drop]
      have hheaderSize : (kStoreMagic ++ putU32 version ++ putU64 payloadLength).length =
          kHeaderSize := by
        simp only [List.length_append, length_kStoreMagic, length_putU32, length_putU64]
        rfl
      have hrest : raw.drop kHeaderSize = rest := by
        rw [hraw, ← List.append_assoc, ← List.append_assoc, List.drop_left' hheaderSize]
      have hrestSize : rest.length = payloadLength.toNat + 36 := by
        rw [← hrest, List.length_drop, htotal]
        show kHeaderSize + 36 + payloadLength.toNat - kHeaderSize = _
        omega
      rw [← List.drop_drop, hrest] at hcrc hdigest
      rw [hrest] at hout
      have hbody : rest.take payloadLength.toNat = payload := Except.ok.inj hout
      rw [hbody] at hcrc hdigest
      have htrailer : rest.drop payloadLength.toNat =
          putU32 (crc32c payload) ++ (Sha256.digest payload).bytes :=
        (trailer_checks_iff (by rw [List.length_drop]; omega)).mp ⟨hcrc, hdigest⟩
      have hsize : payload.length = payloadLength.toNat := by
        rw [← hbody, List.length_take]
        omega
      constructor
      · rw [hraw, ← List.take_append_drop payloadLength.toNat rest, hbody, htrailer,
          encodeEnvelope_eq, hversion, hsize, UInt64.ofNat_toNat]
        simp only [List.append_assoc]
      · rw [UInt64.lt_iff_toNat_lt, UInt32.toNat_toUInt64] at hlimit
        omega

/-- A byte string is accepted as the envelope of a payload exactly when it is the envelope
of that payload and the payload is within the limit. -/
theorem decodeEnvelope_exact (raw payload : List UInt8) (limits : Limits) :
    decodeEnvelope raw limits = .ok payload ↔
      raw = encodeEnvelope payload ∧
        payload.length ≤ limits.maxPersistenceRecordBytes.toNat := by
  constructor
  · exact envelope_of_decodeEnvelope
  · intro h
    obtain ⟨hraw, hsize⟩ := h
    have hlimit := limits.maxPersistenceRecordBytes.toNat_lt
    rw [hraw]
    exact (decodeEnvelope_eq_ok (by omega)).mpr ⟨hsize, rfl⟩

end ConstraintRouting.Fabric
