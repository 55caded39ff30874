import ConstraintRouting.Fabric.Checksums
import ConstraintRouting.Fabric.Envelopes
import ConstraintRouting.Fabric.Frames
import ConstraintRouting.Fabric.DurableWrites
import ConstraintRouting.Fabric.StoreOpening
import ConstraintRouting.Verified.Bursts

/-!
# Damaged bytes

Frames and envelopes end in the checksum and the digest of the bytes they seal.  The
checksum notices every burst of at most 32 bits, wherever it falls: a frame or a store
file with such damage is never accepted as anything.
-/

namespace ConstraintRouting.Fabric

open ByteWriter
open Verified.ReflectedCrc

/-! ## Sealed bytes -/

/-- Bytes with their checksum and digest. -/
def sealedBytes (body : List UInt8) : List UInt8 :=
  body ++ (putU32 (crc32c body) ++ (Sha256.digest body).bytes)

theorem Frame.bytes_eq_sealed (frame : Frame) :
    frame.bytes = sealedBytes (encodeFrameHeader frame.header ++ frame.payload) := by
  rw [Frame.bytes, sealedBytes, List.append_assoc]

/-- What stands before the payload of an envelope. -/
def envelopeHeader (payload : List UInt8) : List UInt8 :=
  kStoreMagic ++ (putU32 kPersistenceFormatVersion ++ putU64 (UInt64.ofNat payload.length))

theorem encodeEnvelope_eq_sealed (payload : List UInt8) :
    encodeEnvelope payload = envelopeHeader payload ++ sealedBytes payload :=
  encodeEnvelope_eq payload

theorem length_envelopeHeader (payload : List UInt8) :
    (envelopeHeader payload).length = kHeaderSize := by
  rw [envelopeHeader, List.length_append, List.length_append, length_kStoreMagic,
    length_putU32, length_putU64]
  rfl

theorem length_sealedBytes (body : List UInt8) :
    (sealedBytes body).length = body.length + 36 := by
  rw [sealedBytes, List.length_append, List.length_append, length_putU32, Digest256.size]

/-- A 32-bit value is written with its lowest bit first. -/
theorem flatMap_bitsOf_putU32 (value : UInt32) :
    (putU32 value).flatMap bitsOf = (List.range 32).map value.toBitVec.getLsbD := by
  have hbyte (byte : UInt8) (k : Nat)
      (h : byte.toBitVec = (value.toBitVec >>> k).setWidth 8) :
      bitsOf byte = (List.range 8).map fun i => value.toBitVec.getLsbD (k + i) := by
    apply List.map_congr_left
    intro i hi
    rw [h, BitVec.getLsbD_setWidth, BitVec.getLsbD_ushiftRight,
      decide_eq_true (List.mem_range.mp hi), Bool.true_and]
  have h0 : value.toUInt8.toBitVec = (value.toBitVec >>> 0).setWidth 8 := by
    rw [BitVec.ushiftRight_zero]
    rfl
  have h8 := hbyte (value >>> 8).toUInt8 8 rfl
  have h16 := hbyte (value >>> 16).toUInt8 16 rfl
  have h24 := hbyte (value >>> 24).toUInt8 24 rfl
  rw [putU32, List.flatMap_cons, List.flatMap_cons, List.flatMap_cons, List.flatMap_cons,
    List.flatMap_nil, hbyte _ 0 h0, h8, h16, h24]
  rfl

theorem length_flatMap_bitsOf (bytes : List UInt8) :
    (bytes.flatMap bitsOf).length = 8 * bytes.length := by
  induction bytes with
  | nil => rfl
  | cons byte bytes ih =>
      rw [List.flatMap_cons, List.length_append, ih, List.length_cons, bitsOf, List.length_map,
        List.length_range]
      omega

/-- The checksum follows the bytes bit by bit, as the check absorbs them. -/
theorem flatMap_bitsOf_checked (body : List UInt8) :
    (body ++ putU32 (crc32c body)).flatMap bitsOf = checkedBits castagnoli body := by
  rw [List.flatMap_append, flatMap_bitsOf_putU32, crc32c_eq_bitwiseCrc32c]
  rfl

/-- A burst of at most 32 bits never turns sealed bytes into other sealed bytes. -/
theorem sealed_eq_of_burst {body body' : List UInt8} (hlength : body.length = body'.length)
    (h : Burst 32 ((sealedBytes body).flatMap bitsOf) ((sealedBytes body').flatMap bitsOf)) :
    body = body' := by
  have hsplit (bytes : List UInt8) :
      ((sealedBytes bytes).flatMap bitsOf).take (8 * (bytes.length + 4)) =
        checkedBits castagnoli bytes := by
    rw [← flatMap_bitsOf_checked, sealedBytes, ← List.append_assoc, List.flatMap_append]
    apply List.take_left'
    rw [length_flatMap_bitsOf, List.length_append, length_putU32]
  have hburst := h.take (8 * (body.length + 4))
  rw [hsplit, hlength, hsplit] at hburst
  have hchecked := checkedBits_eq_of_burst (by decide) hburst
  rw [← flatMap_bitsOf_checked, ← flatMap_bitsOf_checked] at hchecked
  exact List.append_inj_left (flatMap_bitsOf_injective hchecked) hlength

/-- Damage to at most four bytes in a row is a burst of at most 32 bits. -/
theorem burst_of_bytes {before damaged altered after : List UInt8}
    (hlength : damaged.length = altered.length) (hfour : damaged.length ≤ 4) :
    Burst 32 ((before ++ (damaged ++ after)).flatMap bitsOf)
      ((before ++ (altered ++ after)).flatMap bitsOf) := by
  simp only [List.flatMap_append]
  apply Burst.of_parts
  · rw [length_flatMap_bitsOf, length_flatMap_bitsOf, hlength]
  · rw [length_flatMap_bitsOf]
    omega

/-! ## Frames -/

variable {raw damaged : List UInt8}

/-- A frame that a burst of at most 32 bits damages is never accepted: not as the frame
that it was, nor as another. -/
theorem damaged_frame_accepted_iff {limits : Limits} {frame : Frame}
    (hsent : decodeFrame raw limits = .ok frame)
    (hdamage : Burst 32 (raw.flatMap bitsOf) (damaged.flatMap bitsOf)) :
    (∃ accepted, decodeFrame damaged limits = .ok accepted) ↔ damaged = raw := by
  constructor
  · intro h
    obtain ⟨accepted, haccepted⟩ := h
    obtain ⟨hraw, -⟩ := decodeFrame_eq_ok.mp hsent
    obtain ⟨hdamaged, -⟩ := decodeFrame_eq_ok.mp haccepted
    have htotal := hdamage.1
    rw [length_flatMap_bitsOf, length_flatMap_bitsOf, hraw, hdamaged, Frame.length_bytes,
      Frame.length_bytes] at htotal
    rw [hraw, hdamaged, Frame.bytes_eq_sealed, Frame.bytes_eq_sealed] at hdamage ⊢
    rw [sealed_eq_of_burst _ hdamage]
    rw [List.length_append, List.length_append, length_encodeFrameHeader,
      length_encodeFrameHeader]
    omega
  · intro h
    exact ⟨frame, h ▸ hsent⟩

/-- The sample heartbeat with one bit of its payload turned over. -/
def sampleDamaged : List UInt8 :=
  encodeFrameHeader sampleHeartbeat.normalized.header ++ ([0x22, 0x23] ++
    (putU32 (crc32c (encodeFrameHeader sampleHeartbeat.normalized.header ++ [0x22, 0x22])) ++
      (Sha256.digest
        (encodeFrameHeader sampleHeartbeat.normalized.header ++ [0x22, 0x22])).bytes))

theorem damaged_frame_accepted_iff_sample :
    ¬ ∃ accepted, decodeFrame sampleDamaged {} = .ok accepted := by
  have hepoch : sampleHeartbeat.header.epoch.Storable := by
    show (3 : UInt64) ≤ Generation.kMaxGeneration
    decide
  have hsent : decodeFrame sampleHeartbeat.normalized.bytes {} = .ok sampleHeartbeat.normalized :=
    decodeFrame_eq_ok.mpr ⟨rfl, Frame.wellFormed_normalized (by decide) (by decide) hepoch⟩
  have hdamage : Burst 32 (sampleHeartbeat.normalized.bytes.flatMap bitsOf)
      (sampleDamaged.flatMap bitsOf) := burst_of_bytes rfl (by decide)
  intro haccepted
  have hsame := (damaged_frame_accepted_iff hsent hdamage).mp haccepted
  have hpayload := List.append_inj_left (List.append_cancel_left hsame) rfl
  exact absurd hpayload (by decide)

/-! ## Store files -/

/-- An envelope that a burst of at most 32 bits damages gives no payload, under any
limits. -/
theorem decodeEnvelope_of_burst {payload found : List UInt8} {limits : Limits}
    (hdamage : Burst 32 ((encodeEnvelope payload).flatMap bitsOf) (damaged.flatMap bitsOf))
    (hfound : decodeEnvelope damaged limits = .ok found) :
    damaged = encodeEnvelope payload := by
  obtain ⟨hdamaged, -⟩ := (decodeEnvelope_exact damaged found limits).mp hfound
  have htotal := hdamage.1
  rw [length_flatMap_bitsOf, length_flatMap_bitsOf, hdamaged, encodeEnvelope_eq_sealed,
    encodeEnvelope_eq_sealed, List.length_append, List.length_append, length_envelopeHeader,
    length_envelopeHeader, length_sealedBytes, length_sealedBytes] at htotal
  have hparts (bytes : List UInt8) :
      ((encodeEnvelope bytes).flatMap bitsOf).drop (8 * kHeaderSize) =
        (sealedBytes bytes).flatMap bitsOf := by
    rw [encodeEnvelope_eq_sealed, List.flatMap_append]
    apply List.drop_left'
    rw [length_flatMap_bitsOf, length_envelopeHeader]
  have hburst := hdamage.drop (8 * kHeaderSize)
  rw [hdamaged, hparts, hparts] at hburst
  rw [hdamaged, sealed_eq_of_burst (by omega) hburst]

/-- What the file held decides nothing about a save that succeeds. -/
theorem DurableStore.save_file_eq_ok {store after : DurableStore} {state : PersistentState}
    {outcome : WriteOutcome} {file : Option (List UInt8)} :
    { store with file := file }.save state outcome = (after, .ok ()) ↔
      store.save state outcome = (after, .ok ()) := by
  unfold save
  dsimp only
  have hfailed {error : Error} {one other : DurableStore} :
      (one, (.error error : Status)) = (after, .ok ()) ↔
        (other, (.error error : Status)) = (after, .ok ()) := by
    simp only [Prod.mk.injEq, reduceCtorEq, and_false]
  cases validatePersistentState state store.limits with
  | error error => exact hfailed
  | ok _ =>
      dsimp only
      split
      · exact hfailed
      · cases outcome.status with
        | error error => exact hfailed
        | ok _ => rfl

theorem Impl.persist_file_eq_ok {impl saved : Impl} {store : DurableStore}
    {state : PersistentState} {call : Call} {file : Option (List UInt8)}
    (hdurable : impl.durable = true) (hstore : impl.store = some store) :
    { impl with store := some { store with file := file } }.persist state call =
        (saved, .ok ()) ↔
      impl.persist state call = (saved, .ok ()) := by
  have hpersist (other : DurableStore) :
      { impl with store := some other }.persist state call = (saved, .ok ()) ↔
        ∃ after, other.save state call.write = (after, .ok ()) ∧
          { impl with store := some after } = saved := by
    unfold persist
    simp only [hdurable, Bool.not_true, Bool.false_eq_true, if_false]
    constructor
    · intro h
      have hstatus : (other.save state call.write).2 = .ok () := congrArg Prod.snd h
      exact ⟨(other.save state call.write).1, Prod.ext rfl hstatus, congrArg Prod.fst h⟩
    · intro h
      obtain ⟨after, hsave, hsaved⟩ := h
      rw [hsave, hsaved]
  have hself : { impl with store := some store } = impl := by rw [← hstore]
  have hown := hpersist store
  rw [hself] at hown
  rw [hpersist, hown]
  simp only [DurableStore.save_file_eq_ok]

/-- A configuration that may initialize opens over an unusable file as over none, and no
other configuration opens. -/
theorem openCoordinator_unreadable {config : CoordinatorConfig} {file : List UInt8}
    {error : Error} {call : Call} {impl : Impl} (hpath : config.storePath ≠ "") :
    openCoordinator config (.unreadable file error) call = .ok impl ↔
      config.allowInitialize = true ∧ openCoordinator config .absent call = .ok impl := by
  have habsent : restoredState config .absent = .ok none := if_neg hpath
  have hunreadable : restoredState config (.unreadable file error) =
      if config.allowInitialize then .ok none else .error error := if_neg hpath
  have hpersist (authority : AuthorityRegistry) (state : PersistentState) :
      (recover (unopened config (.unreadable file error) authority) none).persist state call =
          (impl, .ok ()) ↔
        (recover (unopened config .absent authority) none).persist state call =
          (impl, .ok ()) := by
    have hdurable : (config.storePath != "") = true := bne_iff_ne.mpr hpath
    have hopened (report : StoreReport config.limits) : unopened config report authority =
        { config, authority, durable := true,
          store := some { path := config.storePath, limits := config.limits,
                          file := report.file },
          evidence := config.evidence } := by
      unfold unopened
      dsimp only
      rw [hdurable, if_pos rfl]
    rw [hopened, hopened]
    let fresh : Impl :=
      { config, authority, durable := true,
        store := some { path := config.storePath, limits := config.limits },
        evidence := config.evidence }
    exact @Impl.persist_file_eq_ok (recover fresh none) impl
      { path := config.storePath, limits := config.limits } state call (some file) rfl rfl
  rw [openCoordinator_eq_ok, openCoordinator_eq_ok, hunreadable, habsent]
  cases config.allowInitialize with
  | false =>
      constructor
      · intro h
        obtain ⟨-, _, _, hrestored, -⟩ := h
        cases hrestored
      · intro h
        cases h.1
  | true =>
      constructor
      · intro h
        obtain ⟨hlimits, restored, authority, hrestored, hauthority, hsaved⟩ := h
        cases Except.ok.inj hrestored
        exact ⟨rfl, hlimits, none, authority, rfl, hauthority, (hpersist _ _).mp hsaved⟩
      · intro h
        obtain ⟨-, hlimits, restored, authority, hrestored, hauthority, hsaved⟩ := h
        cases Except.ok.inj hrestored
        exact ⟨hlimits, none, authority, rfl, hauthority, (hpersist _ _).mpr hsaved⟩

/-- A coordinator never starts from a store file that a burst of at most 32 bits damaged
since a save: over such a file it opens as over none, when it may initialize, and
otherwise not at all. -/
theorem damaged_file_never_restored {store after : DurableStore} {state : PersistentState}
    {outcome : WriteOutcome} (hsaved : store.save state outcome = (after, .ok ()))
    (hfile : after.file = some raw)
    (hdamage : Burst 32 (raw.flatMap bitsOf) (damaged.flatMap bitsOf)) (hne : damaged ≠ raw)
    {config : CoordinatorConfig} (hpath : config.storePath ≠ "") (call : Call) (impl : Impl) :
    openCoordinator config (storeOver config (some damaged)).report call = .ok impl ↔
      config.allowInitialize = true ∧ openCoordinator config .absent call = .ok impl := by
  obtain ⟨-, -, -, hwritten⟩ := DurableStore.save_eq_ok hsaved
  have hraw : raw = encodeEnvelope (encodePersistentState state) :=
    Option.some.inj (hfile.symm.trans hwritten)
  rw [hraw] at hdamage hne
  have hrefused (payload : List UInt8) :
      decodeEnvelope damaged config.limits ≠ .ok payload := by
    intro hfound
    exact hne (decodeEnvelope_of_burst hdamage hfound)
  have hload : ∃ error, (storeOver config (some damaged)).load = .error error := by
    unfold DurableStore.load storeOver
    dsimp only
    cases hfound : decodeEnvelope damaged config.limits with
    | error error => exact ⟨error, rfl⟩
    | ok payload => exact absurd hfound (hrefused payload)
  obtain ⟨error, hload⟩ := hload
  have hreport := @DurableStore.report_of_error damaged error
    (storeOver config (some damaged)) rfl hload
  rw [hreport]
  exact openCoordinator_unreadable hpath

/-- The file of an opened coordinator with the first four bytes of its epoch altered. -/
def sampleForged : List UInt8 :=
  let raw := encodeEnvelope (encodePersistentState sampleState)
  raw.take kHeaderSize ++ ([2, 0, 0, 0] ++ (raw.drop kHeaderSize).drop 4)

private theorem sampleState_saves : (sampleStore.save sampleState .written).2 = .ok () := by
  decide +kernel

private theorem sampleState_epoch :
    ((encodeEnvelope (encodePersistentState sampleState)).drop kHeaderSize).take 4 =
      [1, 0, 0, 0] := by
  decide +kernel

theorem damaged_file_never_restored_sample :
    ¬ ∃ impl, openCoordinator { sampleDurable with allowInitialize := false }
      (storeOver { sampleDurable with allowInitialize := false } (some sampleForged)).report
      sampleCall = .ok impl := by
  have hsaved := DurableStore.save_eq_of_status sampleState_saves
  obtain ⟨-, -, -, hfile⟩ := DurableStore.save_eq_ok hsaved
  have hsplit : encodeEnvelope (encodePersistentState sampleState) =
      (encodeEnvelope (encodePersistentState sampleState)).take kHeaderSize ++
        ([1, 0, 0, 0] ++
          ((encodeEnvelope (encodePersistentState sampleState)).drop kHeaderSize).drop 4) := by
    rw [← sampleState_epoch, List.take_append_drop, List.take_append_drop]
  have hdamage : Burst 32
      ((encodeEnvelope (encodePersistentState sampleState)).flatMap bitsOf)
      (sampleForged.flatMap bitsOf) := by
    rw [hsplit]
    exact burst_of_bytes rfl (by decide)
  have hne : sampleForged ≠ encodeEnvelope (encodePersistentState sampleState) := by
    intro hsame
    rw [hsplit] at hsame
    have hepoch := List.append_inj_left (List.append_cancel_left hsame) rfl
    exact absurd hepoch (by decide)
  intro h
  obtain ⟨impl, hopened⟩ := h
  have hinitialize := (damaged_file_never_restored hsaved hfile hdamage hne (by decide) _ _).mp
    hopened
  exact Bool.false_ne_true hinitialize.1

end ConstraintRouting.Fabric
