import ConstraintRouting.Fabric.CodecSpec
import ConstraintRouting.Verified.SecureHash

/-!
# What the streaming hash computes

However a message is cut into calls of `update`, `finish` returns its SHA-256.  The
chaining words are those of the whole blocks so far, and the buffer holds what follows them.
-/

namespace ConstraintRouting.Fabric

open Verified.BlockStreams
open Verified (SecureHash.Words)
open Verified.SecureHash (blockWord scheduleWord bigEndian paddingZeros smallSigma0 smallSigma1)
open ByteReader (or_byte)

namespace Sha256

/-- The chaining words. -/
def words (sha : Sha256) : SecureHash.Words where
  a := sha.a
  b := sha.b
  c := sha.c
  d := sha.d
  e := sha.e
  f := sha.f
  g := sha.g
  h := sha.h

/-! ## One block -/

/-- The words of a byte string are read in order. -/
theorem readBigEndianU32_eq (bytes : List UInt8) :
    readBigEndianU32 bytes = (List.range (bytes.length / 4)).map (blockWord bytes) := by
  induction bytes using readBigEndianU32.induct with
  | case1 b0 b1 b2 b3 rest ih =>
      have hcount : (b0 :: b1 :: b2 :: b3 :: rest).length / 4 = rest.length / 4 + 1 := by
        simp only [List.length_cons]
        omega
      have hword : (b0.toUInt32 <<< 24) ||| (b1.toUInt32 <<< 16) ||| (b2.toUInt32 <<< 8) |||
          b3.toUInt32 = blockWord (b0 :: b1 :: b2 :: b3 :: rest) 0 := by
        have h0 := b0.toNat_lt
        have h1 := b1.toNat_lt
        have h2 := b2.toNat_lt
        have h3 := b3.toNat_lt
        rw [Verified.SecureHash.blockWord_zero]
        apply UInt32.toNat_inj.mp
        rw [UInt32.or_comm, UInt32.or_comm (_ ||| _), ← UInt32.or_assoc,
          UInt32.or_comm (b0.toUInt32 <<< 24), ← UInt32.or_assoc]
        simp only [UInt32.toNat_or, UInt32.toNat_shiftLeft, UInt8.toNat_toUInt32,
          UInt32.toNat_ofNat, UInt32.toNat_ofNat', Nat.reduceMod, Nat.reducePow]
        rw [or_byte 8 (by omega) (by omega) (by decide),
          or_byte 16 (by omega) (by omega) (by decide),
          or_byte 24 (by omega) (by omega) (by decide)]
        omega
      rw [readBigEndianU32, ih, hcount, List.range_succ_eq_map, List.map_cons, List.map_map,
        hword]
      rfl
  | case2 bytes hshort =>
      have hcount : bytes.length / 4 = 0 := by
        match bytes, hshort with
        | [], _ | [_], _ | [_, _], _ | [_, _, _], _ => simp
        | b0 :: b1 :: b2 :: b3 :: rest, hshort => exact absurd rfl (hshort b0 b1 b2 b3 rest)
      rw [hcount, readBigEndianU32]
      · rfl
      · exact hshort

/-- The newest words of the schedule so far. -/
private theorem getD_reverse_range (word : Nat → UInt32) {t i : Nat} (h : i < t) :
    ((List.range t).map word).reverse.getD i 0 = word (t - 1 - i) := by
  have hi : i < ((List.range t).map word).reverse.length := by simpa using h
  rw [List.getD_eq_getElem?_getD, List.getElem?_eq_getElem hi, Option.getD_some,
    List.getElem_reverse, List.getElem_map, List.getElem_range]
  simp

/-- The next word of the schedule follows the recurrence. -/
theorem scheduleNext_eq {block : List UInt8} {t : Nat} (h : 16 ≤ t) :
    scheduleNext ((List.range t).map (scheduleWord block)).reverse = scheduleWord block t := by
  unfold scheduleNext
  rw [getD_reverse_range _ (show 14 < t by omega), getD_reverse_range _ (show 1 < t by omega),
    getD_reverse_range _ (show 15 < t by omega), getD_reverse_range _ (show 6 < t by omega),
    Verified.SecureHash.scheduleWord_of_le h]
  have h15 : t - 1 - 14 = t - 15 := by omega
  have h2 : t - 1 - 1 = t - 2 := by omega
  have h16 : t - 1 - 15 = t - 16 := by omega
  have h7 : t - 1 - 6 = t - 7 := by omega
  rw [h15, h2, h16, h7]
  show scheduleWord block (t - 16) + smallSigma0 (scheduleWord block (t - 15)) +
      scheduleWord block (t - 7) + smallSigma1 (scheduleWord block (t - 2)) = _
  ac_rfl

theorem extendSchedule_eq {block : List UInt8} (n : Nat) {t : Nat} (h : 16 ≤ t) :
    extendSchedule n ((List.range t).map (scheduleWord block)).reverse =
      ((List.range (t + n)).map (scheduleWord block)).reverse := by
  induction n generalizing t with
  | zero => rfl
  | succ n ih =>
      have hnext : scheduleWord block t :: ((List.range t).map (scheduleWord block)).reverse =
          ((List.range (t + 1)).map (scheduleWord block)).reverse := by
        rw [List.range_succ, List.map_append, List.reverse_append]
        rfl
      rw [extendSchedule, scheduleNext_eq h, hnext, ih (by omega), Nat.add_right_comm,
        Nat.add_assoc]

theorem kRoundConstants_eq :
    kRoundConstants = (List.range 64).map Verified.SecureHash.constant := by
  rw [Verified.SecureHash.map_constant_range, Verified.SecureHash.primes_eq]
  decide +kernel

/-- The rounds over the constants and the schedule. -/
private theorem words_rounds (block : List UInt8) (sha : Sha256) (n : Nat) :
    (((List.range n).map fun t =>
        (Verified.SecureHash.constant t, scheduleWord block t)).foldl
      (fun work entry => round work entry.1 entry.2) sha).words =
      Verified.SecureHash.rounds block n sha.words := by
  induction n with
  | zero => rfl
  | succ n ih =>
      rw [List.range_succ, List.map_append, List.foldl_append, Verified.SecureHash.rounds, ← ih]
      rfl

/-- Compressing a block is the computation of the next hash value. -/
theorem words_compress {sha : Sha256} {block : List UInt8} (h : block.length = 64) :
    (compress sha block).words = Verified.SecureHash.compress sha.words block := by
  have hblock : readBigEndianU32 block = (List.range 16).map (scheduleWord block) := by
    rw [readBigEndianU32_eq, h]
    apply List.map_congr_left
    intro t ht
    exact (Verified.SecureHash.scheduleWord_of_lt (List.mem_range.mp ht)).symm
  have hschedule : (extendSchedule 48 (readBigEndianU32 block).reverse).reverse =
      (List.range 64).map (scheduleWord block) := by
    rw [hblock, extendSchedule_eq 48 (Nat.le_refl 16), List.reverse_reverse]
  have hwork := words_rounds block sha 64
  rw [← List.zip_map', ← kRoundConstants_eq, ← hschedule] at hwork
  unfold Verified.SecureHash.compress
  rw [← hwork]
  rfl

/-! ## The stream -/

/-- What the hash carries from one call to the next. -/
def stream (sha : Sha256) : BlockStream SecureHash.Words UInt8 where
  state := sha.words
  buffer := sha.buffer

/-- The stream that was fed a message. -/
abbrev streamOf (message : List UInt8) : BlockStream SecureHash.Words UInt8 :=
  BlockStream.of 64 Verified.SecureHash.compress Verified.SecureHash.initial message

private theorem compressBlocks_eq (n : Nat) (sha : Sha256) (data : List UInt8) :
    compressBlocks n sha data = absorbBlocks 64 compress n sha data := by
  induction n generalizing sha data with
  | zero => rfl
  | succ n ih => exact ih ..

/-- Whole blocks leave the buffer and the byte count alone. -/
private theorem compressBlocks_frame (n : Nat) (sha : Sha256) (data : List UInt8) :
    (compressBlocks n sha data).buffer = sha.buffer ∧
      (compressBlocks n sha data).totalBytes = sha.totalBytes := by
  induction n generalizing sha data with
  | zero => exact ⟨rfl, rfl⟩
  | succ n ih => exact ih (compress sha (data.take 64)) _

/-- The first phase leaves the rest of the data to the whole blocks. -/
private theorem fillBuffer_stream {sha : Sha256} {data rest : List UInt8} {filled : Sha256}
    (hbuffer : sha.buffer.length < 64) (h : fillBuffer sha data = (filled, rest)) :
    absorb 64 Verified.SecureHash.compress filled.words rest =
        absorb 64 Verified.SecureHash.compress sha.words (sha.buffer ++ data) ∧
      filled.buffer ++ pending 64 rest = pending 64 (sha.buffer ++ data) ∧
      filled.totalBytes = sha.totalBytes := by
  unfold fillBuffer at h
  split at h
  · next hempty =>
      obtain ⟨rfl, rfl⟩ := Prod.mk.inj h
      have hnone : sha.buffer = [] := List.isEmpty_iff.mp hempty
      rw [hnone]
      exact ⟨rfl, rfl, rfl⟩
  · dsimp only at h
    split at h
    · next hfull =>
        obtain ⟨rfl, rfl⟩ := Prod.mk.inj h
        have htake : (sha.buffer ++ data).take 64 =
            sha.buffer ++ data.take (64 - sha.buffer.length) := by
          rw [List.take_append, List.take_of_length_le (by omega)]
        have hdrop : (sha.buffer ++ data).drop 64 = data.drop (64 - sha.buffer.length) := by
          rw [List.drop_append, List.drop_of_length_le (by omega), List.nil_append]
        have hwhole : 64 ≤ (sha.buffer ++ data).length := by
          rw [List.length_append, List.length_take] at hfull
          rw [List.length_append]
          omega
        rw [absorb_of_le _ (by decide) hwhole, pending_of_le (by decide) hwhole, htake, hdrop,
          ← words_compress hfull]
        exact ⟨rfl, rfl, rfl⟩
    · next hshort =>
        obtain ⟨rfl, rfl⟩ := Prod.mk.inj h
        have hdata : data.length < 64 - sha.buffer.length := by
          rw [List.length_append, List.length_take] at hshort
          omega
        have hall : (sha.buffer ++ data).length < 64 := by
          rw [List.length_append]
          omega
        rw [List.take_of_length_le (by omega), List.drop_of_length_le (by omega),
          absorb_of_lt _ hall, pending_of_lt hall, pending_of_lt (by decide)]
        exact ⟨rfl, List.append_nil _, rfl⟩

/-- The hash with the bytes of a call counted. -/
private def counted (sha : Sha256) (data : List UInt8) : Sha256 :=
  { sha with totalBytes := sha.totalBytes + UInt64.ofNat data.length }

/-- A call after its first phase, and after its whole blocks. -/
private def filled (sha : Sha256) (data : List UInt8) : Sha256 × List UInt8 :=
  fillBuffer (counted sha data) data

private def absorbed (sha : Sha256) (data : List UInt8) : Sha256 :=
  compressBlocks ((filled sha data).2.length / 64) (filled sha data).1 (filled sha data).2

/-- A call goes on with the stream, and counts its bytes. -/
theorem stream_update {sha : Sha256} (data : List UInt8) (h : sha.buffer.length < 64) :
    (update sha data).stream = sha.stream.feed 64 Verified.SecureHash.compress data ∧
      (update sha data).totalBytes = sha.totalBytes + UInt64.ofNat data.length := by
  obtain ⟨hwords, hbuffer, htotal⟩ :=
    @fillBuffer_stream (counted sha data) data _ _ h (Prod.mk.eta (p := filled sha data)).symm
  have hframe := compressBlocks_frame ((filled sha data).2.length / 64) (filled sha data).1
    (filled sha data).2
  have hblocks : (absorbed sha data).words =
      absorb 64 Verified.SecureHash.compress (filled sha data).1.words (filled sha data).2 := by
    unfold absorbed
    rw [compressBlocks_eq, absorbBlocks_map (fun _ _ => words_compress) _ (by omega)]
    rfl
  have hstate : (update sha data).words =
      absorb 64 Verified.SecureHash.compress sha.words (sha.buffer ++ data) :=
    hblocks.trans hwords
  have hrest : (update sha data).buffer = pending 64 (sha.buffer ++ data) := by
    show (absorbed sha data).buffer ++ pending 64 (filled sha data).2 = _
    rw [show (absorbed sha data).buffer = (filled sha data).1.buffer from hframe.1, hbuffer]
    rfl
  constructor
  · unfold stream BlockStream.feed
    rw [hstate, hrest]
  · exact hframe.2.trans htotal

/-- The hash of a stream that was fed a message. -/
structure Streams (sha : Sha256) (message : List UInt8) : Prop where
  stream : sha.stream = streamOf message
  total : sha.totalBytes = UInt64.ofNat message.length

namespace Streams

variable {sha : Sha256} {message : List UInt8}

theorem start : Streams {} [] := by
  refine ⟨?_, rfl⟩
  have hinitial : ({} : Sha256).words = Verified.SecureHash.initial := by decide +kernel
  show ({ state := ({} : Sha256).words, buffer := [] } : BlockStream SecureHash.Words UInt8) = _
  rw [hinitial]
  rfl

theorem words (h : Streams sha message) :
    sha.words = absorb 64 Verified.SecureHash.compress Verified.SecureHash.initial message :=
  congrArg BlockStream.state h.stream

/-- The buffer holds what follows the last whole block. -/
theorem length_buffer (h : Streams sha message) : sha.buffer.length = message.length % 64 := by
  have hbuffer : sha.buffer = pending 64 message := congrArg BlockStream.buffer h.stream
  rw [hbuffer, length_pending]

theorem update (h : Streams sha message) (data : List UInt8) :
    Streams (sha.update data) (message ++ data) := by
  have hroom : sha.buffer.length < 64 := by
    rw [h.length_buffer]
    exact Nat.mod_lt _ (by decide)
  obtain ⟨hstream, htotal⟩ := stream_update data hroom
  constructor
  · rw [hstream, h.stream, BlockStream.feed_of (by decide)]
  · rw [htotal, h.total, List.length_append, UInt64.ofNat_add]

/-- Any calls go on with the message. -/
theorem foldl_update (h : Streams sha message) (chunks : List (List UInt8)) :
    Streams (chunks.foldl Sha256.update sha) (message ++ chunks.flatten) := by
  induction chunks generalizing sha message with
  | nil => simpa using h
  | cons chunk rest ih =>
      rw [List.foldl_cons, List.flatten_cons, ← List.append_assoc]
      exact ih (h.update chunk)

/-- Zero bytes are fed until fifty-six bytes are buffered. -/
theorem padZeros {zeros : Nat} (h : Streams sha message) (fuel : Nat)
    (hlast : (message.length + zeros) % 64 = 56)
    (hleast : ∀ fewer < zeros, (message.length + fewer) % 64 ≠ 56) (hfuel : zeros < fuel) :
    Streams (Sha256.padZeros fuel sha) (message ++ List.replicate zeros 0) := by
  induction fuel generalizing sha message zeros with
  | zero => exact absurd hfuel (Nat.not_lt_zero _)
  | succ fuel ih =>
      rw [Sha256.padZeros, h.length_buffer]
      cases zeros with
      | zero =>
          rw [Nat.add_zero] at hlast
          rw [if_pos hlast]
          simpa using h
      | succ zeros =>
          have hmore : message.length % 64 ≠ 56 := hleast 0 (Nat.succ_pos zeros)
          have hlength : (message ++ [(0 : UInt8)]).length = message.length + 1 := by simp
          have hzeros : message ++ List.replicate (zeros + 1) 0 =
              message ++ [0] ++ List.replicate zeros 0 := by
            rw [List.replicate_succ, List.append_assoc]
            rfl
          rw [if_neg hmore, hzeros]
          apply ih (h.update [0])
          · rw [hlength]
            omega
          · intro fewer hfewer
            have := hleast (fewer + 1) (by omega)
            rw [hlength]
            omega
          · omega

end Streams

/-! ## The digest -/

theorem writeBigEndianU32_eq (value : UInt32) :
    writeBigEndianU32 value = bigEndian 4 value.toNat := by
  have hbytes : bigEndian 4 value.toNat =
      [UInt8.ofNat (value.toNat / 2 ^ 24), UInt8.ofNat (value.toNat / 2 ^ 16),
        UInt8.ofNat (value.toNat / 2 ^ 8), UInt8.ofNat (value.toNat / 1)] := rfl
  rw [hbytes]
  simp only [writeBigEndianU32, List.cons.injEq, and_true, ← UInt8.toNat_inj,
    UInt32.toNat_toUInt8, UInt32.toNat_shiftRight, Nat.shiftRight_eq_div_pow,
    UInt32.toNat_ofNat, UInt8.toNat_ofNat', Nat.reduceMod, Nat.reducePow, Nat.div_one]

theorem reverse_putU64 (value : UInt64) :
    (ByteWriter.putU64 value).reverse = bigEndian 8 value.toNat := by
  have hbytes : bigEndian 8 value.toNat =
      [UInt8.ofNat (value.toNat / 2 ^ 56), UInt8.ofNat (value.toNat / 2 ^ 48),
        UInt8.ofNat (value.toNat / 2 ^ 40), UInt8.ofNat (value.toNat / 2 ^ 32),
        UInt8.ofNat (value.toNat / 2 ^ 24), UInt8.ofNat (value.toNat / 2 ^ 16),
        UInt8.ofNat (value.toNat / 2 ^ 8), UInt8.ofNat (value.toNat / 1)] := rfl
  rw [hbytes]
  show [_, _, _, _, _, _, _, _] = _
  simp only [List.cons.injEq, and_true, ← UInt8.toNat_inj,
    UInt64.toNat_toUInt8, UInt64.toNat_shiftRight, Nat.shiftRight_eq_div_pow,
    UInt64.toNat_ofNat, UInt8.toNat_ofNat', Nat.reduceMod, Nat.reducePow, Nat.div_one]

/-- A message that was fed is padded and hashed. -/
theorem Streams.finish {sha : Sha256} {message : List UInt8} (h : Streams sha message) :
    sha.finish.bytes = Verified.SecureHash.sha256 message := by
  have hlength : (message ++ [(0x80 : UInt8)]).length = message.length + 1 := by simp
  have hpadded : Streams (Sha256.padZeros 64 (sha.update [0x80]))
      (message ++ [0x80] ++ List.replicate (paddingZeros message.length) 0) := by
    apply (h.update [0x80]).padZeros
    · rw [hlength]
      exact Verified.SecureHash.paddingZeros_spec _
    · intro fewer hfewer
      rw [hlength]
      exact Verified.SecureHash.paddingZeros_least hfewer
    · exact Verified.SecureHash.paddingZeros_lt _
  have hbits : (sha.totalBytes * 8).toNat = 8 * message.length % 2 ^ 64 := by
    have height : (8 : UInt64).toNat = 8 := rfl
    rw [h.total, UInt64.toNat_mul, UInt64.toNat_ofNat', height]
    omega
  have hout := (hpadded.update (ByteWriter.putU64 (sha.totalBytes * 8)).reverse).words
  rw [reverse_putU64, hbits] at hout
  have hwrite : writeBigEndianU32 = fun word => bigEndian 4 word.toNat :=
    funext writeBigEndianU32_eq
  unfold Verified.SecureHash.sha256 Verified.SecureHash.pad Verified.SecureHash.Words.bytes
  rw [← hout, ← hwrite, ← hbits, ← reverse_putU64]
  rfl

/-- However a message is split into calls, the digest is its SHA-256. -/
theorem finish_foldl_update (chunks : List (List UInt8)) :
    (chunks.foldl update {}).finish.bytes = Verified.SecureHash.sha256 chunks.flatten :=
  (Streams.start.foldl_update chunks).finish

end Sha256

end ConstraintRouting.Fabric
