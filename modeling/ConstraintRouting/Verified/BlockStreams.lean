import Mathlib.Data.List.Basic

/-!
# Streams that are absorbed in blocks

A stream absorbs its data a whole block at a time and buffers what follows the last one.
Its state depends on the concatenation of what it was fed, and not on where that was cut.
-/

namespace ConstraintRouting.Verified.BlockStreams

variable {α σ τ : Type} {size : Nat} {compress : σ → List α → σ}

/-- Absorbs the first `n` blocks of the data. -/
def absorbBlocks (size : Nat) (compress : σ → List α → σ) : Nat → σ → List α → σ
  | 0, state, _ => state
  | n + 1, state, data =>
      absorbBlocks size compress n (compress state (data.take size)) (data.drop size)

/-- Absorbs the whole blocks of the data. -/
def absorb (size : Nat) (compress : σ → List α → σ) (state : σ) (data : List α) : σ :=
  absorbBlocks size compress (data.length / size) state data

/-- What follows the last whole block. -/
def pending (size : Nat) (data : List α) : List α :=
  data.drop (size * (data.length / size))

theorem length_pending (data : List α) : (pending size data).length = data.length % size := by
  rw [pending, List.length_drop, Nat.mod_eq_sub]

theorem pending_of_lt {data : List α} (h : data.length < size) : pending size data = data := by
  rw [pending, Nat.div_eq_of_lt h, Nat.mul_zero, List.drop_zero]

theorem absorb_of_lt {data : List α} (state : σ) (h : data.length < size) :
    absorb size compress state data = state := by
  rw [absorb, Nat.div_eq_of_lt h]
  rfl

/-- One more block in front. -/
theorem absorb_of_le {data : List α} (state : σ) (hsize : 0 < size)
    (h : size ≤ data.length) :
    absorb size compress state data =
      absorb size compress (compress state (data.take size)) (data.drop size) := by
  have hblocks : data.length / size = (data.drop size).length / size + 1 := by
    rw [List.length_drop, Nat.div_eq_sub_div hsize h]
  rw [absorb, hblocks]
  rfl

theorem pending_of_le {data : List α} (hsize : 0 < size) (h : size ≤ data.length) :
    pending size data = pending size (data.drop size) := by
  have hblocks : data.length / size = (data.drop size).length / size + 1 := by
    rw [List.length_drop, Nat.div_eq_sub_div hsize h]
  rw [pending, hblocks, Nat.mul_succ, Nat.add_comm, ← List.drop_drop]
  rfl

/-- Data may be absorbed in two parts, the second behind what is pending of the first. -/
theorem absorb_append (hsize : 0 < size) (state : σ) (data more : List α) :
    absorb size compress state (data ++ more) =
        absorb size compress (absorb size compress state data) (pending size data ++ more) ∧
      pending size (data ++ more) = pending size (pending size data ++ more) := by
  induction hlength : data.length using Nat.strongRecOn generalizing state data with
  | ind length ih =>
      by_cases hshort : data.length < size
      · rw [absorb_of_lt state hshort, pending_of_lt hshort]
        exact ⟨rfl, rfl⟩
      · have hfull : size ≤ data.length := Nat.le_of_not_lt hshort
        have hwhole : size ≤ (data ++ more).length := by
          rw [List.length_append]
          omega
        have hrest : (data.drop size).length < length := by
          rw [List.length_drop]
          omega
        rw [absorb_of_le state hsize hwhole, absorb_of_le state hsize hfull,
          pending_of_le hsize hwhole, pending_of_le hsize hfull,
          List.take_append_of_le_length hfull, List.drop_append_of_le_length hfull]
        exact ih _ hrest _ _ rfl

/-- A view of the state that the compression respects is respected by absorbing. -/
theorem absorbBlocks_map {view : σ → τ} {compress' : τ → List α → τ}
    (hview : ∀ state block, block.length = size →
      view (compress state block) = compress' (view state) block)
    {n : Nat} {data : List α} (state : σ) (hblocks : n * size ≤ data.length) :
    view (absorbBlocks size compress n state data) =
      absorbBlocks size compress' n (view state) data := by
  induction n generalizing state data with
  | zero => rfl
  | succ n ih =>
      rw [Nat.succ_mul] at hblocks
      have hblock : (data.take size).length = size := by
        rw [List.length_take]
        omega
      have hrest : n * size ≤ (data.drop size).length := by
        rw [List.length_drop]
        omega
      show view (absorbBlocks size compress n _ _) = absorbBlocks size compress' n _ _
      rw [ih _ hrest, hview state _ hblock]

/-! ## Streams -/

/-- The state of the whole blocks, and what is buffered for the next one. -/
structure BlockStream (σ α : Type) where
  state : σ
  buffer : List α

/-- Absorbs the whole blocks of the buffer and the data, and buffers the rest. -/
def BlockStream.feed (size : Nat) (compress : σ → List α → σ) (stream : BlockStream σ α)
    (data : List α) : BlockStream σ α where
  state := absorb size compress stream.state (stream.buffer ++ data)
  buffer := pending size (stream.buffer ++ data)

/-- The stream that was started in a state and fed a message. -/
def BlockStream.of (size : Nat) (compress : σ → List α → σ) (start : σ) (message : List α) :
    BlockStream σ α where
  state := absorb size compress start message
  buffer := pending size message

/-- Feeding goes on with the message. -/
theorem BlockStream.feed_of (hsize : 0 < size) (start : σ) (message data : List α) :
    (BlockStream.of size compress start message).feed size compress data =
      BlockStream.of size compress start (message ++ data) := by
  obtain ⟨hstate, hbuffer⟩ :=
    @absorb_append _ _ size compress hsize start message data
  unfold feed BlockStream.of
  rw [hstate, hbuffer]

end ConstraintRouting.Verified.BlockStreams
