import Mathlib.Algebra.Ring.Nat
import Mathlib.Data.List.Basic

/-!
# Reassembly of a cut stream

An assembler buffers the chunks of a stream and pops the values whose codes are complete.
When it pops a value exactly once the whole code has arrived, then the values that come out
do not depend on how the stream was cut.
-/

namespace ConstraintRouting.Verified.Assemblers

variable {σ β γ ε : Type}

/-! ## Cuts -/

/-- What is left of `sent` elements after the whole codes among them: the elements of the
code that has started. -/
def startedLength : List Nat → Nat → Nat
  | [], sent => sent
  | size :: sizes, sent => if size ≤ sent then startedLength sizes (sent - size) else sent

/-- Each chunk fits the bound together with the code that had started before it; `sent`
elements came before the chunks. -/
def CutWithin (bound : Nat) (sizes : List Nat) : Nat → List (List β) → Prop
  | _, [] => True
  | sent, chunk :: chunks =>
      startedLength sizes sent + chunk.length ≤ bound ∧
        CutWithin bound sizes (sent + chunk.length) chunks

theorem startedLength_of_lt {sizes : List Nat} {sent : Nat}
    (h : ∀ size ∈ sizes.head?, sent < size) : startedLength sizes sent = sent := by
  cases sizes with
  | nil => rfl
  | cons size sizes =>
      have hlt : sent < size := h size rfl
      exact if_neg (Nat.not_le.mpr hlt)

theorem startedLength_append (done sizes : List Nat) (sent : Nat) :
    startedLength (done ++ sizes) (done.sum + sent) = startedLength sizes sent := by
  induction done with
  | nil => rw [List.nil_append, List.sum_nil, Nat.zero_add]
  | cons size done ih =>
      have hle : size ≤ (size :: done).sum + sent := by
        rw [List.sum_cons]
        omega
      have hrest : (size :: done).sum + sent - size = done.sum + sent := by
        rw [List.sum_cons]
        omega
      rw [List.cons_append, startedLength, if_pos hle, hrest, ih]

/-- The codes that are over do not matter for the rest of a cut. -/
theorem cutWithin_append {bound : Nat} {done sizes : List Nat} {chunks : List (List β)}
    {sent : Nat} (h : CutWithin bound (done ++ sizes) (done.sum + sent) chunks) :
    CutWithin bound sizes sent chunks := by
  induction chunks generalizing sent with
  | nil => exact trivial
  | cons chunk chunks ih =>
      obtain ⟨hfirst, hrest⟩ := h
      rw [startedLength_append] at hfirst
      rw [Nat.add_assoc] at hrest
      exact ⟨hfirst, ih hrest⟩

theorem startedLength_le (sizes : List Nat) (sent : Nat) : startedLength sizes sent ≤ sent := by
  induction sizes generalizing sent with
  | nil => exact Nat.le_refl _
  | cons size sizes ih =>
      rw [startedLength]
      split
      · have hrest := ih (sent - size)
        omega
      · exact Nat.le_refl _

/-- Every cut of a stream that fits the bound is within it. -/
theorem cutWithin_of_length_le {bound : Nat} {sizes : List Nat} {chunks : List (List β)}
    {sent : Nat} (h : sent + chunks.flatten.length ≤ bound) :
    CutWithin bound sizes sent chunks := by
  induction chunks generalizing sent with
  | nil => exact trivial
  | cons chunk chunks ih =>
      rw [List.flatten_cons, List.length_append] at h
      have hstarted := startedLength_le sizes sent
      exact ⟨by omega, ih (by omega)⟩

/-! ## Assemblers -/

section Runs

variable (push : σ → List β → σ × Except ε Unit) (pop : σ → σ × Except ε (Option γ))

/-- Popping until nothing is produced. -/
inductive Drains : σ → List γ → σ → Prop
  | idle {state last : σ} : pop state = (last, .ok none) → Drains state [] last
  | produced {state middle last : σ} {value : γ} {values : List γ} :
      pop state = (middle, .ok (some value)) → Drains middle values last →
      Drains state (value :: values) last

/-- Pushing each chunk and popping until nothing is produced after each push. -/
inductive Receives : σ → List (List β) → List γ → σ → Prop
  | done (state : σ) : Receives state [] [] state
  | chunk {state pushed middle last : σ} {chunk : List β} {chunks : List (List β)}
      {values rest : List γ} :
      push state chunk = (pushed, .ok ()) → Drains pop pushed values middle →
      Receives middle chunks rest last →
      Receives state (chunk :: chunks) (values ++ rest) last

end Runs

/-- The assembler holds what was pushed, as long as that fits the bound, and pops a value
exactly when its whole code has arrived. -/
structure Assembles (push : σ → List β → σ × Except ε Unit)
    (pop : σ → σ × Except ε (Option γ)) (holding : List β → σ) (encode : γ → List β)
    (readable : γ → Prop) (bound : Nat) : Prop where
  pushed : ∀ buffer chunk, buffer.length + chunk.length ≤ bound →
    push (holding buffer) chunk = (holding (buffer ++ chunk), .ok ())
  empty : pop (holding []) = (holding [], .ok none)
  whole : ∀ value rest, readable value →
    pop (holding (encode value ++ rest)) = (holding rest, .ok (some value))
  started : ∀ value part more, readable value → part ++ more = encode value → more ≠ [] →
    pop (holding part) = (holding part, .ok none)

namespace Assembles

variable {push : σ → List β → σ × Except ε Unit} {pop : σ → σ × Except ε (Option γ)}
  {holding : List β → σ} {encode : γ → List β} {readable : γ → Prop} {bound : Nat}

/-- Draining a prefix of the codes produces the values whose codes are complete and leaves
the part of the code that has started. -/
theorem drains (h : Assembles push pop holding encode readable bound) {values : List γ}
    (hvalues : ∀ value ∈ values, readable value) {buffer future : List β}
    (hcodes : buffer ++ future = values.flatMap encode) :
    ∃ done rest left, values = done ++ rest ∧ buffer = done.flatMap encode ++ left ∧
      left ++ future = rest.flatMap encode ∧
      (∀ value ∈ rest.head?, left.length < (encode value).length) ∧
      Drains pop (holding buffer) done (holding left) := by
  induction values generalizing buffer with
  | nil =>
      have hnil : buffer = [] := (List.append_eq_nil_iff.mp hcodes).1
      refine ⟨[], [], buffer, rfl, rfl, hcodes, ?_, ?_⟩
      · intro value hnone
        cases hnone
      · rw [hnil]
        exact .idle h.empty
  | cons value values ih =>
      obtain ⟨hvalue, hrest⟩ := List.forall_mem_cons.mp hvalues
      rw [List.flatMap_cons] at hcodes
      by_cases hwhole : (encode value).length ≤ buffer.length
      · -- the whole code is there: it is popped, and the rest is drained
        obtain ⟨tail, hbuffer⟩ := List.prefix_of_prefix_length_le
          (List.prefix_append (encode value) (values.flatMap encode))
          (hcodes ▸ List.prefix_append buffer future) hwhole
        have hfuture : tail ++ future = values.flatMap encode := by
          rw [← hbuffer, List.append_assoc] at hcodes
          exact List.append_cancel_left hcodes
        obtain ⟨done, rest, left, hsplit, htail, hleft, hstarted, hdrains⟩ := ih hrest hfuture
        refine ⟨value :: done, rest, left, by rw [hsplit]; rfl, ?_, hleft, hstarted, ?_⟩
        · rw [← hbuffer, htail, List.flatMap_cons, List.append_assoc]
        · rw [← hbuffer]
          exact .produced (h.whole value tail hvalue) hdrains
      · -- the code has only started, so nothing is produced
        obtain ⟨more, hmore⟩ := List.prefix_of_prefix_length_le
          (hcodes ▸ List.prefix_append buffer future)
          (List.prefix_append (encode value) (values.flatMap encode)) (by omega)
        have hne : more ≠ [] := by
          intro hnil
          rw [hnil, List.append_nil] at hmore
          exact hwhole (Nat.le_of_eq (congrArg List.length hmore).symm)
        refine ⟨[], value :: values, buffer, rfl, rfl, hcodes, ?_, ?_⟩
        · intro head hhead
          cases hhead
          omega
        · exact .idle (h.started value buffer more hvalue hmore hne)

private theorem receives_from (h : Assembles push pop holding encode readable bound)
    {chunks : List (List β)} {values : List γ} {buffer : List β}
    (hvalues : ∀ value ∈ values, readable value)
    (hcodes : buffer ++ chunks.flatten = values.flatMap encode)
    (hstarted : ∀ value ∈ values.head?, buffer.length < (encode value).length)
    (hcut : CutWithin bound (values.map fun value => (encode value).length) buffer.length
      chunks) :
    Receives push pop (holding buffer) chunks values (holding []) := by
  induction chunks generalizing buffer values with
  | nil =>
      rw [List.flatten_nil, List.append_nil] at hcodes
      cases values with
      | nil =>
          have hnil : buffer = [] := hcodes
          rw [hnil]
          exact .done _
      | cons value values =>
          have hlt := hstarted value rfl
          rw [hcodes, List.flatMap_cons, List.length_append] at hlt
          omega
  | cons chunk chunks ih =>
      obtain ⟨hfits, hcut⟩ := hcut
      rw [startedLength_of_lt (fun size hsize => by
        rw [List.head?_map] at hsize
        obtain ⟨value, hvalue, hsize⟩ := Option.map_eq_some_iff.mp hsize
        rw [← hsize]
        exact hstarted value hvalue)] at hfits
      rw [List.flatten_cons, ← List.append_assoc] at hcodes
      obtain ⟨done, rest, left, hsplit, hbuffer, hleft, hhead, hdrains⟩ :=
        h.drains hvalues hcodes
      rw [hsplit]
      refine .chunk (h.pushed buffer chunk hfits) hdrains
        (ih (fun value hmem => hvalues value ?_) hleft hhead ?_)
      · rw [hsplit]
        exact List.mem_append_right done hmem
      · have hsent : buffer.length + chunk.length =
            (done.map fun value => (encode value).length).sum + left.length := by
          rw [← List.length_append, hbuffer, List.length_append, List.length_flatMap]
        rw [hsent, hsplit, List.map_append] at hcut
        exact cutWithin_append hcut

/-- However the codes of some values are cut within the bound, exactly these values come
out in order and nothing stays buffered. -/
theorem receives (h : Assembles push pop holding encode readable bound)
    (hencode : ∀ value, encode value ≠ []) {chunks : List (List β)} {values : List γ}
    (hvalues : ∀ value ∈ values, readable value)
    (hcodes : chunks.flatten = values.flatMap encode)
    (hcut : CutWithin bound (values.map fun value => (encode value).length) 0 chunks) :
    Receives push pop (holding []) chunks values (holding []) :=
  h.receives_from hvalues hcodes (fun value _ => List.length_pos_iff.mpr (hencode value)) hcut

/-- Popping a prefix of the codes does not fail. -/
theorem pops (h : Assembles push pop holding encode readable bound) {values : List γ}
    (hvalues : ∀ value ∈ values, readable value) {buffer : List β}
    (hbuffer : buffer <+: values.flatMap encode) :
    ∃ state produced, pop (holding buffer) = (state, .ok produced) := by
  obtain ⟨future, hcodes⟩ := hbuffer
  obtain ⟨done, rest, left, -, -, -, -, hdrains⟩ := h.drains hvalues hcodes
  cases hdrains with
  | idle hpop => exact ⟨_, _, hpop⟩
  | produced hpop _ => exact ⟨_, _, hpop⟩

/-- Values whose codes are a prefix of the codes of others are a prefix of them. -/
theorem prefix_of_codes (h : Assembles push pop holding encode readable bound)
    {first second : List γ} (hfirst : ∀ value ∈ first, readable value)
    (hsecond : ∀ value ∈ second, readable value)
    (hcodes : first.flatMap encode <+: second.flatMap encode) : first <+: second := by
  induction first generalizing second with
  | nil => exact List.nil_prefix
  | cons value first ih =>
      obtain ⟨hvalue, hrest⟩ := List.forall_mem_cons.mp hfirst
      obtain ⟨more, hmore⟩ := hcodes
      rw [List.flatMap_cons, List.append_assoc] at hmore
      have hpop := h.whole value (first.flatMap encode ++ more) hvalue
      cases second with
      | nil =>
          -- nothing comes out of an empty buffer
          rw [hmore, List.flatMap_nil, h.empty] at hpop
          have hproduced := congrArg Prod.snd hpop
          cases Except.ok.inj hproduced
      | cons other second =>
          obtain ⟨hother, hsecond⟩ := List.forall_mem_cons.mp hsecond
          rw [List.flatMap_cons] at hmore
          rw [hmore, h.whole other (second.flatMap encode) hother] at hpop
          obtain rfl : other = value := by
            have hproduced := congrArg Prod.snd hpop
            exact Option.some.inj (Except.ok.inj hproduced)
          rw [List.append_cancel_left_eq] at hmore
          exact List.cons_prefix_cons.mpr ⟨rfl, ih hrest hsecond ⟨more, hmore⟩⟩

end Assembles

end ConstraintRouting.Verified.Assemblers
