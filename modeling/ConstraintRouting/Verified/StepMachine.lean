/-!
# Runs of a partial step machine

A machine takes a labelled step or refuses the label.  A run records each step as
an event, so that a property may speak about the order of steps, and an invariant
may use what is known about each event of the run.
-/

namespace ConstraintRouting.Verified.StepMachine

variable {σ ι ο : Type}

/-- One step that was taken. -/
structure Event (σ ι ο : Type) where
  pre : σ
  input : ι
  output : ο
  post : σ

/-- The event is a step of the machine. -/
def Event.Taken (step : σ → ι → Option (σ × ο)) (event : Event σ ι ο) : Prop :=
  step event.pre event.input = some (event.post, event.output)

/-- The finite runs of a machine, with their events in order. -/
inductive Run (step : σ → ι → Option (σ × ο)) : σ → List (Event σ ι ο) → σ → Prop
  | nil (state : σ) : Run step state [] state
  | cons {event : Event σ ι ο} {events : List (Event σ ι ο)} {last : σ} :
      event.Taken step → Run step event.post events last →
      Run step event.pre (event :: events) last

namespace Run

variable {step : σ → ι → Option (σ × ο)} {start middle last : σ}
  {first second events : List (Event σ ι ο)}

theorem append (hfirst : Run step start first middle) (hsecond : Run step middle second last) :
    Run step start (first ++ second) last := by
  induction hfirst with
  | nil => exact hsecond
  | cons htaken _ ih => exact .cons htaken (ih hsecond)

/-- A run without events stays where it is. -/
theorem eq_of_nil (h : Run step start [] last) : last = start := by
  cases h
  rfl

/-- A run can be cut anywhere. -/
theorem split (h : Run step start (first ++ second) last) :
    ∃ middle, Run step start first middle ∧ Run step middle second last := by
  induction first generalizing start with
  | nil => exact ⟨start, .nil start, h⟩
  | cons event rest ih =>
      cases h with
      | cons htaken hrest =>
          obtain ⟨middle, hfirst, hsecond⟩ := ih hrest
          exact ⟨middle, .cons htaken hfirst, hsecond⟩

/-- The event in the middle of a run was taken, between two shorter runs. -/
theorem split_event {event : Event σ ι ο}
    (h : Run step start (first ++ event :: second) last) :
    Run step start first event.pre ∧ event.Taken step ∧ Run step event.post second last := by
  obtain ⟨middle, hfirst, hrest⟩ := h.split
  cases hrest with
  | cons htaken hsecond => exact ⟨hfirst, htaken, hsecond⟩

/-- A property of the history and of the state holds at the end of a run when it
holds before the run and every event of the run preserves it. -/
theorem history_invariant {inv : List (Event σ ι ο) → σ → Prop}
    (h : Run step start events last) (hstart : inv [] start)
    (hstep : ∀ before event after, events = before ++ event :: after →
      event.Taken step → inv before event.pre → inv (before ++ [event]) event.post) :
    inv events last := by
  suffices general : ∀ rest state final, Run step state rest final →
      ∀ done, events = done ++ rest → inv done state → inv (done ++ rest) final by
    simpa using general events start last h [] rfl hstart
  intro rest state final hrun
  induction hrun with
  | nil =>
      intro done _ hinv
      simpa using hinv
  | @cons event rest _ htaken _ ih =>
      intro done hevents hinv
      have hnext := hstep done event rest hevents htaken hinv
      simpa using ih (done ++ [event]) (by simpa using hevents) hnext

/-- An invariant of the state, preserved by each event of the run. -/
theorem invariant {inv : σ → Prop} (h : Run step start events last) (hstart : inv start)
    (hstep : ∀ event ∈ events, event.Taken step → inv event.pre → inv event.post) :
    inv last := by
  have hevents : ∀ before event after, events = before ++ event :: after →
      event.Taken step → inv event.pre → inv event.post := by
    rintro before event after rfl
    exact hstep event (by simp)
  change (fun (_ : List (Event σ ι ο)) state => inv state) events last
  exact h.history_invariant hstart hevents

end Run

/-! ## Execution -/

/-- Runs the machine on a list of labels. -/
def exec (step : σ → ι → Option (σ × ο)) (start : σ) :
    List ι → Option (List (Event σ ι ο) × σ)
  | [] => some ([], start)
  | input :: rest =>
      match step start input with
      | none => none
      | some (next, output) =>
          (exec step next rest).map fun (events, last) =>
            (⟨start, input, output, next⟩ :: events, last)

theorem Run.of_exec {step : σ → ι → Option (σ × ο)} {start last : σ} {inputs : List ι}
    {events : List (Event σ ι ο)} (h : exec step start inputs = some (events, last)) :
    Run step start events last := by
  induction inputs generalizing start events with
  | nil =>
      simp only [exec, Option.some.injEq, Prod.mk.injEq] at h
      obtain ⟨rfl, rfl⟩ := h
      exact .nil start
  | cons input rest ih =>
      rw [exec] at h
      cases htaken : step start input with
      | none => simp [htaken] at h
      | some taken =>
          obtain ⟨next, output⟩ := taken
          simp only [htaken, Option.map_eq_some_iff, Prod.mk.injEq, Prod.exists] at h
          obtain ⟨later, _, hlater, rfl, rfl⟩ := h
          have hcons : Event.Taken step ⟨start, input, output, next⟩ := htaken
          exact .cons hcons (ih hlater)

/-- A run is the execution of its inputs. -/
theorem exec_of_run {step : σ → ι → Option (σ × ο)} {start last : σ}
    {events : List (Event σ ι ο)} (h : Run step start events last) :
    exec step start (events.map (·.input)) = some (events, last) := by
  induction h with
  | nil state => rfl
  | @cons event rest last htaken _ ih =>
      have hstep : step event.pre event.input = some (event.post, event.output) := htaken
      rw [List.map_cons, exec, hstep]
      dsimp only
      rw [ih]
      rfl

/-- An execution serves the inputs that it was given. -/
theorem inputs_of_exec {step : σ → ι → Option (σ × ο)} {start last : σ} {inputs : List ι}
    {events : List (Event σ ι ο)} (h : exec step start inputs = some (events, last)) :
    events.map (·.input) = inputs := by
  induction inputs generalizing start events with
  | nil =>
      simp only [exec, Option.some.injEq, Prod.mk.injEq] at h
      rw [← h.1]
      rfl
  | cons input rest ih =>
      rw [exec] at h
      cases htaken : step start input with
      | none => simp [htaken] at h
      | some taken =>
          simp only [htaken, Option.map_eq_some_iff, Prod.mk.injEq, Prod.exists] at h
          obtain ⟨later, _, hlater, rfl, rfl⟩ := h
          rw [List.map_cons, ih hlater]

end ConstraintRouting.Verified.StepMachine
