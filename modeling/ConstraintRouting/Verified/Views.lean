import ConstraintRouting.Verified.StepMachine

/-!
# Views of a machine

A view shows a part of the state of a machine as the state of another machine.  When each
step of the first is a step of the second on the part that is shown, or leaves that part as
it is, then every run is shown as a run.
-/

namespace ConstraintRouting.Verified.StepMachine

variable {σ ι ο τ κ π : Type}

/-- The event is shown as a step of the second machine, or not at all and then the part that
is shown stays. -/
inductive Shown (view : σ → τ) (see : Event σ ι ο → Option (Event τ κ π))
    (step : τ → κ → Option (τ × π)) (event : Event σ ι ο) : Prop
  | seen {shown : Event τ κ π} :
      see event = some shown → shown.Taken step → shown.pre = view event.pre →
      shown.post = view event.post → Shown view see step event
  | hidden : see event = none → view event.post = view event.pre → Shown view see step event

/-- A run is shown as a run, when an invariant makes each of its events shown. -/
theorem Run.shown {first : σ → ι → Option (σ × ο)} {second : τ → κ → Option (τ × π)}
    {view : σ → τ} {see : Event σ ι ο → Option (Event τ κ π)} {inv : σ → Prop}
    {start last : σ} {events : List (Event σ ι ο)} (h : Run first start events last)
    (hstart : inv start)
    (hkept : ∀ event ∈ events, event.Taken first → inv event.pre → inv event.post)
    (hshown : ∀ event ∈ events, event.Taken first → inv event.pre →
      Shown view see second event) :
    Run second (view start) (events.filterMap see) (view last) := by
  induction h with
  | nil state => exact .nil _
  | @cons event rest last htaken _ ih =>
      obtain ⟨hkept, hkeptRest⟩ := List.forall_mem_cons.mp hkept
      obtain ⟨hshown, hshownRest⟩ := List.forall_mem_cons.mp hshown
      have hrest := ih (hkept htaken hstart) hkeptRest hshownRest
      cases hshown htaken hstart with
      | @seen shown hsee hstep hpre hpost =>
          rw [List.filterMap_cons_some hsee, ← hpre]
          rw [← hpost] at hrest
          exact .cons hstep hrest
      | hidden hsee hsame =>
          rw [List.filterMap_cons_none hsee, ← hsame]
          exact hrest

end ConstraintRouting.Verified.StepMachine
