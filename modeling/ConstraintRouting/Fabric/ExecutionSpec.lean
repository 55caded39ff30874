import ConstraintRouting.Fabric.CommitSpec

/-!
# Executions

What holds of every coordinator that was just opened, what every step keeps, and
where a call in flight comes from: each evaluation in flight was started by one
earlier event of the run, and its snapshot has not changed since.
-/

namespace ConstraintRouting.Fabric

open Verified.StepMachine
open Verified.Checks (bind_eq_ok)

/-! ## Opening -/

/-- What an opened coordinator starts from: a valid state that it restored, or the
configured evidence and nothing else. -/
structure OpenedFrom (impl : Impl) (restored : Option PersistentState) : Prop where
  limits : validateLimits impl.config.limits = .ok ()
  stored : impl.Stored
  valid : ∀ state, restored = some state →
    validatePersistentState state impl.config.limits = .ok ()
  sets : impl.sets = (restored.map (·.sets)).getD []
  populations : impl.populations = (restored.map (·.populations)).getD []
  evaluations : ∀ record ∈ impl.evaluations, record.state = .recoveredUnproven
  derived : impl.Derived

theorem restoredState_valid {config : CoordinatorConfig} {report : StoreReport config.limits}
    {state : PersistentState} (h : restoredState config report = .ok (some state)) :
    validatePersistentState state config.limits = .ok () := by
  unfold restoredState at h
  split at h
  · cases h
  cases report with
  | refused error => cases h
  | absent => cases h
  | loaded file loaded =>
      cases h
      exact loaded.valid
  | unreadable file error =>
      dsimp only at h
      split at h <;> cases h

private theorem recover_openedFrom {base : Impl} {restored : Option PersistentState}
    (hlimits : validateLimits base.config.limits = .ok ())
    (hstored : base.Stored)
    (hvalid : ∀ state, restored = some state →
      validatePersistentState state base.config.limits = .ok ())
    (hsets : base.sets = []) (hpopulations : base.populations = [])
    (hevaluations : base.evaluations = []) : OpenedFrom (recover base restored) restored := by
  cases restored with
  | none =>
      refine ⟨hlimits, hstored, hvalid, hsets, hpopulations, ?_, ⟨rfl, rfl⟩⟩
      simp [recover, Impl.rebuildDerived, hevaluations]
  | some state =>
      refine ⟨hlimits, hstored, hvalid, rfl, rfl, ?_, ⟨rfl, rfl⟩⟩
      simp only [recover, Impl.rebuildDerived, List.mem_map]
      rintro record ⟨original, -, rfl⟩
      rfl

private theorem OpenedFrom.kept {before after : Impl} {restored : Option PersistentState}
    (h : OpenedFrom before restored) (hkept : before.Kept after) :
    OpenedFrom after restored :=
  ⟨hkept.config ▸ h.limits,
   h.stored.of_same hkept.config hkept.durable hkept.stored,
   hkept.config ▸ h.valid, hkept.sets.trans h.sets,
   hkept.populations.trans h.populations, hkept.evaluations ▸ h.evaluations, hkept.derived h.derived⟩

theorem openCoordinator_openedFrom {config : CoordinatorConfig}
    {report : StoreReport config.limits} {call : Call} {impl : Impl}
    (h : openCoordinator config report call = .ok impl) :
    ∃ restored, OpenedFrom impl restored := by
  unfold openCoordinator at h
  cases hlimits : validateLimits config.limits with
  | error why =>
      simp only [hlimits] at h
      cases h
  | ok _ =>
      simp only [hlimits] at h
      obtain ⟨-, -, h⟩ := bind_eq_ok.mp h
      obtain ⟨restored, hrestored, h⟩ := bind_eq_ok.mp h
      obtain ⟨authority, -, h⟩ := bind_eq_ok.mp h
      refine ⟨restored, ?_⟩
      have hvalid : ∀ state, restored = some state →
          validatePersistentState state config.limits = .ok () := by
        rintro state rfl
        exact restoredState_valid hrestored
      have hstored : (unopened config report authority).Stored := by
        intro hdurable
        change (config.storePath != "") = true at hdurable
        simp [unopened, hdurable]
      have hopened : OpenedFrom (recover (unopened config report authority) restored)
          restored := recover_openedFrom hlimits hstored hvalid rfl rfl rfl
      generalize recover (unopened config report authority) restored = recovered at h hopened
      have hkept := recovered.persist_kept recovered.toState call
      rcases hpersist : recovered.persist recovered.toState call with ⟨saved, error | ⟨⟨⟩⟩⟩
      · simp only [hpersist] at h
        cases h
      · simp only [hpersist] at h
        rw [hpersist] at hkept
        cases h
        exact hopened.kept hkept

/-! ## What every step keeps -/

/-- The limits are valid, a durable coordinator has its store, the derived indexes are
up to date, and tickets that were not handed out are free. -/
structure Sound (state : SystemState) : Prop where
  limits : validateLimits state.impl.config.limits = .ok ()
  stored : state.impl.Stored
  derived : state.impl.Derived
  unused : ∀ ticket, state.nextTicket ≤ ticket → state.flights ticket = none

theorem Opened.sound {state : SystemState} (h : Opened state) : Sound state := by
  cases h with
  | opened hopened =>
      obtain ⟨restored, hfrom⟩ := openCoordinator_openedFrom hopened
      exact ⟨hfrom.limits, hfrom.stored, hfrom.derived, fun _ _ => rfl⟩

/-- No step changes the configuration, gives up the store or leaves a derived index
behind. -/
theorem Transition.impl_kept {pre post : SystemState} {call : Call} {action : Action}
    {reply : Reply} (h : Transition pre call action reply post)
    (hderived : pre.impl.Derived) :
    post.impl.config = pre.impl.config ∧ post.impl.durable = pre.impl.durable ∧
      post.impl.store.map (·.limits) = pre.impl.store.map (·.limits) ∧
      post.impl.Derived := by
  cases h with
  | operated operation =>
      rcases operation.run_cases pre.impl call with hkept | ⟨_, -, -, hpublished⟩
      · exact ⟨hkept.config, hkept.durable, hkept.stored, hkept.derived hderived⟩
      · exact ⟨hpublished.config, hpublished.durable, hpublished.stored, hpublished.derived⟩
  | ended _ _ hkept _ =>
      exact ⟨hkept.config, hkept.durable, hkept.stored, hkept.derived hderived⟩
  | read => exact ⟨rfl, rfl, rfl, hderived⟩
  | started _ _ _ hcaptured _ =>
      obtain ⟨authority, rfl⟩ := hcaptured.after
      exact ⟨rfl, rfl, rfl, hderived.current, hderived.index⟩
  | moved => exact ⟨rfl, rfl, rfl, hderived⟩
  | @unwritten _ _ next =>
      have hkept := pre.impl.persist_kept next call
      exact ⟨hkept.config, hkept.durable, hkept.stored, hkept.derived hderived⟩
  | @committed _ _ next =>
      have hkept := pre.impl.persist_kept next call
      exact ⟨hkept.config, hkept.durable, hkept.stored, Impl.applyState_derived _ _⟩

/-- A launched flight has the next ticket; the others are as before. -/
theorem SystemState.launch_flights (state : SystemState) (flight : Flight) (ticket : Nat) :
    (state.launch flight).flights ticket =
      if ticket = state.nextTicket then some flight else state.flights ticket := by
  simp only [launch, Function.update_apply]

/-- A step takes a flight that it does not launch from the flights before. -/
theorem Transition.flights {pre post : SystemState} {call : Call} {action : Action}
    {reply : Reply} (h : Transition pre call action reply post) {ticket : Nat}
    {flight : Flight} (hflight : post.flights ticket = some flight) :
    pre.flights ticket = some flight ∨
      ticket = pre.nextTicket ∧ post.nextTicket = pre.nextTicket + 1 ∧
        (reply = .evaluating ticket ∧ (∃ snapshot, flight = .evaluating snapshot) ∨
          post.impl = pre.impl ∧ ∃ context setId,
            flight = .populationRead context setId (revalidateRead pre.impl setId)) := by
  cases h with
  | operated => exact .inl hflight
  | ended _ _ _ hfewer => exact .inl (hfewer ticket flight hflight)
  | read =>
      rw [SystemState.launch_flights] at hflight
      split at hflight
      · next heq =>
          cases hflight
          exact .inr ⟨heq, rfl, .inr ⟨rfl, _, _, rfl⟩⟩
      · exact .inl hflight
  | started _ _ _ _ hfewer =>
      rw [SystemState.launch_flights] at hflight
      split at hflight
      · next heq =>
          cases hflight
          exact .inr ⟨heq, rfl, .inl ⟨heq ▸ rfl, _, rfl⟩⟩
      · exact .inl (hfewer ticket flight hflight)
  | moved | unwritten | committed =>
      exact .inl (fewerFlights_update _ _ ticket flight hflight)

theorem Transition.nextTicket_le {pre post : SystemState} {call : Call} {action : Action}
    {reply : Reply} (h : Transition pre call action reply post) :
    pre.nextTicket ≤ post.nextTicket := by
  cases h with
  | operated | ended | moved | unwritten | committed => exact Nat.le_refl _
  | read | started => exact Nat.le_succ _

theorem Transition.sound {pre post : SystemState} {call : Call} {action : Action}
    {reply : Reply} (h : Transition pre call action reply post) (hsound : Sound pre) :
    Sound post := by
  obtain ⟨hconfig, hdurable, hstored, hderived⟩ := h.impl_kept hsound.derived
  refine ⟨hconfig ▸ hsound.limits, hsound.stored.of_same hconfig hdurable hstored,
    hderived, fun ticket hunused => ?_⟩
  rw [Option.eq_none_iff_forall_ne_some]
  intro flight hflight
  rcases h.flights hflight with hbefore | ⟨rfl, hnext, -⟩
  · rw [hsound.unused ticket (h.nextTicket_le.trans hunused)] at hbefore
    cases hbefore
  · omega

/-! ## Cutting executions -/

theorem sound_of_run {start last : SystemState} {events : List Event}
    (h : Run step start events last) (hstart : Sound start) : Sound last :=
  h.invariant hstart fun _ _ htaken hsound =>
    (step_transition hsound.limits htaken).sound hsound

theorem Execution.sound {events : List Event} {last : SystemState}
    (h : Execution events last) : Sound last := by
  obtain ⟨start, hopened, hrun⟩ := h
  exact sound_of_run hrun hopened.sound

/-- An event of an execution is a transition from a state that a shorter execution
reaches. -/
theorem Execution.split {before after : List Event} {event : Event} {last : SystemState}
    (h : Execution (before ++ event :: after) last) :
    Execution before event.pre ∧
      Transition event.pre event.input.call event.input.action event.output event.post ∧
      Run step event.post after last := by
  obtain ⟨start, hopened, hrun⟩ := h
  obtain ⟨hbefore, htaken, hafter⟩ := hrun.split_event
  have hexecution : Execution before event.pre := ⟨start, hopened, hbefore⟩
  exact ⟨hexecution, step_transition hexecution.sound.limits htaken, hafter⟩

/-- An execution ends where its last event does. -/
theorem Execution.post_of_getLast? {events : List Event} {event : Event}
    {last : SystemState} (h : Execution events last) (hlast : events.getLast? = some event) :
    event.post = last := by
  obtain ⟨before, rfl⟩ := List.getLast?_eq_some_iff.mp hlast
  exact h.split.2.2.eq_of_nil.symm

/-- An event of an execution was taken. -/
theorem Execution.taken {before after : List Event} {event : Event} {last : SystemState}
    (h : Execution (before ++ event :: after) last) : event.Taken step := by
  obtain ⟨start, -, hrun⟩ := h
  exact hrun.split_event.2.1

theorem Execution.taken_of_getLast? {events : List Event} {event : Event}
    {last : SystemState} (h : Execution events last) (hlast : events.getLast? = some event) :
    event.Taken step := by
  obtain ⟨before, rfl⟩ := List.getLast?_eq_some_iff.mp hlast
  exact h.taken

/-- A property of history and state that opening establishes and every transition
preserves holds of every execution. -/
theorem Execution.history_invariant {inv : List Event → SystemState → Prop}
    {events : List Event} {last : SystemState} (h : Execution events last)
    (hopened : ∀ start, Opened start → inv [] start)
    (hstep : ∀ before event after, events = before ++ event :: after →
      Sound event.pre →
      Transition event.pre event.input.call event.input.action event.output event.post →
      inv before event.pre → inv (before ++ [event]) event.post) :
    inv events last := by
  obtain ⟨start, hstart, hrun⟩ := h
  refine hrun.history_invariant (hopened start hstart) ?_
  rintro before event after rfl htaken hinv
  obtain ⟨hbefore, -, -⟩ := hrun.split_event
  have hsound := sound_of_run hbefore hstart.sound
  exact hstep before event after rfl hsound (step_transition hsound.limits htaken) hinv

/-! ## Calls in flight -/

/-- The event takes the snapshot and puts the evaluation in flight. -/
structure Starts (event : Event) (ticket : Nat) (snapshot : EvaluationSnapshot) : Prop where
  reply : event.output = .evaluating ticket
  flight : event.post.flights ticket = some (.evaluating snapshot)

/-- What the snapshot of a started evaluation holds. -/
theorem Transition.starts {event : Event} {ticket : Nat} {snapshot : EvaluationSnapshot}
    (h : Transition event.pre event.input.call event.input.action event.output event.post)
    (hstarts : Starts event ticket snapshot) :
    ticket = event.pre.nextTicket ∧ event.post.nextTicket = event.pre.nextTicket + 1 ∧
      ∃ context setId candidates,
        Captured event.pre.impl event.post.impl context setId candidates snapshot ∧
        ∀ read, event.input.action = .revalidateBegin read →
          event.pre.flights read = some (.populationRead context setId candidates) := by
  obtain ⟨hticket, hflight⟩ := hstarts
  obtain ⟨pre, ⟨action, call⟩, output, post⟩ := event
  dsimp only at h hticket hflight ⊢
  cases h with
  | started _ _ hread hcaptured _ =>
      cases hticket
      rw [SystemState.launch_flights, if_pos rfl] at hflight
      cases hflight
      exact ⟨rfl, rfl, _, _, _, hcaptured, hread⟩
  | operated | ended | read | moved | unwritten | committed => cases hticket

/-- Every evaluation in flight was started by an event of the history. -/
def Traced (history : List Event) (state : SystemState) : Prop :=
  ∀ ticket snapshot, state.flights ticket = some (.evaluating snapshot) →
    ∃ earlier start between, history = earlier ++ start :: between ∧
      Starts start ticket snapshot

theorem Execution.traced {events : List Event} {last : SystemState}
    (h : Execution events last) : Traced events last := by
  refine h.history_invariant ?_ ?_
  · rintro start ⟨hopened⟩ ticket snapshot hflight
    cases hflight
  · intro before event after _ _ htransition hinv ticket snapshot hflight
    rcases htransition.flights hflight with hbefore | ⟨-, -, ⟨hreply, -⟩ | ⟨-, _, _, hread⟩⟩
    · obtain ⟨earlier, start, between, rfl, hstarts⟩ := hinv ticket snapshot hbefore
      exact ⟨earlier, start, between ++ [event], by simp, hstarts⟩
    · exact ⟨before, event, [], rfl, hreply, hflight⟩
    · cases hread

end ConstraintRouting.Fabric
