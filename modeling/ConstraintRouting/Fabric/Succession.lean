import ConstraintRouting.Fabric.Connections
import ConstraintRouting.Verified.Leases

/-!
# The succession of the boots of a publisher

The registry is a ledger of leases: a publisher acts through the boot of its one live
registration, and a boot is burnt when it is fenced.  Once a publisher was served under
another boot, its earlier boot is fenced and never served again, unless an administrator
dropped its session, or lost it together with another boot.
-/

namespace ConstraintRouting.Fabric

open Verified.StepMachine (Run)
open Verified.Checks (isOk)
open Verified.Leases
open AuthorityRegistry

/-! ## The ledger -/

/-- A publisher holds the boots of its live registrations; fenced boots are burnt. -/
def AuthorityRegistry.ledger (registry : AuthorityRegistry) :
    Verified.Leases.Ledger PublisherId WorkerBootId where
  holds publisher boot := ∃ registration ∈ registry.liveRegistrations,
    registration.publisher = publisher ∧ registration.boot = boot
  burnt boot := registry.isBootFenced boot = true

/-- The event takes the registration away and may leave its boot unfenced: its session is
dropped, or is lost while another boot is live in it. -/
def Drops (registration : PublisherRegistration) (event : Event) : Prop :=
  (∃ context, event.input.action = .operate (.dropSession context registration.session)) ∨
    event.input.action = .operate (.fenceOnSessionLoss registration.session) ∧
      ∃ companion ∈ event.pre.impl.authority.liveRegistrations,
        companion.session = registration.session ∧ companion.boot ≠ registration.boot

/-- The event drops a registration of the publisher under the boot. -/
def Releases (event : Event) (publisher : PublisherId) (boot : WorkerBootId) : Prop :=
  ∃ registration ∈ event.pre.impl.authority.liveRegistrations,
    registration.publisher = publisher ∧ registration.boot = boot ∧ Drops registration event

section Steps

variable {event : Event} {registration : PublisherRegistration}

/-- The boot that the loss of a session fences is live in that session. -/
theorem live_of_bootOfSession {registry : AuthorityRegistry} {session : SessionId}
    {boot : WorkerBootId} (h : registry.bootOfSession session = some boot) :
    ∃ companion ∈ registry.liveRegistrations,
      companion.session = session ∧ companion.boot = boot := by
  obtain ⟨companion, hfound, hboot⟩ := Option.map_eq_some_iff.mp h
  have howner := List.find?_some hfound
  simp only [Bool.and_eq_true, beq_iff_eq] at howner
  exact ⟨companion, mem_liveRegistrations.mpr ⟨List.mem_of_find?_eq_some hfound, howner.1⟩,
    howner.2, hboot⟩

/-- A live registration stays live, has its boot fenced, or is dropped. -/
theorem live_of_taken (htaken : event.Taken step)
    (hlive : registration ∈ event.pre.impl.authority.liveRegistrations) :
    registration ∈ event.post.impl.authority.liveRegistrations ∨
      event.post.impl.authority.isBootFenced registration.boot = true ∨
      Drops registration event := by
  have hspares : ∀ {after}, event.pre.impl.authority.Spares after →
      registration ∈ after.liveRegistrations ∨
        after.isBootFenced registration.boot = true ∨ Drops registration event := by
    intro after hspares
    rcases hspares.live registration hlive with hkept | hfenced
    · exact .inl hkept
    · exact .inr (.inl hfenced)
  unfold Drops at hspares ⊢
  rcases (section_of_taken htaken).registry with hreplied | hwrote
  · generalize event.input.action = action at hreplied hspares ⊢
    generalize event.post.impl.authority = after at hreplied ⊢
    cases hreplied with
    | observed => exact .inl hlive
    | refused hrefused => exact hspares (spares_of_registerPublisher hrefused)
    | @dropped context session after _ hdropped =>
        by_cases hsession : registration.session = session
        · exact .inr (.inr (.inl ⟨context, by rw [hsession]⟩))
        · exact .inl (live_of_dropSession hdropped hlive hsession)
  · generalize event.input.action = action at hwrote hspares ⊢
    generalize event.post.impl.authority = after at hwrote ⊢
    cases hwrote with
    | observed => exact .inl hlive
    | registered _ hregistered => exact hspares (spares_of_registerPublisher hregistered)
    | fenced hfenced =>
        exact hspares ⟨(spares_of_fenceBoot hfenced).fenced, (spares_of_fenceBoot hfenced).live⟩
    | @lost session boot tick fenced after hboot hfenced hends =>
        by_cases hsession : registration.session = session
        · obtain ⟨companion, hcompanion, hshared, hcompanionBoot⟩ :=
            live_of_bootOfSession hboot
          by_cases hsame : registration.boot = boot
          · -- the boot of the session is fenced, and stays fenced when the session is dropped
            have hburnt := isBootFenced_of_fenceBoot hfenced
            rcases hends with hdropped | hdone
            · exact .inr (.inl (by rw [fenced_of_dropSession hdropped, hsame, hburnt]))
            · exact .inr (.inl (by rw [hdone, hsame, hburnt]))
          · refine .inr (.inr (.inr ⟨by rw [hsession], companion, hcompanion, ?_, ?_⟩))
            · rw [hshared, hsession]
            · rw [hcompanionBoot]
              exact fun hequal => hsame hequal.symm
        · rcases (spares_of_fenceBoot hfenced).live registration hlive with hkept | hburnt
          · rcases hends with hdropped | hdone
            · exact .inl (live_of_dropSession hdropped hkept hsession)
            · rw [hdone]
              exact .inl hkept
          · rcases hends with hdropped | hdone
            · exact .inr (.inl (by rw [fenced_of_dropSession hdropped, hburnt]))
            · rw [hdone]
              exact .inr (.inl hburnt)

/-- Every section of the coordinator advances the ledger. -/
theorem ledger_advances (htaken : event.Taken step) :
    Verified.Leases.Ledger.Advances (Releases event) event.pre.impl.authority.ledger
      event.post.impl.authority.ledger := by
  constructor
  · intro boot hburnt
    exact fenced_of_taken htaken hburnt
  · intro publisher boot hheld
    obtain ⟨registration, hlive, hpublisher, hboot⟩ := hheld
    rcases live_of_taken htaken hlive with hkept | hfenced | hdrops
    · exact .inl ⟨registration, hkept, hpublisher, hboot⟩
    · rw [hboot] at hfenced
      exact .inr (.inl hfenced)
    · exact .inr (.inr ⟨registration, hlive, hpublisher, hboot, hdrops⟩)

end Steps

/-- In every reachable state a publisher holds one boot at most, and no fenced one. -/
theorem ledger_sound {state : SystemState} (h : Reachable state) :
    state.impl.authority.ledger.Sound := by
  have henrolled := h.enrolled
  constructor
  · intro publisher one other hone hother
    obtain ⟨first, hfirst, hpublisher, hboot⟩ := hone
    obtain ⟨second, hsecond, hsame, hotherBoot⟩ := hother
    have hequal : first = second :=
      List.inj_on_of_nodup_map henrolled.publishers hfirst hsecond (hpublisher.trans hsame.symm)
    rw [← hboot, ← hotherBoot, hequal]
  · intro publisher boot hheld hburnt
    obtain ⟨registration, hlive, -, hboot⟩ := hheld
    have hfree := henrolled.unfenced registration hlive
    rw [hboot] at hfree
    exact absurd (hburnt.symm.trans hfree) Bool.true_eq_false_eq_False.elim

/-! ## Callers that are served -/

/-- The event is asked for by a caller of the publisher under the boot, and the registry
accepts the caller's authority. -/
def ServedUnder (event : Event) (publisher : PublisherId) (boot : WorkerBootId) : Prop :=
  ∃ context required, event.pre.caller event.input.action = some (context, required) ∧
    event.pre.impl.authority.authorize context required = .ok () ∧
    context.publisher = publisher ∧ context.workerBoot = boot

theorem ServedUnder.holds {event : Event} {publisher : PublisherId} {boot : WorkerBootId}
    (h : ServedUnder event publisher boot) :
    event.pre.impl.authority.ledger.holds publisher boot := by
  obtain ⟨context, required, -, hauthorized, hpublisher, hboot⟩ := h
  obtain ⟨-, -, registration, hlive, howner, -, hsame, -⟩ :=
    AuthorityRegistry.authorize_eq_ok hauthorized
  exact ⟨registration, hlive, howner.trans hpublisher, hsame.trans hboot⟩

/-- A fenced boot serves no caller in the rest of a run. -/
theorem unserved_of_fenced {events : List Event} {state last : SystemState}
    {publisher : PublisherId} {boot : WorkerBootId} (h : Reachable state)
    (hrun : Run step state events last)
    (hfenced : state.impl.authority.isBootFenced boot = true) :
    ∀ event ∈ events, ¬ ServedUnder event publisher boot := by
  intro event hmem hserved
  obtain ⟨early, late, hsplit⟩ := List.append_of_mem hmem
  rw [hsplit] at hrun
  have hbefore := hrun.split_event.1
  have hstill := fenced_of_run hbefore hfenced
  exact (ledger_sound (h.of_run hbefore)).unburnt hserved.holds hstill

/-- A publisher that was served under another boot never comes back to its earlier one: from
then on the earlier boot is fenced, and no caller is served under it, whatever the order of
the sections; unless its registration was dropped in between. -/
theorem superseded_boot_never_returns {events before middle rest : List Event}
    {last : SystemState} {first second : Event} {publisher : PublisherId}
    {boot other : WorkerBootId} (h : Execution events last)
    (hevents : events = before ++ first :: (middle ++ second :: rest))
    (hfirst : ServedUnder first publisher boot) (hsecond : ServedUnder second publisher other)
    (hne : boot ≠ other) :
    (∃ event ∈ first :: middle, Releases event publisher boot) ∨
      last.impl.authority.isBootFenced boot = true ∧
        ∀ event ∈ second :: rest, ¬ ServedUnder event publisher boot := by
  by_cases hreleased : ∃ event ∈ first :: middle, Releases event publisher boot
  · exact .inl hreleased
  · right
    have hkept : ∀ event ∈ first :: middle, ¬ Releases event publisher boot :=
      fun event hmem hdrops => hreleased ⟨event, hmem, hdrops⟩
    obtain ⟨start, hopened, hrun⟩ := h
    rw [hevents] at hrun
    obtain ⟨hearlier, hfirstTaken, hlater⟩ := hrun.split_event
    obtain ⟨hmiddle, hsecondTaken, hrest⟩ := hlater.split_event
    have hturn : Run step first.pre (first :: middle) second.pre := .cons hfirstTaken hmiddle
    have hend : Run step second.pre (second :: rest) last := .cons hsecondTaken hrest
    have hreachable : Reachable second.pre :=
      Reachable.of_run ⟨before, start, hopened, hearlier⟩ hturn
    -- between the two events the first boot was held until it was fenced
    have hadvances : ∀ event ∈ first :: middle,
        Verified.Leases.Ledger.Advances (Releases event) event.pre.impl.authority.ledger
          event.post.impl.authority.ledger := by
      intro event hmem
      obtain ⟨early, late, hsplit⟩ := List.append_of_mem hmem
      rw [hsplit] at hturn
      exact ledger_advances hturn.split_event.2.1
    have hfenced : second.pre.impl.authority.isBootFenced boot = true :=
      @burnt_of_superseded _ _ _ _ _ step (fun state => state.impl.authority.ledger) Releases
        first.pre second.pre (first :: middle) publisher boot other hturn hadvances
        (ledger_sound hreachable) hkept hfirst.holds hsecond.holds hne
    exact ⟨fenced_of_run hend hfenced, unserved_of_fenced hreachable hend hfenced⟩

/-- The sample publisher under its next boot, in its next session. -/
def sampleHeir (attempt : UInt64) : AuthorityContext :=
  { sampleContext attempt with workerBoot := ⟨4343⟩, session := ⟨8⟩ }

/-- Fences a boot that nobody has, for the caller. -/
def sampleFencing (context : AuthorityContext) : Action := .operate (.fenceBoot context ⟨9999⟩)

/-- The publisher is served, registers under its next boot, and is served again. -/
def sampleSuccession : List Input :=
  [sampleInput (sampleFencing (sampleContext 2)),
   sampleInput (.operate (.registerPublisher (sampleHeir 3) ⟨1⟩ ⟨4343⟩ 127 ⟨8⟩)),
   sampleInput (sampleFencing (sampleHeir 4))]

private def serves (context : AuthorityContext) (event : Event) : Bool :=
  decide (event.input.action = sampleFencing context) &&
    isOk (event.pre.impl.authority.authorize context 64)

private theorem servedUnder_of_serves {context : AuthorityContext} {event : Event}
    (h : serves context event = true) :
    ServedUnder event context.publisher context.workerBoot := by
  simp only [serves, Bool.and_eq_true, decide_eq_true_eq] at h
  obtain ⟨haction, haccepted⟩ := h
  refine ⟨context, 64, ?_, ?_, rfl, rfl⟩
  · rw [haction]
    rfl
  · cases hauthorize : event.pre.impl.authority.authorize context 64 with
    | ok _ => rfl
    | error error =>
        rw [hauthorize] at haccepted
        cases haccepted

private def dropsNothing (event : Event) : Bool :=
  match event.input.action with
  | .operate (.dropSession _ _) | .operate (.fenceOnSessionLoss _) => false
  | _ => true

private theorem not_drops_of_dropsNothing {registration : PublisherRegistration} {event : Event}
    (h : dropsNothing event = true) : ¬ Drops registration event := by
  intro hdrops
  unfold dropsNothing at h
  rcases hdrops with ⟨context, haction⟩ | ⟨haction, -⟩
  · rw [haction] at h
    cases h
  · rw [haction] at h
    cases h

private def succeedsBoot : List Event → Bool
  | [_, first, middle, second] =>
      serves (sampleContext 2) first && serves (sampleHeir 4) second &&
        [first, middle].all dropsNothing
  | _ => false

private theorem sampleSuccession_succeeds :
    ((sampleRun sampleSuccession).any fun run => succeedsBoot run.1) = true := by
  decide +kernel

theorem superseded_boot_never_returns_sample :
    ∃ events last, sampleRun sampleSuccession = some (events, last) ∧
      last.impl.authority.isBootFenced ⟨4242⟩ = true := by
  obtain ⟨events, last, hrun, hexecution, hcheck⟩ := sampleRun_execution _ succeedsBoot
    sampleSuccession_succeeds
  unfold succeedsBoot at hcheck
  split at hcheck
  · next register first middle second =>
      simp only [Bool.and_eq_true] at hcheck
      obtain ⟨⟨hfirst, hsecond⟩, hkept⟩ := hcheck
      have hended := @superseded_boot_never_returns _ [register] [middle] [] last first second
        ⟨1⟩ ⟨4242⟩ ⟨4343⟩ hexecution rfl (servedUnder_of_serves hfirst)
        (servedUnder_of_serves hsecond) (by decide)
      refine ⟨_, last, hrun, ?_⟩
      rcases hended with ⟨event, hmem, registration, -, -, -, hdrops⟩ | hfenced
      · exact absurd hdrops (not_drops_of_dropsNothing (List.all_eq_true.mp hkept event hmem))
      · exact hfenced.1
  · cases hcheck

end ConstraintRouting.Fabric
