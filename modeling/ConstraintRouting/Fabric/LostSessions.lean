import ConstraintRouting.Fabric.Connections
import ConstraintRouting.Fabric.Reincarnation

/-!
# Lost sessions

When a session is observed to be lost, one boot is looked up and fenced, and only then is
the session dropped.  Registrations of several publishers may share a session, and the
registry of fenced boots may be full.
-/

namespace ConstraintRouting.Fabric

open Verified.StepMachine

namespace AuthorityRegistry

variable {registry after : AuthorityRegistry} {limits : Limits} {session : SessionId}

/-! ## Live boots are valid -/

/-- Every live registration is of a valid boot. -/
def BootsValid (registry : AuthorityRegistry) : Prop :=
  ∀ registration ∈ registry.liveRegistrations, registration.boot.isValid = true

theorem BootsValid.thinned (h : registry.BootsValid) (hthins : registry.Thins after) :
    after.BootsValid := by
  intro registration hmem
  exact h registration (hthins.live.mem hmem)

theorem BootsValid.moved {config : CoordinatorConfig} (h : registry.BootsValid)
    (hmoves : registry.Moves config after) : after.BootsValid := by
  induction hmoves with
  | refl => exact h
  | observed _ hobserve ih => exact ih.thinned (thins_of_observeAttempt hobserve)
  | fenced _ hfenced ih => exact ih.thinned (thins_of_fenceBoot hfenced)
  | dropped _ hdropped ih => exact ih.thinned (thins_of_dropSession hdropped)
  | registered _ _ _ hregistered ih =>
      rcases registerPublisher_cases hregistered with ⟨hthins, -⟩ | ⟨hvalid, middle, hjoins, rfl⟩
      · exact ih.thinned hthins
      · intro other hmem
        obtain ⟨hmem, hlive⟩ := mem_liveRegistrations.mp hmem
        rcases List.mem_append.mp hmem with hbefore | hnew
        · exact ih.thinned hjoins.thins other (mem_liveRegistrations.mpr ⟨hbefore, hlive⟩)
        · rw [List.mem_singleton.mp hnew]
          exact hvalid

/-! ## The boot of a session -/

/-- A session without a boot has no live registration. -/
theorem vacant_of_bootOfSession (h : registry.bootOfSession session = none) :
    ∀ registration ∈ registry.liveRegistrations, registration.session ≠ session := by
  intro registration hmem hsession
  obtain ⟨hmem, hlive⟩ := mem_liveRegistrations.mp hmem
  have hnone := List.find?_eq_none.mp (Option.map_eq_none_iff.mp h) registration hmem
  simp [hlive, hsession] at hnone

/-- The boot of a session is the boot of a live registration. -/
theorem owner_of_bootOfSession {boot : WorkerBootId}
    (h : registry.bootOfSession session = some boot) :
    ∃ owner ∈ registry.liveRegistrations, owner.session = session ∧ owner.boot = boot := by
  obtain ⟨owner, hfound, hboot⟩ := Option.map_eq_some_iff.mp h
  have howner := List.find?_some hfound
  rw [Bool.and_eq_true, beq_iff_eq] at howner
  have hmem := List.mem_of_find?_eq_some hfound
  exact ⟨owner, mem_liveRegistrations.mpr ⟨hmem, howner.1⟩, howner.2, hboot⟩

/-- A session that was dropped, or was not live, has no live registration. -/
theorem vacant_of_dropSession :
    ∀ registration ∈ (match registry.dropSession session with
      | .ok dropped => dropped
      | .error _ => registry).liveRegistrations, registration.session ≠ session := by
  unfold dropSession
  intro registration hmem hsession
  by_cases howned : registry.registrations.any (fun registration =>
      registration.live && registration.session == session) = true
  · dsimp only at hmem
    rw [if_pos howned] at hmem
    have hkept := hmem
    rw [liveRegistrations, filter_live_retire] at hkept
    have hspared := (List.mem_filter.mp hkept).2
    simp [hsession] at hspared
  · dsimp only at hmem
    rw [if_neg howned] at hmem
    obtain ⟨hmem, hlive⟩ := mem_liveRegistrations.mp hmem
    apply howned
    rw [List.any_eq_true]
    exact ⟨registration, hmem, by simp [hlive, hsession]⟩

end AuthorityRegistry

open AuthorityRegistry

theorem Reachable.bootsValid {state : SystemState} (h : Reachable state) :
    state.impl.authority.BootsValid := by
  obtain ⟨events, start, hopened, hrun⟩ := h
  let inv : SystemState → Prop := fun state => state.impl.authority.BootsValid
  have hstart : inv start := by
    cases hopened with
    | @opened config report call impl hopened =>
        obtain ⟨restored, authority, -, hauthority, hrecovered, -⟩ :=
          openCoordinator_recovered hopened
        intro registration hmem
        dsimp only at hmem
        rw [hrecovered.registry, liveRegistrations, (nextIncarnation_empty hauthority).1] at hmem
        cases hmem
  have hinv : inv state := by
    apply hrun.invariant hstart
    intro event _ htaken hbefore
    exact BootsValid.moved hbefore (moves_of_taken htaken)
  exact hinv

/-! ## What a lost session leaves -/

/-- No registration of the session is live, and every boot that was live on it is fenced. -/
structure Severed (session : SessionId) (before after : AuthorityRegistry) : Prop where
  gone : ∀ registration ∈ after.liveRegistrations, registration.session ≠ session
  fenced : ∀ registration ∈ before.liveRegistrations, registration.session = session →
    after.isBootFenced registration.boot = true

/-- The live registrations of the session are of one boot, and there is room to fence it. -/
structure Severable (impl : Impl) (session : SessionId) : Prop where
  room : ∀ registration ∈ impl.authority.liveRegistrations, registration.session = session →
    impl.authority.fenced.size < impl.config.limits.maxFencedBoots.toNat
  boot : ∀ registration ∈ impl.authority.liveRegistrations,
    ∀ other ∈ impl.authority.liveRegistrations, registration.session = session →
      other.session = session → registration.boot = other.boot

/-- The registry after the boot of the session was fenced. -/
theorem severed_iff_of_fenced {registry fenced : AuthorityRegistry} {boot : WorkerBootId}
    {session : SessionId} {fencedAt : CoordinatorEpoch} {tick : UInt64} {limits : Limits}
    (hunfenced : ∀ registration ∈ registry.liveRegistrations,
      registry.isBootFenced registration.boot = false)
    (hfenced : registry.fenceBoot boot fencedAt tick limits = .ok fenced) :
    Severed session registry (match fenced.dropSession session with
      | .ok dropped => dropped
      | .error _ => fenced) ↔
      ∀ registration ∈ registry.liveRegistrations, registration.session = session →
        registration.boot = boot := by
  have hkept : ∀ other, (match fenced.dropSession session with
      | .ok dropped => dropped
      | .error _ => fenced).isBootFenced other = fenced.isBootFenced other := by
    intro other
    cases hdropped : fenced.dropSession session with
    | error error => rfl
    | ok dropped => exact fenced_of_dropSession hdropped other
  constructor
  · intro hsevered registration hmem hsession
    by_contra hother
    have hleft := hsevered.fenced registration hmem hsession
    rw [hkept, isBootFenced_of_fenceBoot_ne hfenced (Ne.symm hother),
      hunfenced registration hmem] at hleft
    cases hleft
  · intro hboots
    constructor
    · exact vacant_of_dropSession
    · intro registration hmem hsession
      rw [hkept, hboots registration hmem hsession]
      exact isBootFenced_of_fenceBoot hfenced

/-- The authority that the loss of a session leaves. -/
theorem severed_iff_severable {state : SystemState} {session : SessionId} {call : Call}
    (h : Reachable state) :
    Severed session state.impl.authority
        (Fabric.fenceOnSessionLoss state.impl session call).authority ↔
      Severable state.impl session := by
  unfold Fabric.fenceOnSessionLoss
  cases hboot : state.impl.authority.bootOfSession session with
  | none =>
      have hvacant := vacant_of_bootOfSession hboot
      constructor
      · intro _
        exact ⟨fun registration hmem hsession => absurd hsession (hvacant registration hmem),
          fun registration hmem _ _ hsession => absurd hsession (hvacant registration hmem)⟩
      · intro _
        exact ⟨hvacant,
          fun registration hmem hsession => absurd hsession (hvacant registration hmem)⟩
  | some boot =>
      obtain ⟨owner, howner, hsession, rfl⟩ := owner_of_bootOfSession hboot
      have hunfenced := h.enrolled.unfenced
      dsimp only
      cases hfenced : state.impl.authority.fenceBoot owner.boot state.impl.authority.epoch
          (call.clock 0) state.impl.config.limits with
      | error error =>
          -- Nothing is fenced and nothing dropped: the registry was full.
          have hrefused := fenceBoot_error_iff.mp ⟨error, hfenced⟩
          have hfull : state.impl.config.limits.maxFencedBoots.toNat ≤
              state.impl.authority.fenced.size := by
            rcases hrefused with hinvalid | ⟨-, hfull⟩
            · have hvalid := h.bootsValid owner howner
              rw [hinvalid] at hvalid
              cases hvalid
            · exact hfull
          constructor
          · intro hsevered
            exact absurd hsession (hsevered.gone owner howner)
          · intro hseverable
            have hroom := hseverable.room owner howner hsession
            omega
      | ok fenced =>
          have hroom : state.impl.authority.fenced.size <
              state.impl.config.limits.maxFencedBoots.toNat := by
            by_contra hfull
            have hrefuses : state.impl.authority.RefusesFence owner.boot
                state.impl.config.limits := .inr ⟨hunfenced owner howner, Nat.not_lt.mp hfull⟩
            obtain ⟨error, herror⟩ := fenceBoot_error_iff.mpr hrefuses
            rw [hfenced] at herror
            cases herror
          have hsevered := @severed_iff_of_fenced _ _ _ session _ _ _ hunfenced hfenced
          constructor
          · intro hleft
            have hboots := hsevered.mp hleft
            refine ⟨fun _ _ _ => hroom, ?_⟩
            intro registration hmem other hother hfirst hsecond
            rw [hboots registration hmem hfirst, hboots other hother hsecond]
          · intro hseverable
            apply hsevered.mpr
            intro registration hmem hfirst
            exact hseverable.boot registration hmem owner howner hfirst hsession

/-- A session that was lost is severed exactly when its live registrations are of one boot
and there is room to fence it. -/
theorem lost_session_severed_iff {event : Event} {session : SessionId}
    (hreachable : Reachable event.pre) (htaken : event.Taken step)
    (hlost : event.input.action = .operate (.fenceOnSessionLoss session)) :
    Severed session event.pre.impl.authority event.post.impl.authority ↔
      Severable event.pre.impl session := by
  obtain ⟨pre, ⟨action, call⟩, output, post⟩ := event
  dsimp only at hlost hreachable ⊢
  subst hlost
  unfold Event.Taken step at htaken
  simp only [Option.some.injEq, Prod.mk.injEq] at htaken
  obtain ⟨rfl, rfl⟩ := htaken
  have hauthority : (Operation.run (.fenceOnSessionLoss session) pre.impl call).1.authority =
      (Fabric.fenceOnSessionLoss pre.impl session call).authority := by
    show (((Fabric.fenceOnSessionLoss pre.impl session call).map _).settle call).1.authority = _
    rw [Staged.map_settle_fst, Staged.settle_authority]
  show Severed session pre.impl.authority
    (Operation.run (.fenceOnSessionLoss session) pre.impl call).1.authority ↔ _
  rw [hauthority]
  exact severed_iff_severable hreachable

/-- The section that handles the loss of a session. -/
def SystemState.loses (state : SystemState) (session : SessionId) : Event :=
  let run := Operation.run (.fenceOnSessionLoss session) state.impl sampleCall
  ⟨state, sampleInput (.operate (.fenceOnSessionLoss session)), .operated run.2,
    { state with impl := run.1 }⟩

/-- The coordinator reaches a state in which the session is lost, and a boot that was live on
it stays unfenced. -/
private def outlasts (session : SessionId) (run : List Event × SystemState) : Bool :=
  run.2.impl.authority.liveRegistrations.any fun registration =>
    registration.session == session &&
      !(run.2.loses session).post.impl.authority.isBootFenced registration.boot

private theorem not_severed_of_outlasts {config : CoordinatorConfig} {inputs : List Input}
    {session : SessionId}
    (h : ((execute (openInMemory config sampleCall) inputs).any (outlasts session)) = true) :
    ∃ event : Event, Reachable event.pre ∧ event.Taken step ∧
      event.input.action = .operate (.fenceOnSessionLoss session) ∧
      ¬ Severed session event.pre.impl.authority event.post.impl.authority := by
  obtain ⟨⟨events, state⟩, hrun, hcheck⟩ := (Option.any_eq_true _ _).mp h
  unfold outlasts at hcheck
  obtain ⟨registration, hmem, hleft⟩ := List.any_eq_true.mp hcheck
  rw [Bool.and_eq_true, beq_iff_eq, Bool.not_eq_true'] at hleft
  refine ⟨state.loses session, ⟨events, .of_execute hrun⟩, rfl, rfl, ?_⟩
  intro hsevered
  have hfenced := hsevered.fenced registration hmem hleft.1
  rw [hleft.2] at hfenced
  cases hfenced

def sampleJoin (publisher boot session : UInt64) : Input :=
  sampleInput (.operate
    (.registerPublisher (sampleContext 1) ⟨publisher⟩ ⟨boot⟩ 127 ⟨session⟩))

private theorem sampleJoin_outlasts :
    ((execute (openInMemory sampleShared sampleCall)
      [sampleJoin 1 4242 7, sampleJoin 2 4243 7]).any (outlasts ⟨7⟩)) = true ∧
    ((execute (openInMemory { sampleConfig with limits.maxFencedBoots := 1 } sampleCall)
      [sampleJoin 1 4242 7, sampleJoin 1 4243 8]).any (outlasts ⟨8⟩)) = true := by
  decide +kernel

/-- Two publishers share a session that is lost, and only one boot is fenced; and the only
boot of another session is left live, where one boot fills the registry. -/
theorem lost_session_outlasts :
    (∃ event : Event, Reachable event.pre ∧ event.Taken step ∧
      event.input.action = .operate (.fenceOnSessionLoss ⟨7⟩) ∧
      ¬ Severed ⟨7⟩ event.pre.impl.authority event.post.impl.authority) ∧
    ∃ event : Event, Reachable event.pre ∧ event.Taken step ∧
      event.input.action = .operate (.fenceOnSessionLoss ⟨8⟩) ∧
      ¬ Severed ⟨8⟩ event.pre.impl.authority event.post.impl.authority :=
  ⟨not_severed_of_outlasts sampleJoin_outlasts.1, not_severed_of_outlasts sampleJoin_outlasts.2⟩

private theorem sampleJoin_reaches :
    (execute (openInMemory sampleConfig sampleCall) [sampleJoin 1 4242 7]).isSome = true := by
  decide +kernel

theorem lost_session_severed_iff_sample :
    ∃ event : Event, Reachable event.pre ∧ event.Taken step ∧
      (Severed ⟨7⟩ event.pre.impl.authority event.post.impl.authority ↔
        Severable event.pre.impl ⟨7⟩) := by
  obtain ⟨⟨events, state⟩, hrun⟩ := Option.isSome_iff_exists.mp sampleJoin_reaches
  have hreachable : Reachable (state.loses ⟨7⟩).pre := ⟨events, .of_execute hrun⟩
  exact ⟨state.loses ⟨7⟩, hreachable, rfl, lost_session_severed_iff hreachable rfl rfl⟩

end ConstraintRouting.Fabric
