import ConstraintRouting.Fabric.Authorization
import ConstraintRouting.Fabric.Server

/-!
# What a connection leaves behind

A connection remembers its last session alone.  An earlier one is cleared when the next
handshake is of the same publisher, which fences the boot of the earlier session, or is of
the same boot, which is fenced in the end.
-/

namespace ConstraintRouting.Fabric

open Verified.StepMachine
open Verified.Checks (seq_eq_ok failIf_eq_ok)

namespace AuthorityRegistry

variable {registry middle after : AuthorityRegistry} {limits : Limits}

/-! ## Registrations that are kept -/

/-- What was fenced stays fenced, and what was live stays live or has its boot fenced. -/
structure Spares (before after : AuthorityRegistry) : Prop where
  fenced : ∀ boot, before.isBootFenced boot = true → after.isBootFenced boot = true
  live : ∀ registration ∈ before.liveRegistrations,
    registration ∈ after.liveRegistrations ∨ after.isBootFenced registration.boot = true

namespace Spares

theorem refl (registry : AuthorityRegistry) : registry.Spares registry :=
  ⟨fun _ h => h, fun _ h => .inl h⟩

theorem trans (h : registry.Spares middle) (hrest : middle.Spares after) :
    registry.Spares after := by
  refine ⟨fun boot hfenced => hrest.fenced boot (h.fenced boot hfenced), ?_⟩
  intro registration hmem
  rcases h.live registration hmem with hkept | hfenced
  · exact hrest.live registration hkept
  · exact .inr (hrest.fenced registration.boot hfenced)

end Spares

theorem spares_of_fenceBoot {boot : WorkerBootId} {fencedAt : CoordinatorEpoch}
    {tick : UInt64} (h : registry.fenceBoot boot fencedAt tick limits = .ok after) :
    registry.Spares after := by
  refine ⟨(retains_of_fenceBoot h).1.fenced, ?_⟩
  intro registration hmem
  obtain ⟨hmem, hlive⟩ := mem_liveRegistrations.mp hmem
  by_cases hboot : registration.boot = boot
  · right
    rw [hboot]
    exact isBootFenced_of_fenceBoot h
  · exact .inl (mem_liveRegistrations.mpr ⟨mem_of_fenceBoot h hmem hboot, hlive⟩)

/-- One turn of the loop retires a registration whose boot it has fenced. -/
theorem spares_of_fenceAt {existing : PublisherRegistration} {index : Nat}
    {fencedAt : CoordinatorEpoch} {tick : UInt64}
    (hexisting : registry.registrations[index]? = some existing)
    (h : registry.fenceBoot existing.boot fencedAt tick limits = .ok after) :
    registry.Spares { after with
      registrations := after.registrations.modify index ({ · with live := false }) } := by
  refine (spares_of_fenceBoot h).trans ⟨fun _ hfenced => hfenced, ?_⟩
  intro registration hmem
  obtain ⟨hmem, hlive⟩ := mem_liveRegistrations.mp hmem
  obtain ⟨position, hposition⟩ := List.mem_iff_getElem?.mp hmem
  by_cases hsame : index = position
  · right
    subst hsame
    have hfenced := isBootFenced_of_fenceBoot h
    rw [boot_of_fenceAt hexisting h hposition]
    exact hfenced
  · left
    refine mem_liveRegistrations.mpr ⟨List.mem_iff_getElem?.mpr ⟨position, ?_⟩, hlive⟩
    rw [List.getElem?_modify_ne _ _ hsame]
    exact hposition

theorem spares_of_fencePrevious {registration : PublisherRegistration}
    {remaining index : Nat} {status : Status}
    (h : fencePrevious registration limits remaining index registry = (after, status)) :
    registry.Spares after := by
  induction remaining generalizing index registry with
  | zero =>
      cases h
      exact .refl _
  | succ remaining ih =>
      rw [fencePrevious] at h
      split at h
      · cases h
        exact .refl _
      · next existing hexisting =>
          split at h
          · split at h
            · cases h
              exact .refl _
            · split at h
              · cases h
                exact .refl _
              · next hfenced => exact (spares_of_fenceAt hexisting hfenced).trans (ih h)
          · exact ih h

theorem spares_of_registerPublisher {registration : PublisherRegistration} {status : Status}
    (h : registry.registerPublisher registration limits = (after, status)) :
    registry.Spares after := by
  unfold registerPublisher at h
  split at h
  · cases h
    exact .refl _
  · split at h
    · next hprevious =>
        cases h
        exact spares_of_fencePrevious hprevious
    · next hprevious =>
        have hspares := spares_of_fencePrevious hprevious
        split at h
        · cases h
          exact hspares
        · cases h
          refine hspares.trans ⟨fun _ hfenced => hfenced, ?_⟩
          intro existing hmem
          obtain ⟨hmem, hlive⟩ := mem_liveRegistrations.mp hmem
          exact .inl (mem_liveRegistrations.mpr ⟨List.mem_append_left _ hmem, hlive⟩)

/-- Dropping a session leaves the live registrations of the others. -/
theorem live_of_dropSession {session : SessionId}
    (h : registry.dropSession session = .ok after) {registration : PublisherRegistration}
    (hmem : registration ∈ registry.liveRegistrations)
    (hother : registration.session ≠ session) : registration ∈ after.liveRegistrations := by
  obtain ⟨hmem, hlive⟩ := mem_liveRegistrations.mp hmem
  unfold dropSession at h
  dsimp only at h
  split at h
  · cases h
    have hspared : (registration.live && registration.session == session) = false := by
      rw [beq_eq_false_iff_ne.mpr hother, Bool.and_false]
    exact mem_liveRegistrations.mpr ⟨mem_retire_of_mem hmem hspared, hlive⟩
  · cases h

/-! ## Registrations that are entered -/

/-- The registration is live, and the only live one that is new or of its publisher. -/
structure Enters (before : AuthorityRegistry) (registration : PublisherRegistration)
    (after : AuthorityRegistry) : Prop where
  entered : registration ∈ after.liveRegistrations
  only : ∀ existing ∈ after.liveRegistrations, existing = registration ∨
    existing ∈ before.liveRegistrations ∧ existing.publisher ≠ registration.publisher

theorem enters_of_joins {registration : PublisherRegistration}
    (hlive : registration.live = true) (h : registry.Joins registration limits middle) :
    registry.Enters registration
      { middle with registrations := middle.registrations ++ [registration] } := by
  constructor
  · exact mem_liveRegistrations.mpr ⟨List.mem_append_right _ (List.mem_singleton_self _), hlive⟩
  · intro existing hmem
    obtain ⟨hmem, hexisting⟩ := mem_liveRegistrations.mp hmem
    rcases List.mem_append.mp hmem with hbefore | hnew
    · have hmiddle := mem_liveRegistrations.mpr ⟨hbefore, hexisting⟩
      exact .inr ⟨h.thins.live.mem hmiddle, h.cleared existing hmiddle⟩
    · exact .inl (List.mem_singleton.mp hnew)

end AuthorityRegistry

open AuthorityRegistry

/-- How the registry ends when a publisher asks to be registered: no registration is added
and the request fails, or one of the publisher, the boot and the session is entered. -/
inductive RegistrationEnds (before : AuthorityRegistry) (publisher : PublisherId)
    (boot : WorkerBootId) (session : SessionId) (after : AuthorityRegistry) :
    Result PublisherRegistration → Prop
  | refused {error : Error} : before.Thins after →
      RegistrationEnds before publisher boot session after (.error error)
  | entered {registration : PublisherRegistration} {result : Result PublisherRegistration} :
      registration.publisher = publisher → registration.boot = boot →
      registration.session = session → boot.isValid = true →
      before.Enters registration after →
      RegistrationEnds before publisher boot session after result

theorem registerPublisher_settles (impl : Impl) (context : AuthorityContext)
    (publisher : PublisherId) (boot : WorkerBootId) (scopes : AuthorityScopeMask)
    (session : SessionId) (call : Call) :
    let ended :=
      (Fabric.registerPublisher impl context publisher boot scopes session call).settle call
    impl.authority.Spares ended.1.authority ∧
      RegistrationEnds impl.authority publisher boot session ended.1.authority ended.2 := by
  dsimp only
  rw [Staged.settle_authority]
  unfold Fabric.registerPublisher
  split
  · exact ⟨.refl _, .refused (.refl _)⟩
  · split
    · exact ⟨.refl _, .refused (.refl _)⟩
    · dsimp only
      split
      · exact ⟨.refl _, .refused (.refl _)⟩
      · split
        · next hregistered =>
            refine ⟨spares_of_registerPublisher hregistered, ?_⟩
            rcases registerPublisher_cases hregistered with
              ⟨hthins, -⟩ | ⟨hvalid, middle, hjoins, rfl⟩
            · exact .refused hthins
            · exact .entered rfl rfl rfl hvalid (enters_of_joins rfl hjoins)
        · next hregistered =>
            refine ⟨spares_of_registerPublisher hregistered, ?_⟩
            rcases registerPublisher_cases hregistered with
              ⟨-, error, herror⟩ | ⟨hvalid, middle, hjoins, rfl⟩
            · cases herror
            · exact .entered rfl rfl rfl hvalid (enters_of_joins rfl hjoins)

/-! ## Sessions that are looked after -/

/-- The session's boot is fenced, or live in the session under its publisher; and no other
boot is live in the session. -/
structure Guards (registry : AuthorityRegistry) (session : SessionState) : Prop where
  held : registry.isBootFenced session.boot = true ∨
    ∃ registration ∈ registry.liveRegistrations, registration.session = session.session ∧
      registration.boot = session.boot ∧ registration.publisher = session.publisher
  owned : ∀ registration ∈ registry.liveRegistrations,
    registration.session = session.session → registration.boot = session.boot

namespace Guards

variable {registry after : AuthorityRegistry} {session : SessionState}

/-- What is held stays held when registrations are spared. -/
theorem held_of_spares (h : Guards registry session) (hspares : registry.Spares after) :
    after.isBootFenced session.boot = true ∨
      ∃ registration ∈ after.liveRegistrations, registration.session = session.session ∧
        registration.boot = session.boot ∧ registration.publisher = session.publisher := by
  rcases h.held with hfenced | ⟨registration, hmem, hsession, hboot, hpublisher⟩
  · exact .inl (hspares.fenced _ hfenced)
  · rcases hspares.live registration hmem with hkept | hfenced
    · exact .inr ⟨registration, hkept, hsession, hboot, hpublisher⟩
    · rw [hboot] at hfenced
      exact .inl hfenced

theorem spared (h : Guards registry session) (hspares : registry.Spares after)
    (hthins : registry.Thins after) : Guards after session :=
  ⟨h.held_of_spares hspares, fun registration hmem => h.owned registration (hthins.live.mem hmem)⟩

/-- The window of attempts makes no difference. -/
theorem observed (h : Guards registry session) (attempts : List MutationAttemptRecord) :
    Guards { registry with attempts } session := ⟨h.held, h.owned⟩

theorem entered {registration : PublisherRegistration} (h : Guards registry session)
    (hspares : registry.Spares after) (henters : registry.Enters registration after)
    (hother : registration.session ≠ session.session) : Guards after session := by
  refine ⟨h.held_of_spares hspares, ?_⟩
  intro existing hmem hsession
  rcases henters.only existing hmem with rfl | ⟨hbefore, -⟩
  · exact absurd hsession hother
  · exact h.owned existing hbefore hsession

theorem registered {publisher : PublisherId} {boot : WorkerBootId} {id : SessionId}
    {result : Result PublisherRegistration} (h : Guards registry session)
    (hspares : registry.Spares after)
    (hends : RegistrationEnds registry publisher boot id after result)
    (hother : id ≠ session.session) : Guards after session := by
  cases hends with
  | refused hthins => exact h.spared hspares hthins
  | entered _ _ hsession _ henters =>
      rw [← hsession] at hother
      exact h.entered hspares henters hother

/-- Another session is dropped. -/
theorem dropped {other : SessionId} (h : Guards registry session)
    (hdropped : registry.dropSession other = .ok after) (hother : session.session ≠ other) :
    Guards after session := by
  have hthins := thins_of_dropSession hdropped
  refine ⟨?_, fun registration hmem => h.owned registration (hthins.live.mem hmem)⟩
  rcases h.held with hfenced | ⟨registration, hmem, hsession, hboot, hpublisher⟩
  · left
    rw [AuthorityRegistry.isBootFenced, (retained_of_dropSession hdropped).2.1]
    exact hfenced
  · rw [← hsession] at hother
    exact .inr ⟨registration, live_of_dropSession hdropped hmem hother, hsession, hboot,
      hpublisher⟩

/-- The boot of a session that was lost is the session's own. -/
theorem boot_of_lost {boot : WorkerBootId} (h : Guards registry session)
    (hboot : registry.bootOfSession session.session = some boot) : boot = session.boot := by
  obtain ⟨registration, hfound, rfl⟩ := Option.map_eq_some_iff.mp hboot
  have howner := List.find?_some hfound
  simp only [Bool.and_eq_true, beq_iff_eq] at howner
  have hlive := mem_liveRegistrations.mpr ⟨List.mem_of_find?_eq_some hfound, howner.1⟩
  exact h.owned registration hlive howner.2

/-- A lost session, this one or another, has its boot fenced and then is dropped. -/
theorem lost {other : SessionId} {boot : WorkerBootId} {tick : UInt64} {limits : Limits}
    {fencedAt : CoordinatorEpoch} {fenced : AuthorityRegistry} (h : Guards registry session)
    (hboot : registry.bootOfSession other = some boot)
    (hfenced : registry.fenceBoot boot fencedAt tick limits = .ok fenced)
    (hends : fenced.dropSession other = .ok after ∨ after = fenced) : Guards after session := by
  have hguards := h.spared (spares_of_fenceBoot hfenced) (thins_of_fenceBoot hfenced)
  rcases hends with hdropped | rfl
  · by_cases hsame : session.session = other
    · subst hsame
      obtain rfl := h.boot_of_lost hboot
      have hthins := thins_of_dropSession hdropped
      refine ⟨.inl ?_, fun registration hmem => hguards.owned registration (hthins.live.mem hmem)⟩
      rw [AuthorityRegistry.isBootFenced, (retained_of_dropSession hdropped).2.1]
      exact isBootFenced_of_fenceBoot hfenced
    · exact hguards.dropped hdropped hsame
  · exact hguards

/-- A session whose boot is fenced is not live, where no live registration has a fenced
boot. -/
theorem ended {config : CoordinatorConfig} (h : Guards registry session)
    (henrolled : Enrolled config registry)
    (hfenced : registry.isBootFenced session.boot = true) :
    ∀ registration ∈ registry.liveRegistrations, registration.session ≠ session.session := by
  intro registration hmem hsession
  have hfree := henrolled.unfenced registration hmem
  rw [h.owned registration hmem hsession, hfenced] at hfree
  cases hfree

end Guards

/-! ## Requests of other callers -/

/-- The request neither registers a publisher in the session nor drops the session. -/
structure Spared (session : SessionId) (input : Input) : Prop where
  registered : ∀ context publisher boot scopes,
    input.action ≠ .operate (.registerPublisher context publisher boot scopes session)
  dropped : ∀ context, input.action ≠ .operate (.dropSession context session)

theorem fenced_of_dropSession {registry after : AuthorityRegistry} {session : SessionId}
    (h : registry.dropSession session = .ok after) (boot : WorkerBootId) :
    after.isBootFenced boot = registry.isBootFenced boot := by
  unfold AuthorityRegistry.isBootFenced
  rw [(retained_of_dropSession h).2.1]

/-- A section keeps fenced boots fenced. -/
theorem fenced_of_taken {event : Event} (htaken : event.Taken step) {boot : WorkerBootId}
    (h : event.pre.impl.authority.isBootFenced boot = true) :
    event.post.impl.authority.isBootFenced boot = true := by
  rcases (section_of_taken htaken).registry with hreplied | hwrote
  · generalize event.post.impl.authority = after at hreplied ⊢
    generalize event.input.action = action at hreplied
    cases hreplied with
    | observed => exact h
    | refused hrefused => exact (spares_of_registerPublisher hrefused).fenced boot h
    | dropped _ hdropped => exact (fenced_of_dropSession hdropped boot).trans h
  · generalize event.post.impl.authority = after at hwrote ⊢
    generalize event.input.action = action at hwrote
    cases hwrote with
    | observed => exact h
    | registered _ hregistered => exact (spares_of_registerPublisher hregistered).fenced boot h
    | fenced hfenced => exact (spares_of_fenceBoot hfenced).fenced boot h
    | lost _ hfenced hends =>
        have hkept := (spares_of_fenceBoot hfenced).fenced boot h
        rcases hends with hdropped | rfl
        · exact (fenced_of_dropSession hdropped boot).trans hkept
        · exact hkept

theorem authority_of_registerPublisher {event : Event} (htaken : event.Taken step)
    {context : AuthorityContext} {publisher : PublisherId} {boot : WorkerBootId}
    {scopes : AuthorityScopeMask} {session : SessionId}
    (haction : event.input.action =
      .operate (.registerPublisher context publisher boot scopes session)) :
    event.post.impl.authority =
      ((Fabric.registerPublisher event.pre.impl context publisher boot scopes session
        event.input.call).settle event.input.call).1.authority := by
  unfold Event.Taken step at htaken
  rw [haction] at htaken
  simp only [Option.some.injEq, Prod.mk.injEq] at htaken
  rw [← htaken.1]
  dsimp only [Operation.run, Operation.stage]
  rw [Staged.settle_authority, Staged.settle_authority]
  cases Fabric.registerPublisher event.pre.impl context publisher boot scopes session
    event.input.call <;> rfl

/-- A section guards each session that it spares. -/
theorem Guards.taken {event : Event} {session : SessionState} (htaken : event.Taken step)
    (hspared : Spared session.session event.input)
    (h : Guards event.pre.impl.authority session) :
    Guards event.post.impl.authority session := by
  have hregister : ∀ context publisher boot scopes id, event.input.action =
      .operate (.registerPublisher context publisher boot scopes id) →
      Guards event.post.impl.authority session := by
    intro context publisher boot scopes id haction
    obtain ⟨hspares, hends⟩ := registerPublisher_settles event.pre.impl context publisher boot
      scopes id event.input.call
    rw [authority_of_registerPublisher htaken haction]
    refine h.registered hspares hends ?_
    rintro rfl
    exact hspared.registered _ _ _ _ haction
  rcases (section_of_taken htaken).registry with hreplied | hwrote
  · generalize haction : event.input.action = action at hreplied
    generalize event.post.impl.authority = after at hreplied hregister ⊢
    cases hreplied with
    | observed => exact h.observed _
    | refused => exact hregister _ _ _ _ _ haction
    | dropped _ hdropped =>
        refine h.dropped hdropped ?_
        rintro rfl
        exact hspared.dropped _ haction
  · generalize haction : event.input.action = action at hwrote
    generalize event.post.impl.authority = after at hwrote hregister ⊢
    cases hwrote with
    | observed => exact h.observed _
    | registered => exact hregister _ _ _ _ _ haction
    | @fenced _ _ _ attempts _ hfenced =>
        exact (h.observed attempts).spared (spares_of_fenceBoot hfenced)
          (thins_of_fenceBoot hfenced)
    | lost hboot hfenced hends => exact h.lost hboot hfenced hends

/-! ## Frames as runs of the coordinator -/

/-- A run of the coordinator whose requests spare each session with the property. -/
def Advances (spares : SessionId → Prop) (before after : SystemState) : Prop :=
  ∃ served, Run step before served after ∧
    ∀ session, spares session → ∀ event ∈ served, Spared session event.input

theorem Advances.refl {spares : SessionId → Prop} (state : SystemState) :
    Advances spares state state :=
  ⟨[], .nil state, fun _ _ _ hmem => absurd hmem List.not_mem_nil⟩

theorem Staged.map_settle_fst {α β : Type} (staged : Staged α) (f : α → β) (call : Call) :
    ((staged.map f).settle call).1 = (staged.settle call).1 := by
  cases staged with
  | reply => rfl
  | write impl next applies value =>
      dsimp only [Staged.map, Staged.settle]
      generalize impl.persist next call = saved
      rcases saved with ⟨saved, error | ok⟩ <;> rfl

/-- A request that is one section. -/
theorem Advances.operated {spares : SessionId → Prop} {α : Type} {staged : Staged α}
    {f : α → Value} {state : SystemState} {operation : Operation} {call : Call}
    (hstage : operation.stage state.impl call = staged.map f)
    (hspared : ∀ session, spares session → Spared session ⟨.operate operation, call⟩) :
    Advances spares state { state with impl := (staged.settle call).1 } := by
  have htaken : Event.Taken step ⟨state, ⟨.operate operation, call⟩,
      .operated (operation.run state.impl call).2,
      { state with impl := (staged.settle call).1 }⟩ := by
    unfold Event.Taken step
    dsimp only [Operation.run]
    rw [hstage, Staged.map_settle_fst]
  refine ⟨[_], .cons htaken (.nil _), ?_⟩
  intro session h event hmem
  rw [List.mem_singleton.mp hmem]
  exact hspared session h

/-- An evaluation: its sections, with what other callers do between them. -/
theorem SystemState.evaluate_advances {state after : SystemState} {context : AuthorityContext}
    {setId : ConstraintSetId} {candidates : List CandidatePath}
    {expectedGeneration : ConstraintSetGeneration} {surroundings : Surroundings}
    {result : Result CommitOutcome}
    (h : state.evaluate context setId candidates expectedGeneration surroundings =
      some (after, result)) :
    Advances (fun session => ∀ input ∈ surroundings.between, Spared session input) state
      after := by
  have htaken : ∀ begun reply,
      state.begin context setId candidates expectedGeneration surroundings.call =
        (begun, reply) →
      Event.Taken step ⟨state, ⟨.evaluateBegin context setId candidates expectedGeneration,
        surroundings.call⟩, reply, begun⟩ := by
    intro begun reply hbegun
    exact congrArg some hbegun
  unfold SystemState.evaluate at h
  split at h
  · next hbegun =>
      cases h
      refine ⟨[_], .cons (htaken _ _ hbegun) (.nil _), ?_⟩
      intro session _ event hmem
      rw [List.mem_singleton.mp hmem]
      exact ⟨nofun, nofun⟩
  · next begun ticket hbegun =>
      simp only [Option.bind_eq_some_iff, Prod.exists] at h
      obtain ⟨events, middle, hexec, finished, reply, hfinished, hresult⟩ := h
      have hlast : Event.Taken step ⟨middle, ⟨.evaluateFinish ticket, surroundings.finish⟩,
        reply, finished⟩ := hfinished
      cases reply with
      | evaluated outcome =>
          cases hresult
          refine ⟨_, .cons (htaken _ _ hbegun)
            ((Run.of_exec hexec).append (.cons hlast (.nil _))), ?_⟩
          intro session hspares event hmem
          rcases List.mem_cons.mp hmem with rfl | hmem
          · exact ⟨nofun, nofun⟩
          · rcases List.mem_append.mp hmem with hmem | hmem
            · refine hspares event.input ?_
              rw [← inputs_of_exec hexec]
              exact List.mem_map_of_mem hmem
            · rw [List.mem_singleton.mp hmem]
              exact ⟨nofun, nofun⟩
      | operated | populationRead | evaluating => cases hresult
  · cases h

section Frames

variable {config : ServerConfig} {state : ServerState} {frame : Frame}
  {surroundings : Surroundings} {handled : Handled}

@[simp] theorem ServerState.respond_state {α : Type} {reason : ReasonCode}
    {header : FrameHeader} {message : MessageId} {encode : α → List UInt8}
    (result : Result α) :
    (state.respond config header reason message encode result).state = state := by
  cases result <;> rfl

/-- The session that a handshake is numbered with. -/
def ServerState.numbered (state : ServerState) (surroundings : Surroundings) : SessionId :=
  ⟨state.nextSession + 1 + surroundings.handedOut⟩

/-- A query leaves everything as it is. -/
theorem handleQuery_state {message : MessageId} {report : Impl → ConstraintSetId → List UInt8}
    {malformed : String} : (handleQuery config state frame message report malformed).state =
      state := by
  unfold handleQuery
  cases decodeQuery.toEnd frame.payload <;> rfl

/-- A frame that is no handshake keeps the session. -/
theorem handleFrame_other (hhello : frame.header.message ≠ .hello)
    (h : handleFrame config state frame surroundings = some handled) :
    handled.state.session = state.session ∧
      Advances (fun session => ∀ input ∈ surroundings.between, Spared session input)
        state.system handled.state.system := by
  unfold handleFrame at h
  dsimp only at h
  rw [if_neg hhello] at h
  split at h
  · cases h
    exact ⟨rfl, .refl _⟩
  · split at h
    · cases h
      exact ⟨rfl, .refl _⟩
    · split at h
      · cases h
        unfold handlePublish
        dsimp only
        split
        · exact ⟨rfl, .refl _⟩
        · rw [ServerState.respond_state]
          exact ⟨rfl, @Advances.operated _ _ _ _ _ (.publishConstraintSet _ _) _ rfl
            fun _ _ => ⟨nofun, nofun⟩⟩
      · cases h
        unfold handleLifecycle
        dsimp only
        split
        · exact ⟨rfl, .refl _⟩
        · rw [ServerState.respond_state]
          exact ⟨rfl, @Advances.operated _ _ _ _ _ (.applyLifecycle _ _ _) _ rfl
            fun _ _ => ⟨nofun, nofun⟩⟩
      · unfold handleEvaluate at h
        dsimp only at h
        split at h
        · cases h
          exact ⟨rfl, .refl _⟩
        · simp only [Option.map_eq_some_iff, Prod.exists] at h
          obtain ⟨system, outcome, hevaluate, rfl⟩ := h
          rw [ServerState.respond_state]
          exact ⟨rfl, SystemState.evaluate_advances hevaluate⟩
      iterate 3
        · cases h
          exact ⟨congrArg ServerState.session handleQuery_state,
            (congrArg ServerState.system handleQuery_state) ▸ .refl _⟩
      all_goals
        cases h
        exact ⟨rfl, .refl _⟩

/-- What a handshake leaves: everything as it was; or the registry as the request to be
registered leaves it, with the session replaced by the one that was entered. -/
inductive Greets (state : ServerState) (id : SessionId) (after : ServerState) : Prop
  | malformed : after = state → Greets state id after
  | refused {context : AuthorityContext} {publisher : PublisherId} {boot : WorkerBootId}
      {scopes : AuthorityScopeMask} {call : Call} :
      after.system = { state.system with
        impl := ((Fabric.registerPublisher state.system.impl context publisher boot scopes id
          call).settle call).1 } →
      after.session = state.session → Greets state id after
  | registered {context : AuthorityContext} {publisher : PublisherId} {boot : WorkerBootId}
      {scopes : AuthorityScopeMask} {call : Call} {granted : PublisherRegistration} :
      after.system = { state.system with
        impl := ((Fabric.registerPublisher state.system.impl context publisher boot scopes id
          call).settle call).1 } →
      ((Fabric.registerPublisher state.system.impl context publisher boot scopes id
        call).settle call).2 = .ok granted →
      after.session =
        { session := id, publisher, boot, scopes := granted.scopes, registered := true } →
      Greets state id after

theorem handleHello_greets :
    Greets state (state.numbered surroundings)
      (handleHello config state frame surroundings).state := by
  unfold handleHello
  dsimp only
  split
  · exact .malformed rfl
  · split
    · exact .refused rfl rfl
    · next hgranted => exact .registered rfl hgranted rfl

/-- A handshake asks for one registration, in the session that it is numbered with. -/
theorem Greets.advances {id : SessionId} {after : ServerState} (h : Greets state id after) :
    Advances (fun session => id ≠ session) state.system after.system := by
  have hspared : ∀ {context publisher boot scopes call} session, id ≠ session →
      Spared session ⟨.operate (.registerPublisher context publisher boot scopes id), call⟩ := by
    intro context publisher boot scopes call session hother
    refine ⟨fun _ _ _ _ heq => ?_, nofun⟩
    cases heq
    exact hother rfl
  cases h with
  | malformed hsame =>
      rw [hsame]
      exact .refl _
  | refused hsystem =>
      rw [hsystem]
      exact @Advances.operated _ _ _ _ _ (.registerPublisher _ _ _ _ _) _ rfl hspared
  | registered hsystem =>
      rw [hsystem]
      exact @Advances.operated _ _ _ _ _ (.registerPublisher _ _ _ _ _) _ rfl hspared

end Frames

/-! ## Connections -/

/-- One activity of a connection that took place. -/
abbrev ServerEvent := Verified.StepMachine.Event ServerState Activity (List Frame)

/-- Nothing that the event serves registers a publisher in the session or drops it. -/
structure Undisturbed (session : SessionId) (event : ServerEvent) : Prop where
  elsewhere : ∀ input, event.input = .elsewhere input → Spared session input
  between : ∀ frame surroundings, event.input = .frame frame surroundings →
    ∀ input ∈ surroundings.between, Spared session input
  renumbered : ∀ frame surroundings, event.input = .frame frame surroundings →
    frame.header.message = .hello → event.pre.numbered surroundings ≠ session

section Events

variable {config : ServerConfig} {event : ServerEvent}

/-- What took place on the connection. -/
inductive TookPlace (event : ServerEvent) : Prop
  | greeted {frame : Frame} {surroundings : Surroundings} :
      event.input = .frame frame surroundings → frame.header.message = .hello →
      Greets event.pre (event.pre.numbered surroundings) event.post → TookPlace event
  | requested {frame : Frame} {surroundings : Surroundings} :
      event.input = .frame frame surroundings → event.post.session = event.pre.session →
      Advances (fun session => ∀ input ∈ surroundings.between, Spared session input)
        event.pre.system event.post.system → TookPlace event
  | elsewhere {served : Event} : event.input = .elsewhere served.input →
      event.post.session = event.pre.session → served.Taken step →
      served.pre = event.pre.system → served.post = event.post.system → TookPlace event
  | numbered : event.post.session = event.pre.session →
      event.post.system = event.pre.system → TookPlace event

theorem tookPlace_of_taken (htaken : event.Taken (serveStep config)) : TookPlace event := by
  obtain ⟨pre, input, output, post⟩ := event
  cases input with
  | frame frame surroundings =>
      simp only [Event.Taken, serveStep, Option.ite_none_right_eq_some, Option.map_eq_some_iff,
        Prod.mk.injEq] at htaken
      obtain ⟨-, handled, hhandled, rfl, -⟩ := htaken
      by_cases hhello : frame.header.message = .hello
      · unfold handleFrame at hhandled
        dsimp only at hhandled
        rw [if_pos hhello] at hhandled
        cases hhandled
        exact .greeted rfl hhello handleHello_greets
      · obtain ⟨hsession, hadvances⟩ := handleFrame_other hhello hhandled
        exact .requested rfl hsession hadvances
  | elsewhere input =>
      simp only [Event.Taken, serveStep, Option.map_eq_some_iff, Prod.mk.injEq,
        Prod.exists] at htaken
      obtain ⟨system, reply, hstep, rfl, -⟩ := htaken
      exact @TookPlace.elsewhere _ ⟨pre.system, input, reply, system⟩ rfl rfl hstep rfl rfl
  | numbered =>
      simp only [Event.Taken, serveStep, Option.some.injEq, Prod.mk.injEq] at htaken
      obtain ⟨rfl, -⟩ := htaken
      exact .numbered rfl rfl

/-- Every activity is a run of the coordinator, which spares the sessions that the activity
does not disturb. -/
theorem TookPlace.advances (h : TookPlace event) :
    Advances (Undisturbed · event) event.pre.system event.post.system := by
  cases h with
  | greeted hinput hhello hgreets =>
      obtain ⟨served, hrun, hspares⟩ := hgreets.advances
      exact ⟨served, hrun, fun session hundisturbed =>
        hspares session (hundisturbed.renumbered _ _ hinput hhello)⟩
  | requested hinput _ hadvances =>
      obtain ⟨served, hrun, hspares⟩ := hadvances
      exact ⟨served, hrun, fun session hundisturbed =>
        hspares session (hundisturbed.between _ _ hinput)⟩
  | @elsewhere served hinput _ htaken hpre hpost =>
      have hrun : Run step served.pre [served] served.post := .cons htaken (.nil _)
      rw [hpre, hpost] at hrun
      refine ⟨[served], hrun, fun session hundisturbed other hmem => ?_⟩
      rw [List.mem_singleton.mp hmem]
      exact hundisturbed.elsewhere _ hinput
  | numbered _ hsystem =>
      rw [hsystem]
      exact .refl _

/-- A handshake that replaces the session of the connection by the one it registered. -/
structure Registers (event : ServerEvent) (registration : PublisherRegistration) : Prop where
  registered : event.post.session.registered = true
  publisher : registration.publisher = event.post.session.publisher
  boot : registration.boot = event.post.session.boot
  session : registration.session = event.post.session.session
  valid : event.post.session.boot.isValid = true
  spares : event.pre.system.impl.authority.Spares event.post.system.impl.authority
  enters : event.pre.system.impl.authority.Enters registration event.post.system.impl.authority

/-- The session of a connection is replaced by a handshake that registers another. -/
theorem TookPlace.registers (h : TookPlace event)
    (hchanged : event.post.session ≠ event.pre.session) :
    ∃ frame surroundings registration, event.input = .frame frame surroundings ∧
      frame.header.message = .hello ∧
      registration.session = event.pre.numbered surroundings ∧
      Registers event registration := by
  cases h with
  | @greeted frame surroundings hinput hhello hgreets =>
      cases hgreets with
      | malformed hsame => exact absurd (congrArg ServerState.session hsame) hchanged
      | refused _ hsession => exact absurd hsession hchanged
      | @registered context publisher boot scopes call granted hsystem hgranted hnew =>
          obtain ⟨hspares, hends⟩ := registerPublisher_settles event.pre.system.impl context
            publisher boot scopes (event.pre.numbered surroundings) call
          rw [hgranted] at hends
          have hauthority := congrArg (fun system => system.impl.authority) hsystem
          cases hends with
          | @entered registration _ hpublisher hboot hsession hvalid henters =>
              refine ⟨frame, surroundings, registration, hinput, hhello, hsession, ?_⟩
              constructor
              · rw [hnew]
              · rw [hnew, hpublisher]
              · rw [hnew, hboot]
              · rw [hnew, hsession]
              · rw [hnew]
                exact hvalid
              · rw [hauthority]
                exact hspares
              · rw [hauthority]
                exact henters
  | requested _ hsession => exact absurd hsession hchanged
  | elsewhere _ hsession => exact absurd hsession hchanged
  | numbered hsession => exact absurd hsession hchanged

namespace Registers

variable {registration : PublisherRegistration}

/-- A session that was registered under an unused number is guarded. -/
theorem guards (h : Registers event registration)
    (hvacant : ∀ existing ∈ event.pre.system.impl.authority.liveRegistrations,
      existing.session ≠ registration.session) :
    Guards event.post.system.impl.authority event.post.session := by
  constructor
  · exact .inr ⟨registration, h.enters.entered, h.session, h.boot, h.publisher⟩
  · intro existing hmem hsession
    rcases h.enters.only existing hmem with rfl | ⟨hbefore, -⟩
    · exact h.boot
    · exact absurd (hsession.trans h.session.symm) (hvacant existing hbefore)

/-- A session of the publisher that registers again has its boot fenced. -/
theorem fences {session : SessionState} (h : Registers event registration)
    (hvacant : ∀ existing ∈ event.pre.system.impl.authority.liveRegistrations,
      existing.session ≠ registration.session)
    (hguards : Guards event.pre.system.impl.authority session)
    (hpublisher : event.post.session.publisher = session.publisher) :
    event.post.system.impl.authority.isBootFenced session.boot = true := by
  rcases hguards.held with hfenced | ⟨existing, hmem, -, hboot, hsame⟩
  · exact h.spares.fenced _ hfenced
  · rcases h.spares.live existing hmem with hkept | hfenced
    · rcases h.enters.only existing hkept with rfl | ⟨-, hother⟩
      · exact absurd rfl (hvacant existing hmem)
      · exact absurd (hsame.trans (hpublisher.symm.trans h.publisher.symm)) hother
    · rw [hboot] at hfenced
      exact hfenced

end Registers

end Events

/-! ## Runs of a connection -/

theorem Guards.of_run {before after : SystemState} {served : List Event}
    {session : SessionState} (hrun : Run step before served after)
    (hspared : ∀ event ∈ served, Spared session.session event.input)
    (h : Guards before.impl.authority session) : Guards after.impl.authority session := by
  let inv : SystemState → Prop := fun state => Guards state.impl.authority session
  have hinv : inv after := by
    refine hrun.invariant h ?_
    intro event hmem htaken hpre
    exact Guards.taken htaken (hspared event hmem) hpre
  exact hinv

theorem fenced_of_run {before after : SystemState} {served : List Event}
    {boot : WorkerBootId} (hrun : Run step before served after)
    (h : before.impl.authority.isBootFenced boot = true) :
    after.impl.authority.isBootFenced boot = true := by
  let inv : SystemState → Prop := fun state => state.impl.authority.isBootFenced boot = true
  have hinv : inv after := by
    refine hrun.invariant h ?_
    intro event _ htaken hpre
    exact fenced_of_taken htaken hpre
  exact hinv

theorem Reachable.of_run {before after : SystemState} {served : List Event}
    (h : Reachable before) (hrun : Run step before served after) : Reachable after := by
  obtain ⟨events, start, hopened, hbefore⟩ := h
  exact ⟨events ++ served, start, hopened, hbefore.append hrun⟩

/-- The event disturbs no session that was registered on the connection; a handshake takes a
number that is not live; and one that replaces the session is of the same publisher, or of a
boot that is fenced or stays. -/
structure Orderly (before : List ServerEvent) (event : ServerEvent) : Prop where
  undisturbed : ∀ earlier ∈ before, earlier.post.session.registered = true →
    Undisturbed earlier.post.session.session event
  vacant : ∀ frame surroundings, event.input = .frame frame surroundings →
    frame.header.message = .hello →
    ∀ existing ∈ event.pre.system.impl.authority.liveRegistrations,
      existing.session ≠ event.pre.numbered surroundings
  succeeds : event.pre.session.registered = true → event.post.session ≠ event.pre.session →
    event.post.session.publisher = event.pre.session.publisher ∨
      event.post.session.boot = event.pre.session.boot ∨
      event.pre.system.impl.authority.isBootFenced event.pre.session.boot = true

/-- Every session that was registered on the connection is guarded, and its boot is fenced or
that of the session which the connection remembers. -/
structure Tended (events : List ServerEvent) (state : ServerState) : Prop where
  reachable : Reachable state.system
  valid : state.session.registered = true → state.session.boot.isValid = true
  remembered : state.session.registered = true →
    ∃ event ∈ events, event.post.session = state.session
  guarded : ∀ event ∈ events, event.post.session.registered = true →
    Guards state.system.impl.authority event.post.session
  settled : ∀ event ∈ events, event.post.session.registered = true →
    state.system.impl.authority.isBootFenced event.post.session.boot = true ∨
      state.session.registered = true ∧ event.post.session.boot = state.session.boot

namespace Tended

variable {config : ServerConfig} {before : List ServerEvent} {event : ServerEvent}

/-- What an orderly event leaves of the sessions that were registered before it. -/
theorem earlier (h : Tended before event.pre) (hplace : TookPlace event)
    (horderly : Orderly before event) :
    Reachable event.post.system ∧
      (∀ boot, event.pre.system.impl.authority.isBootFenced boot = true →
        event.post.system.impl.authority.isBootFenced boot = true) ∧
      ∀ earlier ∈ before, earlier.post.session.registered = true →
        Guards event.post.system.impl.authority earlier.post.session := by
  obtain ⟨served, hrun, hspares⟩ := hplace.advances
  refine ⟨h.reachable.of_run hrun, fun boot => fenced_of_run hrun, ?_⟩
  intro earlier hmem hregistered
  have hundisturbed := horderly.undisturbed earlier hmem hregistered
  exact (h.guarded earlier hmem hregistered).of_run hrun (hspares _ hundisturbed)

/-- The session stays. -/
theorem unchanged (h : Tended before event.pre) (hplace : TookPlace event)
    (horderly : Orderly before event) (hsession : event.post.session = event.pre.session) :
    Tended (before ++ [event]) event.post := by
  obtain ⟨hreachable, hfenced, hguarded⟩ := h.earlier hplace horderly
  have hsettled : ∀ earlier ∈ before, earlier.post.session.registered = true →
      event.post.system.impl.authority.isBootFenced earlier.post.session.boot = true ∨
        event.post.session.registered = true ∧
          earlier.post.session.boot = event.post.session.boot := by
    intro earlier hmem hregistered
    rw [hsession]
    exact (h.settled earlier hmem hregistered).imp_left (hfenced _)
  have hremembered : event.post.session.registered = true →
      ∃ earlier ∈ before, earlier.post.session = event.post.session := by
    intro hregistered
    rw [hsession] at hregistered ⊢
    exact h.remembered hregistered
  refine ⟨hreachable, ?_, ?_, ?_, ?_⟩
  · intro hregistered
    rw [hsession] at hregistered ⊢
    exact h.valid hregistered
  · intro hregistered
    obtain ⟨earlier, hmem, hsame⟩ := hremembered hregistered
    exact ⟨earlier, List.mem_append_left _ hmem, hsame⟩
  · intro other hmem hregistered
    rcases List.mem_append.mp hmem with hmem | hmem
    · exact hguarded other hmem hregistered
    · rw [List.mem_singleton.mp hmem] at hregistered ⊢
      obtain ⟨earlier, hearlier, hsame⟩ := hremembered hregistered
      rw [← hsame] at hregistered ⊢
      exact hguarded earlier hearlier hregistered
  · intro other hmem hregistered
    rcases List.mem_append.mp hmem with hmem | hmem
    · exact hsettled other hmem hregistered
    · rw [List.mem_singleton.mp hmem] at hregistered ⊢
      exact .inr ⟨hregistered, rfl⟩

/-- A handshake replaces the session. -/
theorem replaced {registration : PublisherRegistration} (h : Tended before event.pre)
    (hplace : TookPlace event) (horderly : Orderly before event)
    (hregisters : Registers event registration)
    (hvacant : ∀ existing ∈ event.pre.system.impl.authority.liveRegistrations,
      existing.session ≠ registration.session)
    (hchanged : event.post.session ≠ event.pre.session) :
    Tended (before ++ [event]) event.post := by
  obtain ⟨hreachable, hfenced, hguarded⟩ := h.earlier hplace horderly
  have hsettled : ∀ earlier ∈ before, earlier.post.session.registered = true →
      event.post.system.impl.authority.isBootFenced earlier.post.session.boot = true ∨
        event.post.session.registered = true ∧
          earlier.post.session.boot = event.post.session.boot := by
    intro earlier hmem hregistered
    rcases h.settled earlier hmem hregistered with hdone | ⟨hcurrent, hboot⟩
    · exact .inl (hfenced _ hdone)
    · obtain ⟨last, hlast, hsame⟩ := h.remembered hcurrent
      rw [hboot]
      rcases horderly.succeeds hcurrent hchanged with hpublisher | hshared | hdone
      · have hguards := h.guarded last hlast (by rw [hsame]; exact hcurrent)
        rw [hsame] at hguards
        exact .inl (hregisters.fences hvacant hguards hpublisher)
      · exact .inr ⟨hregisters.registered, hshared.symm⟩
      · exact .inl (hfenced _ hdone)
  refine ⟨hreachable, fun _ => hregisters.valid, ?_, ?_, ?_⟩
  · intro _
    exact ⟨event, List.mem_append_right _ (List.mem_singleton_self _), rfl⟩
  · intro other hmem hregistered
    rcases List.mem_append.mp hmem with hmem | hmem
    · exact hguarded other hmem hregistered
    · rw [List.mem_singleton.mp hmem]
      exact hregisters.guards hvacant
  · intro other hmem hregistered
    rcases List.mem_append.mp hmem with hmem | hmem
    · exact hsettled other hmem hregistered
    · rw [List.mem_singleton.mp hmem]
      exact .inr ⟨hregisters.registered, rfl⟩

theorem served (h : Tended before event.pre) (htaken : event.Taken (serveStep config))
    (horderly : Orderly before event) : Tended (before ++ [event]) event.post := by
  have hplace := tookPlace_of_taken htaken
  by_cases hsession : event.post.session = event.pre.session
  · exact h.unchanged hplace horderly hsession
  · obtain ⟨frame, surroundings, registration, hinput, hhello, hnumber, hregisters⟩ :=
      hplace.registers hsession
    refine h.replaced hplace horderly hregisters ?_ hsession
    rw [hnumber]
    exact horderly.vacant frame surroundings hinput hhello

end Tended

/-! ## The end of a connection -/

/-- The session is not live, and its boot is fenced. -/
structure Ended (impl : Impl) (session : SessionState) : Prop where
  gone : ∀ registration ∈ impl.authority.liveRegistrations,
    registration.session ≠ session.session
  fenced : impl.authority.isBootFenced session.boot = true

/-- A run of one connection from a state that the coordinator reached. -/
def Connection (config : ServerConfig) (events : List ServerEvent) (last : ServerState) :
    Prop :=
  ∃ start, Reachable start.system ∧ start.session.registered = false ∧
    Run (serveStep config) start events last

theorem Connection.tended {config : ServerConfig} {events : List ServerEvent}
    {last : ServerState} (h : Connection config events last)
    (horderly : ∀ before event after, events = before ++ event :: after →
      Orderly before event) : Tended events last := by
  obtain ⟨start, hreachable, hunregistered, hrun⟩ := h
  have hstart : Tended [] start := by
    have hnone : start.session.registered ≠ true := by simp [hunregistered]
    exact ⟨hreachable, fun h => absurd h hnone, fun h => absurd h hnone,
      fun _ hmem => absurd hmem List.not_mem_nil, fun _ hmem => absurd hmem List.not_mem_nil⟩
  refine hrun.history_invariant hstart ?_
  intro before event after hevents htaken hbefore
  exact hbefore.served htaken (horderly before event after hevents)

/-- A valid boot is fenced where there is room. -/
theorem AuthorityRegistry.fenceBoot_of_room {registry : AuthorityRegistry}
    {boot : WorkerBootId} {fencedAt : CoordinatorEpoch} {tick : UInt64} {limits : Limits}
    (hvalid : boot.isValid = true)
    (hroom : registry.fenced.size < limits.maxFencedBoots.toNat) :
    ∃ after, registry.fenceBoot boot fencedAt tick limits = .ok after := by
  unfold fenceBoot
  simp only [hvalid, Bool.not_true, seq_eq_ok, failIf_eq_ok, true_and]
  split
  · exact ⟨_, rfl⟩
  · refine ⟨_, seq_eq_ok.mpr ⟨failIf_eq_ok.mpr ?_, rfl⟩⟩
    exact decide_eq_false (Nat.not_le.mpr hroom)

/-- The boot of a session that is guarded is fenced when the session is lost, where there is
room. -/
theorem fenced_of_lost {impl : Impl} {session : SessionState} (call : Call)
    (hguards : Guards impl.authority session) (hvalid : session.boot.isValid = true)
    (hroom : impl.authority.fenced.size < impl.config.limits.maxFencedBoots.toNat) :
    (((Fabric.fenceOnSessionLoss impl session.session call).settle
      call).1.authority).isBootFenced session.boot = true := by
  rw [Staged.settle_authority]
  unfold Fabric.fenceOnSessionLoss
  cases hboot : impl.authority.bootOfSession session.session with
  | none =>
      rcases hguards.held with hfenced | ⟨registration, hmem, hsession, -, -⟩
      · exact hfenced
      · obtain ⟨hmem, hlive⟩ := mem_liveRegistrations.mp hmem
        have hnone := Option.map_eq_none_iff.mp hboot
        have hother := List.find?_eq_none.mp hnone registration hmem
        simp [hlive, hsession] at hother
  | some boot =>
      obtain rfl := hguards.boot_of_lost hboot
      have hfences : ∃ fenced, impl.authority.fenceBoot session.boot impl.authority.epoch
          (call.clock 0) impl.config.limits = .ok fenced :=
        AuthorityRegistry.fenceBoot_of_room hvalid hroom
      obtain ⟨fenced, hfenced⟩ := hfences
      have hdone := isBootFenced_of_fenceBoot hfenced
      dsimp only
      rw [hfenced]
      dsimp only [Staged.authority]
      cases hdropped : fenced.dropSession session.session with
      | error error => exact hdone
      | ok dropped => exact (fenced_of_dropSession hdropped _).trans hdone

/-- When a connection ends, every session that was registered on it is over: in a run whose
events are orderly, and where there is room for one more fenced boot. -/
theorem sessions_end_of_orderly {config : ServerConfig} {events : List ServerEvent}
    {last : ServerState} (h : Connection config events last)
    (horderly : ∀ before event after, events = before ++ event :: after →
      Orderly before event)
    (hroom : last.system.impl.authority.fenced.size <
      last.system.impl.config.limits.maxFencedBoots.toNat) (call : Call) :
    ∀ event ∈ events, event.post.session.registered = true →
      Ended (hangUp last call).system.impl event.post.session := by
  have htended := h.tended horderly
  intro event hmem hregistered
  have hguards := htended.guarded event hmem hregistered
  have hsettled := htended.settled event hmem hregistered
  unfold hangUp
  split
  · next hcurrent =>
      obtain ⟨current, hmem, hsame⟩ := htended.remembered hcurrent
      have hlast := htended.guarded current hmem (by rw [hsame]; exact hcurrent)
      rw [hsame] at hlast
      have hlost := fenced_of_lost call hlast (htended.valid hcurrent) hroom
      -- The end of the connection is one more section of the coordinator.
      obtain ⟨served, hrun, hspares⟩ := @Advances.operated (fun _ => True) _
        (Fabric.fenceOnSessionLoss last.system.impl last.session.session call) (fun _ => .done)
        last.system (.fenceOnSessionLoss last.session.session) call rfl
        fun _ _ => ⟨nofun, nofun⟩
      have hkept := hguards.of_run hrun (hspares _ trivial)
      have hfenced : ((Fabric.fenceOnSessionLoss last.system.impl last.session.session
          call).settle call).1.authority.isBootFenced event.post.session.boot = true := by
        rcases hsettled with hdone | ⟨-, hboot⟩
        · exact fenced_of_run hrun hdone
        · rw [hboot]
          exact hlost
      exact ⟨hkept.ended (htended.reachable.of_run hrun).enrolled hfenced, hfenced⟩
  · next hunregistered =>
      have hfenced := hsettled.resolve_right fun h => hunregistered h.1
      exact ⟨hguards.ended htended.reachable.enrolled hfenced, hfenced⟩

/-- A coordinator on which two publishers hold grants. -/
def sampleShared : CoordinatorConfig :=
  { sampleConfig with grants := [⟨⟨1⟩, 127⟩, ⟨⟨2⟩, 127⟩] }

private theorem sampleServe_connection {config : CoordinatorConfig} {activities : List Activity}
    {events : List ServerEvent} {state : ServerState}
    (h : sampleServe config activities = some (events, state)) : Connection {} events state := by
  unfold sampleServe at h
  split at h
  · next impl hopened => exact ⟨_, ⟨[], _, .opened hopened, .nil _⟩, rfl, .of_exec h⟩
  · cases h

/-- After the handshakes of two publishers the first session outlives the connection. -/
private def outlives (run : List ServerEvent × ServerState) : Bool :=
  decide (run.2.system.impl.authority.fenced.size <
    run.2.system.impl.config.limits.maxFencedBoots.toNat) &&
  run.1.any fun event => event.post.session.registered &&
    (hangUp run.2 sampleCall).system.impl.authority.liveRegistrations.any fun registration =>
      registration.session == event.post.session.session

private theorem sampleServe_outlives :
    ((sampleServe sampleShared [sampleHandled (sampleHello ⟨1⟩ ⟨4242⟩ 1),
      sampleHandled (sampleHello ⟨2⟩ ⟨4243⟩ 2)]).any outlives) = true := by
  decide +kernel

/-- A second handshake on a connection, of another publisher, leaves the first session live
when the connection ends. -/
theorem session_outlives_connection :
    ∃ events state, sampleServe sampleShared [sampleHandled (sampleHello ⟨1⟩ ⟨4242⟩ 1),
        sampleHandled (sampleHello ⟨2⟩ ⟨4243⟩ 2)] = some (events, state) ∧
      Connection {} events state ∧
      state.system.impl.authority.fenced.size <
        state.system.impl.config.limits.maxFencedBoots.toNat ∧
      ¬ ∀ event ∈ events, event.post.session.registered = true →
        Ended (hangUp state sampleCall).system.impl event.post.session := by
  obtain ⟨⟨events, state⟩, hrun, hcheck⟩ := (Option.any_eq_true _ _).mp sampleServe_outlives
  simp only [outlives, Bool.and_eq_true, decide_eq_true_eq, List.any_eq_true, beq_iff_eq]
    at hcheck
  obtain ⟨hroom, event, hmem, hregistered, registration, hlive, hsession⟩ := hcheck
  refine ⟨events, state, hrun, sampleServe_connection hrun, hroom, fun hends => ?_⟩
  exact (hends event hmem hregistered).gone registration hlive hsession

/-- The conditions on one handshake that nothing surrounds, evaluated. -/
private def orderly (before : List ServerEvent) (event : ServerEvent) : Bool :=
  let id : SessionId := event.pre.numbered ⟨sampleCall, sampleCall, [], 0, true⟩
  before.all (·.post.session.session != id) &&
    event.pre.system.impl.authority.liveRegistrations.all (·.session != id) &&
    (!event.pre.session.registered ||
      event.post.session.publisher == event.pre.session.publisher)

private theorem orderly_sound {before : List ServerEvent} {event : ServerEvent} {frame : Frame}
    (hinput : event.input = sampleHandled frame) (h : orderly before event = true) :
    Orderly before event := by
  simp only [orderly, Bool.and_eq_true, Bool.or_eq_true, List.all_eq_true, bne_iff_ne,
    Bool.not_eq_true', beq_iff_eq] at h
  obtain ⟨⟨hunused, hvacant⟩, hpublisher⟩ := h
  refine ⟨?_, ?_, ?_⟩
  · intro earlier hmem _
    refine ⟨?_, ?_, ?_⟩
    · intro input helsewhere
      rw [hinput] at helsewhere
      cases helsewhere
    · intro _ _ hframe input hmember
      rw [hinput] at hframe
      cases hframe
      cases hmember
    · intro _ _ hframe _
      rw [hinput] at hframe
      cases hframe
      exact (hunused earlier hmem).symm
  · intro _ _ hframe _
    rw [hinput] at hframe
    cases hframe
    exact hvacant
  · intro hregistered _
    rcases hpublisher with hfirst | hsame
    · rw [hregistered] at hfirst
      cases hfirst
    · exact .inl hsame

/-- Every event of the run passes the check, and a boot may be fenced at its end. -/
private def runsOrderly (run : List ServerEvent × ServerState) : Bool :=
  decide (run.2.system.impl.authority.fenced.size <
    run.2.system.impl.config.limits.maxFencedBoots.toNat) &&
  (List.range run.1.length).all fun index =>
    run.1[index]?.all fun event => orderly (run.1.take index) event

private theorem sampleServe_runsOrderly :
    ((sampleServe sampleConfig [sampleHandled (sampleHello ⟨1⟩ ⟨4242⟩ 1),
      sampleHandled (sampleHello ⟨1⟩ ⟨4243⟩ 2)]).any runsOrderly) = true := by
  decide +kernel

theorem sessions_end_of_orderly_sample :
    ∃ events state, sampleServe sampleConfig [sampleHandled (sampleHello ⟨1⟩ ⟨4242⟩ 1),
        sampleHandled (sampleHello ⟨1⟩ ⟨4243⟩ 2)] = some (events, state) ∧
      ∀ event ∈ events, event.post.session.registered = true →
        Ended (hangUp state sampleCall).system.impl event.post.session := by
  obtain ⟨⟨events, state⟩, hrun, hcheck⟩ := (Option.any_eq_true _ _).mp sampleServe_runsOrderly
  simp only [runsOrderly, Bool.and_eq_true, decide_eq_true_eq, List.all_eq_true] at hcheck
  obtain ⟨hroom, horderly⟩ := hcheck
  refine ⟨events, state, hrun, ?_⟩
  refine sessions_end_of_orderly (sampleServe_connection hrun) ?_ hroom sampleCall
  intro before event after hevents
  have hinputs : events.map (·.input) = [sampleHandled (sampleHello ⟨1⟩ ⟨4242⟩ 1),
      sampleHandled (sampleHello ⟨1⟩ ⟨4243⟩ 2)] := by
    unfold sampleServe at hrun
    split at hrun
    · exact inputs_of_exec hrun
    · cases hrun
  have hinput : ∃ frame, event.input = sampleHandled frame := by
    have hmem : event.input ∈ events.map (·.input) :=
      List.mem_map_of_mem (by simp [hevents])
    rw [hinputs] at hmem
    simp only [List.mem_cons, List.not_mem_nil, or_false] at hmem
    rcases hmem with h | h
    · exact ⟨_, h⟩
    · exact ⟨_, h⟩
  obtain ⟨frame, hframe⟩ := hinput
  have hpasses := horderly before.length (by simp [hevents])
  rw [hevents, List.getElem?_append_right (Nat.le_refl _), Nat.sub_self,
    List.getElem?_cons_zero, List.take_left] at hpasses
  exact orderly_sound hframe hpasses

end ConstraintRouting.Fabric
