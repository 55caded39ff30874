import ConstraintRouting.Fabric.Fencing
import ConstraintRouting.Fabric.Registrations

/-!
# What authorization relies on

A caller that is authorized holds the only live registration of its publisher, made in
the current epoch, with scopes that the publisher was granted; and a live registration
never has a fenced boot.  A caller that is not authorized changes nothing, except through
the one entry point that does not ask.
-/

namespace ConstraintRouting.Fabric

open Verified.StepMachine
open Verified.Checks (seq_eq_ok failIf_eq_ok isOk)
open Verified.KeyedTables (filter_key_of_mem)

/-! ## Live registrations are in order -/

/-- A grant that was narrowed has every scope that the narrowed one has. -/
theorem holds_of_narrowed {granted requested required : AuthorityScopeMask}
    (h : granted &&& requested &&& required = required) : granted &&& required = required := by
  calc granted &&& required
      = granted &&& (granted &&& requested &&& required) := by rw [h]
    _ = granted &&& requested &&& required := by
        rw [← UInt32.and_assoc, ← UInt32.and_assoc, UInt32.and_self]
    _ = required := h

/-- A publisher has one live registration at most; each was made in the current epoch by
a boot that is not fenced, with scopes that its publisher was granted. -/
structure Enrolled (config : CoordinatorConfig) (registry : AuthorityRegistry) : Prop where
  publishers : (registry.liveRegistrations.map (·.publisher)).Nodup
  unfenced : ∀ registration ∈ registry.liveRegistrations,
    registry.isBootFenced registration.boot = false
  current : ∀ registration ∈ registry.liveRegistrations,
    registration.registeredAt = registry.epoch
  granted : ∀ registration ∈ registry.liveRegistrations, ∃ grant scopes,
    grantOf config registration.publisher = some grant ∧
      registration.scopes = grant.scopes &&& scopes

namespace Enrolled

variable {config : CoordinatorConfig} {registry after : AuthorityRegistry}

theorem thinned (h : Enrolled config registry) (hthins : registry.Thins after) :
    Enrolled config after := by
  refine ⟨h.publishers.sublist (hthins.live.map _), ?_, ?_, ?_⟩
  · intro registration hmem
    have hbefore := h.unfenced registration (hthins.live.mem hmem)
    exact hthins.unfenced registration hmem hbefore
  · intro registration hmem
    exact (h.current registration (hthins.live.mem hmem)).trans hthins.epoch.symm
  · intro registration hmem
    exact h.granted registration (hthins.live.mem hmem)

/-- A registration joins as the only live one of its publisher. -/
theorem joined {registration : PublisherRegistration} {grant : PublisherGrant}
    {scopes : AuthorityScopeMask} (h : Enrolled config registry)
    (hjoins : registry.Joins registration config.limits after)
    (hgrant : grantOf config registration.publisher = some grant)
    (hscopes : registration.scopes = grant.scopes &&& scopes) :
    Enrolled config { after with registrations := after.registrations ++ [registration] } := by
  have hafter := h.thinned hjoins.thins
  have hlive : ∀ other ∈ ({ after with registrations := after.registrations ++
      [registration] } : AuthorityRegistry).liveRegistrations,
      other ∈ after.liveRegistrations ∨ other = registration := by
    intro other hmem
    obtain ⟨hmem, hother⟩ := AuthorityRegistry.mem_liveRegistrations.mp hmem
    rcases List.mem_append.mp hmem with hbefore | hnew
    · exact .inl (AuthorityRegistry.mem_liveRegistrations.mpr ⟨hbefore, hother⟩)
    · exact .inr (List.mem_singleton.mp hnew)
  refine ⟨?_, ?_, ?_, ?_⟩
  · have hsplit : ({ after with registrations := after.registrations ++ [registration] } :
        AuthorityRegistry).liveRegistrations =
        after.liveRegistrations ++ [registration].filter (·.live) := List.filter_append ..
    have hnew : ([registration].filter (·.live)).Sublist [registration] :=
      List.filter_sublist
    rw [hsplit, List.map_append]
    refine List.Nodup.append hafter.publishers
      ((List.nodup_singleton _).sublist (hnew.map _)) ?_
    intro publisher hbefore hadded
    obtain ⟨existing, hexisting, rfl⟩ := List.mem_map.mp hbefore
    obtain ⟨added, hmem, hsame⟩ := List.mem_map.mp hadded
    obtain rfl := List.mem_singleton.mp (hnew.mem hmem)
    exact hjoins.cleared existing hexisting hsame.symm
  · intro other hmem
    rcases hlive other hmem with hbefore | rfl
    · exact hafter.unfenced other hbefore
    · exact hjoins.unfenced
  · intro other hmem
    rcases hlive other hmem with hbefore | rfl
    · exact hafter.current other hbefore
    · exact hjoins.current.trans hjoins.thins.epoch.symm
  · intro other hmem
    rcases hlive other hmem with hbefore | rfl
    · exact hafter.granted other hbefore
    · exact ⟨grant, scopes, hgrant, hscopes⟩

theorem moved (h : Enrolled config registry) (hmoves : registry.Moves config after) :
    Enrolled config after := by
  induction hmoves with
  | refl => exact h
  | observed _ hobserve ih => exact ih.thinned (AuthorityRegistry.thins_of_observeAttempt hobserve)
  | fenced _ hfenced ih => exact ih.thinned (AuthorityRegistry.thins_of_fenceBoot hfenced)
  | dropped _ hdropped ih => exact ih.thinned (AuthorityRegistry.thins_of_dropSession hdropped)
  | registered _ hgrant hscopes hregistered ih =>
      rcases AuthorityRegistry.registerPublisher_cases hregistered with
        ⟨hthins, -⟩ | ⟨-, middle, hjoins, rfl⟩
      · exact ih.thinned hthins
      · exact ih.joined hjoins hgrant hscopes

end Enrolled

/-- A new incarnation holds no registration and remembers no attempt. -/
theorem nextIncarnation_empty {restored : Option PersistentState} {clock : Nat → UInt64}
    {authority : AuthorityRegistry} (h : nextIncarnation restored clock = .ok authority) :
    authority.registrations = [] ∧ authority.attempts = [] := by
  have hfresh : ∀ {after}, AuthorityRegistry.establishEpoch {} ⟨1⟩ = .ok after →
      after.registrations = [] ∧ after.attempts = [] := by
    intro after h
    obtain ⟨-, rfl⟩ := AuthorityRegistry.establishEpoch_ok h
    exact ⟨rfl, rfl⟩
  cases restored with
  | none => exact hfresh h
  | some state =>
      by_cases hvalid : state.epoch.isValid = true
      · obtain ⟨epoch, hnext⟩ := nextIncarnation_restored hvalid h
        obtain ⟨-, rfl⟩ := AuthorityRegistry.establishEpoch_ok hnext
        exact ⟨rfl, rfl⟩
      · refine hfresh ?_
        rw [← h]
        simp [nextIncarnation, hvalid]

theorem Opened.enrolled {state : SystemState} (h : Opened state) :
    Enrolled state.impl.config state.impl.authority := by
  cases h with
  | @opened config report call impl hopened =>
      obtain ⟨restored, authority, -, hauthority, hrecovered, -⟩ :=
        openCoordinator_recovered hopened
      have hempty : impl.authority.liveRegistrations = [] := by
        rw [hrecovered.registry, AuthorityRegistry.liveRegistrations,
          (nextIncarnation_empty hauthority).1]
        rfl
      refine ⟨?_, ?_, ?_, ?_⟩
      all_goals dsimp only; rw [hempty]
      · exact List.nodup_nil
      all_goals
        intro registration hmem
        cases hmem

theorem Reachable.enrolled {state : SystemState} (h : Reachable state) :
    Enrolled state.impl.config state.impl.authority := by
  obtain ⟨events, start, hopened, hrun⟩ := h
  let inv : SystemState → Prop := fun state => Enrolled state.impl.config state.impl.authority
  have hinv : inv state := by
    refine hrun.invariant hopened.enrolled ?_
    intro event _ htaken hbefore
    have hmoved := Enrolled.moved hbefore (moves_of_taken htaken)
    rw [← (section_of_taken htaken).config] at hmoved
    exact hmoved
  exact hinv

/-! ## Authorized callers -/

/-- What a caller that is authorized for the scopes holds. -/
structure Entitled (impl : Impl) (context : AuthorityContext)
    (required : AuthorityScopeMask) : Prop where
  epoch : context.epoch = impl.authority.epoch
  unfenced : impl.authority.isBootFenced context.workerBoot = false
  registered : ∃ registration grant,
    impl.authority.liveRegistrations.filter (·.publisher == context.publisher) =
      [registration] ∧
    registration.session = context.session ∧ registration.boot = context.workerBoot ∧
    registration.registeredAt = impl.authority.epoch ∧
    registration.scopes &&& required = required ∧
    grantOf impl.config context.publisher = some grant ∧ grant.scopes &&& required = required

/-- What authorization checks. -/
theorem AuthorityRegistry.authorize_eq_ok {registry : AuthorityRegistry}
    {context : AuthorityContext} {required : AuthorityScopeMask}
    (h : registry.authorize context required = .ok ()) :
    context.epoch = registry.epoch ∧ registry.isBootFenced context.workerBoot = false ∧
      ∃ registration ∈ registry.liveRegistrations,
        registration.publisher = context.publisher ∧
        registration.session = context.session ∧ registration.boot = context.workerBoot ∧
        registration.scopes &&& required = required := by
  simp only [authorize, seq_eq_ok, failIf_eq_ok, Bool.or_eq_false_iff,
    bne_eq_false_iff_eq] at h
  obtain ⟨-, ⟨-, hepoch⟩, hfree, h⟩ := h
  refine ⟨hepoch, hfree, ?_⟩
  cases hfound : registry.sessionRegistration context with
  | none =>
      rw [hfound] at h
      cases h
  | some registration =>
      simp only [hfound, seq_eq_ok, failIf_eq_ok, bne_eq_false_iff_eq,
        Bool.and_eq_false_imp, bne_iff_ne, ne_eq] at h
      obtain ⟨hboot, hscopes⟩ := h
      unfold sessionRegistration at hfound
      have hmem := List.mem_of_find?_eq_some hfound
      have hmatches := List.find?_some hfound
      simp only [Bool.and_eq_true, beq_iff_eq] at hmatches
      obtain ⟨⟨hlive, hpublisher⟩, hsession⟩ := hmatches
      refine ⟨registration, mem_liveRegistrations.mpr ⟨hmem, hlive⟩, hpublisher, hsession,
        hboot, ?_⟩
      by_cases hzero : required = 0
      · rw [hzero, UInt32.and_zero]
      · exact hscopes hzero

/-- Only the holder of the one live registration of its publisher is authorized, and no
live registration has a fenced boot. -/
theorem authorized_entitled {state : SystemState} (h : Reachable state) :
    (∀ context required, state.impl.authority.authorize context required = .ok () →
      Entitled state.impl context required) ∧
    ∀ registration ∈ state.impl.authority.liveRegistrations,
      state.impl.authority.isBootFenced registration.boot = false := by
  have henrolled := h.enrolled
  refine ⟨?_, henrolled.unfenced⟩
  intro context required hauthorized
  obtain ⟨hepoch, hfree, registration, hmem, hpublisher, hsession, hboot, hscopes⟩ :=
    AuthorityRegistry.authorize_eq_ok hauthorized
  obtain ⟨grant, scopes, hgrant, hnarrowed⟩ := henrolled.granted registration hmem
  have honly := filter_key_of_mem henrolled.publishers hmem
  rw [hpublisher] at honly hgrant
  refine ⟨hepoch, hfree, registration, grant, honly, hsession, hboot,
    henrolled.current registration hmem, hscopes, hgrant, ?_⟩
  rw [hnarrowed] at hscopes
  exact holds_of_narrowed hscopes

/-- The sample caller is authorized for every scope after the event. -/
private def admitsSample (event : Event) : Bool :=
  isOk (event.post.impl.authority.authorize (sampleContext 2) 127)

private theorem sampleRun_admits :
    ((sampleRun []).any fun run => run.1.getLast?.any admitsSample) = true := by
  decide +kernel

theorem authorized_entitled_sample :
    ∃ events last, sampleRun [] = some (events, last) ∧
      Entitled last.impl (sampleContext 2) 127 ∧
      ∀ registration ∈ last.impl.authority.liveRegistrations,
        last.impl.authority.isBootFenced registration.boot = false := by
  obtain ⟨events, last, hrun, hexecution, hcheck⟩ := sampleRun_execution []
    (fun events => events.getLast?.any admitsSample) sampleRun_admits
  obtain ⟨event, hlast, hadmits⟩ := (Option.any_eq_true _ _).mp hcheck
  obtain ⟨_, hauthorized⟩ := Verified.Checks.isOk_iff.mp hadmits
  rw [hexecution.post_of_getLast? hlast] at hauthorized
  have hentitled := authorized_entitled ⟨events, hexecution⟩
  exact ⟨events, last, hrun, hentitled.1 _ _ hauthorized, hentitled.2⟩

/-! ## Rejected callers -/

/-- The caller of a request and the scopes that it needs.  A registration is granted
out of band; the loss of a session and a flush are not asked for by a caller. -/
def Operation.caller : Operation → Option (AuthorityContext × AuthorityScopeMask)
  | .registerPublisher _ _ _ _ _ | .fenceOnSessionLoss _ | .flush => none
  | .fenceBoot context _ | .dropSession context _ =>
      some (context, scopeBit .administerFencing)
  | .observeAttempt context _ => some (context, 0)
  | .publishConstraintSet context _ => some (context, scopeBit .publishConstraintSet)
  | .applyLifecycle context _ _ => some (context, scopeBit .applyLifecycle)
  | .setEvidenceRequirements context _ | .advanceFamily context _ _
  | .invalidateKey context _ => some (context, scopeBit .publishEvaluation)

/-- The caller of a section.  The last section of an evaluation goes on with what the
first one admitted. -/
def SystemState.caller (state : SystemState) :
    Action → Option (AuthorityContext × AuthorityScopeMask)
  | .operate operation => operation.caller
  | .evaluateBegin context _ _ _ | .revalidateRead context _ =>
      some (context, scopeBit .publishEvaluation)
  | .revalidateBegin ticket =>
      match state.flights ticket with
      | some (.populationRead context _ _) => some (context, scopeBit .publishEvaluation)
      | _ => none
  | .evaluateFinish _ => none

/-- The reply is not a failure.  A revalidation that read its population has not
returned yet. -/
def Reply.Succeeds : Reply → Prop
  | .operated result => ∃ value, result = .ok value
  | .evaluated result => ∃ outcome, result = .ok outcome
  | .evaluating _ => True
  | .populationRead _ => False

/-- The section leaves the coordinator as it was, and does not succeed. -/
structure Declines (event : Event) : Prop where
  unchanged : event.post.impl = event.pre.impl
  fails : ¬ event.output.Succeeds

/-- The request records its caller's attempt without a look at its authority. -/
def Action.Unasked (action : Action) : Prop :=
  ∃ context payload, action = .operate (.observeAttempt context payload) ∧
    context.attempt.isValid = true

section Rejected

variable {impl : Impl} {context : AuthorityContext} {error : Error}

theorem admission_rejected {scope : AuthorityScope} {payload : Digest256} {tick : UInt64}
    (h : impl.authority.authorize context (scopeBit scope) = .error error) :
    authorizeAndObserve impl context scope payload tick = .refused error := by
  unfold authorizeAndObserve
  rw [h]

theorem applyEvidenceRequirements_rejected {requirements : EvidenceRequirements} {call : Call}
    (h : impl.authority.authorize context (scopeBit .publishEvaluation) = .error error) :
    applyEvidenceRequirements impl context requirements call = .reply impl (.error error) := by
  unfold applyEvidenceRequirements
  rw [admission_rejected h]

/-- A request other than the observation of an attempt asks first. -/
theorem Operation.run_rejected {operation : Operation} {required : AuthorityScopeMask}
    {call : Call} (hcaller : operation.caller = some (context, required))
    (hrejected : impl.authority.authorize context required = .error error)
    (hasks : ∀ payload, operation ≠ .observeAttempt context payload) :
    ∃ error, operation.run impl call = (impl, .error error) := by
  cases operation with
  | registerPublisher | fenceOnSessionLoss | flush => cases hcaller
  | observeAttempt =>
      cases hcaller
      exact absurd rfl (hasks _)
  | dropSession =>
      cases hcaller
      refine ⟨error, ?_⟩
      unfold run stage Fabric.dropSession
      dsimp only
      rw [hrejected]
      rfl
  | fenceBoot =>
      cases hcaller
      refine ⟨error, ?_⟩
      unfold run stage Fabric.fenceBoot
      dsimp only
      rw [admission_rejected hrejected]
      rfl
  | publishConstraintSet =>
      cases hcaller
      refine ⟨error, ?_⟩
      unfold run stage Fabric.publishConstraintSet
      dsimp only
      rw [admission_rejected hrejected]
      rfl
  | applyLifecycle =>
      cases hcaller
      refine ⟨error, ?_⟩
      unfold run stage Fabric.applyLifecycle
      dsimp only
      rw [admission_rejected hrejected]
      rfl
  | invalidateKey =>
      cases hcaller
      refine ⟨error, ?_⟩
      unfold run stage Fabric.invalidateKey
      dsimp only
      rw [admission_rejected hrejected]
      rfl
  | setEvidenceRequirements =>
      cases hcaller
      refine ⟨error, ?_⟩
      simp only [run, stage, Fabric.setEvidenceRequirements,
        applyEvidenceRequirements_rejected hrejected]
      rfl
  | advanceFamily context' family generation =>
      cases hcaller
      -- The family and its generation are looked at before the caller is.
      simp only [run, stage, Fabric.advanceFamily, applyEvidenceRequirements_rejected hrejected]
      split
      · exact ⟨_, rfl⟩
      · split <;> exact ⟨_, rfl⟩

theorem evaluateBegin_rejected {setId : ConstraintSetId} {candidates : List CandidatePath}
    {expectedGeneration : ConstraintSetGeneration} {call : Call}
    (h : impl.authority.authorize context (scopeBit .publishEvaluation) = .error error) :
    evaluateBegin impl context setId candidates expectedGeneration call =
      (impl, .error error) := by
  unfold evaluateBegin
  rw [admission_rejected h]

end Rejected

/-- A section whose caller is rejected changes nothing and fails, unless it observes an
attempt. -/
theorem declines_of_rejected {event : Event} (htaken : event.Taken step)
    {context : AuthorityContext} {required : AuthorityScopeMask} {error : Error}
    (hcaller : event.pre.caller event.input.action = some (context, required))
    (hrejected : event.pre.impl.authority.authorize context required = .error error)
    (hasks : ∀ payload, event.input.action ≠ .operate (.observeAttempt context payload)) :
    Declines event := by
  obtain ⟨pre, ⟨action, call⟩, output, post⟩ := event
  unfold Event.Taken step at htaken
  dsimp only at htaken hcaller hrejected hasks
  cases action with
  | operate operation =>
      obtain ⟨error, hrun⟩ := @Operation.run_rejected pre.impl _ _ _ _ call hcaller hrejected
        fun payload h => hasks payload (congrArg Action.operate h)
      simp only [hrun, Option.some.injEq, Prod.mk.injEq] at htaken
      obtain ⟨rfl, rfl⟩ := htaken
      refine ⟨rfl, ?_⟩
      rintro ⟨value, hvalue⟩
      cases hvalue
  | evaluateBegin context' setId candidates expectedGeneration =>
      cases hcaller
      dsimp only at htaken
      unfold SystemState.begin at htaken
      rw [evaluateBegin_rejected hrejected] at htaken
      simp only [Option.some.injEq, Prod.mk.injEq] at htaken
      obtain ⟨rfl, rfl⟩ := htaken
      refine ⟨rfl, ?_⟩
      rintro ⟨outcome, houtcome⟩
      cases houtcome
  | evaluateFinish ticket => cases hcaller
  | revalidateRead context' setId =>
      unfold SystemState.readPopulation at htaken
      dsimp only at htaken
      split at htaken
      · cases htaken
        refine ⟨rfl, ?_⟩
        rintro ⟨outcome, houtcome⟩
        cases houtcome
      · cases htaken
        exact ⟨rfl, fun h => h⟩
  | revalidateBegin ticket =>
      unfold SystemState.caller at hcaller
      unfold SystemState.revalidate at htaken
      dsimp only at hcaller htaken
      split at htaken
      · next context' setId population hflight =>
          rw [hflight] at hcaller
          cases hcaller
          have hland : (pre.land ticket).impl = pre.impl := rfl
          unfold SystemState.begin at htaken
          rw [hland, evaluateBegin_rejected hrejected] at htaken
          simp only [Option.some.injEq, Prod.mk.injEq] at htaken
          obtain ⟨rfl, rfl⟩ := htaken
          refine ⟨rfl, ?_⟩
          rintro ⟨outcome, houtcome⟩
          cases houtcome
      · cases htaken

/-- The observation of an attempt succeeds exactly for an attempt that has an identity. -/
theorem observeAttempt_succeeds_iff {impl : Impl} {context : AuthorityContext}
    {payload : Digest256} {call : Call} :
    (∃ value, ((Operation.observeAttempt context payload).run impl call).2 = .ok value) ↔
      context.attempt.isValid = true := by
  by_cases hvalid : context.attempt.isValid = true
  · have hreply : ∃ verdict, ((Operation.observeAttempt context payload).run impl call).2 =
        .ok (.verdict verdict) := by
      simp only [Operation.run, Operation.stage, observeAttempt,
        AuthorityRegistry.observeAttempt, failIf, hvalid]
      cases impl.authority.findAttempt context.attempt with
      | none => exact ⟨_, rfl⟩
      | some record => exact ⟨_, rfl⟩
    obtain ⟨verdict, hverdict⟩ := hreply
    exact ⟨fun _ => hvalid, fun _ => ⟨_, hverdict⟩⟩
  · refine ⟨?_, fun h => absurd h hvalid⟩
    rintro ⟨value, hvalue⟩
    simp only [Operation.run, Operation.stage, observeAttempt,
      AuthorityRegistry.observeAttempt, failIf, hvalid] at hvalue
    cases hvalue

/-- A section whose caller is rejected declines, unless it records an attempt without a
look at its caller's authority. -/
theorem declines_iff_asked {event : Event} (htaken : event.Taken step)
    {context : AuthorityContext} {required : AuthorityScopeMask} {error : Error}
    (hcaller : event.pre.caller event.input.action = some (context, required))
    (hrejected : event.pre.impl.authority.authorize context required = .error error) :
    Declines event ↔ ¬ event.input.action.Unasked := by
  by_cases hobserves : ∃ payload, event.input.action = .operate (.observeAttempt context payload)
  · obtain ⟨payload, haction⟩ := hobserves
    obtain ⟨pre, ⟨action, call⟩, output, post⟩ := event
    obtain rfl : action = .operate (.observeAttempt context payload) := haction
    unfold Event.Taken step at htaken
    simp only [Option.some.injEq, Prod.mk.injEq] at htaken
    obtain ⟨rfl, rfl⟩ := htaken
    have hunasked : Action.Unasked (.operate (.observeAttempt context payload)) ↔
        context.attempt.isValid = true := by
      refine ⟨?_, fun hvalid => ⟨context, payload, rfl, hvalid⟩⟩
      intro ⟨_, _, hsame, hvalid⟩
      cases hsame
      exact hvalid
    have hsucceeds := @observeAttempt_succeeds_iff pre.impl context payload call
    rw [hunasked, ← hsucceeds]
    refine ⟨fun hdeclines => hdeclines.fails, fun hfails => ⟨?_, hfails⟩⟩
    have hinvalid : ¬ context.attempt.isValid = true := hsucceeds.not.mp hfails
    simp only [Operation.run, Operation.stage, observeAttempt,
      AuthorityRegistry.observeAttempt, failIf, hinvalid]
    rfl
  · have hasks : ∀ payload, event.input.action ≠ .operate (.observeAttempt context payload) :=
      fun payload h => hobserves ⟨payload, h⟩
    refine ⟨fun _ hunasked => ?_, fun _ => declines_of_rejected htaken hcaller hrejected hasks⟩
    obtain ⟨other, payload, haction, -⟩ := hunasked
    rw [haction] at hcaller
    cases hcaller
    exact hasks payload haction

/-- A caller whose publisher is not registered. -/
def sampleIntruder : AuthorityContext := { sampleContext 9 with publisher := ⟨2⟩ }

/-- The intruder asks for the section, and is rejected. -/
private def rejectsIntruder (action : Action) (required : AuthorityScopeMask)
    (event : Event) : Bool :=
  decide (event.input.action = action) &&
    !isOk (event.pre.impl.authority.authorize sampleIntruder required)

private theorem rejected_of_check {action : Action} {required : AuthorityScopeMask}
    {event : Event} (h : rejectsIntruder action required event = true) :
    event.input.action = action ∧
      ∃ error, event.pre.impl.authority.authorize sampleIntruder required = .error error := by
  simp only [rejectsIntruder, Bool.and_eq_true, decide_eq_true_eq, Bool.not_eq_true'] at h
  obtain ⟨haction, hrejected⟩ := h
  refine ⟨haction, ?_⟩
  cases hauthorize : event.pre.impl.authority.authorize sampleIntruder required with
  | error error => exact ⟨error, rfl⟩
  | ok _ =>
      rw [hauthorize] at hrejected
      cases hrejected

/-- The intruder drops the publisher's session. -/
def sampleSeverance : Action := .operate (.dropSession sampleIntruder ⟨7⟩)

private theorem sampleSeverance_rejects :
    ((sampleRun [sampleInput sampleSeverance]).any fun run =>
      run.1.getLast?.any (rejectsIntruder sampleSeverance 64)) = true := by
  decide +kernel

theorem declines_iff_asked_sample :
    ∃ events last event, sampleRun [sampleInput sampleSeverance] = some (events, last) ∧
      events.getLast? = some event ∧ Declines event := by
  obtain ⟨events, last, hrun, hexecution, hcheck⟩ := sampleRun_execution _
    (fun events => events.getLast?.any (rejectsIntruder sampleSeverance 64))
    sampleSeverance_rejects
  obtain ⟨event, hlast, hrejects⟩ := (Option.any_eq_true _ _).mp hcheck
  obtain ⟨haction, error, hrejected⟩ := rejected_of_check hrejects
  refine ⟨events, last, event, hrun, hlast, ?_⟩
  have hcaller : event.pre.caller event.input.action = some (sampleIntruder, 64) := by
    rw [haction]
    rfl
  refine (declines_iff_asked (hexecution.taken_of_getLast? hlast) hcaller hrejected).mpr ?_
  rw [haction]
  rintro ⟨context, payload, hobserves, -⟩
  cases hobserves

/-- The intruder observes an attempt. -/
def sampleTrace : Action := .operate (.observeAttempt sampleIntruder {})

/-- The attempt joins the window in the section. -/
private def recordsTrace (event : Event) : Bool :=
  rejectsIntruder sampleTrace 0 event &&
    decide (event.pre.impl.authority.findAttempt ⟨9⟩ = none) &&
    decide (event.post.impl.authority.findAttempt ⟨9⟩ ≠ none)

private theorem sampleTrace_records :
    ((sampleRun [sampleInput sampleTrace]).any fun run => run.1.getLast?.any recordsTrace) =
      true := by
  decide +kernel

/-- A caller without a registration adds an attempt to the window. -/
theorem rejected_caller_recorded :
    ∃ events last event error, sampleRun [sampleInput sampleTrace] = some (events, last) ∧
      Execution events last ∧ events.getLast? = some event ∧ event.Taken step ∧
      event.pre.caller event.input.action = some (sampleIntruder, 0) ∧
      event.pre.impl.authority.authorize sampleIntruder 0 = .error error ∧
      event.pre.impl.authority.findAttempt ⟨9⟩ = none ∧
      event.post.impl.authority.findAttempt ⟨9⟩ ≠ none ∧ ¬ Declines event := by
  obtain ⟨events, last, hrun, hexecution, hcheck⟩ := sampleRun_execution _
    (fun events => events.getLast?.any recordsTrace) sampleTrace_records
  obtain ⟨event, hlast, hrecords⟩ := (Option.any_eq_true _ _).mp hcheck
  simp only [recordsTrace, Bool.and_eq_true, decide_eq_true_eq] at hrecords
  obtain ⟨⟨hrejects, hbefore⟩, hafter⟩ := hrecords
  obtain ⟨haction, error, hrejected⟩ := rejected_of_check hrejects
  have hcaller : event.pre.caller event.input.action = some (sampleIntruder, 0) := by
    rw [haction]
    rfl
  refine ⟨events, last, event, error, hrun, hexecution, hlast,
    hexecution.taken_of_getLast? hlast, hcaller, hrejected, hbefore, hafter, fun hdeclines => ?_⟩
  rw [hdeclines.unchanged] at hafter
  exact hafter hbefore

end ConstraintRouting.Fabric
