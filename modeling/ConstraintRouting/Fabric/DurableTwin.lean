import ConstraintRouting.Fabric.AcceptedStates
import ConstraintRouting.Fabric.Volatile

/-!
# A coordinator and its twin in memory

A durable coordinator validates what it writes before it writes it, a coordinator in memory
does not.  As long as no step adds anything that validation refuses, and the file takes every
write, the two serve the same inputs with the same replies and reach the same states.
-/

namespace ConstraintRouting.Fabric

open Verified.StepMachine
open Verified.Checks (isOk isOk_iff)

/-! ## What a section would write -/

/-- The staged write carries the counter of the staged state. -/
def Staged.KeepsCounter {α : Type} : Staged α → Prop
  | .reply _ _ => True
  | .write staged next _ _ => next.lastEvaluationGeneration = staged.lastGeneration

theorem Staged.KeepsCounter.map {α β : Type} {staged : Staged α} (h : staged.KeepsCounter)
    (f : α → β) : (staged.map f).KeepsCounter := by
  cases staged <;> exact h

section Operations

variable {impl : Impl} {call : Call}

private theorem registerPublisher_keepsCounter {context : AuthorityContext}
    {publisher : PublisherId} {boot : WorkerBootId} {scopes : AuthorityScopeMask}
    {session : SessionId} :
    (registerPublisher impl context publisher boot scopes session call).KeepsCounter := by
  unfold registerPublisher
  split
  · exact trivial
  · split
    · exact trivial
    · dsimp only
      split
      · exact trivial
      · split
        · exact trivial
        · exact rfl

private theorem fenceBoot_keepsCounter {context : AuthorityContext} {boot : WorkerBootId} :
    (fenceBoot impl context boot call).KeepsCounter := by
  unfold fenceBoot
  split
  · exact trivial
  · exact trivial
  · split
    · exact trivial
    · exact rfl

private theorem fenceOnSessionLoss_keepsCounter {session : SessionId} :
    (fenceOnSessionLoss impl session call).KeepsCounter := by
  unfold fenceOnSessionLoss
  split
  · exact trivial
  · split
    · exact trivial
    · exact rfl

private theorem dropSession_keepsCounter {context : AuthorityContext} {session : SessionId} :
    (dropSession impl context session).KeepsCounter := by
  unfold dropSession
  split
  · exact trivial
  · split <;> exact trivial

private theorem observeAttempt_keepsCounter {context : AuthorityContext}
    {payload : Digest256} : (observeAttempt impl context payload call).KeepsCounter := by
  unfold observeAttempt
  split <;> exact trivial

private theorem publishConstraintSet_keepsCounter {context : AuthorityContext}
    {set : ConstraintSet} : (publishConstraintSet impl context set call).KeepsCounter := by
  unfold publishConstraintSet
  split
  · exact trivial
  · split <;> exact trivial
  · split
    · exact trivial
    · split
      · exact trivial
      · exact rfl

private theorem applyLifecycle_keepsCounter {context : AuthorityContext}
    {setId : ConstraintSetId} {event : LifecycleEvent} :
    (applyLifecycle impl context setId event call).KeepsCounter := by
  unfold applyLifecycle
  dsimp only
  split
  · exact trivial
  · split <;> exact trivial
  · split
    · exact trivial
    · unfold transition
      split
      · exact trivial
      · exact rfl

private theorem applyEvidenceRequirements_keepsCounter {context : AuthorityContext}
    {requirements : EvidenceRequirements} :
    (applyEvidenceRequirements impl context requirements call).KeepsCounter := by
  unfold applyEvidenceRequirements
  split
  · exact trivial
  · exact trivial
  · split
    · exact trivial
    · dsimp only
      split
      · exact trivial
      · exact rfl

private theorem advanceFamily_keepsCounter {context : AuthorityContext}
    {family : EvidenceFamily} {generation : UInt64} :
    (advanceFamily impl context family generation call).KeepsCounter := by
  unfold advanceFamily
  split
  · exact trivial
  · split
    · exact trivial
    · exact applyEvidenceRequirements_keepsCounter

private theorem invalidateKey_keepsCounter {context : AuthorityContext}
    {key : InvalidationKey} : (invalidateKey impl context key call).KeepsCounter := by
  unfold invalidateKey
  split
  · exact trivial
  · exact trivial
  · dsimp only
    split
    · exact trivial
    · exact rfl

/-- No request writes another counter than it staged. -/
theorem Operation.stage_keepsCounter (operation : Operation) (impl : Impl) (call : Call) :
    (operation.stage impl call).KeepsCounter := by
  cases operation with
  | registerPublisher => exact registerPublisher_keepsCounter.map _
  | fenceBoot => exact fenceBoot_keepsCounter.map _
  | fenceOnSessionLoss => exact fenceOnSessionLoss_keepsCounter.map _
  | dropSession => exact dropSession_keepsCounter.map _
  | observeAttempt => exact observeAttempt_keepsCounter.map _
  | publishConstraintSet => exact publishConstraintSet_keepsCounter.map _
  | applyLifecycle => exact applyLifecycle_keepsCounter.map _
  | setEvidenceRequirements => exact applyEvidenceRequirements_keepsCounter.map _
  | advanceFamily => exact advanceFamily_keepsCounter.map _
  | invalidateKey => exact invalidateKey_keepsCounter.map _
  | flush => exact rfl

end Operations

/-- The two states differ in their watermarks at most. -/
structure SameChecks (one other : PersistentState) : Prop where
  epoch : one.epoch = other.epoch
  standing : one.standing = other.standing
  counter : one.lastEvaluationGeneration = other.lastEvaluationGeneration
  fencedBoots : one.fencedBoots = other.fencedBoots
  liveBoots : one.liveBoots = other.liveBoots
  attempts : one.attempts = other.attempts

/-- Validation does not look at the watermarks. -/
theorem Validated.of_sameChecks {one other : PersistentState} {limits : Limits}
    (h : Validated other limits) (hsame : SameChecks one other) : Validated one limits := by
  obtain ⟨hepoch, hstanding, hcounter, hfenced, hlive, hattempts⟩ := hsame
  have hsets : one.sets = other.sets := congrArg Standing.sets hstanding
  have hevaluations : one.evaluations = other.evaluations :=
    congrArg Standing.evaluations hstanding
  have hpopulations : one.populations = other.populations :=
    congrArg Standing.populations hstanding
  obtain ⟨epoch, _, _, sets, evaluations, populations, fencedBoots, liveBoots, attempts, counter,
    _⟩ := one
  dsimp only at hepoch hsets hevaluations hpopulations hcounter hfenced hlive hattempts
  subst hepoch hsets hevaluations hpopulations hcounter hfenced hlive hattempts
  exact ⟨h.limitsValid, h.epoch, h.setCount, h.evaluationCount, h.fencedCount, h.attemptCount,
    h.canonical, h.setIds, h.population, h.populations, h.record, h.evaluationIds, h.results,
    h.counter, h.liveCount, h.live, h.liveBoots, h.fenced, h.fencedBoots, h.attempt, h.attempts⟩

/-- In memory, a write that carries what was staged is the projection of what it leaves. -/
theorem Staged.settle_sameChecks {α : Type} {staged : Impl} {next : PersistentState}
    {applies : Bool} {value : α} {call : Call} (hmemory : staged.durable = false)
    (hprojects : Projects staged next)
    (hkept : applies = false → next.standing = staged.standing ∧
      next.lastEvaluationGeneration = staged.lastGeneration) :
    SameChecks next ((Staged.write staged next applies value).settle call).1.toState := by
  rw [Staged.settle_of_memory hmemory]
  cases applies with
  | true =>
      exact ⟨hprojects.epoch, rfl, rfl, hprojects.fencedBoots, hprojects.liveBoots,
        hprojects.attempts⟩
  | false =>
      obtain ⟨hstanding, hcounter⟩ := hkept rfl
      exact ⟨hprojects.epoch, hstanding, hcounter, hprojects.fencedBoots, hprojects.liveBoots,
        hprojects.attempts⟩

/-- In memory, what a section saves is the projection of what it leaves. -/
theorem sameChecks_of_saved {event : Event} (htaken : event.Taken step)
    (hmemory : event.pre.impl.durable = false) {next : PersistentState}
    (hsaved : event.pre.saved event.input = some next) :
    SameChecks next event.post.impl.toState := by
  obtain ⟨pre, ⟨action, call⟩, output, post⟩ := event
  unfold Event.Taken step at htaken
  unfold SystemState.saved at hsaved
  cases action with
  | operate operation =>
      simp only [Option.some.injEq, Prod.mk.injEq] at htaken
      obtain ⟨rfl, rfl⟩ := htaken
      dsimp only at hsaved hmemory
      have hwithin := operation.stage_within pre.impl call
      have hprojected := operation.stage_projected pre.impl call
      have hcounter := operation.stage_keepsCounter pre.impl call
      cases hstage : operation.stage pre.impl call with
      | reply after result =>
          rw [hstage] at hsaved
          cases hsaved
      | write staged written applies value =>
          rw [hstage] at hsaved hwithin hprojected hcounter
          have hvolatile := hwithin.1.durable.trans hmemory
          dsimp only [Staged.saved] at hsaved
          rw [persist_of_memory hvolatile] at hsaved
          cases hsaved
          show SameChecks _ (Operation.run _ _ _).1.toState
          unfold Operation.run
          rw [hstage]
          exact Staged.settle_sameChecks hvolatile hprojected.2.2.1
            fun hnot => ⟨hprojected.2.2.2 hnot, hcounter⟩
  | evaluateBegin => cases hsaved
  | revalidateRead => cases hsaved
  | revalidateBegin => cases hsaved
  | evaluateFinish ticket =>
      unfold SystemState.finish at htaken
      dsimp only at htaken hsaved hmemory
      cases hflight : pre.flights ticket with
      | none =>
          rw [hflight] at hsaved
          cases hsaved
      | some flight =>
          rw [hflight] at hsaved htaken
          cases flight with
          | populationRead => cases hsaved
          | evaluating snapshot =>
              dsimp only at hsaved htaken
              cases hstaged : evaluateFinish pre.impl snapshot call with
              | none =>
                  rw [hstaged] at hsaved
                  cases hsaved
              | some staged =>
                  rw [hstaged] at hsaved htaken
                  cases htaken
                  cases staged with
                  | reply after result => cases hsaved
                  | write staged written applies outcome =>
                      obtain rfl := evaluateFinish_eq_write hstaged
                      obtain ⟨hprojects, rfl⟩ := evaluateFinish_projects hstaged
                      dsimp only [Option.bind_some, Staged.saved] at hsaved
                      rw [persist_of_memory hmemory] at hsaved
                      cases hsaved
                      exact Staged.settle_sameChecks hmemory hprojects
                        fun hnot => by cases hnot

/-! ## Opening -/

/-- A coordinator that was just opened in memory is savable. -/
theorem Savable.opened {config : CoordinatorConfig} {opening : Call} {memory : Impl}
    (h : openInMemory config opening = .ok memory) : Savable { impl := memory } := by
  obtain ⟨hstanding, authority, hauthority, hnext⟩ := openCoordinator_fresh h rfl
  obtain ⟨_, _, _, _, hrecovered, -⟩ := openCoordinator_recovered h
  obtain ⟨-, rfl⟩ := AuthorityRegistry.establishEpoch_ok hnext
  have hwithin := (Opened.opened h).within.1
  constructor
  · exact hrecovered.durable
  · dsimp only
    rw [hauthority]
    rfl
  · dsimp only
    rw [hauthority]
    refine ⟨fun boot record hfound => ?_, fun boot hknown => ?_⟩
    · simp at hfound
    · rcases hknown with hfenced | ⟨registration, hmem, -⟩
      · cases hfenced
      · cases hmem
  · exact hwithin
  · dsimp only
    rw [hauthority]
    exact Nat.zero_le _
  · dsimp only
    rw [hauthority]
    intro record hmem
    cases hmem
  · dsimp only
    rw [hstanding]
    refine ⟨Nat.zero_le _, Nat.zero_le _, ?_, List.nodup_nil, ?_, List.nodup_nil, ?_,
      ⟨List.nodup_nil, List.nodup_nil⟩, ?_⟩
    all_goals
      intro entry hmem
      cases hmem
  · intro ticket snapshot hflight
    cases hflight

/-- Over a store that restores nothing, a coordinator opens as the one in memory does. -/
theorem openCoordinator_of_memory {config : CoordinatorConfig}
    {report : StoreReport config.limits} {opening : Call} {memory : Impl}
    (h : openInMemory config opening = .ok memory) (hpath : config.storePath ≠ "")
    (hfresh : restoredState config report = .ok none) (hwritten : opening.write = .written)
    (hsize : (encodePersistentState memory.toState).length ≤
      config.limits.maxPersistenceRecordBytes.toNat) :
    ∃ durable, openCoordinator config report opening = .ok durable ∧
      durable.durable = true ∧ durable.volatile = memory := by
  have hsavable := Savable.opened h
  have hunused : memory.authority.attempts = [] := Opened.unobserved (.opened h)
  obtain ⟨hlimits, restored, authority, hrestored, hauthority, hpersist⟩ :=
    openCoordinator_eq_ok.mp h
  have hnone : restored = none := (Except.ok.inj hrestored).symm
  subst hnone
  let base := recover (unopened config report authority) none
  have hbase : base.durable = true := bne_iff_ne.mpr hpath
  have hmemory : memory = base.volatile := by
    rw [persist_of_memory rfl] at hpersist
    exact (congrArg Prod.fst hpersist).symm
  have hconfig : memory.config.limits = config.limits := by
    rw [hmemory]
    rfl
  have hstored : base.Stored := by
    intro _
    show (if (config.storePath != "") = true then _ else _ : Option DurableStore).map _ = _
    rw [if_pos (bne_iff_ne.mpr hpath)]
    rfl
  have hvalid : Validated base.toState config.limits := by
    have hprojected := hsavable.validated (hconfig ▸ hlimits) (by rw [hunused]; exact List.nodup_nil)
    dsimp only at hprojected
    rw [hconfig, hmemory] at hprojected
    exact hprojected
  have hsaved : (base.persist base.toState opening).2 = .ok () := by
    apply persist_eq_ok hstored hbase hvalid hwritten
    rw [hmemory] at hsize
    exact hsize
  obtain ⟨store, -, hafter⟩ := base.persist_fst base.toState opening
  refine ⟨{ base with store }, openCoordinator_eq_ok.mpr ⟨hlimits, none, authority, hfresh,
    hauthority, Prod.ext hafter hsaved⟩, hbase, ?_⟩
  rw [hmemory]
  rfl

/-! ## Runs -/

/-- In a run in memory whose steps add nothing that validation refuses, validation accepts
what each section would write. -/
theorem writesValid_of_adds {memory : Impl} {config : CoordinatorConfig} {opening : Call}
    {events : List Event} {last : SystemState} (hopened : openInMemory config opening = .ok memory)
    (hrun : Run step { impl := memory } events last)
    (hadds : ∀ event ∈ events, AddsAcceptable event) : ∀ event ∈ events, WritesValid event := by
  let inv : List Event → SystemState → Prop := fun history state =>
    Savable state ∧ ∀ event ∈ history, WritesValid event
  have hexecution : Execution events last := ⟨_, .opened hopened, hrun⟩
  have hinv : inv events last := by
    refine @Run.history_invariant _ _ _ _ _ _ _ inv hrun ?_ ?_
    · exact ⟨Savable.opened hopened, fun _ hmem => by cases hmem⟩
    · intro before event after hevents htaken hbefore
      obtain ⟨hsavable, hvalid⟩ := hbefore
      subst hevents
      have hearlier := hexecution.split.1
      have hlater : Execution (before ++ [event]) event.post := by
        obtain ⟨start, hstart, hfirst⟩ := hearlier
        exact ⟨start, hstart, hfirst.append (.cons htaken (.nil _))⟩
      have hnext := hsavable.step hearlier htaken (hadds event (by simp))
      refine ⟨hnext, ?_⟩
      intro earlier hmem
      rcases List.mem_append.mp hmem with hold | hnew
      · exact hvalid earlier hold
      · obtain rfl := List.mem_singleton.mp hnew
        intro next hsaved
        have hprojected := hnext.validated hlater.sound.limits hlater.attempts_distinct
        rw [(section_of_taken htaken).config] at hprojected
        exact hprojected.of_sameChecks (sameChecks_of_saved htaken hsavable.memory hsaved)
  exact hinv.2

/-- A coordinator over a store that restores nothing, whose file writes succeed, serves the
inputs as the one in memory does, with the same replies and the same state after each of them,
as long as no step adds anything that validation refuses. -/
theorem durable_run_of_memory {config : CoordinatorConfig} {report : StoreReport config.limits}
    {opening : Call} {memory : Impl} {inputs : List Input} {events : List Event}
    {last : SystemState} (hpath : config.storePath ≠ "")
    (hfresh : restoredState config report = .ok none)
    (hopened : openInMemory config opening = .ok memory)
    (hrun : exec step { impl := memory } inputs = some (events, last))
    (hwritten : opening.write = .written)
    (hsize : (encodePersistentState memory.toState).length ≤
      config.limits.maxPersistenceRecordBytes.toNat)
    (hfiles : ∀ event ∈ events, WritesFile event)
    (hadds : ∀ event ∈ events, AddsAcceptable event) :
    ∃ durable final,
      execute (openCoordinator config report opening) inputs = some (durable, final) ∧
      durable.map volatileEvent = events ∧ final.volatile = last := by
  have hsteps := Run.of_exec hrun
  have hvalid := writesValid_of_adds hopened hsteps hadds
  obtain ⟨impl, hdurable, hkeeps, rfl⟩ :=
    openCoordinator_of_memory hopened hpath hfresh hwritten hsize
  have hopens : Opened { impl } := .opened hdurable
  obtain ⟨durable, final, hdurableRun, hevents, hlast⟩ :=
    @run_of_volatile { impl } _ _ hsteps hopens.sound hkeeps hfiles hvalid
  refine ⟨durable, final, ?_, hevents, hlast⟩
  have hinputs : durable.map (·.input) = inputs := by
    rw [← inputs_of_exec hrun, ← hevents, List.map_map]
    rfl
  unfold execute
  rw [hdurable, ← hinputs]
  exact exec_of_run hdurableRun

/-! ## Samples -/

/-- The registrations of the sample find a place. -/
def findsPlace (event : Event) : Bool :=
  match event.input.action with
  | .operate (.registerPublisher _ publisher boot _ _) =>
      let others := event.pre.impl.authority.otherBoots publisher
      decide (boot ∈ others) ||
        decide (others.length < event.pre.impl.config.limits.maxFencedBoots.toNat)
  | _ => true

theorem findsPlace_sound {event : Event} (h : findsPlace event = true) : FindsPlace event := by
  intro context publisher boot scopes session haction _
  simp only [findsPlace, haction, Bool.or_eq_true, decide_eq_true_eq] at h
  exact h

/-- The batches of the sample are valid. -/
def addsValid (event : Event) : Bool :=
  match event.input.action with
  | .evaluateFinish ticket =>
      match event.pre.flights ticket with
      | some (.evaluating snapshot) =>
          let limits := event.pre.impl.config.limits
          let context := snapshot.evaluationContext limits (event.input.call.clock 0)
          let evaluated := evaluatedCandidates context snapshot.candidates
          decide (snapshot.candidates.length ≤ limits.maxCandidatesPerEvaluation.toNat) &&
            (snapshot.candidates.all fun candidate => isOk (validateCandidate candidate limits)) &&
            (evaluated.all fun candidate => kFamilies.all fun family =>
              !consults (consultedMask snapshot.set) family ||
                evidenceGenerationOf candidate.evidence family != 0) &&
            (evaluated.all fun candidate => decide
              ((canonicalizeReasons (collectReasons context candidate).reasons limits).Pairwise
                fun a b => compareReason a b ≠ .eq)) &&
            (commitHistory event.pre.impl snapshot event.input.call).all fun record =>
              decide (record.generation.value ≤ snapshot.generation.value)
      | _ => true
  | _ => true

theorem addsValid_sound {event : Event} (h : addsValid event = true) {ticket : Nat}
    {snapshot : EvaluationSnapshot} (hcommits : Commits event ticket snapshot) :
    AddsValid event.pre.impl snapshot event.input.call := by
  simp only [addsValid, hcommits.action, hcommits.flight, Bool.and_eq_true, List.all_eq_true,
    decide_eq_true_eq] at h
  obtain ⟨⟨⟨⟨hsize, hcandidates⟩, hbound⟩, hreasons⟩, hlatest⟩ := h
  refine ⟨hsize, ?_, ?_, hreasons, hlatest⟩
  · intro candidate hmem
    obtain ⟨⟨⟩, hok⟩ := isOk_iff.mp (hcandidates candidate hmem)
    exact hok
  · intro candidate hmem family hfamily hconsults
    simpa [hconsults] using hbound candidate hmem family hfamily

/-- The file takes what the section writes. -/
def writesFile (event : Event) : Bool :=
  (event.pre.saved event.input).all fun next =>
    decide (event.input.call.write = .written) &&
      decide ((encodePersistentState next).length ≤
        event.pre.impl.config.limits.maxPersistenceRecordBytes.toNat)

theorem writesFile_sound {event : Event} (h : writesFile event = true) : WritesFile event := by
  intro next hsaved
  simpa [writesFile, hsaved] using h

/-- The coordinator in memory opens, and the record that it would write fits. -/
private def opensWithin (config : CoordinatorConfig) : Bool :=
  match openInMemory config sampleCall with
  | .ok memory => decide ((encodePersistentState memory.toState).length ≤
      config.limits.maxPersistenceRecordBytes.toNat)
  | .error _ => false

private theorem sampleDurable_opensWithin : opensWithin sampleDurable = true := by
  decide +kernel

private theorem memory_of_opensWithin {config : CoordinatorConfig}
    (h : opensWithin config = true) : ∃ memory, openInMemory config sampleCall = .ok memory ∧
      (encodePersistentState memory.toState).length ≤
        config.limits.maxPersistenceRecordBytes.toNat := by
  unfold opensWithin at h
  split at h
  · next memory hopened => exact ⟨memory, hopened, of_decide_eq_true h⟩
  · cases h

/-- Each event of the sample adds nothing that validation refuses, and is written. -/
private def addsAcceptable (event : Event) : Bool :=
  publishesAssigned event && findsPlace event && derivesDistinct event &&
    findsHistory event && addsValid event && writesFile event

private theorem sampleTwins_addsAcceptable :
    ((execute (openInMemory sampleDurable sampleCall) (sampleRegister :: sampleTwins)).any
      fun run => run.1.all addsAcceptable) = true := by
  decide +kernel

theorem durable_run_of_memory_sample :
    ∃ memory events last durable final, openInMemory sampleDurable sampleCall = .ok memory ∧
      exec step { impl := memory } (sampleRegister :: sampleTwins) = some (events, last) ∧
      execute (openCoordinator sampleDurable .absent sampleCall)
        (sampleRegister :: sampleTwins) = some (durable, final) ∧
      durable.map volatileEvent = events ∧ final.volatile = last := by
  obtain ⟨memory, hopened, hsize⟩ := memory_of_opensWithin sampleDurable_opensWithin
  have hcheck := sampleTwins_addsAcceptable
  rw [hopened] at hcheck
  obtain ⟨⟨events, last⟩, hrun, hall⟩ := (Option.any_eq_true _ _).mp hcheck
  simp only [List.all_eq_true, addsAcceptable, Bool.and_eq_true] at hall
  obtain ⟨durable, final, hdurable, hevents, hlast⟩ :=
    @durable_run_of_memory sampleDurable .absent _ _ _ _ _ (by decide) rfl hopened hrun rfl hsize
      (fun event hmem => writesFile_sound (hall event hmem).2)
      (fun event hmem =>
        ⟨publishesAssigned_sound (hall event hmem).1.1.1.1.1,
         findsPlace_sound (hall event hmem).1.1.1.1.2,
         derivesDistinct_sound (hall event hmem).1.1.1.2,
         findsHistory_sound (hall event hmem).1.1.2,
         fun _ _ => addsValid_sound (hall event hmem).1.2⟩)
  exact ⟨memory, events, last, durable, final, hopened, hrun, hdurable, hevents, hlast⟩

/-- The file takes what the run in memory would write, but the durable run replies otherwise
and leaves other sets. -/
private def parts (memory durable : List Event × SystemState) : Bool :=
  memory.1.all writesFile &&
    decide (durable.1.map (·.output) ≠ memory.1.map (·.output)) &&
    decide (durable.2.impl.sets ≠ memory.2.impl.sets)

private theorem sampleForeign_parts :
    ((execute (openInMemory sampleDurable sampleCall) (sampleRegister :: sampleForeign)).any
      fun memory => (execute (openCoordinator sampleDurable .absent sampleCall)
        (sampleRegister :: sampleForeign)).any (parts memory)) = true := by
  decide +kernel

/-- Validation refuses a set that the coordinator in memory stores, although the file takes
everything that it writes. -/
theorem durable_run_parts :
    ∃ memory events last durable final, openInMemory sampleDurable sampleCall = .ok memory ∧
      (encodePersistentState memory.toState).length ≤
        sampleDurable.limits.maxPersistenceRecordBytes.toNat ∧
      exec step { impl := memory } (sampleRegister :: sampleForeign) = some (events, last) ∧
      (∀ event ∈ events, WritesFile event) ∧
      execute (openCoordinator sampleDurable .absent sampleCall)
        (sampleRegister :: sampleForeign) = some (durable, final) ∧
      durable.map (·.output) ≠ events.map (·.output) ∧ final.impl.sets ≠ last.impl.sets := by
  obtain ⟨memory, hopened, hsize⟩ := memory_of_opensWithin sampleDurable_opensWithin
  have hcheck := sampleForeign_parts
  rw [hopened] at hcheck
  obtain ⟨⟨events, last⟩, hrun, hdurable⟩ := (Option.any_eq_true _ _).mp hcheck
  obtain ⟨⟨durable, final⟩, hother, hparts⟩ := (Option.any_eq_true _ _).mp hdurable
  simp only [parts, Bool.and_eq_true, List.all_eq_true, decide_eq_true_eq] at hparts
  obtain ⟨⟨hfiles, houtputs⟩, hsets⟩ := hparts
  exact ⟨memory, events, last, durable, final, hopened, hsize, hrun,
    fun event hmem => writesFile_sound (hfiles event hmem), hother, houtputs, hsets⟩

end ConstraintRouting.Fabric
