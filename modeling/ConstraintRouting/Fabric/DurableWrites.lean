import ConstraintRouting.Fabric.SnapshotIsolation

/-!
# Durable writes that fail

Every operation stages what it writes beside the live state, but some of them have
already changed the registry or the watermarks when the write fails.
-/

namespace ConstraintRouting.Fabric

open Verified.StepMachine
open Verified.Checks (isOk)

/-! ## What a failed write leaves -/

/-- The operation reaches its durable write, and the write fails. -/
def Staged.writeFails {α : Type} (call : Call) : Staged α → Bool
  | .reply _ _ => false
  | .write impl next _ _ => !isOk (impl.persist next call).2

/-- The event reaches a durable write that fails. -/
inductive WriteFails (event : Event) : Prop
  | operated (operation : Operation) :
      event.input.action = .operate operation →
      (operation.stage event.pre.impl event.input.call).writeFails event.input.call = true →
      WriteFails event
  | finished (ticket : Nat) (snapshot : EvaluationSnapshot) (staged : Staged CommitOutcome) :
      Finishes event ticket snapshot →
      evaluateFinish event.pre.impl snapshot event.input.call = some staged →
      staged.writeFails event.input.call = true → WriteFails event

/-- The event returned a failure. -/
def ReportsFailure (event : Event) : Prop :=
  ∃ error, event.output = .operated (.error error) ∨ event.output = .evaluated (.error error)

/-- The registry and the watermarks are as they were. -/
structure Untouched (before after : Impl) : Prop where
  registrations : after.authority.registrations = before.authority.registrations
  fenced : after.authority.fenced = before.authority.fenced
  watermarks : after.watermarks = before.watermarks

/-- The event returned a failure and left everything that is authoritative as it was. -/
structure FailsCleanly (event : Event) : Prop
    extends Untouched event.pre.impl event.post.impl where
  failure : ReportsFailure event
  evidence : event.post.impl.evidence = event.pre.impl.evidence
  sets : event.post.impl.sets = event.pre.impl.sets
  evaluations : event.post.impl.evaluations = event.pre.impl.evaluations
  populations : event.post.impl.populations = event.pre.impl.populations
  current : event.post.impl.current = event.pre.impl.current

/-- The operation changes nothing before its durable write but the window of
attempts. -/
def Operation.StagesBeside (impl : Impl) : Operation → Prop
  | .publishConstraintSet _ _ | .applyLifecycle _ _ _ | .flush => True
  | .fenceBoot _ boot => impl.authority.isBootFenced boot = true
  | .setEvidenceRequirements _ requirements =>
      advancedFamilies impl.evidence requirements = []
  | .advanceFamily _ family generation =>
      ∀ requirements, withFamily impl.evidence family generation = some requirements →
        advancedFamilies impl.evidence requirements = []
  | _ => False

/-- The step changes nothing before its durable write but the window of attempts. -/
def StagesBeside (event : Event) : Prop :=
  ∀ operation, event.input.action = .operate operation →
    operation.StagesBeside event.pre.impl

/-! ## Watermarks -/

/-- A watermark that advances is not the one before. -/
theorem Watermarks.advanceKey_ne {watermarks advanced : Watermarks} {key : InvalidationKey}
    {watermark : UInt64} (h : watermarks.advanceKey key watermark = some advanced) :
    advanced ≠ watermarks := by
  unfold advanceKey at h
  split at h
  · cases h
  · next hgreater =>
      cases h
      intro hsame
      have hkey := congrArg (fun watermarks : Watermarks => watermarks.keys[key]?) hsame
      simp only [Std.ExtTreeMap.getElem?_insert_self] at hkey
      simp [← hkey] at hgreater

/-- A family watermark never decreases while others advance. -/
theorem advanceWatermarks_le {requirements : EvidenceRequirements}
    {families : List EvidenceFamily} {watermarks advanced : Watermarks} {done : Bool}
    (h : advanceWatermarks requirements families watermarks = (advanced, done))
    {family : EvidenceFamily} {generation : UInt64}
    (hbefore : watermarks.families[family]? = some generation) :
    ∃ later, advanced.families[family]? = some later ∧ generation ≤ later := by
  induction families generalizing watermarks generation with
  | nil =>
      cases h
      exact ⟨generation, hbefore, UInt64.le_refl _⟩
  | cons first rest ih =>
      rw [advanceWatermarks] at h
      split at h
      · cases h
        exact ⟨generation, hbefore, UInt64.le_refl _⟩
      · next middle hadvanced =>
          unfold Watermarks.advanceFamily at hadvanced
          split at hadvanced
          · cases hadvanced
          · next hgreater =>
              cases hadvanced
              by_cases hsame : first = family
              · subst hsame
                obtain ⟨later, hlater, hle⟩ :=
                  ih h (Std.ExtTreeMap.getElem?_insert_self)
                refine ⟨later, hlater, UInt64.le_trans ?_ hle⟩
                simp [hbefore] at hgreater
                exact UInt64.le_of_lt hgreater
              · refine ih h ?_
                rw [Std.ExtTreeMap.getElem?_insert, if_neg]
                · exact hbefore
                · exact fun heq => hsame (Std.LawfulEqCmp.eq_of_compare heq)

/-- Advancing some families changes the watermarks. -/
theorem advanceWatermarks_ne {requirements : EvidenceRequirements} {first : EvidenceFamily}
    {rest : List EvidenceFamily} {watermarks advanced : Watermarks}
    (h : advanceWatermarks requirements (first :: rest) watermarks = (advanced, true)) :
    advanced ≠ watermarks := by
  rw [advanceWatermarks] at h
  split at h
  · cases h
  · next middle hadvanced =>
      unfold Watermarks.advanceFamily at hadvanced
      split at hadvanced
      · cases hadvanced
      · next hgreater =>
          cases hadvanced
          obtain ⟨later, hlater, hle⟩ :=
            advanceWatermarks_le h Std.ExtTreeMap.getElem?_insert_self
          rintro rfl
          simp only [hlater, Option.any_some, decide_eq_true_eq] at hgreater
          exact hgreater hle

/-! ## What each operation has changed at its durable write -/

theorem Staged.map_eq_write {α β : Type} {f : α → β} {staged : Staged α} {impl : Impl}
    {next : PersistentState} {applies : Bool} {value : β}
    (h : staged.map f = .write impl next applies value) :
    ∃ original, staged = .write impl next applies original := by
  cases staged with
  | reply => cases h
  | write impl next applies original =>
      cases h
      exact ⟨original, rfl⟩

theorem Untouched.refl (impl : Impl) : Untouched impl impl := ⟨rfl, rfl, rfl⟩

/-- An admission touches nothing but the window of attempts. -/
theorem admit_fresh_untouched {impl fresh : Impl} {context : AuthorityContext}
    {scope : AuthorityScope} {payload : Digest256} {tick : UInt64}
    (h : authorizeAndObserve impl context scope payload tick = .fresh fresh) : Untouched impl fresh := by
  obtain ⟨authority, rfl, -, hobserve⟩ := admit_fresh h
  obtain ⟨attempts, rfl⟩ := AuthorityRegistry.observeAttempt_ok hobserve
  exact ⟨rfl, rfl, rfl⟩

section Operations

variable {impl staged : Impl} {call : Call} {next : PersistentState} {applies : Bool}

private theorem registerPublisher_touches {context : AuthorityContext}
    {publisher : PublisherId} {boot : WorkerBootId} {scopes : AuthorityScopeMask}
    {session : SessionId} {value : PublisherRegistration}
    (h : registerPublisher impl context publisher boot scopes session call =
      .write staged next applies value) : ¬ Untouched impl staged := by
  unfold registerPublisher at h
  split at h
  · cases h
  · split at h
    · cases h
    · dsimp only at h
      split at h
      · cases h
      · split at h
        · cases h
        · next hregistered =>
            cases h
            rintro ⟨hregistrations, -, -⟩
            have hlength :=
              AuthorityRegistry.length_registrations_of_registerPublisher hregistered
            have hsame := congrArg List.length hregistrations
            dsimp only at hsame
            omega

private theorem fenceBoot_untouched_iff {context : AuthorityContext} {boot : WorkerBootId}
    {value : Unit} (h : fenceBoot impl context boot call = .write staged next applies value) :
    Untouched impl staged ↔ impl.authority.isBootFenced boot = true := by
  unfold fenceBoot at h
  split at h
  · cases h
  · cases h
  · next fresh hadmitted =>
      have huntouched := admit_fresh_untouched hadmitted
      have hsame : fresh.authority.isBootFenced boot = impl.authority.isBootFenced boot := by
        unfold AuthorityRegistry.isBootFenced
        rw [huntouched.fenced]
      split at h
      · cases h
      · next authority hfence =>
          cases h
          rw [← hsame]
          rcases AuthorityRegistry.fenceBoot_ok hfence with ⟨hfenced, rfl⟩ | ⟨hfree, rfl⟩
          · exact ⟨fun _ => hfenced, fun _ => huntouched⟩
          · refine ⟨fun hkept => ?_, fun hfenced => ?_⟩
            · have hinserted : fresh.authority.fenced.insert boot
                  ⟨boot, fresh.authority.epoch, call.clock 1⟩ = fresh.authority.fenced :=
                hkept.fenced.trans huntouched.fenced.symm
              rw [AuthorityRegistry.isBootFenced, ← hinserted]
              exact Std.ExtTreeMap.contains_insert_self
            · rw [hfree] at hfenced
              cases hfenced

private theorem fenceOnSessionLoss_touches {session : SessionId} {value : Unit}
    (h : fenceOnSessionLoss impl session call = .write staged next applies value) :
    ¬ Untouched impl staged := by
  unfold fenceOnSessionLoss at h
  split at h
  · cases h
  · next boot howned =>
      simp only [AuthorityRegistry.bootOfSession, Option.map_eq_some_iff] at howned
      obtain ⟨registration, hfound, rfl⟩ := howned
      have hmem := List.mem_of_find?_eq_some hfound
      have howns := List.find?_some hfound
      have hlive : registration.live = true := (Bool.and_eq_true_iff.mp howns).1
      split at h
      · cases h
      · next fenced hfence =>
          intro hkept
          rcases AuthorityRegistry.fenceBoot_ok hfence with ⟨-, rfl⟩ | ⟨hfree, rfl⟩
          · have hany : impl.authority.registrations.any
                (fun registration => registration.live && registration.session == session) =
                  true := List.any_eq_true.mpr ⟨registration, hmem, howns⟩
            simp only [AuthorityRegistry.dropSession, hany, if_true] at h
            cases h
            exact AuthorityRegistry.retire_ne hmem howns hlive hkept.registrations
          · have hinserted : impl.authority.fenced.insert registration.boot
                ⟨registration.boot, impl.authority.epoch, call.clock 0⟩ =
                  impl.authority.fenced := by
              cases hdropped : AuthorityRegistry.dropSession
                  { impl.authority with
                    fenced := impl.authority.fenced.insert registration.boot
                      ⟨registration.boot, impl.authority.epoch, call.clock 0⟩
                    registrations := AuthorityRegistry.retire (·.boot == registration.boot)
                      impl.authority.registrations } session with
              | ok dropped =>
                  obtain ⟨registrations, rfl⟩ := AuthorityRegistry.dropSession_ok hdropped
                  rw [hdropped] at h
                  cases h
                  exact hkept.fenced
              | error error =>
                  rw [hdropped] at h
                  cases h
                  exact hkept.fenced
            rw [AuthorityRegistry.isBootFenced, ← hinserted,
              Std.ExtTreeMap.contains_insert_self] at hfree
            cases hfree

private theorem publishConstraintSet_untouched {context : AuthorityContext}
    {set value : ConstraintSet}
    (h : publishConstraintSet impl context set call = .write staged next applies value) :
    Untouched impl staged := by
  unfold publishConstraintSet at h
  split at h
  · cases h
  · split at h <;> cases h
  · next fresh hadmitted =>
      split at h
      · cases h
      · split at h
        · cases h
        · cases h
          exact admit_fresh_untouched hadmitted

private theorem applyLifecycle_untouched {context : AuthorityContext}
    {setId : ConstraintSetId} {event : LifecycleEvent} {value : ConstraintSet}
    (h : applyLifecycle impl context setId event call = .write staged next applies value) :
    Untouched impl staged := by
  dsimp only [applyLifecycle] at h
  split at h
  · cases h
  · split at h <;> cases h
  · next fresh hadmitted =>
      split at h
      · cases h
      · unfold transition at h
        split at h
        · cases h
        · cases h
          exact admit_fresh_untouched hadmitted

private theorem applyEvidenceRequirements_untouched_iff {context : AuthorityContext}
    {requirements : EvidenceRequirements} {value : Unit}
    (h : applyEvidenceRequirements impl context requirements call =
      .write staged next applies value) :
    Untouched impl staged ↔ advancedFamilies impl.evidence requirements = [] := by
  unfold applyEvidenceRequirements at h
  split at h
  · cases h
  · cases h
  · next fresh hadmitted =>
      have huntouched := admit_fresh_untouched hadmitted
      obtain ⟨authority, rfl, -, -⟩ := admit_fresh hadmitted
      split at h
      · cases h
      · dsimp only at h
        split at h
        · cases h
        · next watermarks hadvanced =>
            cases h
            cases hfamilies : advancedFamilies impl.evidence requirements with
            | nil =>
                rw [hfamilies] at hadvanced
                cases hadvanced
                exact ⟨fun _ => rfl, fun _ => huntouched⟩
            | cons first rest =>
                rw [hfamilies] at hadvanced
                refine ⟨fun hkept => ?_, fun hnil => by cases hnil⟩
                exact absurd hkept.watermarks (advanceWatermarks_ne hadvanced)

private theorem invalidateKey_touches {context : AuthorityContext} {key : InvalidationKey}
    {value : Unit} (h : invalidateKey impl context key call = .write staged next applies value) :
    ¬ Untouched impl staged := by
  unfold invalidateKey at h
  split at h
  · cases h
  · cases h
  · next fresh hadmitted =>
      have huntouched := admit_fresh_untouched hadmitted
      dsimp only at h
      split at h
      · cases h
      · next watermarks hadvanced =>
          cases h
          intro hkept
          exact Watermarks.advanceKey_ne hadvanced
            (hkept.watermarks.trans huntouched.watermarks.symm)

/-- At its durable write an operation has left the registry and the watermarks as they
were exactly when it stages beside them. -/
theorem Operation.untouched_iff {operation : Operation} {value : Value}
    (h : operation.stage impl call = .write staged next applies value) :
    Untouched impl staged ↔ operation.StagesBeside impl := by
  cases operation with
  | registerPublisher =>
      obtain ⟨_, h⟩ := Staged.map_eq_write h
      exact iff_of_false (registerPublisher_touches h) id
  | fenceBoot =>
      obtain ⟨_, h⟩ := Staged.map_eq_write h
      exact fenceBoot_untouched_iff h
  | fenceOnSessionLoss =>
      obtain ⟨_, h⟩ := Staged.map_eq_write h
      exact iff_of_false (fenceOnSessionLoss_touches h) id
  | dropSession =>
      obtain ⟨_, h⟩ := Staged.map_eq_write h
      unfold Fabric.dropSession at h
      split at h
      · cases h
      · split at h <;> cases h
  | observeAttempt =>
      obtain ⟨_, h⟩ := Staged.map_eq_write h
      unfold Fabric.observeAttempt at h
      split at h <;> cases h
  | publishConstraintSet =>
      obtain ⟨_, h⟩ := Staged.map_eq_write h
      exact iff_of_true (publishConstraintSet_untouched h) trivial
  | applyLifecycle =>
      obtain ⟨_, h⟩ := Staged.map_eq_write h
      exact iff_of_true (applyLifecycle_untouched h) trivial
  | setEvidenceRequirements =>
      obtain ⟨_, h⟩ := Staged.map_eq_write h
      exact applyEvidenceRequirements_untouched_iff h
  | advanceFamily context family generation =>
      obtain ⟨_, h⟩ := Staged.map_eq_write h
      unfold Fabric.advanceFamily at h
      split at h
      · cases h
      · next requirements hfamily =>
          split at h
          · cases h
          · refine (applyEvidenceRequirements_untouched_iff h).trans ?_
            simp [StagesBeside, hfamily]
  | invalidateKey =>
      obtain ⟨_, h⟩ := Staged.map_eq_write h
      exact iff_of_false (invalidateKey_touches h) id
  | flush =>
      cases h
      exact iff_of_true (.refl impl) trivial

end Operations

/-! ## Steps -/

/-- Settling an operation whose write fails reports it and publishes nothing. -/
theorem Staged.settle_of_writeFails {α : Type} {staged : Staged α} {call : Call}
    (h : staged.writeFails call = true) :
    ∃ impl next applies value error, staged = .write impl next applies value ∧
      staged.settle call = ((impl.persist next call).1, .error error) := by
  rcases staged.settle_cases call with ⟨_, _, rfl, -⟩ |
    ⟨impl, next, applies, value, rfl, ⟨error, -, hsettle⟩ | ⟨hwritten, -⟩⟩
  · cases h
  · exact ⟨impl, next, applies, value, error, rfl, hsettle⟩
  · simp [writeFails, hwritten] at h

/-- What a step leaves when its durable write fails: a failure, the standing records, and
the registry and the watermarks of the staged operation. -/
theorem failsCleanly_iff_untouched {event : Event} {staged : Impl} {next : PersistentState}
    (hfailure : ReportsFailure event) (hkept : event.pre.impl.Kept staged)
    (hpost : event.post.impl = (staged.persist next event.input.call).1) :
    FailsCleanly event ↔ Untouched event.pre.impl staged := by
  obtain ⟨store, -, hstore⟩ := staged.persist_fst next event.input.call
  rw [hstore] at hpost
  constructor
  · intro hclean
    exact ⟨by rw [← hclean.registrations, hpost], by rw [← hclean.fenced, hpost],
      by rw [← hclean.watermarks, hpost]⟩
  · intro huntouched
    exact ⟨⟨by rw [hpost, huntouched.registrations], by rw [hpost, huntouched.fenced],
      by rw [hpost, huntouched.watermarks]⟩, hfailure, by rw [hpost, hkept.evidence],
      by rw [hpost, hkept.sets], by rw [hpost, hkept.evaluations],
      by rw [hpost, hkept.populations], by rw [hpost, hkept.current]⟩

/-- An evaluation that reaches its durable write has changed nothing. -/
theorem evaluateFinish_eq_write {impl staged : Impl} {snapshot : EvaluationSnapshot}
    {call : Call} {next : PersistentState} {applies : Bool} {outcome : CommitOutcome}
    (h : evaluateFinish impl snapshot call = some (.write staged next applies outcome)) :
    staged = impl := by
  unfold evaluateFinish at h
  dsimp only at h
  split at h
  · cases h
  · split at h
    · cases h
    · simp only [Option.map_eq_some_iff] at h
      obtain ⟨_, -, hstaged⟩ := h
      cases hstaged
      rfl

/-- A step whose durable write fails returns a failure and leaves everything as it was
exactly when it stages beside the registry and the watermarks. -/
theorem failed_write_is_clean_iff {event : Event} (htaken : event.Taken step)
    (hfails : WriteFails event) : FailsCleanly event ↔ StagesBeside event := by
  obtain ⟨pre, ⟨action, call⟩, output, post⟩ := event
  cases hfails with
  | operated operation haction hfails =>
      dsimp only at haction hfails
      subst haction
      obtain ⟨staged, next, applies, value, error, hstage, hsettle⟩ :=
        Staged.settle_of_writeFails hfails
      have hkept : pre.impl.Kept staged := by
        have hwithin := operation.stage_within pre.impl call
        rw [hstage] at hwithin
        exact hwithin.1
      have hrun : operation.run pre.impl call = ((staged.persist next call).1, .error error) := by
        rw [Operation.run, hsettle]
      unfold Event.Taken step at htaken
      simp only [hrun, Option.some.injEq, Prod.mk.injEq] at htaken
      obtain ⟨rfl, rfl⟩ := htaken
      refine (failsCleanly_iff_untouched ⟨error, .inl rfl⟩ hkept rfl).trans
        ((Operation.untouched_iff hstage).trans ?_)
      simp [StagesBeside]
  | finished ticket snapshot staged hfinish hstaged hfails =>
      obtain ⟨haction, hflight⟩ := hfinish
      dsimp only at haction hflight hstaged hfails
      subst haction
      obtain ⟨impl, next, applies, outcome, error, rfl, hsettle⟩ :=
        Staged.settle_of_writeFails hfails
      obtain rfl := evaluateFinish_eq_write hstaged
      unfold Event.Taken step SystemState.finish at htaken
      simp only [hflight, hstaged, Option.map_some, hsettle, Option.some.injEq,
        Prod.mk.injEq] at htaken
      obtain ⟨rfl, rfl⟩ := htaken
      refine (failsCleanly_iff_untouched ⟨error, .inr rfl⟩ (.refl _) rfl).trans ?_
      simp [StagesBeside, Untouched.refl]

/-- A step whose durable write fails says so. -/
theorem WriteFails.reportsFailure {event : Event} (hfails : WriteFails event)
    (htaken : event.Taken step) : ReportsFailure event := by
  obtain ⟨pre, ⟨action, call⟩, output, post⟩ := event
  cases hfails with
  | operated operation haction hfails =>
      dsimp only at haction hfails
      subst haction
      obtain ⟨staged, next, applies, value, error, hstage, hsettle⟩ :=
        Staged.settle_of_writeFails hfails
      have hrun : operation.run pre.impl call = ((staged.persist next call).1, .error error) := by
        rw [Operation.run, hsettle]
      unfold Event.Taken step at htaken
      simp only [hrun, Option.some.injEq, Prod.mk.injEq] at htaken
      exact ⟨error, .inl htaken.2.symm⟩
  | finished ticket snapshot staged hfinish hstaged hfails =>
      obtain ⟨haction, hflight⟩ := hfinish
      dsimp only at haction hflight hstaged hfails
      subst haction
      obtain ⟨impl, next, applies, outcome, error, rfl, hsettle⟩ :=
        Staged.settle_of_writeFails hfails
      unfold Event.Taken step SystemState.finish at htaken
      simp only [hflight, hstaged, Option.map_some, hsettle, Option.some.injEq,
        Prod.mk.injEq] at htaken
      exact ⟨error, .inr htaken.2.symm⟩

/-! ## A publication and a registration whose writes fail -/

/-- The sample coordinator over a store that does not exist yet. -/
def sampleDurable : CoordinatorConfig := { sampleConfig with storePath := "fabric.store" }

def sampleDurableRun (inputs : List Input) : Option (List Event × SystemState) :=
  execute (openCoordinator sampleDurable .absent sampleCall) inputs

/-- A request whose write cannot replace the store file. -/
def sampleUnwritten (operation : Operation) : Input :=
  ⟨.operate operation, { sampleCall with write := .cannotReplace }⟩

/-- A registration that succeeds, and a publication whose write fails. -/
def sampleUnpublished : List Input :=
  [sampleRegister, sampleUnwritten (.publishConstraintSet (sampleContext 10) (sampleSet 5))]

/-- A registration whose write fails. -/
def sampleUnregistered : List Input :=
  [sampleUnwritten (.registerPublisher (sampleContext 1) ⟨1⟩ ⟨4242⟩ 127 ⟨7⟩)]

/-- The last event is the request, and its durable write fails. -/
private def endsUnwritten (operation : Operation) (events : List Event) : Bool :=
  events.getLast?.any fun event =>
    decide (event.input.action = .operate operation ∧ event.pre.impl.durable = true) &&
      (operation.stage event.pre.impl event.input.call).writeFails event.input.call

private theorem sampleUnpublished_endsUnwritten :
    ((sampleDurableRun sampleUnpublished).any fun run =>
      endsUnwritten (.publishConstraintSet (sampleContext 10) (sampleSet 5)) run.1) = true := by
  decide +kernel

/-- The publisher is authorized after the last event, and was not registered before
it. -/
private def registersUnwritten (events : List Event) : Bool :=
  endsUnwritten (.registerPublisher (sampleContext 1) ⟨1⟩ ⟨4242⟩ 127 ⟨7⟩) events &&
    events.getLast?.any fun event =>
      decide (event.pre.impl.authority.registrations = [] ∧
        event.post.impl.authority.registrations ≠ [] ∧
        event.post.impl.authority.authorize (sampleContext 2)
          (scopeBit .publishConstraintSet) = .ok ())

private theorem sampleUnregistered_registers :
    ((sampleDurableRun sampleUnregistered).any fun run => registersUnwritten run.1) =
      true := by
  decide +kernel

/-- The last event of an execution that ends in a failed write. -/
private theorem exists_of_endsUnwritten {operation : Operation} {events : List Event}
    {last : SystemState} (hexecution : Execution events last)
    (h : endsUnwritten operation events = true) :
    ∃ event, events.getLast? = some event ∧ event ∈ events ∧ event.Taken step ∧
      event.pre.impl.durable = true ∧ event.input.action = .operate operation ∧
      WriteFails event := by
  obtain ⟨event, hlast, hevent⟩ := (Option.any_eq_true _ _).mp h
  obtain ⟨before, rfl⟩ := List.getLast?_eq_some_iff.mp hlast
  rw [Bool.and_eq_true, decide_eq_true_eq] at hevent
  obtain ⟨⟨haction, hdurable⟩, hfails⟩ := hevent
  exact ⟨event, hlast, by simp, hexecution.taken, hdurable, haction,
    .operated operation haction hfails⟩

theorem failed_write_is_clean_iff_sample :
    ∃ events last, sampleDurableRun sampleUnpublished = some (events, last) ∧
      ∃ event ∈ events, event.pre.impl.durable = true ∧ WriteFails event ∧
        FailsCleanly event := by
  obtain ⟨events, last, hrun, hexecution, hcheck⟩ :=
    Execution.of_check _ sampleUnpublished_endsUnwritten
  obtain ⟨event, -, hmem, htaken, hdurable, haction, hfails⟩ :=
    exists_of_endsUnwritten hexecution hcheck
  refine ⟨events, last, hrun, event, hmem, hdurable, hfails,
    (failed_write_is_clean_iff htaken hfails).mpr ?_⟩
  intro operation hoperation
  rw [haction] at hoperation
  cases hoperation
  trivial

/-- A registration whose durable write fails is live all the same. -/
theorem failed_write_registers :
    ∃ events last, sampleDurableRun sampleUnregistered = some (events, last) ∧
      Execution events last ∧
      ∃ event ∈ events, event.pre.impl.durable = true ∧ WriteFails event ∧
        event.pre.impl.authority.registrations = [] ∧
        event.post.impl.authority.authorize (sampleContext 2)
          (scopeBit .publishConstraintSet) = .ok () ∧
        ¬ FailsCleanly event := by
  obtain ⟨events, last, hrun, hexecution, hcheck⟩ :=
    Execution.of_check _ sampleUnregistered_registers
  refine ⟨events, last, hrun, hexecution, ?_⟩
  rw [registersUnwritten, Bool.and_eq_true] at hcheck
  obtain ⟨event, hlast, hmem, -, hdurable, -, hfails⟩ :=
    exists_of_endsUnwritten hexecution hcheck.1
  obtain ⟨hempty, hadded, hauthorized⟩ : event.pre.impl.authority.registrations = [] ∧
      event.post.impl.authority.registrations ≠ [] ∧
      event.post.impl.authority.authorize (sampleContext 2)
        (scopeBit .publishConstraintSet) = .ok () := by
    simpa [hlast] using hcheck.2
  exact ⟨event, hmem, hdurable, hfails, hempty, hauthorized, fun hclean =>
    hadded (hclean.registrations.trans hempty)⟩

end ConstraintRouting.Fabric
