import ConstraintRouting.Fabric.ExecutionSpec
import ConstraintRouting.Fabric.RoundTrip
import ConstraintRouting.Fabric.Sections

/-!
# Lifetimes over restarts

A process may be stopped between any two critical sections and a coordinator opened
again over the store file that it left.  A restart is one more step, so that what is
proved of lifetimes holds across any number of restarts.
-/

namespace ConstraintRouting.Fabric

open Verified.StepMachine

/-! ## Steps of a lifetime -/

/-- The bytes of the store file. -/
def Impl.storeFile (impl : Impl) : Option (List UInt8) := impl.store.bind (·.file)

/-- The store that a configuration opens over the bytes of its file. -/
def storeOver (config : CoordinatorConfig) (file : Option (List UInt8)) : DurableStore :=
  { path := config.storePath, limits := config.limits, file }

/-- A critical section, or a restart: the process is gone and a coordinator is opened
over its store file. -/
inductive Turn where
  | serve (input : Input)
  | restart (config : CoordinatorConfig) (call : Call)

/-- One step of a lifetime; a restart that does not open is no step. -/
def turn (state : SystemState) : Turn → Option (SystemState × Option Reply)
  | .serve input => (step state input).map fun (next, reply) => (next, some reply)
  | .restart config call =>
      if config.storePath = state.impl.config.storePath then
        match openCoordinator config (storeOver config state.impl.storeFile).report call with
        | .ok impl => some ({ impl }, none)
        | .error _ => none
      else none

/-- One step of a lifetime that was taken. -/
abbrev LifeEvent := Verified.StepMachine.Event SystemState Turn (Option Reply)

/-- The events of an opened coordinator and its later incarnations, and the state that
they reach. -/
def Lifetime (events : List LifeEvent) (last : SystemState) : Prop :=
  ∃ start, Opened start ∧ Run turn start events last

/-- The event serves a critical section. -/
structure Serving (event : LifeEvent) (served : Event) : Prop where
  input : event.input = .serve served.input
  output : event.output = some served.output
  pre : event.pre = served.pre
  post : event.post = served.post

theorem Serving.taken {event : LifeEvent} {served : Event} (h : Serving event served)
    (htaken : event.Taken turn) : served.Taken step := by
  obtain ⟨pre, input, output, post⟩ := event
  obtain ⟨rfl, rfl, rfl, rfl⟩ := h
  unfold Event.Taken turn at htaken
  simp only [Option.map_eq_some_iff, Prod.mk.injEq, Option.some.injEq, Prod.exists] at htaken
  obtain ⟨next, reply, htaken, rfl, rfl⟩ := htaken
  exact htaken

/-- The event restarts the process over the file that it left. -/
structure Restarting (event : LifeEvent) (config : CoordinatorConfig) (call : Call) : Prop where
  input : event.input = .restart config call
  path : config.storePath = event.pre.impl.config.storePath
  opened : openCoordinator config (storeOver config event.pre.impl.storeFile).report call =
    .ok event.post.impl
  fresh : event.post = { impl := event.post.impl }

/-- Every step of a lifetime is a critical section or a restart. -/
theorem turn_cases {event : LifeEvent} (h : event.Taken turn) :
    (∃ served, Serving event served ∧ served.Taken step) ∨
      ∃ config call, Restarting event config call := by
  obtain ⟨pre, input, output, post⟩ := event
  unfold Event.Taken turn at h
  cases input with
  | serve input =>
      simp only [Option.map_eq_some_iff, Prod.mk.injEq, Prod.exists] at h
      obtain ⟨next, reply, htaken, rfl, rfl⟩ := h
      exact .inl ⟨⟨pre, input, reply, next⟩, ⟨rfl, rfl, rfl, rfl⟩, htaken⟩
  | restart config call =>
      dsimp only at h
      split at h
      · next hpath =>
          split at h
          · next impl hopened =>
              cases h
              exact .inr ⟨config, call, rfl, hpath, hopened, rfl⟩
          · cases h
      · cases h

/-! ## Opening -/

/-- Opening a coordinator restores a state, establishes the next epoch and persists what
it recovered. -/
theorem openCoordinator_eq_ok {config : CoordinatorConfig}
    {report : StoreReport config.limits} {call : Call} {impl : Impl} :
    openCoordinator config report call = .ok impl ↔
      validateLimits config.limits = .ok () ∧
      ∃ restored authority, restoredState config report = .ok restored ∧
        nextIncarnation restored call.clock = .ok authority ∧
        (recover (unopened config report authority) restored).persist
          (recover (unopened config report authority) restored).toState call =
            (impl, .ok ()) := by
  unfold openCoordinator
  cases hlimits : validateLimits config.limits with
  | error why =>
      simp only [reduceCtorEq, false_and, iff_false]
      intro h
      cases h
  | ok _ =>
      cases hrestored : restoredState config report with
      | error error => simp [bind, Except.bind]
      | ok restored =>
          simp only [true_and, Except.ok.injEq, exists_and_left, exists_eq_left']
          cases hauthority : nextIncarnation restored call.clock with
          | error error => simp [bind, Except.bind, hauthority]
          | ok authority =>
              simp only [bind, Except.bind, pure, Except.pure, hauthority, Except.ok.injEq,
                exists_eq_left']
              generalize recover (unopened config report authority) restored = recovered
              rcases recovered.persist recovered.toState call with ⟨saved, error | ⟨⟨⟩⟩⟩
              · simp
              · simp

/-- The records that opening restores are those of the restored state, as not proven
since. -/
def restoredEvaluations (restored : Option PersistentState) : List EvaluationRecord :=
  ((restored.map (·.evaluations)).getD []).map fun record =>
    { record with state := .recoveredUnproven }

theorem openCoordinator_evaluations {config : CoordinatorConfig}
    {report : StoreReport config.limits} {call : Call} {impl : Impl}
    {restored : Option PersistentState} (h : openCoordinator config report call = .ok impl)
    (hrestored : restoredState config report = .ok restored) :
    impl.evaluations = restoredEvaluations restored := by
  obtain ⟨-, other, authority, hother, -, hpersist⟩ := openCoordinator_eq_ok.mp h
  obtain rfl := Except.ok.inj (hother.symm.trans hrestored)
  have hkept := (recover (unopened config report authority) other).persist_kept
    (recover (unopened config report authority) other).toState call
  rw [hpersist] at hkept
  rw [hkept.evaluations]
  cases other with
  | none => rfl
  | some state => rfl

/-! ## What the store file holds -/

/-- The store file holds the envelope of the state, which was validated when it was
written. -/
structure Saved (impl : Impl) (state : PersistentState) : Prop where
  file : impl.storeFile = some (encodeEnvelope (encodePersistentState state))
  valid : Validated state impl.config.limits
  size : (encodePersistentState state).length ≤
    impl.config.limits.maxPersistenceRecordBytes.toNat

/-- A durable write that succeeds leaves its state in the store file. -/
theorem Saved.of_persist {impl : Impl} {state : PersistentState} {call : Call}
    (hstored : impl.Stored) (hdurable : impl.durable = true)
    (h : (impl.persist state call).2 = .ok ()) : Saved (impl.persist state call).1 state := by
  obtain ⟨store, hstore, hlimits⟩ := Option.map_eq_some_iff.mp (hstored hdurable)
  have hpersist : impl.persist state call =
      ({ impl with store := some (store.save state call.write).1 },
        (store.save state call.write).2) := by
    simp only [Impl.persist, hdurable, hstore, Bool.not_true, Bool.false_eq_true, if_false]
  rw [hpersist] at h ⊢
  obtain ⟨hvalid, hsize, -, hfile⟩ :=
    DurableStore.save_eq_ok (DurableStore.save_eq_of_status h)
  exact ⟨hfile, hlimits ▸ hvalid, hlimits ▸ hsize⟩

/-- A durable write that fails leaves the store file as it was. -/
theorem storeFile_of_persist_error {impl : Impl} {state : PersistentState} {call : Call}
    {error : Error} (h : (impl.persist state call).2 = .error error) :
    (impl.persist state call).1.storeFile = impl.storeFile := by
  unfold Impl.persist at h ⊢
  split
  · rfl
  · next hdurable =>
      cases hstore : impl.store with
      | none => rfl
      | some store =>
          simp only [hdurable, hstore] at h
          unfold Impl.storeFile
          rw [hstore]
          exact DurableStore.file_of_save_error h

/-- The store file of a durable coordinator holds what stands in memory, at its epoch. -/
structure Mirrors (impl : Impl) (state : PersistentState) : Prop extends Saved impl state where
  standing : state.standing = impl.standing
  epoch : state.epoch = impl.authority.epoch

/-- A state that differs in its store alone, and holds the same file, mirrors the same. -/
theorem Mirrors.of_same {before after : Impl} {state : PersistentState}
    (h : Mirrors before state) (hfile : after.storeFile = before.storeFile)
    (hconfig : after.config = before.config) (hstanding : after.standing = before.standing)
    (hepoch : after.authority.epoch = before.authority.epoch) : Mirrors after state :=
  ⟨⟨hfile.trans h.file, hconfig ▸ h.valid, hconfig ▸ h.size⟩,
    h.standing.trans hstanding.symm, h.epoch.trans hepoch.symm⟩

/-- A critical section leaves the file as it was, or writes the projection of the state
that it leaves. -/
theorem Section.mirrors {event : Event} (h : Section event) (hsound : Sound event.pre)
    (hdurable : event.pre.impl.durable = true) {state : PersistentState}
    (hmirrors : Mirrors event.pre.impl state) :
    Mirrors event.post.impl state ∧
        (Replied event.pre.impl event.input.action event.post.impl.authority ∨
          WriteFails event) ∨
      ∃ next, Mirrors event.post.impl next ∧ Projects event.post.impl next := by
  cases h with
  | replied hstore hconfig hstanding hreplied =>
      have hfile : event.post.impl.storeFile = event.pre.impl.storeFile := by
        rw [Impl.storeFile, Impl.storeFile, hstore]
      exact .inl ⟨hmirrors.of_same hfile hconfig hstanding hreplied.epoch, .inl hreplied⟩
  | @unwritten staged next error hkept hstore hwrote hfails herror hpost =>
      have hfile : event.post.impl.storeFile = event.pre.impl.storeFile := by
        rw [hpost, storeFile_of_persist_error herror, Impl.storeFile, Impl.storeFile, hstore]
      obtain ⟨saved, -, hsaved⟩ := staged.persist_fst next event.input.call
      rw [hsaved] at hpost
      left
      refine ⟨hmirrors.of_same hfile ?_ ?_ ?_, .inr hfails⟩
      · rw [hpost]
        exact hkept.config
      · rw [hpost]
        exact hkept.standing
      · rw [hpost]
        exact hwrote.epoch
  | @written staged next applies hkept hstore hwrote hprojects hstanding hok hpost =>
      right
      have hstored := hsound.stored.of_same hkept.config hkept.durable hkept.stored
      have hsaved := Saved.of_persist hstored (hkept.durable.trans hdurable) hok
      obtain ⟨saved, -, hpersist⟩ := staged.persist_fst next event.input.call
      refine ⟨next, ?_⟩
      rw [hpost]
      rw [hpersist] at hsaved ⊢
      cases applies with
      | true =>
          exact ⟨⟨⟨hsaved.file, hsaved.valid, hsaved.size⟩, rfl, hprojects.epoch⟩,
            hprojects.epoch, hprojects.fencedBoots, hprojects.liveBoots, hprojects.attempts, rfl⟩
      | false =>
          exact ⟨⟨⟨hsaved.file, hsaved.valid, hsaved.size⟩, hstanding rfl, hprojects.epoch⟩,
            hprojects.epoch, hprojects.fencedBoots, hprojects.liveBoots, hprojects.attempts,
            hprojects.watermarks⟩

/-! ## What a restart restores -/

/-- What a coordinator over a restored state starts from. -/
structure Recovered (impl : Impl) (config : CoordinatorConfig) (authority : AuthorityRegistry)
    (restored : Option PersistentState) : Prop where
  configured : impl.config = config
  durable : impl.durable = (config.storePath != "")
  registry : impl.authority = authority
  sequence : impl.invalidationSequence = 0
  restores : ∀ state, restored = some state →
    impl.evidence = state.evidence ∧ impl.watermarks = state.watermarks ∧
      impl.sets = state.sets ∧ impl.populations = state.populations ∧
      impl.lastGeneration = state.lastEvaluationGeneration

theorem recover_recovered (config : CoordinatorConfig) (report : StoreReport config.limits)
    (authority : AuthorityRegistry) (restored : Option PersistentState)
    (store : Option DurableStore) :
    Recovered { recover (unopened config report authority) restored with store } config
      authority restored := by
  cases restored with
  | none => exact ⟨rfl, rfl, rfl, rfl, fun state h => by cases h⟩
  | some state =>
      refine ⟨rfl, rfl, rfl, rfl, fun other h => ?_⟩
      cases h
      exact ⟨rfl, rfl, rfl, rfl, rfl⟩

/-- What opening a coordinator leaves in memory and, when it is durable, in its store. -/
theorem openCoordinator_recovered {config : CoordinatorConfig}
    {report : StoreReport config.limits} {call : Call} {impl : Impl}
    (h : openCoordinator config report call = .ok impl) :
    ∃ restored authority, restoredState config report = .ok restored ∧
      nextIncarnation restored call.clock = .ok authority ∧
      Recovered impl config authority restored ∧
      (impl.durable = true → Mirrors impl impl.toState ∧ Projects impl impl.toState) := by
  obtain ⟨-, restored, authority, hrestored, hauthority, hpersist⟩ :=
    openCoordinator_eq_ok.mp h
  refine ⟨restored, authority, hrestored, hauthority, ?_⟩
  obtain ⟨store, -, hsame⟩ := (recover (unopened config report authority) restored).persist_fst
    (recover (unopened config report authority) restored).toState call
  have himpl := hsame
  rw [hpersist] at himpl
  dsimp only at himpl
  subst himpl
  refine ⟨recover_recovered config report authority restored store, fun hdurable => ?_⟩
  have hstored : (recover (unopened config report authority) restored).Stored := by
    intro hbefore
    have hopen : (config.storePath != "") = true :=
      (recover_recovered config report authority restored none).durable.symm.trans hbefore
    cases restored with
    | none => simp [recover, Impl.rebuildDerived, unopened, hopen]
    | some state => simp [recover, Impl.rebuildDerived, unopened, hopen]
  have hsaved := Saved.of_persist hstored hdurable (congrArg Prod.snd hpersist)
  rw [hsame] at hsaved
  exact ⟨⟨hsaved, rfl, rfl⟩, rfl, rfl, rfl, rfl, rfl⟩

/-- The restart finds a state in the store file that it can load. -/
def Reloads (event : LifeEvent) : Prop :=
  ∀ config call, event.input = .restart config call → config.storePath ≠ "" ∧
    ∃ loaded, (storeOver config event.pre.impl.storeFile).load = .ok loaded

theorem DurableStore.report_of_load {store : DurableStore} {state : PersistentState}
    (h : store.load = .ok state) :
    ∃ file valid, store.report = .loaded file ⟨state, valid⟩ := by
  unfold report
  split
  · next hfile =>
      unfold load at h
      rw [hfile] at h
      cases h
  · next file loaded _ hload =>
      obtain rfl := Except.ok.inj (hload.symm.trans h)
      exact ⟨file, validate_of_load h, rfl⟩
  · next error _ hload =>
      rw [h] at hload
      cases hload

theorem DurableStore.load_of_report {store : DurableStore} {file : List UInt8}
    {loaded : LoadedState store.limits} (h : store.report = .loaded file loaded) :
    store.load = .ok loaded.state := by
  unfold report at h
  split at h
  · cases h
  · next hload =>
      cases h
      exact hload
  · cases h

/-- A store that loads a state reports it. -/
theorem restoredState_of_load {config : CoordinatorConfig} {file : Option (List UInt8)}
    {state : PersistentState} (hpath : config.storePath ≠ "")
    (h : (storeOver config file).load = .ok state) :
    restoredState config (storeOver config file).report = .ok (some state) := by
  obtain ⟨bytes, valid, hreport⟩ := DurableStore.report_of_load h
  unfold restoredState
  rw [if_neg hpath, hreport]

/-- A state that was restored was loaded from the file. -/
theorem load_of_restoredState {config : CoordinatorConfig} {file : Option (List UInt8)}
    {state : PersistentState}
    (h : restoredState config (storeOver config file).report = .ok (some state)) :
    config.storePath ≠ "" ∧ (storeOver config file).load = .ok state := by
  unfold restoredState at h
  split at h
  · cases h
  · next hpath =>
      refine ⟨hpath, ?_⟩
      split at h
      · cases h
      · cases h
      · next hreport =>
          cases h
          exact DurableStore.load_of_report hreport
      · split at h <;> cases h

/-- A restart that does not begin with the first epoch has loaded its file. -/
theorem Restarting.reloads {event : LifeEvent} {config : CoordinatorConfig} {call : Call}
    (h : Restarting event config call) (hepoch : event.post.impl.authority.epoch ≠ ⟨1⟩) :
    Reloads event := by
  intro other otherCall hinput
  have hsame := h.input.symm.trans hinput
  simp only [Turn.restart.injEq] at hsame
  obtain ⟨rfl, rfl⟩ := hsame
  obtain ⟨restored, authority, hrestored, hauthority, hrecovered, -⟩ :=
    openCoordinator_recovered h.opened
  cases restored with
  | none =>
      cases hauthority
      exact absurd (congrArg AuthorityRegistry.epoch hrecovered.registry) hepoch
  | some state =>
      obtain ⟨hpath, hload⟩ := load_of_restoredState hrestored
      exact ⟨hpath, state, hload⟩

/-- A restart that loads the file restores the state that the file holds. -/
theorem Restarting.reloaded {event : LifeEvent} {config : CoordinatorConfig} {call : Call}
    (h : Restarting event config call) (hreloads : Reloads event) {state : PersistentState}
    (hsaved : Saved event.pre.impl state) :
    ∃ authority, nextIncarnation (some state.stored) call.clock = .ok authority ∧
      Recovered event.post.impl config authority (some state.stored) ∧
      Mirrors event.post.impl event.post.impl.toState ∧
      Projects event.post.impl event.post.impl.toState := by
  obtain ⟨hpath, loaded, hload⟩ := hreloads config call h.input
  have hbound : (encodePersistentState state).length < 2 ^ 32 :=
    Nat.lt_of_le_of_lt hsaved.size
      event.pre.impl.config.limits.maxPersistenceRecordBytes.toNat_lt
  obtain rfl := DurableStore.stored_of_load hsaved.file hbound hload
  obtain ⟨restored, authority, hrestored, hauthority, hrecovered, hdurable⟩ :=
    openCoordinator_recovered h.opened
  rw [restoredState_of_load hpath hload] at hrestored
  cases hrestored
  have hopen : event.post.impl.durable = true := by
    rw [hrecovered.durable]
    exact bne_iff_ne.mpr hpath
  obtain ⟨hmirrors, hprojects⟩ := hdurable hopen
  exact ⟨authority, hauthority, hrecovered, hmirrors, hprojects⟩

/-! ## Invariants of lifetimes -/

/-- What holds of every state of a lifetime. -/
structure LifeSound (state : SystemState) : Prop extends Sound state where
  durability : state.impl.durable = (state.impl.config.storePath != "")
  mirrored : state.impl.durable = true → ∃ written, Mirrors state.impl written

theorem Opened.lifeSound {state : SystemState} (h : Opened state) : LifeSound state := by
  have hsound := h.sound
  cases h with
  | opened hopened =>
      obtain ⟨restored, authority, -, -, hrecovered, hmirrors⟩ := openCoordinator_recovered hopened
      refine ⟨hsound, ?_, fun hdurable => ⟨_, (hmirrors hdurable).1⟩⟩
      rw [hrecovered.configured]
      exact hrecovered.durable

theorem LifeSound.served {event : Event} (h : LifeSound event.pre) (htaken : event.Taken step) :
    LifeSound event.post := by
  have htransition := step_transition h.limits htaken
  obtain ⟨hconfig, hdurable, -, -⟩ := htransition.impl_kept h.derived
  refine ⟨htransition.sound h.toSound, ?_, fun hopen => ?_⟩
  · rw [hconfig, hdurable]
    exact h.durability
  · rw [hdurable] at hopen
    obtain ⟨written, hmirrors⟩ := h.mirrored hopen
    rcases (section_of_taken htaken).mirrors h.toSound hopen hmirrors with ⟨hsame, -⟩ | ⟨next, hnext, -⟩
    · exact ⟨written, hsame⟩
    · exact ⟨next, hnext⟩

theorem Restarting.opens {event : LifeEvent} {config : CoordinatorConfig} {call : Call}
    (h : Restarting event config call) : Opened event.post := by
  rw [h.fresh]
  exact .opened h.opened

theorem LifeSound.turned {event : LifeEvent} (h : LifeSound event.pre)
    (htaken : event.Taken turn) : LifeSound event.post := by
  rcases turn_cases htaken with ⟨served, hserving, hstep⟩ | ⟨config, call, hrestart⟩
  · rw [hserving.pre] at h
    rw [hserving.post]
    exact h.served hstep
  · exact hrestart.opens.lifeSound

/-- What a restart restores is what its process left in the store, as its encoding keeps
it. -/
theorem Restarting.restored {event : LifeEvent} {config : CoordinatorConfig} {call : Call}
    (h : Restarting event config call) (hsound : LifeSound event.pre)
    {state : PersistentState}
    (hrestored : restoredState config (storeOver config event.pre.impl.storeFile).report =
      .ok (some state)) :
    ∃ written, Mirrors event.pre.impl written ∧ state = written.stored := by
  obtain ⟨hpath, hload⟩ := load_of_restoredState hrestored
  have hdurable : event.pre.impl.durable = true := by
    rw [hsound.durability, ← h.path]
    exact bne_iff_ne.mpr hpath
  obtain ⟨written, hmirrors⟩ := hsound.mirrored hdurable
  have hbound : (encodePersistentState written).length < 2 ^ 32 :=
    Nat.lt_of_le_of_lt hmirrors.size
      event.pre.impl.config.limits.maxPersistenceRecordBytes.toNat_lt
  exact ⟨written, hmirrors, DurableStore.stored_of_load hmirrors.file hbound hload⟩

/-- A restart restores the records that its process left, as not proven since, or none. -/
theorem Restarting.evaluations {event : LifeEvent} {config : CoordinatorConfig} {call : Call}
    (h : Restarting event config call) (hsound : LifeSound event.pre) :
    event.post.impl.evaluations = [] ∨
      event.post.impl.evaluations = event.pre.impl.evaluations.map fun record =>
        { record with state := .recoveredUnproven } := by
  obtain ⟨-, restored, -, hrestored, -, -⟩ := openCoordinator_eq_ok.mp h.opened
  have hevaluations := openCoordinator_evaluations h.opened hrestored
  cases restored with
  | none => exact .inl hevaluations
  | some state =>
      obtain ⟨written, hmirrors, rfl⟩ := h.restored hsound hrestored
      have hsame : written.evaluations = event.pre.impl.evaluations :=
        congrArg Standing.evaluations hmirrors.standing
      right
      rw [hevaluations, ← hsame]
      rfl

/-- A property of history and state that opening establishes, and every critical section
and every restart preserves, holds of every lifetime. -/
theorem Lifetime.history_invariant {inv : List LifeEvent → SystemState → Prop}
    {events : List LifeEvent} {last : SystemState} (h : Lifetime events last)
    (hopened : ∀ start, Opened start → inv [] start)
    (hserve : ∀ before event after served, events = before ++ event :: after →
      Serving event served → served.Taken step → LifeSound event.pre →
      inv before event.pre → inv (before ++ [event]) event.post)
    (hrestart : ∀ before event after config call, events = before ++ event :: after →
      Restarting event config call → LifeSound event.pre →
      inv before event.pre → inv (before ++ [event]) event.post) : inv events last := by
  obtain ⟨start, hstart, hrun⟩ := h
  refine hrun.history_invariant (hopened start hstart) ?_
  intro before event after hevents htaken hinv
  rw [hevents] at hrun
  obtain ⟨hbefore, -, -⟩ := hrun.split_event
  have hsound : LifeSound event.pre :=
    hbefore.invariant hstart.lifeSound fun _ _ hearlier hsound => hsound.turned hearlier
  rcases turn_cases htaken with ⟨served, hserving, hstep⟩ | ⟨config, call, hrestarting⟩
  · exact hserve before event after served hevents hserving hstep hsound hinv
  · exact hrestart before event after config call hevents hrestarting hsound hinv

theorem Lifetime.lifeSound {events : List LifeEvent} {last : SystemState}
    (h : Lifetime events last) : LifeSound last := by
  obtain ⟨start, hstart, hrun⟩ := h
  exact hrun.invariant hstart.lifeSound fun _ _ htaken hsound => hsound.turned htaken

/-- The events before one of a lifetime are a lifetime. -/
theorem Lifetime.split {before after : List LifeEvent} {event : LifeEvent}
    {last : SystemState} (h : Lifetime (before ++ event :: after) last) :
    Lifetime before event.pre ∧ event.Taken turn ∧ Run turn event.post after last := by
  obtain ⟨start, hstart, hrun⟩ := h
  obtain ⟨hbefore, htaken, hafter⟩ := hrun.split_event
  exact ⟨⟨start, hstart, hbefore⟩, htaken, hafter⟩

/-! ## Sample lifetimes -/

/-- The turns of an opened coordinator. -/
def live (opened : Result Impl) (turns : List Turn) : Option (List LifeEvent × SystemState) :=
  match opened with
  | .ok impl => exec turn { impl } turns
  | .error _ => none

/-- Turns that pass a check are a lifetime that passes it. -/
theorem Lifetime.of_run_check {config : CoordinatorConfig} {report : StoreReport config.limits}
    {call : Call} {turns : List Turn} (check : List LifeEvent × SystemState → Bool)
    (h : (live (openCoordinator config report call) turns).any check = true) :
    ∃ events last, live (openCoordinator config report call) turns = some (events, last) ∧
      Lifetime events last ∧ check (events, last) = true := by
  cases hopened : openCoordinator config report call with
  | error error => simp [hopened, live] at h
  | ok impl =>
      rw [hopened] at h
      obtain ⟨run, hrun, hcheck⟩ := (Option.any_eq_true _ _).mp h
      exact ⟨run.1, run.2, hrun, ⟨{ impl }, .opened hopened, Run.of_exec hrun⟩, hcheck⟩

/-- Turns that pass a check of their events are a lifetime that passes it. -/
theorem Lifetime.of_check {config : CoordinatorConfig} {report : StoreReport config.limits}
    {call : Call} {turns : List Turn} (check : List LifeEvent → Bool)
    (h : ((live (openCoordinator config report call) turns).any fun run => check run.1) =
      true) :
    ∃ events last, live (openCoordinator config report call) turns = some (events, last) ∧
      Lifetime events last ∧ check events = true :=
  Lifetime.of_run_check (fun run => check run.1) h

/-- The turns of a sample coordinator in memory, after its publisher registered. -/
def sampleLife (turns : List Turn) : Option (List LifeEvent × SystemState) :=
  live (openInMemory sampleConfig sampleCall) (.serve sampleRegister :: turns)

/-- The turns of a sample coordinator over a store that does not exist yet. -/
def sampleDurableLife (turns : List Turn) : Option (List LifeEvent × SystemState) :=
  live (openCoordinator sampleDurable .absent sampleCall) turns

end ConstraintRouting.Fabric
