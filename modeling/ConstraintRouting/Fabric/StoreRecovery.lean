import ConstraintRouting.Fabric.Authorization
import ConstraintRouting.Fabric.Fencing
import ConstraintRouting.Fabric.GenerationCounter
import ConstraintRouting.Fabric.ResultsSpec
import ConstraintRouting.Fabric.Sites

/-!
# Recovery from a store

While a store has one owner, every open begins an epoch above all earlier ones, restores
what was saved last, holds no registration and proves no result.  A second owner, which a
record lock admits in the same process, rolls the epoch of the store back.
-/

namespace ConstraintRouting.Fabric

open Verified.Checks (isOk_iff)
open Verified.StepMachine

/-! ## What a section saves -/

/-- The saved state is the projection of a registry whose epoch did not move, and stands in
the file; without one the file is as it was. -/
inductive Saves (pre post : Impl) : Option PersistentState → Prop
  | unsaved : post.storeFile = pre.storeFile → Saves pre post none
  | saved (next : PersistentState) : Saved post next →
      next.epoch = pre.authority.epoch → Saves pre post (some next)

/-- A staged write saves its state, or leaves the file as it was. -/
theorem Staged.saves {α : Type} {pre staged : Impl} {next : PersistentState} {applies : Bool}
    {value : α} {call : Call} (hstored : pre.Stored) (hdurable : pre.durable = true)
    (hkept : pre.Kept staged) (hstore : staged.store = pre.store)
    (hepoch : next.epoch = pre.authority.epoch) :
    Saves pre ((Staged.write staged next applies value).settle call).1
      ((Staged.write staged next applies value).saved call) := by
  rcases (Staged.write staged next applies value).settle_cases call with
    ⟨_, _, hreply, -⟩ | ⟨_, _, _, _, hwrite, ⟨error, herror, hsettle⟩ | ⟨hok, hsettle⟩⟩
  · cases hreply
  · cases hwrite
    have hnone : (Staged.write staged next applies value).saved call = none := by
      simp only [Staged.saved, herror, Verified.Checks.isOk_error, Bool.false_eq_true, if_false]
    rw [hsettle, hnone]
    refine .unsaved ?_
    dsimp only
    rw [storeFile_of_persist_error herror, Impl.storeFile, Impl.storeFile, hstore]
  · cases hwrite
    have hsome : (Staged.write staged next applies value).saved call = some next := by
      simp only [Staged.saved, hok, Verified.Checks.isOk_ok, if_true]
    rw [hsettle, hsome]
    have hsaved := Saved.of_persist (hstored.of_same hkept.config hkept.durable hkept.stored)
      (hkept.durable.trans hdurable) hok
    refine .saved next ?_ hepoch
    cases applies with
    | true => exact ⟨hsaved.file, hsaved.valid, hsaved.size⟩
    | false => exact hsaved

/-- The first section of an evaluation leaves the store alone. -/
theorem SystemState.begin_store (state : SystemState) (context : AuthorityContext)
    (setId : ConstraintSetId) (candidates : List CandidatePath)
    (expectedGeneration : ConstraintSetGeneration) (call : Call) :
    (state.begin context setId candidates expectedGeneration call).1.impl.store =
      state.impl.store := by
  obtain ⟨attempts, lastGeneration, hbegin⟩ := evaluateBegin_fst state.impl context setId
    candidates expectedGeneration call
  rw [state.begin_impl context setId candidates expectedGeneration call, hbegin]

/-- What a critical section of a durable coordinator saves. -/
theorem saves_of_taken {event : Event} (htaken : event.Taken step) (hsound : Sound event.pre)
    (hdurable : event.pre.impl.durable = true) :
    Saves event.pre.impl event.post.impl (event.pre.saved event.input) := by
  obtain ⟨pre, ⟨action, call⟩, output, post⟩ := event
  unfold Event.Taken step at htaken
  cases action with
  | operate operation =>
      simp only [Option.some.injEq, Prod.mk.injEq] at htaken
      obtain ⟨rfl, rfl⟩ := htaken
      have hwithin := operation.stage_within pre.impl call
      have hprojected := operation.stage_projected pre.impl call
      show Saves pre.impl ((operation.stage pre.impl call).settle call).1
        ((operation.stage pre.impl call).saved call)
      cases hstage : operation.stage pre.impl call with
      | reply after result =>
          rw [hstage] at hprojected
          refine .unsaved ?_
          show after.storeFile = pre.impl.storeFile
          rw [Impl.storeFile, Impl.storeFile, hprojected.1]
      | write staged next applies value =>
          rw [hstage] at hwithin hprojected
          obtain ⟨hstore, hwrote, hprojects, -⟩ := hprojected
          exact Staged.saves hsound.stored hdurable hwithin.1 hstore
            (hprojects.epoch.trans hwrote.epoch)
  | evaluateBegin context setId candidates expectedGeneration =>
      have hstore := pre.begin_store context setId candidates expectedGeneration call
      rw [Option.some.inj htaken] at hstore
      refine .unsaved ?_
      rw [Impl.storeFile, Impl.storeFile, hstore]
  | evaluateFinish ticket =>
      unfold SystemState.finish at htaken
      dsimp only at htaken
      split at htaken
      · next snapshot hflight =>
          simp only [Option.map_eq_some_iff, Prod.mk.injEq] at htaken
          obtain ⟨staged, hstaged, rfl, rfl⟩ := htaken
          have hsaved : pre.saved ⟨.evaluateFinish ticket, call⟩ = staged.saved call := by
            unfold SystemState.saved
            dsimp only
            rw [hflight]
            dsimp only
            rw [hstaged, Option.bind_some]
          dsimp only
          rw [hsaved]
          show Saves pre.impl (staged.settle call).1 (staged.saved call)
          cases staged with
          | reply after result =>
              obtain rfl := evaluateFinish_reply hstaged
              exact .unsaved rfl
          | write impl next applies value =>
              obtain rfl := evaluateFinish_eq_write hstaged
              obtain ⟨hprojects, -⟩ := evaluateFinish_projects hstaged
              exact Staged.saves hsound.stored hdurable (.refl _) rfl hprojects.epoch
      · cases htaken
  | revalidateRead context setId =>
      refine .unsaved ?_
      simp only [Option.some.injEq] at htaken
      unfold SystemState.readPopulation at htaken
      dsimp only at htaken
      split at htaken
      · cases htaken
        rfl
      · cases htaken
        rfl
  | revalidateBegin ticket =>
      unfold SystemState.revalidate at htaken
      dsimp only at htaken
      split at htaken
      · next context setId population hflight =>
          have hstore := (pre.land ticket).begin_store context setId population {} call
          rw [Option.some.inj htaken] at hstore
          refine .unsaved ?_
          rw [Impl.storeFile, Impl.storeFile, hstore]
          rfl
      · cases htaken

/-! ## Steps at a store -/

/-- What a step at a store does. -/
inductive SiteStep (platform : Platform) (path : String) (event : SiteEvent) : Prop
  | started (process : Nat) (config : CoordinatorConfig) (call : Call) (impl : Impl) :
      event.input = .start process config call → config.storePath = path →
      (storeOver config event.pre.file).loads = true →
      event.pre.grants platform process = true →
      openCoordinator config (storeOver config event.pre.file).report call = .ok impl →
      event.output = .started impl → event.post.file = impl.storeFile →
      event.post.coordinators =
        event.pre.coordinators ++ [{ process, state := { impl } }] →
      SiteStep platform path event
  | refused (process : Nat) (config : CoordinatorConfig) (call : Call) (error : Error) :
      event.input = .start process config call → event.output = .refused error →
      event.post.file = event.pre.file →
      event.post.coordinators = event.pre.coordinators → SiteStep platform path event
  | served (position : Nat) (hosted : Hosted) (served : Event) :
      event.input = .serve position served.input →
      event.pre.coordinators[position]? = some hosted →
      served.pre = hosted.state.over event.pre.file → served.Taken step →
      event.output = .served served.output →
      event.post.file = served.post.impl.storeFile →
      event.post.coordinators =
        event.pre.coordinators.set position { hosted with state := served.post } →
      SiteStep platform path event
  | stopped (position : Nat) :
      event.input = .stop position → event.output = .stopped →
      event.post.file = event.pre.file →
      event.post.coordinators = event.pre.coordinators.eraseIdx position →
      SiteStep platform path event

theorem Site.release_file (site : Site) (process : Nat) :
    (site.release process).file = site.file := by
  unfold release
  split <;> rfl

theorem Site.release_coordinators (site : Site) (process : Nat) :
    (site.release process).coordinators = site.coordinators := by
  unfold release
  split <;> rfl

theorem siteStep_of_taken {platform : Platform} {path : String} {event : SiteEvent}
    (h : event.Taken (Site.step platform path)) : SiteStep platform path event := by
  obtain ⟨pre, input, output, post⟩ := event
  unfold Event.Taken at h
  cases input with
  | start process config call =>
      simp only [Site.step, Option.ite_none_right_eq_some, Option.some.injEq] at h
      obtain ⟨⟨hpath, hloads⟩, h⟩ := h
      unfold Site.start at h
      split at h
      · cases h
        exact .refused process config call _ rfl rfl rfl rfl
      · split at h
        · cases h
          exact .refused process config call _ rfl rfl rfl rfl
        · next hgranted =>
            split at h
            · cases h
              exact .refused process config call _ rfl rfl (pre.release_file process)
                (pre.release_coordinators process)
            · next impl hopened =>
                cases h
                rw [Bool.not_eq_true', Bool.not_eq_false] at hgranted
                exact .started process config call impl rfl hpath hloads hgranted hopened rfl
                  rfl rfl
  | serve position input =>
      simp only [Site.step, Site.serve, Option.bind_eq_some_iff, Option.map_eq_some_iff,
        Prod.exists, Prod.mk.injEq] at h
      obtain ⟨hosted, hfound, state, reply, htaken, rfl, rfl⟩ := h
      exact .served position hosted ⟨hosted.state.over pre.file, input, reply, state⟩ rfl hfound
        rfl htaken rfl rfl rfl
  | stop position =>
      simp only [Site.step, Site.stop, Option.map_eq_some_iff, Prod.mk.injEq] at h
      obtain ⟨hosted, -, rfl, rfl⟩ := h
      exact .stopped position rfl rfl (pre.release_file hosted.process) rfl

/-- Every open coordinator is sound, and durable. -/
def Site.Sound (site : Site) : Prop :=
  ∀ hosted ∈ site.coordinators,
    Fabric.Sound hosted.state ∧ hosted.state.impl.durable = true

/-- A coordinator stays sound when its store file changes. -/
theorem Sound.over {state : SystemState} (h : Sound state) (file : Option (List UInt8)) :
    Sound (state.over file) := by
  refine ⟨h.limits, fun hdurable => ?_, ⟨h.derived.current, h.derived.index⟩, h.unused⟩
  have hstored : state.impl.store.map (·.limits) = some state.impl.config.limits :=
    h.stored hdurable
  show (state.impl.store.map fun store => { store with file }).map (·.limits) =
    some state.impl.config.limits
  rw [← hstored, Option.map_map]
  rfl

/-- A durable coordinator over a file holds that file. -/
theorem Sound.storeFile_over {state : SystemState} (h : Sound state)
    (hdurable : state.impl.durable = true) (file : Option (List UInt8)) :
    (state.over file).impl.storeFile = file := by
  obtain ⟨store, hstore, -⟩ := Option.map_eq_some_iff.mp (h.stored hdurable)
  show (state.impl.store.map fun store => { store with file }).bind (·.file) = file
  rw [hstore]
  rfl

/-- A step at a store leaves sound coordinators. -/
theorem Site.Sound.stepped {platform : Platform} {path : String} (hpath : path ≠ "")
    {event : SiteEvent} (htaken : event.Taken (Site.step platform path))
    (h : event.pre.Sound) : event.post.Sound := by
  intro hosted hmem
  cases siteStep_of_taken htaken with
  | started process config call impl _ hstore _ _ hopened _ _ hcoordinators =>
      rw [hcoordinators] at hmem
      rcases List.mem_append.mp hmem with hold | hnew
      · exact h hosted hold
      · obtain rfl := List.mem_singleton.mp hnew
        obtain ⟨restored, authority, -, -, hrecovered, -⟩ := openCoordinator_recovered hopened
        refine ⟨Opened.sound (.opened hopened), ?_⟩
        dsimp only
        rw [hrecovered.durable, hstore]
        exact bne_iff_ne.mpr hpath
  | refused _ _ _ _ _ _ _ hcoordinators =>
      rw [hcoordinators] at hmem
      exact h hosted hmem
  | served position found served _ hfound hpre hserved _ _ hcoordinators =>
      rw [hcoordinators] at hmem
      rcases List.mem_or_eq_of_mem_set hmem with hold | rfl
      · exact h hosted hold
      · obtain ⟨hsound, hdurable⟩ := h found (List.mem_of_getElem? hfound)
        have hbefore : Fabric.Sound served.pre := hpre ▸ hsound.over event.pre.file
        have htransition := step_transition hbefore.limits hserved
        refine ⟨htransition.sound hbefore, ?_⟩
        rw [(htransition.impl_kept hbefore.derived).2.1, hpre]
        exact hdurable
  | stopped position _ _ _ hcoordinators =>
      rw [hcoordinators] at hmem
      exact h hosted (List.mem_of_mem_eraseIdx hmem)

/-! ## What an open restores -/

/-- The state that the file holds is what an open restores, as its encoding keeps it. -/
theorem restoredState_of_saved {config : CoordinatorConfig} {saved : PersistentState}
    (hpath : config.storePath ≠ "") (hsize : (encodePersistentState saved).length < 2 ^ 32)
    (hloads : (storeOver config
      (some (encodeEnvelope (encodePersistentState saved)))).loads = true) :
    restoredState config
        (storeOver config (some (encodeEnvelope (encodePersistentState saved)))).report =
      .ok (some saved.stored) := by
  unfold DurableStore.loads at hloads
  rw [Bool.or_eq_true, isOk_iff] at hloads
  rcases hloads with habsent | ⟨loaded, hload⟩
  · cases habsent
  · obtain rfl := DurableStore.stored_of_load rfl hsize hload
    exact restoredState_of_load hpath hload

/-- The next incarnation begins an epoch above that of the restored state. -/
theorem nextIncarnation_lt {state : PersistentState} {clock : Nat → UInt64}
    {authority : AuthorityRegistry} (h : nextIncarnation (some state) clock = .ok authority) :
    state.epoch.value < authority.epoch.value := by
  unfold nextIncarnation at h
  dsimp only at h
  split at h
  · next hunset =>
      obtain ⟨-, rfl⟩ := AuthorityRegistry.establishEpoch_ok h
      have hzero : state.epoch.value = 0 := by
        simpa [Generation.isValid] using hunset
      rw [hzero]
      decide
  · split at h
    · cases h
    · next epoch hnext =>
        obtain ⟨-, rfl⟩ := AuthorityRegistry.establishEpoch_ok h
        exact Generation.lt_of_next hnext

/-- The coordinator starts from what was saved. -/
structure Restores (saved : PersistentState) (impl : Impl) : Prop where
  evidence : impl.evidence = saved.evidence
  sets : impl.sets = saved.sets
  populations : impl.populations = saved.populations
  generation : impl.lastGeneration = saved.lastEvaluationGeneration
  keys : impl.watermarks.keys = saved.watermarks.keys
  families : ∀ family ∈ kFamilies,
    impl.watermarks.family family = saved.watermarks.family family

/-- A coordinator that was just opened holds no registration and no current record. -/
theorem openCoordinator_unproven {config : CoordinatorConfig}
    {report : StoreReport config.limits} {call : Call} {impl : Impl}
    (h : openCoordinator config report call = .ok impl) :
    impl.authority.registrations = [] ∧
      ∀ record ∈ impl.evaluations, record.state = .recoveredUnproven := by
  obtain ⟨restored, authority, hrestored, hauthority, hrecovered, -⟩ :=
    openCoordinator_recovered h
  constructor
  · rw [hrecovered.registry]
    exact (nextIncarnation_empty hauthority).1
  · intro record hmem
    rw [openCoordinator_evaluations h hrestored] at hmem
    obtain ⟨before, -, rfl⟩ := List.mem_map.mp hmem
    rfl

/-- A coordinator that is opened over a saved state restores it, in a later epoch. -/
theorem openCoordinator_restores {config : CoordinatorConfig} {saved : PersistentState}
    {call : Call} {impl : Impl} (hpath : config.storePath ≠ "")
    (hsize : (encodePersistentState saved).length < 2 ^ 32)
    (hloads : (storeOver config
      (some (encodeEnvelope (encodePersistentState saved)))).loads = true)
    (h : openCoordinator config
      (storeOver config (some (encodeEnvelope (encodePersistentState saved)))).report call =
        .ok impl) :
    Restores saved impl ∧ saved.epoch.value < impl.authority.epoch.value := by
  obtain ⟨restored, authority, hrestored, hauthority, hrecovered, -⟩ :=
    openCoordinator_recovered h
  rw [restoredState_of_saved hpath hsize hloads] at hrestored
  obtain rfl := Except.ok.inj hrestored
  obtain ⟨hevidence, hwatermarks, hsets, hpopulations, hgeneration⟩ :=
    hrecovered.restores saved.stored rfl
  constructor
  · refine ⟨hevidence, hsets, hpopulations, hgeneration, ?_, ?_⟩
    · rw [hwatermarks]
      rfl
    · intro family hmem
      rw [hwatermarks]
      exact saved.watermarks.stored_family hmem
  · rw [hrecovered.registry]
    exact nextIncarnation_lt hauthority

/-! ## Runs at a store -/

/-- A state that some store saved. -/
structure SavedState where
  state : PersistentState
  limits : Limits
  valid : Validated state limits
  size : (encodePersistentState state).length ≤ limits.maxPersistenceRecordBytes.toNat

/-- A store that nobody has open, over a file that was saved before or none. -/
def Site.unowned (first : Option SavedState) : Site :=
  { file := first.map fun saved => encodeEnvelope (encodePersistentState saved.state) }

/-- No process is granted the lock of the store while a coordinator has it open. -/
def Unshared (platform : Platform) (event : SiteEvent) : Prop :=
  ∀ process config call, event.input = .start process config call →
    event.pre.grants platform process = true → event.pre.coordinators = []

theorem unshared_windows (event : SiteEvent) : Unshared .windows event :=
  fun _ _ _ _ hgranted => List.isEmpty_iff.mp hgranted

/-- The last saved state is in an epoch that the given one does not exceed. -/
def Reached (saved : Option PersistentState) (epoch : CoordinatorEpoch) : Prop :=
  ∃ state, saved = some state ∧ epoch.value ≤ state.epoch.value

/-- What holds at a store with one owner: the file holds the last saved state, which is in
the epoch of the owner, and no earlier coordinator was in a later one. -/
structure Ledger (first : Option SavedState) (history : List SiteEvent) (site : Site) :
    Prop where
  file : site.file = (lastSaved (first.map (·.state)) history).map fun saved =>
    encodeEnvelope (encodePersistentState saved)
  size : ∀ saved, lastSaved (first.map (·.state)) history = some saved →
    (encodePersistentState saved).length < 2 ^ 32
  owner : site.coordinators.length ≤ 1
  epoch : ∀ hosted ∈ site.coordinators, ∃ saved,
    lastSaved (first.map (·.state)) history = some saved ∧
      saved.epoch = hosted.state.impl.authority.epoch
  begun : ∀ saved, first = some saved →
    Reached (lastSaved (first.map (·.state)) history) saved.state.epoch
  earlier : ∀ event ∈ history, ∀ hosted ∈ event.post.coordinators,
    Reached (lastSaved (first.map (·.state)) history) hosted.state.impl.authority.epoch

theorem Ledger.unowned (first : Option SavedState) : Ledger first [] (Site.unowned first) := by
  refine ⟨?_, ?_, Nat.zero_le _, List.forall_mem_nil _, ?_, List.forall_mem_nil _⟩
  · show first.map _ = (first.map _).map _
    rw [Option.map_map]
    rfl
  · intro saved hsaved
    obtain ⟨other, -, rfl⟩ := Option.map_eq_some_iff.mp hsaved
    exact Nat.lt_of_le_of_lt other.size other.limits.maxPersistenceRecordBytes.toNat_lt
  · intro saved hfirst
    exact ⟨saved.state, by rw [hfirst]; rfl, Nat.le_refl _⟩

namespace Ledger

variable {platform : Platform} {path : String} {first : Option SavedState}
  {before : List SiteEvent} {event : SiteEvent}

/-- A step that saves nothing keeps the ledger. -/
theorem kept (h : Ledger first before event.pre) (hsaved : savedBy event = none)
    (hfile : event.post.file = event.pre.file)
    (howner : event.post.coordinators.length ≤ 1)
    (hepochs : ∀ hosted ∈ event.post.coordinators, ∃ found ∈ event.pre.coordinators,
      hosted.state.impl.authority.epoch = found.state.impl.authority.epoch) :
    Ledger first (before ++ [event]) event.post := by
  have hlast : lastSaved (first.map (·.state)) (before ++ [event]) =
      lastSaved (first.map (·.state)) before := by
    rw [lastSaved_concat, hsaved]
    rfl
  have hepoch : ∀ hosted ∈ event.post.coordinators, ∃ saved,
      lastSaved (first.map (·.state)) before = some saved ∧
        saved.epoch = hosted.state.impl.authority.epoch := by
    intro hosted hmem
    obtain ⟨found, hfound, hsame⟩ := hepochs hosted hmem
    rw [hsame]
    exact h.epoch found hfound
  refine ⟨?_, ?_, howner, ?_, ?_, ?_⟩
  all_goals rw [hlast]
  · rw [hfile]
    exact h.file
  · exact h.size
  · exact hepoch
  · exact h.begun
  · intro other hmem hosted hhosted
    rcases List.mem_append.mp hmem with hold | hnew
    · exact h.earlier other hold hosted hhosted
    · obtain rfl := List.mem_singleton.mp hnew
      obtain ⟨saved, hlastSaved, hsame⟩ := hepoch hosted hhosted
      exact ⟨saved, hlastSaved, hsame ▸ Nat.le_refl _⟩

/-- A step that saves a state of the only owner, in an epoch that is not below the one that
was saved before, keeps the ledger. -/
theorem saved (h : Ledger first before event.pre) {next : PersistentState} {hosted : Hosted}
    (hsaved : savedBy event = some next)
    (hfile : event.post.file = some (encodeEnvelope (encodePersistentState next)))
    (hsize : (encodePersistentState next).length < 2 ^ 32)
    (hcoordinators : event.post.coordinators = [hosted])
    (hepoch : next.epoch = hosted.state.impl.authority.epoch)
    (hadvances : ∀ saved, lastSaved (first.map (·.state)) before = some saved →
      saved.epoch.value ≤ next.epoch.value) :
    Ledger first (before ++ [event]) event.post := by
  have hlast : lastSaved (first.map (·.state)) (before ++ [event]) = some next := by
    rw [lastSaved_concat, hsaved]
    rfl
  have hreached : ∀ epoch, Reached (lastSaved (first.map (·.state)) before) epoch →
      Reached (some next) epoch := by
    intro epoch hbefore
    obtain ⟨saved, hlastSaved, hle⟩ := hbefore
    exact ⟨next, rfl, UInt64.le_trans hle (hadvances saved hlastSaved)⟩
  refine ⟨?_, ?_, ?_, ?_, ?_, ?_⟩
  · rw [hlast, hfile]
    rfl
  · rw [hlast]
    intro other hother
    obtain rfl := Option.some.inj hother
    exact hsize
  · rw [hcoordinators]
    exact Nat.le_refl _
  · intro other hmem
    rw [hcoordinators] at hmem
    obtain rfl := List.mem_singleton.mp hmem
    exact ⟨next, hlast, hepoch⟩
  · intro saved hfirst
    rw [hlast]
    exact hreached _ (h.begun saved hfirst)
  · intro other hmem found hfound
    rw [hlast]
    rcases List.mem_append.mp hmem with hold | hnew
    · exact hreached _ (h.earlier other hold found hfound)
    · obtain rfl := List.mem_singleton.mp hnew
      rw [hcoordinators] at hfound
      obtain rfl := List.mem_singleton.mp hfound
      exact ⟨next, rfl, hepoch ▸ UInt64.le_refl _⟩

/-- The only coordinator of a store is the one that is found. -/
theorem eq_singleton_of_getElem? {coordinators : List Hosted} {position : Nat}
    {hosted : Hosted} (hlength : coordinators.length ≤ 1)
    (hfound : coordinators[position]? = some hosted) :
    coordinators = [hosted] ∧ position = 0 := by
  match coordinators, hlength with
  | [], _ => cases hfound
  | [only], _ =>
      cases position with
      | zero => exact ⟨congrArg (fun found => [found]) (Option.some.inj hfound), rfl⟩
      | succ position => cases hfound
  | _ :: _ :: _, hlength =>
      simp only [List.length_cons] at hlength
      omega

/-- A step at a store with one owner keeps the ledger. -/
theorem stepped (hpath : path ≠ "") (htaken : event.Taken (Site.step platform path))
    (hunshared : Unshared platform event) (hsound : event.pre.Sound)
    (h : Ledger first before event.pre) : Ledger first (before ++ [event]) event.post := by
  cases siteStep_of_taken htaken with
  | started process config call impl hinput hstore hloads hgranted hopened houtput hfile
      hcoordinators =>
      have hconfigured : config.storePath ≠ "" := hstore ▸ hpath
      obtain ⟨restored, authority, -, -, hrecovered, hmirrors⟩ :=
        openCoordinator_recovered hopened
      have hdurable : impl.durable = true := by
        rw [hrecovered.durable]
        exact bne_iff_ne.mpr hconfigured
      obtain ⟨hmirror, -⟩ := hmirrors hdurable
      have hsaved : savedBy event = some impl.toState := by
        unfold savedBy
        rw [hinput, houtput]
      rw [hunshared process config call hinput hgranted, List.nil_append] at hcoordinators
      refine h.saved hsaved (hfile.trans hmirror.file) ?_ hcoordinators rfl ?_
      · exact Nat.lt_of_le_of_lt hmirror.size
          impl.config.limits.maxPersistenceRecordBytes.toNat_lt
      · intro saved hlast
        have hbytes := h.file
        rw [hlast] at hbytes
        rw [hbytes] at hloads hopened
        have hadvances := (openCoordinator_restores hconfigured (h.size saved hlast) hloads
          hopened).2
        exact UInt64.le_of_lt hadvances
  | refused _ _ _ _ hinput houtput hfile hcoordinators =>
      refine h.kept ?_ hfile (hcoordinators ▸ h.owner) ?_
      · unfold savedBy
        rw [hinput, houtput]
      · intro hosted hmem
        exact ⟨hosted, hcoordinators ▸ hmem, rfl⟩
  | served position hosted served hinput hfound hpre hserved houtput hfile hcoordinators =>
      obtain ⟨hhosted, hdurable⟩ := hsound hosted (List.mem_of_getElem? hfound)
      have hbefore : Fabric.Sound served.pre := hpre ▸ hhosted.over event.pre.file
      have hopen : served.pre.impl.durable = true := by
        rw [hpre]
        exact hdurable
      have hsame : served.post.impl.authority.epoch = hosted.state.impl.authority.epoch := by
        have hmoved : served.post.impl.authority.epoch = served.pre.impl.authority.epoch := by
          rcases (section_of_taken hserved).registry with hreplied | hwrote
          · exact hreplied.epoch
          · exact hwrote.epoch
        rw [hmoved, hpre]
        rfl
      have hsaved : savedBy event = served.pre.saved served.input := by
        unfold savedBy
        rw [hinput, houtput]
        dsimp only
        rw [hfound, hpre]
        rfl
      have halone : event.pre.coordinators = [hosted] ∧ position = 0 :=
        eq_singleton_of_getElem? h.owner hfound
      have hsaves := saves_of_taken hserved hbefore hopen
      generalize served.pre.saved served.input = next at hsaved hsaves
      cases hsaves with
      | unsaved hunchanged =>
          refine h.kept hsaved ?_ ?_ ?_
          · rw [hfile, hunchanged, hpre]
            exact hhosted.storeFile_over hdurable event.pre.file
          · rw [hcoordinators, List.length_set]
            exact h.owner
          · intro other hmem
            rw [hcoordinators] at hmem
            refine ⟨hosted, List.mem_of_getElem? hfound, ?_⟩
            rw [halone.1, halone.2] at hmem
            obtain rfl := List.mem_singleton.mp hmem
            exact hsame
      | saved next hwritten hepoch =>
          have hcurrent : next.epoch = hosted.state.impl.authority.epoch := by
            rw [hepoch, hpre]
            rfl
          rw [halone.1, halone.2] at hcoordinators
          refine h.saved hsaved (hfile.trans hwritten.file) ?_ hcoordinators ?_ ?_
          · exact Nat.lt_of_le_of_lt hwritten.size
              served.post.impl.config.limits.maxPersistenceRecordBytes.toNat_lt
          · exact hcurrent.trans hsame.symm
          · intro saved hlast
            obtain ⟨other, hother, hstanding⟩ := h.epoch hosted (List.mem_of_getElem? hfound)
            obtain rfl := Option.some.inj (hlast.symm.trans hother)
            rw [hstanding, hcurrent]
            exact UInt64.le_refl _
  | stopped position hinput houtput hfile hcoordinators =>
      refine h.kept ?_ hfile ?_ ?_
      · unfold savedBy
        rw [hinput, houtput]
      · rw [hcoordinators]
        exact Nat.le_trans (List.length_eraseIdx_le _ _) h.owner
      · intro hosted hmem
        rw [hcoordinators] at hmem
        exact ⟨hosted, List.mem_of_mem_eraseIdx hmem, rfl⟩

end Ledger

/-! ## Current records -/

/-- The last section of an evaluation committed the record. -/
def CommitsRecord (event : SiteEvent) (record : EvaluationRecord) : Prop :=
  ∃ position ticket call outcome,
    event.input = .serve position { action := .evaluateFinish ticket, call } ∧
    event.output = .served (.evaluated (.ok outcome)) ∧ outcome.committed = true ∧
    record ∈ outcome.batch.records

/-- A record of an open coordinator is current. -/
def Site.Proves (site : Site) (record : EvaluationRecord) : Prop :=
  ∃ hosted ∈ site.coordinators, record ∈ hosted.state.impl.evaluations ∧
    record.state = .current

/-- A record that is current after a critical section was current before, or the section
committed it. -/
theorem current_of_taken {served : Event} (htaken : served.Taken step)
    (hsound : Sound served.pre) {record : EvaluationRecord}
    (hmem : record ∈ served.post.impl.evaluations) (hcurrent : record.state = .current) :
    record ∈ served.pre.impl.evaluations ∨
      ∃ ticket outcome, served.input.action = .evaluateFinish ticket ∧
        served.output = .evaluated (.ok outcome) ∧ outcome.committed = true ∧
        record ∈ outcome.batch.records := by
  have htransition := step_transition hsound.limits htaken
  cases htransition.resultsStep with
  | kept hkept _ _ => exact .inl (hkept record hmem hcurrent)
  | committed ticket snapshot next excess hcommits _ hwrites hevaluations =>
      rw [hevaluations] at hmem
      rcases hwrites.current_cases hmem hcurrent with hnew | ⟨hold, -⟩
      · cases htransition.finishOutcome hcommits.toFinishes with
        | moved outcome _ houtput hcommitted =>
            obtain ⟨other, hother, htrue⟩ := hcommits.reports
            rw [houtput] at hother
            cases hother
            rw [hcommitted] at htrue
            cases htrue
        | unwritten _ error _ _ houtput =>
            obtain ⟨other, hother, -⟩ := hcommits.reports
            rw [houtput] at hother
            cases hother
        | committed _ outcome _ _ _ houtput hcommitted hrecords =>
            exact .inr ⟨ticket, outcome, hcommits.action, houtput, hcommitted,
              hrecords ▸ hnew⟩
      · exact .inl hold

/-- A record that is current after a step at a store was current before, or the step
committed it. -/
theorem Site.Proves.stepped {platform : Platform} {path : String} {event : SiteEvent}
    {record : EvaluationRecord} (htaken : event.Taken (Site.step platform path))
    (hsound : event.pre.Sound) (h : event.post.Proves record) :
    event.pre.Proves record ∨ CommitsRecord event record := by
  obtain ⟨hosted, hhosted, hmem, hcurrent⟩ := h
  cases siteStep_of_taken htaken with
  | started process config call impl _ _ _ _ hopened _ _ hcoordinators =>
      rw [hcoordinators] at hhosted
      rcases List.mem_append.mp hhosted with hold | hnew
      · exact .inl ⟨hosted, hold, hmem, hcurrent⟩
      · obtain rfl := List.mem_singleton.mp hnew
        rw [(openCoordinator_unproven hopened).2 record hmem] at hcurrent
        cases hcurrent
  | refused _ _ _ _ _ _ _ hcoordinators =>
      rw [hcoordinators] at hhosted
      exact .inl ⟨hosted, hhosted, hmem, hcurrent⟩
  | served position found served hinput hfound hpre hserved houtput _ hcoordinators =>
      rw [hcoordinators] at hhosted
      rcases List.mem_or_eq_of_mem_set hhosted with hold | rfl
      · exact .inl ⟨hosted, hold, hmem, hcurrent⟩
      · have hstanding := List.mem_of_getElem? hfound
        have hbefore : Fabric.Sound served.pre :=
          hpre ▸ (hsound found hstanding).1.over event.pre.file
        rcases current_of_taken hserved hbefore hmem hcurrent with hkept |
          ⟨ticket, outcome, haction, hserves, hcommitted, hrecord⟩
        · rw [hpre] at hkept
          exact .inl ⟨found, hstanding, hkept, hcurrent⟩
        · refine .inr ⟨position, ticket, served.input.call, outcome, ?_, ?_, hcommitted,
            hrecord⟩
          · rw [hinput, ← haction]
          · rw [houtput, hserves]
  | stopped position _ _ _ hcoordinators =>
      rw [hcoordinators] at hhosted
      exact .inl ⟨hosted, List.mem_of_mem_eraseIdx hhosted, hmem, hcurrent⟩

/-- Where no record is current, each record that is current later was committed since. -/
theorem proves_of_run {platform : Platform} {path : String} (hpath : path ≠ "")
    {start last : Site} {events : List SiteEvent}
    (hrun : Run (Site.step platform path) start events last) (hsound : start.Sound)
    (hnone : ∀ record, ¬ start.Proves record) {record : EvaluationRecord}
    (h : last.Proves record) : ∃ event ∈ events, CommitsRecord event record := by
  let inv : List SiteEvent → Site → Prop := fun history site =>
    site.Sound ∧ ∀ record, site.Proves record → ∃ event ∈ history, CommitsRecord event record
  have hinv : inv events last := by
    refine hrun.history_invariant ⟨hsound, fun record hproves => absurd hproves (hnone record)⟩
      ?_
    intro before event after _ htaken hbefore
    refine ⟨hbefore.1.stepped hpath htaken, fun record hproves => ?_⟩
    rcases hproves.stepped htaken hbefore.1 with hold | hnew
    · obtain ⟨earlier, hmem, hcommits⟩ := hbefore.2 record hold
      exact ⟨earlier, List.mem_append_left _ hmem, hcommits⟩
    · exact ⟨event, List.mem_append_right _ List.mem_cons_self, hnew⟩
  exact hinv.2 record h

/-! ## Every open -/

/-- A coordinator that was opened after some events, up to the store that later ones
reach. -/
structure Recovery (first : Option SavedState) (before : List SiteEvent) (impl : Impl)
    (after : List SiteEvent) (last : Site) : Prop where
  begun : ∀ saved, first = some saved →
    saved.state.epoch.value < impl.authority.epoch.value
  epoch : ∀ event ∈ before, ∀ hosted ∈ event.post.coordinators,
    hosted.state.impl.authority.epoch.value < impl.authority.epoch.value
  restores : ∀ saved, lastSaved (first.map (·.state)) before = some saved →
    Restores saved impl
  registrations : impl.authority.registrations = []
  unproven : ∀ record ∈ impl.evaluations, record.state ≠ .current
  proven : ∀ record, last.Proves record → ∃ event ∈ after, CommitsRecord event record

/-- In every run at a store that no two coordinators have open at a time, each coordinator
that opens begins an epoch above every earlier one, restores what was saved last, holds no
registration, and has no current record that was not committed since.  On Windows no two
coordinators ever have the store open. -/
theorem opens_recover {platform : Platform} {path : String} {first : Option SavedState}
    {events : List SiteEvent} {last : Site} (hpath : path ≠ "")
    (hrun : Run (Site.step platform path) (Site.unowned first) events last)
    (hunshared : platform = .posix → ∀ event ∈ events, Unshared .posix event) :
    ∀ before event after impl, events = before ++ event :: after →
      event.output = .started impl → Recovery first before impl after last := by
  have hsole : ∀ event ∈ events, Unshared platform event := by
    cases platform with
    | windows => exact fun event _ => unshared_windows event
    | posix => exact hunshared rfl
  intro before event after impl hevents houtput
  subst hevents
  obtain ⟨hbefore, htaken, hafter⟩ := hrun.split_event
  have hempty : (Site.unowned first).Sound := List.forall_mem_nil _
  let inv : List SiteEvent → Site → Prop := fun history site =>
    site.Sound ∧ Ledger first history site
  have hinv : inv before event.pre := by
    refine hbefore.history_invariant ⟨hempty, .unowned first⟩ ?_
    intro earlier other later hearlier hother hstands
    have hmem : other ∈ before := by
      rw [hearlier]
      exact List.mem_append_right _ List.mem_cons_self
    exact ⟨hstands.1.stepped hpath hother,
      hstands.2.stepped hpath hother (hsole other (List.mem_append_left _ hmem)) hstands.1⟩
  obtain ⟨hsound, hledger⟩ := hinv
  have hpost := hsound.stepped hpath htaken
  cases siteStep_of_taken htaken with
  | refused _ _ _ _ _ hrefused | served _ _ _ _ _ _ _ hrefused | stopped _ _ hrefused =>
      rw [houtput] at hrefused
      cases hrefused
  | started process config call other hinput hstore hloads hgranted hopened hstarted _
      hcoordinators =>
      rw [houtput] at hstarted
      cases hstarted
      have halone := hsole event (List.mem_append_right _ List.mem_cons_self) process config
        call hinput hgranted
      rw [halone, List.nil_append] at hcoordinators
      obtain ⟨hregistrations, hunproven⟩ := openCoordinator_unproven hopened
      have hcurrent : ∀ record ∈ impl.evaluations, record.state ≠ .current := by
        intro record hmem hstate
        rw [hunproven record hmem] at hstate
        cases hstate
      have hrestores : ∀ saved, lastSaved (first.map (·.state)) before = some saved →
          Restores saved impl ∧ saved.epoch.value < impl.authority.epoch.value := by
        intro saved hlast
        have hbytes := hledger.file
        rw [hlast] at hbytes
        rw [hbytes] at hloads hopened
        exact openCoordinator_restores (hstore ▸ hpath) (hledger.size saved hlast) hloads hopened
      have hlater : ∀ epoch, Reached (lastSaved (first.map (·.state)) before) epoch →
          epoch.value < impl.authority.epoch.value := by
        intro epoch hreached
        obtain ⟨saved, hlast, hle⟩ := hreached
        exact UInt64.lt_of_le_of_lt hle (hrestores saved hlast).2
      refine ⟨?_, ?_, ?_, hregistrations, hcurrent, ?_⟩
      · intro saved hfirst
        exact hlater _ (hledger.begun saved hfirst)
      · intro earlier hmem hosted hhosted
        exact hlater _ (hledger.earlier earlier hmem hosted hhosted)
      · intro saved hlast
        exact (hrestores saved hlast).1
      · intro record hproves
        refine proves_of_run hpath hafter hpost (fun found hfound => ?_) hproves
        obtain ⟨hosted, hhosted, hmem, hstate⟩ := hfound
        rw [hcoordinators] at hhosted
        obtain rfl := List.mem_singleton.mp hhosted
        exact hcurrent found hmem hstate

/-! ## Owners of a sample store -/

/-- The process opens the sample store. -/
def sampleOwner (process : Nat) : Incident := .start process sampleDurable sampleCall

private def reopens : List SiteEvent → Bool
  | [_, _, third] =>
      match third.output with
      | .started _ => true
      | _ => false
  | _ => false

private theorem sampleOwner_reopens :
    ((exec (Site.step .windows sampleDurable.storePath) (Site.unowned none)
      [sampleOwner 1, .stop 0, sampleOwner 2]).any fun run => reopens run.1) = true := by
  decide +kernel

theorem opens_recover_sample :
    ∃ first second third last impl,
      exec (Site.step .windows sampleDurable.storePath) (Site.unowned none)
        [sampleOwner 1, .stop 0, sampleOwner 2] = some ([first, second, third], last) ∧
      third.output = .started impl ∧ Recovery none [first, second] impl [] last := by
  obtain ⟨⟨events, last⟩, hrun, hcheck⟩ := (Option.any_eq_true _ _).mp sampleOwner_reopens
  dsimp only at hcheck
  unfold reopens at hcheck
  split at hcheck
  · next first second third =>
      split at hcheck
      · next impl houtput =>
          refine ⟨first, second, third, last, impl, hrun, houtput, ?_⟩
          exact opens_recover (by decide) (Run.of_exec hrun) (fun hposix => by cases hposix)
            [first, second] third [] impl rfl houtput
      · cases hcheck
  · cases hcheck

/-- A process opens the store twice, the first coordinator writes after the second one began
its epoch, and the store is opened again after both are gone. -/
def sampleSecondOwner : List Incident :=
  [sampleOwner 1, sampleOwner 1, .serve 0 (sampleInput (.operate .flush)), .stop 1, .stop 0,
   sampleOwner 2]

private def rollsBack : List SiteEvent → Bool
  | [_, second, _, _, _, third] =>
      match third.output with
      | .started impl => second.post.coordinators.any fun hosted =>
          hosted.state.impl.authority.epoch == impl.authority.epoch
      | _ => false
  | _ => false

private theorem sampleSecondOwner_rollsBack :
    ((exec (Site.step .posix sampleDurable.storePath) (Site.unowned none)
      sampleSecondOwner).any fun run => rollsBack run.1) = true := by
  decide +kernel

/-- The last open begins the epoch of the second owner once more. -/
theorem second_owner_rolls_epoch_back :
    ∃ events last, exec (Site.step .posix sampleDurable.storePath) (Site.unowned none)
        sampleSecondOwner = some (events, last) ∧
      ∃ before event impl earlier hosted, events = before ++ [event] ∧
        event.output = .started impl ∧ earlier ∈ before ∧
        hosted ∈ earlier.post.coordinators ∧
        hosted.state.impl.authority.epoch = impl.authority.epoch ∧
        ¬ Recovery none before impl [] last := by
  obtain ⟨⟨events, last⟩, hrun, hcheck⟩ :=
    (Option.any_eq_true _ _).mp sampleSecondOwner_rollsBack
  refine ⟨events, last, hrun, ?_⟩
  dsimp only at hcheck
  unfold rollsBack at hcheck
  split at hcheck
  · next first second flushed stopped ended third =>
      split at hcheck
      · next impl houtput =>
          obtain ⟨hosted, hhosted, hsame⟩ := List.any_eq_true.mp hcheck
          have hepoch := eq_of_beq hsame
          refine ⟨[first, second, flushed, stopped, ended], third, impl, second, hosted, rfl,
            houtput, by simp, hhosted, hepoch, fun hrecovery => ?_⟩
          have hbelow := hrecovery.epoch second (by simp) hosted hhosted
          rw [hepoch] at hbelow
          exact UInt64.lt_irrefl _ hbelow
      · cases hcheck
  · cases hcheck

end ConstraintRouting.Fabric
