import ConstraintRouting.Fabric.Fencing

/-!
# Opening over what was stored

Opening folds the boots that were live into the fenced ones and writes the state again.
The bounds on the two lists are separate, so their sum may be more than one list holds.
-/

namespace ConstraintRouting.Fabric

open Verified.KeyedTables (values_fill_perm)
open Verified.Checks (isOk)
open Verified.PrefixCodes (length_flatMap_of_const)

/-! ## The state that opening writes -/

/-- The live boots of a stored state that are not fenced yet. -/
def PersistentState.unfencedBoots (state : PersistentState) : List WorkerBootId :=
  state.liveBoots.filter fun boot => !state.fencedBoots.any (·.boot == boot)

/-- The state that opening over a stored one writes. -/
def PersistentState.reopened (state : PersistentState) (epoch : CoordinatorEpoch)
    (clock : Nat → UInt64) : PersistentState :=
  { state with
    epoch
    evaluations := state.evaluations.map fun record =>
      { record with state := .recoveredUnproven }
    liveBoots := []
    fencedBoots := (AuthorityRegistry.restoreDurableState state.epoch
      (restoredFencedBoots state clock)).fenced.values
    attempts := []
    initialized := true }

/-- Below the ceiling there is a next generation, which is representable and above. -/
theorem Generation.next_of_lt {domain : GenerationDomain} {generation : Generation domain}
    (h : generation.value < kMaxGeneration) :
    generation.next = some ⟨generation.value + 1⟩ ∧
      isRepresentable (generation.value + 1) = true ∧
      ¬ generation.value + 1 ≤ generation.value := by
  have hceiling : kMaxGeneration.toNat = 0x7fffffffffffffff := by rfl
  have hless := UInt64.lt_iff_toNat_lt.mp h
  have hsum : (generation.value + 1).toNat = generation.value.toNat + 1 := by
    rw [UInt64.toNat_add]
    exact Nat.mod_eq_of_lt (by simp; omega)
  refine ⟨?_, ?_, ?_⟩
  · rw [next, if_neg (UInt64.not_le.mpr h)]
  · have hpositive : generation.value + 1 ≠ 0 := by
      intro hzero
      have hnat := congrArg UInt64.toNat hzero
      rw [hsum] at hnat
      cases hnat
    have hwithin : generation.value + 1 ≤ kMaxGeneration := by
      rw [UInt64.le_iff_toNat_le, hsum]
      omega
    simp [isRepresentable, hpositive, hwithin]
  · rw [UInt64.le_iff_toNat_le, hsum]
    omega

/-- Below the ceiling the next incarnation starts at the next epoch. -/
theorem nextIncarnation_of_next {state : PersistentState} {epoch : CoordinatorEpoch}
    (clock : Nat → UInt64) (hvalid : state.epoch.isValid = true)
    (hnext : state.epoch.next = some epoch) (hepoch : epoch.isValid = true)
    (habove : ¬ epoch.value ≤ state.epoch.value) :
    nextIncarnation (some state) clock = .ok
      { AuthorityRegistry.restoreDurableState state.epoch (restoredFencedBoots state clock) with
        epoch } := by
  simp only [nextIncarnation, hvalid, Bool.not_true, Bool.false_eq_true, if_false, hnext,
    AuthorityRegistry.establishEpoch, AuthorityRegistry.restoreDurableState, hepoch, habove,
    decide_false, Bool.and_false]
  rfl

private theorem eraseDups_of_nodup {α : Type} [BEq α] [LawfulBEq α] {values : List α}
    (h : values.Nodup) : values.eraseDups = values := by
  induction values with
  | nil => rfl
  | cons first rest ih =>
      obtain ⟨hmissing, hrest⟩ := List.nodup_cons.mp h
      have hkept : rest.filter (fun value => !value == first) = rest := by
        rw [List.filter_eq_self]
        intro value hmem
        have hne : value ≠ first := fun hsame => hmissing (hsame ▸ hmem)
        simpa using hne
      rw [List.eraseDups_cons, hkept, ih hrest]

/-- The restored fenced boots are those of the state and those that were live and not
fenced. -/
theorem restoredFencedBoots_boots {state : PersistentState} (clock : Nat → UInt64)
    (hlive : state.liveBoots.Nodup) :
    (restoredFencedBoots state clock).map (·.boot) =
      state.fencedBoots.map (·.boot) ++ state.unfencedBoots := by
  have hnodup : state.unfencedBoots.Nodup := hlive.filter _
  have hindexed : ∀ (boots : List WorkerBootId),
      (boots.mapIdx fun reading boot =>
        (⟨boot, state.epoch, clock reading⟩ : FencedBootRecord)).map (·.boot) = boots := by
    intro boots
    rw [List.mapIdx_eq_zipIdx_map, List.map_map]
    exact List.zipIdx_map_fst 0 boots
  unfold restoredFencedBoots
  dsimp only
  rw [List.map_append, hindexed]
  exact congrArg _ (eraseDups_of_nodup hnodup)

/-! ## Validation of it -/

section Reopened

variable {state : PersistentState} {epoch : CoordinatorEpoch} {clock : Nat → UInt64}
  {limits : Limits}

private theorem restoredFencedBoots_valid (h : Validated state limits) :
    ∀ record ∈ restoredFencedBoots state clock, record.boot.isValid = true := by
  intro record hmem
  have hboot : record.boot ∈ (restoredFencedBoots state clock).map (·.boot) :=
    List.mem_map_of_mem hmem
  rw [restoredFencedBoots_boots _ h.liveBoots, List.mem_append] at hboot
  rcases hboot with hfenced | hlive
  · obtain ⟨other, hother, hsame⟩ := List.mem_map.mp hfenced
    exact hsame ▸ h.fenced other hother
  · exact h.live record.boot (List.mem_of_mem_filter hlive)

private theorem restoredFencedBoots_nodup (h : Validated state limits) :
    ((restoredFencedBoots state clock).map (·.boot)).Nodup := by
  rw [restoredFencedBoots_boots _ h.liveBoots, List.nodup_append]
  refine ⟨h.fencedBoots, h.liveBoots.filter _, ?_⟩
  intro boot hfenced other hlive hsame
  obtain ⟨record, hmem, rfl⟩ := List.mem_map.mp hfenced
  have hunfenced := (List.mem_filter.mp hlive).2
  rw [Bool.not_eq_true', List.any_eq_false] at hunfenced
  exact hunfenced record hmem (beq_iff_eq.mpr hsame)

/-- Opening writes the restored fenced boots in the order of the boots. -/
theorem reopened_fencedBoots_perm (h : Validated state limits) :
    (state.reopened epoch clock).fencedBoots.Perm (restoredFencedBoots state clock) := by
  have hkept : (restoredFencedBoots state clock).filter (·.boot.isValid) =
      restoredFencedBoots state clock :=
    List.filter_eq_self.mpr (restoredFencedBoots_valid h)
  show (AuthorityRegistry.restoreDurableState state.epoch
    (restoredFencedBoots state clock)).fenced.values.Perm _
  rw [AuthorityRegistry.restoreDurableState_fill, hkept]
  exact values_fill_perm (restoredFencedBoots_nodup h)

theorem length_reopened_fencedBoots (h : Validated state limits) :
    (state.reopened epoch clock).fencedBoots.length =
      state.fencedBoots.length + state.unfencedBoots.length := by
  have hlength := congrArg List.length (restoredFencedBoots_boots clock h.liveBoots)
  rw [List.length_map, List.length_append, List.length_map] at hlength
  exact (reopened_fencedBoots_perm h).length_eq.trans hlength

/-- What opening writes is valid exactly when its fenced boots are within the bound. -/
theorem reopened_valid_iff (h : Validated state limits)
    (hepoch : Generation.isRepresentable epoch.value = true) :
    Validated (state.reopened epoch clock) limits ↔
      state.fencedBoots.length + state.unfencedBoots.length ≤ limits.maxFencedBoots.toNat := by
  rw [← @length_reopened_fencedBoots _ epoch clock _ h]
  refine ⟨fun hvalid => hvalid.fencedCount, fun hcount => ?_⟩
  have hperm := @reopened_fencedBoots_perm _ epoch clock _ h
  have hrecord : ∀ record ∈ (state.reopened epoch clock).evaluations,
      ∃ before ∈ state.evaluations, record = { before with state := .recoveredUnproven } := by
    intro record hmem
    obtain ⟨before, hbefore, rfl⟩ := List.mem_map.mp hmem
    exact ⟨before, hbefore, rfl⟩
  have hids : (state.reopened epoch clock).evaluations.map (·.id) =
      state.evaluations.map (·.id) := by
    show (state.evaluations.map _).map _ = _
    rw [List.map_map]
    rfl
  have hkeys : currentKeys (state.reopened epoch clock).evaluations = [] := by
    have hnone : (state.reopened epoch clock).evaluations.filter (·.state = .current) = [] := by
      rw [List.filter_eq_nil_iff]
      intro record hmem
      obtain ⟨before, -, rfl⟩ := hrecord record hmem
      simp
    rw [currentKeys, hnone]
    rfl
  exact
    { limitsValid := h.limitsValid
      epoch := fun _ => hepoch
      setCount := h.setCount
      evaluationCount := (List.length_map _).trans_le h.evaluationCount
      fencedCount := hcount
      attemptCount := Nat.zero_le _
      canonical := h.canonical
      setIds := h.setIds
      population := h.population
      populations := h.populations
      record := fun record hmem => by
        obtain ⟨before, hbefore, rfl⟩ := hrecord record hmem
        have hvalid := h.record before hbefore
        exact ⟨⟨hvalid.setId, hvalid.path, hvalid.authorityGeneration, hvalid.generation,
          ⟨hvalid.reasons.classes, hvalid.reasons.ordered, hvalid.reasons.primary,
            hvalid.reasons.size⟩⟩, hvalid.set, hvalid.bound⟩
      evaluationIds := hids ▸ h.evaluationIds
      results := hkeys ▸ List.nodup_nil
      counter := fun hsome => by
        have hbefore : state.evaluations ≠ [] := fun hnone => hsome (by simp [PersistentState.reopened, hnone])
        obtain ⟨hvalid, hbound⟩ := h.counter hbefore
        refine ⟨hvalid, fun record hmem => ?_⟩
        obtain ⟨before, hmember, rfl⟩ := hrecord record hmem
        exact hbound before hmember
      liveCount := Nat.zero_le _
      live := fun _ hmem => absurd hmem List.not_mem_nil
      liveBoots := List.nodup_nil
      fenced := fun record hmem => restoredFencedBoots_valid h record (hperm.mem_iff.mp hmem)
      fencedBoots := (hperm.map _).nodup_iff.mpr (restoredFencedBoots_nodup h)
      attempt := fun _ hmem => absurd hmem List.not_mem_nil
      attempts := List.nodup_nil }

/-! ## Its size -/

/-- The bytes that a stored state takes for its boots and its attempts. -/
def PersistentState.registryBytes (state : PersistentState) : Nat :=
  8 * state.liveBoots.length + 24 * state.fencedBoots.length + 48 * state.attempts.length

/-- Opening changes the size of the stored state by its boots and its attempts alone. -/
theorem length_encode_reopened :
    (encodePersistentState (state.reopened epoch clock)).length + state.registryBytes =
      (encodePersistentState state).length +
        24 * (state.reopened epoch clock).fencedBoots.length := by
  have hfenced : ∀ record, (encodeFencedBoot record).length = 24 := fun _ => rfl
  have hattempt : ∀ record, (encodeMutationAttempt record).length = 48 := by
    intro record
    have hpayload := record.payload.size
    simp only [encodeMutationAttempt, List.length_append, ByteWriter.length_putId,
      ByteWriter.putRaw, ByteWriter.length_putU64, hpayload]
  have hlive : ∀ boot : WorkerBootId, (ByteWriter.putId boot).length = 8 := fun _ => rfl
  have hrecords : ((state.reopened epoch clock).evaluations.flatMap encodeEvaluation).length =
      (state.evaluations.flatMap encodeEvaluation).length := by
    show ((state.evaluations.map fun record =>
      { record with state := ResultState.recoveredUnproven }).flatMap encodeEvaluation).length = _
    induction state.evaluations with
    | nil => rfl
    | cons first rest ih =>
        rw [List.map_cons, List.flatMap_cons, List.flatMap_cons, List.length_append,
          List.length_append, ih]
        simp only [encodeEvaluation, List.length_append, ByteWriter.length_putU8]
  have hfixed : (state.reopened epoch clock).evidence = state.evidence ∧
      (state.reopened epoch clock).watermarks = state.watermarks ∧
      (state.reopened epoch clock).sets = state.sets ∧
      (state.reopened epoch clock).populations = state.populations ∧
      (state.reopened epoch clock).liveBoots = [] ∧
      (state.reopened epoch clock).attempts = [] := ⟨rfl, rfl, rfl, rfl, rfl, rfl⟩
  obtain ⟨hevidence, hwatermarks, hsets, hpopulations, hlives, hattempts⟩ := hfixed
  simp only [encodePersistentState, PersistentState.registryBytes, List.length_append,
    ByteWriter.length_putAll, hrecords, hevidence, hwatermarks, hsets, hpopulations, hlives, hattempts,
    length_flatMap_of_const hfenced, length_flatMap_of_const hattempt,
    length_flatMap_of_const hlive, ByteWriter.length_putGeneration, ByteWriter.length_putBool,
    List.length_nil]
  omega

end Reopened

/-! ## Opening -/

/-- The bounds leave room for what opening adds to the fenced boots, where it drops the
live boots and the attempts. -/
structure LeavesRoom (limits : Limits) (state : PersistentState) : Prop where
  boots : state.fencedBoots.length + state.unfencedBoots.length ≤ limits.maxFencedBoots.toNat
  bytes : (encodePersistentState state).length + 24 * state.unfencedBoots.length ≤
    limits.maxPersistenceRecordBytes.toNat + 8 * state.liveBoots.length +
      48 * state.attempts.length

/-- A save succeeds exactly when its state is valid and small enough and the write does. -/
theorem DurableStore.save_status_eq_ok {store : DurableStore} {state : PersistentState}
    {outcome : WriteOutcome} : (store.save state outcome).2 = .ok () ↔
      Validated state store.limits ∧
        (encodePersistentState state).length ≤ store.limits.maxPersistenceRecordBytes.toNat ∧
        outcome = .written := by
  have houtcome : outcome.status = .ok () ↔ outcome = .written := by
    cases outcome <;> simp [WriteOutcome.status, failure]
  rw [← validatePersistentState_eq_ok, ← houtcome, ← listWithin_eq_true]
  unfold save
  cases validatePersistentState state store.limits with
  | error error => simp
  | ok _ =>
      by_cases hsize : listWithin (encodePersistentState state)
          store.limits.maxPersistenceRecordBytes = true
      · cases outcome.status <;> simp [hsize]
      · simp [hsize, failure]

/-- Over a loadable state below the epoch ceiling opening succeeds exactly when its write
does and the bounds leave room. -/
theorem openCoordinator_of_load_iff {config : CoordinatorConfig} {file : Option (List UInt8)}
    {loaded : PersistentState} (hpath : config.storePath ≠ "")
    (hload : (storeOver config file).load = .ok loaded) (hvalid : loaded.epoch.isValid = true)
    (hceiling : loaded.epoch.value < Generation.kMaxGeneration) {call : Call} :
    (∃ impl, openCoordinator config (storeOver config file).report call = .ok impl) ↔
      call.write = .written ∧ LeavesRoom config.limits loaded := by
  have hloaded : Validated loaded config.limits :=
    validatePersistentState_eq_ok.mp (DurableStore.validate_of_load hload)
  obtain ⟨hnext, hepoch, habove⟩ := Generation.next_of_lt hceiling
  have hpositive : (⟨loaded.epoch.value + 1⟩ : CoordinatorEpoch).isValid = true :=
    (Bool.and_eq_true_iff.mp hepoch).1
  have hauthority := nextIncarnation_of_next call.clock hvalid hnext hpositive habove
  have hrestored := restoredState_of_load hpath hload
  obtain ⟨store, hstore⟩ : ∃ store, store = storeOver config
      (storeOver config file).report.file := ⟨_, rfl⟩
  have hopens : (∃ impl, openCoordinator config (storeOver config file).report call = .ok impl) ↔
      (store.save (loaded.reopened ⟨loaded.epoch.value + 1⟩ call.clock) call.write).2 =
        .ok () := by
    have hpersist : ((recover (unopened config (storeOver config file).report
          { AuthorityRegistry.restoreDurableState loaded.epoch
              (restoredFencedBoots loaded call.clock) with
            epoch := ⟨loaded.epoch.value + 1⟩ }) (some loaded)).persist
          (loaded.reopened ⟨loaded.epoch.value + 1⟩ call.clock) call).2 =
        (store.save (loaded.reopened ⟨loaded.epoch.value + 1⟩ call.clock) call.write).2 := by
      have hopen : (config.storePath != "") = true := bne_iff_ne.mpr hpath
      rw [hstore]
      simp only [Impl.persist, recover, Impl.rebuildDerived, unopened, hopen, Bool.not_true,
        Bool.false_eq_true, if_false, if_true]
      rfl
    constructor
    · intro hopened
      obtain ⟨impl, hopened⟩ := hopened
      obtain ⟨-, restored, authority, hstate, hnew, hwritten⟩ := openCoordinator_eq_ok.mp hopened
      rw [hrestored, Except.ok.injEq] at hstate
      subst hstate
      rw [hauthority, Except.ok.injEq] at hnew
      subst hnew
      rw [← hpersist]
      exact congrArg Prod.snd hwritten
    · intro hwritten
      rw [← hpersist] at hwritten
      exact ⟨_, openCoordinator_eq_ok.mpr ⟨hloaded.limitsValid, _, _, hrestored, hauthority,
        Prod.ext rfl hwritten⟩⟩
  have hlimits : store.limits = config.limits := by rw [hstore]; rfl
  have hsize := @length_encode_reopened loaded ⟨loaded.epoch.value + 1⟩ call.clock
  have hcount := @length_reopened_fencedBoots loaded ⟨loaded.epoch.value + 1⟩ call.clock _ hloaded
  rw [hopens, DurableStore.save_status_eq_ok, hlimits, reopened_valid_iff hloaded hepoch]
  rw [hcount] at hsize
  unfold PersistentState.registryBytes at hsize
  constructor
  · intro hsaved
    obtain ⟨hboots, hbytes, hwritten⟩ := hsaved
    exact ⟨hwritten, hboots, by omega⟩
  · intro hroom
    obtain ⟨hwritten, hboots, hbytes⟩ := hroom
    exact ⟨hboots, by omega, hwritten⟩

theorem Lifetime.epoch_isValid {events : List LifeEvent} {last : SystemState}
    (h : Lifetime events last) : last.impl.authority.epoch.isValid = true := by
  refine @Lifetime.history_invariant
    (fun _ state => state.impl.authority.epoch.isValid = true) _ _ h
    (fun start hstart => hstart.covered.epoch) ?_ ?_
  · intro before event after served _ hserving htaken _ hepoch
    have hkept : served.post.impl.authority.epoch = served.pre.impl.authority.epoch := by
      rcases (section_of_taken htaken).registry with hreplied | hwrote
      · exact hreplied.epoch
      · exact hwrote.epoch
    rw [hserving.post, hkept, ← hserving.pre]
    exact hepoch
  · intro before event after config call _ hrestarting _ _
    exact hrestarting.opens.covered.epoch

/-- After every run of a durable coordinator, a file that loads is opened by the same
configuration, below the epoch ceiling, exactly when the write of opening succeeds and the
bounds leave room. -/
theorem reopens_iff {events : List LifeEvent} {last : SystemState} (h : Lifetime events last)
    (hdurable : last.impl.config.storePath ≠ "") {loaded : PersistentState}
    (hload : (storeOver last.impl.config last.impl.storeFile).load = .ok loaded)
    (hceiling : loaded.epoch.value < Generation.kMaxGeneration) (call : Call) :
    (∃ impl, openCoordinator last.impl.config
        (storeOver last.impl.config last.impl.storeFile).report call = .ok impl) ↔
      call.write = .written ∧ LeavesRoom last.impl.config.limits loaded := by
  have hsound := h.lifeSound
  have hopen : last.impl.durable = true := by
    rw [hsound.durability]
    exact bne_iff_ne.mpr hdurable
  obtain ⟨written, hmirrors⟩ := hsound.mirrored hopen
  have hbound : (encodePersistentState written).length < 2 ^ 32 :=
    Nat.lt_of_le_of_lt hmirrors.size
      last.impl.config.limits.maxPersistenceRecordBytes.toNat_lt
  obtain rfl := DurableStore.stored_of_load hmirrors.file hbound hload
  have hvalid : written.stored.epoch.isValid = true := by
    have hepoch : written.stored.epoch = last.impl.authority.epoch := hmirrors.epoch
    rw [hepoch]
    exact h.epoch_isValid
  exact openCoordinator_of_load_iff hdurable hload hvalid hceiling

/-! ## One fenced boot and one live boot -/

/-- A durable coordinator that records one fenced boot. -/
def sampleConfined : CoordinatorConfig := { sampleDurable with limits.maxFencedBoots := 1 }

/-- Registers a publisher, which then fences another boot. -/
def sampleCrowded : List Turn :=
  [sampleRegister, sampleInput (.operate (.fenceBoot (sampleContext 2) ⟨99⟩))].map .serve

/-- The file that is left loads below the ceiling, and a sample call opens over it or
not. -/
private def opensAgain (config : CoordinatorConfig) (opens : Bool) (last : SystemState) :
    Bool :=
  decide (last.impl.config = config) &&
    match (storeOver config last.impl.storeFile).load with
    | .ok loaded =>
        decide (loaded.epoch.value < Generation.kMaxGeneration) &&
          isOk (openCoordinator config (storeOver config last.impl.storeFile).report
            sampleCall) == opens
    | .error _ => false

private theorem loads_of_opensAgain {config : CoordinatorConfig} {opens : Bool}
    {last : SystemState} (h : opensAgain config opens last = true) :
    last.impl.config = config ∧ ∃ loaded,
      (storeOver config last.impl.storeFile).load = .ok loaded ∧
      loaded.epoch.value < Generation.kMaxGeneration ∧
      isOk (openCoordinator config (storeOver config last.impl.storeFile).report sampleCall) =
        opens := by
  unfold opensAgain at h
  rw [Bool.and_eq_true, decide_eq_true_eq] at h
  obtain ⟨hconfig, h⟩ := h
  refine ⟨hconfig, ?_⟩
  split at h
  · next loaded hload =>
      rw [Bool.and_eq_true, decide_eq_true_eq, beq_iff_eq] at h
      exact ⟨loaded, hload, h.1, h.2⟩
  · cases h

private theorem sampleCrowded_stays_shut :
    ((live (openCoordinator sampleConfined .absent sampleCall) sampleCrowded).any fun run =>
      opensAgain sampleConfined false run.2) = true := by
  decide +kernel

/-- A coordinator leaves a file that loads and that it never opens again. -/
theorem stored_boots_outgrow_bound :
    ∃ events last loaded,
      live (openCoordinator sampleConfined .absent sampleCall) sampleCrowded =
        some (events, last) ∧
      Lifetime events last ∧ last.impl.config = sampleConfined ∧
      (storeOver sampleConfined last.impl.storeFile).load = .ok loaded ∧
      loaded.epoch.value < Generation.kMaxGeneration ∧ sampleCall.write = .written ∧
      ∀ impl, openCoordinator sampleConfined
        (storeOver sampleConfined last.impl.storeFile).report sampleCall ≠ .ok impl := by
  obtain ⟨events, last, hrun, hlifetime, hcheck⟩ :=
    Lifetime.of_run_check (fun run => opensAgain sampleConfined false run.2)
      sampleCrowded_stays_shut
  obtain ⟨hconfig, loaded, hload, hceiling, hshut⟩ := loads_of_opensAgain hcheck
  refine ⟨events, last, loaded, hrun, hlifetime, hconfig, hload, hceiling, rfl, ?_⟩
  intro impl hopened
  rw [hopened] at hshut
  cases hshut

private theorem sampleRemembered_opens :
    ((sampleDurableLife sampleRemembered).any fun run =>
      opensAgain sampleDurable true run.2) = true := by
  decide +kernel

theorem reopens_iff_sample :
    ∃ events last loaded, sampleDurableLife sampleRemembered = some (events, last) ∧
      ((∃ impl, openCoordinator last.impl.config
          (storeOver last.impl.config last.impl.storeFile).report sampleCall = .ok impl) ↔
        sampleCall.write = .written ∧ LeavesRoom last.impl.config.limits loaded) := by
  obtain ⟨events, last, hrun, hlifetime, hcheck⟩ :=
    Lifetime.of_run_check (fun run => opensAgain sampleDurable true run.2)
      sampleRemembered_opens
  obtain ⟨hconfig, loaded, hload, hceiling, -⟩ := loads_of_opensAgain hcheck
  have hpath : last.impl.config.storePath ≠ "" := by
    rw [hconfig]
    decide
  rw [← hconfig] at hload
  exact ⟨events, last, loaded, hrun, reopens_iff hlifetime hpath hload hceiling sampleCall⟩

end ConstraintRouting.Fabric
