import ConstraintRouting.Fabric.Authorization
import ConstraintRouting.Fabric.CurrentIndex

/-!
# Bounds of the stored collections

Each stored collection has a declared bound.  The registry keeps its bounds in every
state, and so do the sets; the records and the populations keep theirs as long as a commit
can evict what it needs to: a record that is not current, and a population that is there.
-/

namespace ConstraintRouting.Fabric

open Verified.StepMachine
open Verified.Checks (seq_eq_ok failIf_eq_ok)
open Verified.KeyedTables (length_replaceFirst values_eq_map_toList)

/-! ## The registry -/

namespace AuthorityRegistry

variable {registry after : AuthorityRegistry} {limits : Limits}

/-- The registry within its declared bounds. -/
structure Within (registry : AuthorityRegistry) (limits : Limits) : Prop where
  attempts : registry.attempts.length ≤ limits.maxMutationAttempts.toNat
  fenced : registry.fenced.size ≤ limits.maxFencedBoots.toNat
  live : registry.liveRegistrations.length ≤ limits.maxPublishers.toNat

/-- A boot is fenced only while there is room for it. -/
theorem fenced_size_of_fenceBoot {boot : WorkerBootId} {fencedAt : CoordinatorEpoch}
    {tick : UInt64} (h : registry.fenceBoot boot fencedAt tick limits = .ok after)
    (hbefore : registry.fenced.size ≤ limits.maxFencedBoots.toNat) :
    after.fenced.size ≤ limits.maxFencedBoots.toNat := by
  simp only [fenceBoot, seq_eq_ok] at h
  obtain ⟨-, h⟩ := h
  split at h
  · cases h
    exact hbefore
  · simp only [seq_eq_ok, failIf_eq_ok, decide_eq_false_iff_not, Nat.not_le] at h
    obtain ⟨hroom, h⟩ := h
    cases h
    have hsize := @Std.ExtTreeMap.size_insert_le _ _ _ registry.fenced _ boot
      (⟨boot, fencedAt, tick⟩ : FencedBootRecord)
    exact Nat.le_trans hsize hroom

theorem fenced_size_of_fencePrevious {registration : PublisherRegistration}
    {remaining index : Nat} {status : Status}
    (h : fencePrevious registration limits remaining index registry = (after, status))
    (hbefore : registry.fenced.size ≤ limits.maxFencedBoots.toNat) :
    after.fenced.size ≤ limits.maxFencedBoots.toNat := by
  induction remaining generalizing index registry with
  | zero =>
      cases h
      exact hbefore
  | succ remaining ih =>
      rw [fencePrevious] at h
      split at h
      · cases h
        exact hbefore
      · split at h
        · split at h
          · cases h
            exact hbefore
          · split at h
            · cases h
              exact hbefore
            · next fenced hfenced =>
                have hturn := fenced_size_of_fenceBoot hfenced hbefore
                exact ih h hturn
        · exact ih h hbefore

theorem fenced_size_of_registerPublisher {registration : PublisherRegistration}
    {status : Status} (h : registry.registerPublisher registration limits = (after, status))
    (hbefore : registry.fenced.size ≤ limits.maxFencedBoots.toNat) :
    after.fenced.size ≤ limits.maxFencedBoots.toNat := by
  unfold registerPublisher at h
  split at h
  · cases h
    exact hbefore
  · split at h
    · next hprevious =>
        cases h
        exact fenced_size_of_fencePrevious hprevious hbefore
    · next hprevious =>
        have hfenced := fenced_size_of_fencePrevious hprevious hbefore
        split at h
        · cases h
          exact hfenced
        · cases h
          exact hfenced

namespace Within

theorem observed (h : registry.Within limits) (hpositive : 0 < limits.maxMutationAttempts.toNat)
    {attempt : MutationAttemptId} {payload : Digest256} {tick : UInt64}
    {verdict : ReplayVerdict}
    (hobserve : registry.observeAttempt attempt payload tick limits = .ok (after, verdict)) :
    after.Within limits := by
  have hattempts := h.attempts
  simp only [observeAttempt, seq_eq_ok] at hobserve
  obtain ⟨-, hobserve⟩ := hobserve
  split at hobserve
  · cases hobserve
    exact h
  · cases hobserve
    refine ⟨?_, h.fenced, h.live⟩
    show (List.length (_ ++ [_])) ≤ _
    rw [List.length_append, List.length_singleton]
    split
    · rw [List.length_drop]
      omega
    · omega

theorem fencedBoot (h : registry.Within limits) {boot : WorkerBootId}
    {fencedAt : CoordinatorEpoch} {tick : UInt64}
    (hfence : registry.fenceBoot boot fencedAt tick limits = .ok after) :
    after.Within limits := by
  have hlive := (thins_of_fenceBoot hfence).live.length_le
  have hsize := fenced_size_of_fenceBoot hfence h.fenced
  refine ⟨?_, hsize, hlive.trans h.live⟩
  rcases fenceBoot_ok hfence with ⟨-, rfl⟩ | ⟨-, rfl⟩
  · exact h.attempts
  · exact h.attempts

theorem droppedSession (h : registry.Within limits) {session : SessionId}
    (hdrop : registry.dropSession session = .ok after) : after.Within limits := by
  have hlive := (thins_of_dropSession hdrop).live.length_le
  obtain ⟨registrations, rfl⟩ := dropSession_ok hdrop
  exact ⟨h.attempts, h.fenced, hlive.trans h.live⟩

theorem registered (h : registry.Within limits) {registration : PublisherRegistration}
    {status : Status}
    (hregister : registry.registerPublisher registration limits = (after, status)) :
    after.Within limits := by
  have hattempts := (unobserved_of_registerPublisher hregister).1
  have hfenced := fenced_size_of_registerPublisher hregister h.fenced
  refine ⟨hattempts ▸ h.attempts, hfenced, ?_⟩
  rcases registerPublisher_cases hregister with ⟨hthins, -⟩ | ⟨-, middle, hjoins, rfl⟩
  · exact hthins.live.length_le.trans h.live
  · have hroom := hjoins.room
    have hone := List.length_filter_le (·.live) [registration]
    rw [List.length_singleton] at hone
    have hsplit : ({ middle with registrations := middle.registrations ++ [registration] } :
        AuthorityRegistry).liveRegistrations =
        middle.liveRegistrations ++ [registration].filter (·.live) := List.filter_append ..
    rw [hsplit, List.length_append]
    omega

theorem moved {config : CoordinatorConfig} (h : registry.Within config.limits)
    (hpositive : 0 < config.limits.maxMutationAttempts.toNat)
    (hmoves : registry.Moves config after) : after.Within config.limits := by
  induction hmoves with
  | refl => exact h
  | observed _ hobserve ih => exact ih.observed hpositive hobserve
  | fenced _ hfence ih => exact ih.fencedBoot hfence
  | dropped _ hdrop ih => exact ih.droppedSession hdrop
  | registered _ _ _ hregister ih => exact ih.registered hregister

end Within

end AuthorityRegistry

/-! ## The history -/

/-- A fold that picks nothing saw current records alone. -/
private theorem current_of_foldl_none
    {pick : Option (Nat × UInt64) → EvaluationRecord × Nat → Option (Nat × UInt64)}
    (hpick : ∀ victim entry, pick victim entry = none →
      victim = none ∧ entry.1.state = .current)
    {entries : List (EvaluationRecord × Nat)} {victim : Option (Nat × UInt64)}
    (h : entries.foldl pick victim = none) :
    victim = none ∧ ∀ entry ∈ entries, entry.1.state = .current := by
  induction entries generalizing victim with
  | nil => exact ⟨h, fun _ hmem => by cases hmem⟩
  | cons entry rest ih =>
      rw [List.foldl_cons] at h
      have hlater := ih h
      have hfirst := hpick victim entry hlater.1
      exact ⟨hfirst.1, List.forall_mem_cons.mpr ⟨hfirst.2, hlater.2⟩⟩

/-- Only records that are all current have no victim. -/
theorem current_of_historyVictim_none {evaluations : List EvaluationRecord}
    (h : historyVictim evaluations = none) : ∀ record ∈ evaluations, record.state = .current := by
  simp only [historyVictim, Option.map_eq_none_iff] at h
  have hentries : ∀ entry ∈ evaluations.zipIdx, entry.1.state = .current := by
    refine (current_of_foldl_none ?_ h).2
    intro victim entry hnone
    cases entry with
    | mk record position =>
        dsimp only at hnone
        split at hnone
        · next hcurrent => exact ⟨hnone, hcurrent⟩
        · split at hnone
          · cases hnone
          · split at hnone <;> cases hnone
  intro record hmem
  obtain ⟨position, hposition⟩ := List.mem_iff_getElem?.mp hmem
  exact hentries (record, position) (List.mem_zipIdx_iff_getElem?.mpr hposition)

/-- Trimming reaches the bound when the current records alone are within it. -/
theorem length_trimHistory_le {bound excess : Nat} {evaluations : List EvaluationRecord}
    (hexcess : evaluations.length ≤ bound + excess)
    (hcurrent : (Impl.currentRecords evaluations).length ≤ bound) :
    (trimHistory excess evaluations).length ≤ bound := by
  induction excess generalizing evaluations with
  | zero => exact hexcess
  | succ excess ih =>
      rw [trimHistory]
      split
      · next hvictim =>
          have hall := current_of_historyVictim_none hvictim
          have hsame : Impl.currentRecords evaluations = evaluations :=
            List.filter_eq_self.mpr fun record hmem => decide_eq_true (hall record hmem)
          rwa [hsame] at hcurrent
      · next position hvictim =>
          obtain ⟨victim, hvictimAt, -⟩ := historyVictim_not_current hvictim
          have hposition := (List.getElem?_eq_some_iff.mp hvictimAt).1
          have hlength := List.length_eraseIdx_of_lt hposition
          have hfewer : (Impl.currentRecords (evaluations.eraseIdx position)).Sublist
              (Impl.currentRecords evaluations) := (List.eraseIdx_sublist _ _).filter _
          have hless := hfewer.length_le
          exact ih (by omega) (by omega)

/-! ## The stored collections -/

/-- The standing collections within their declared bounds. -/
structure Standing.Within (standing : Standing) (config : CoordinatorConfig) : Prop where
  sets : standing.sets.length ≤ config.limits.maxConstraintSets.toNat
  evaluations : standing.evaluations.length ≤ config.limits.maxEvaluationsRetained.toNat
  populations : standing.populations.length ≤ config.maxCandidatePopulations.toNat

theorem length_publishInto {limits : Limits} {sets after : List ConstraintSet}
    {finalized stored : ConstraintSet}
    (h : publishInto limits sets finalized = .ok (after, stored))
    (hbefore : sets.length ≤ limits.maxConstraintSets.toNat) :
    after.length ≤ limits.maxConstraintSets.toNat := by
  unfold publishInto at h
  split at h
  · split at h
    · cases h
    · next hroom =>
        cases h
        rw [List.length_append, List.length_singleton]
        omega
  · split at h
    · cases h
    · cases h
      rwa [length_replaceFirst]

theorem length_demote (selected : EvaluationRecord → Bool)
    (evaluations : List EvaluationRecord) :
    (demote selected evaluations).length = evaluations.length := List.length_map ..

/-- No request outgrows a bound. -/
theorem Operation.Effect.bounded {impl : Impl} {operation : Operation} {value : Value}
    {standing : Standing} (h : operation.Effect impl value standing)
    (hbefore : impl.standing.Within impl.config) : standing.Within impl.config := by
  obtain ⟨hsets, hevaluations, hpopulations⟩ := hbefore
  cases h with
  | published _ _ _ hpublished =>
      exact ⟨length_publishInto hpublished hsets, (length_demote _ _).trans_le hevaluations,
        hpopulations⟩
  | moved =>
      refine ⟨(length_replaceFirst).trans_le hsets, ?_, hpopulations⟩
      dsimp only
      split
      · exact (length_demote _ _).trans_le hevaluations
      · exact hevaluations
  | advanced => exact ⟨hsets, (length_demote _ _).trans_le hevaluations, hpopulations⟩
  | invalidated => exact ⟨hsets, (length_demote _ _).trans_le hevaluations, hpopulations⟩

/-- The population of a commit takes the place of another one, or finds room. -/
theorem length_commitPopulations {config : CoordinatorConfig}
    {populations after : List CandidatePopulation} {setId : ConstraintSetId}
    {candidates : List CandidatePath}
    (h : commitPopulations config populations setId candidates = some after)
    (hbefore : populations.length ≤ config.maxCandidatePopulations.toNat) :
    after.length ≤ config.maxCandidatePopulations.toNat := by
  unfold commitPopulations at h
  dsimp only at h
  split at h
  · cases h
    rwa [length_replaceFirst]
  · split at h
    · cases populations with
      | nil => cases h
      | cons evicted retained =>
          cases h
          rw [List.length_append, List.length_singleton]
          exact hbefore
    · cases h
      rw [List.length_append, List.length_singleton]
      omega

/-! ## Commits -/

/-- A commit finds room in the history for the records that it leaves current: those of
other sets whose identities it does not derive, and those of its batch. -/
def FindsHistory (event : Event) : Prop :=
  ∀ ticket snapshot, Commits event ticket snapshot →
    let records := committedRecords event.pre.impl snapshot event.input.call
    ((Impl.currentRecords event.pre.impl.evaluations).filter fun record =>
      record.setId != snapshot.setId && record.id ∉ records.map (·.id)).length +
        records.length ≤ event.pre.impl.config.limits.maxEvaluationsRetained.toNat

/-- A commit keeps every current record that it does not replace or supersede. -/
def KeepsCurrent (event : Event) : Prop :=
  ∀ ticket snapshot, Commits event ticket snapshot →
    ∀ record ∈ commitEvaluations event.pre.impl.evaluations snapshot.setId
      (committedRecords event.pre.impl snapshot event.input.call),
    record.state = .current → record ∈ event.post.impl.evaluations

section Commit

variable {impl : Impl} {snapshot : EvaluationSnapshot} {call : Call} {next : PersistentState}

/-- What a commit writes, down to the number of records that it evicts. -/
theorem commitTarget_standing (h : commitTarget impl snapshot call = some next) :
    commitPopulations impl.config impl.populations snapshot.setId snapshot.candidates =
        some next.populations ∧ next.sets = impl.sets ∧
      next.evaluations = trimHistory
        ((commitEvaluations impl.evaluations snapshot.setId
          (committedRecords impl snapshot call)).length -
            impl.config.limits.maxEvaluationsRetained.toNat)
        (commitEvaluations impl.evaluations snapshot.setId
          (committedRecords impl snapshot call)) := by
  simp only [commitTarget, commitState, Option.map_eq_some_iff] at h
  obtain ⟨populations, hpopulations, rfl⟩ := h
  exact ⟨hpopulations, rfl, rfl⟩

/-- A commit trims its history to the bound when there is room for what stays current. -/
theorem length_evaluations_of_commitTarget (h : commitTarget impl snapshot call = some next)
    (hroom : ((Impl.currentRecords impl.evaluations).filter fun record =>
      record.setId != snapshot.setId &&
        record.id ∉ (committedRecords impl snapshot call).map (·.id)).length +
      (committedRecords impl snapshot call).length ≤
        impl.config.limits.maxEvaluationsRetained.toNat) :
    next.evaluations.length ≤ impl.config.limits.maxEvaluationsRetained.toNat := by
  rw [(commitTarget_standing h).2.2]
  refine length_trimHistory_le (by omega) ?_
  rw [currentRecords_commitEvaluations, List.length_append]
  have hbatch := List.length_filter_le (fun record : EvaluationRecord => record.state = .current)
    (committedRecords impl snapshot call)
  unfold Impl.currentRecords at hroom ⊢
  omega

theorem commitTarget_within (h : commitTarget impl snapshot call = some next)
    (hbefore : impl.standing.Within impl.config)
    (hroom : ((Impl.currentRecords impl.evaluations).filter fun record =>
      record.setId != snapshot.setId &&
        record.id ∉ (committedRecords impl snapshot call).map (·.id)).length +
      (committedRecords impl snapshot call).length ≤
        impl.config.limits.maxEvaluationsRetained.toNat) :
    next.standing.Within impl.config := by
  obtain ⟨hpopulations, hsets, -⟩ := commitTarget_standing h
  refine ⟨?_, length_evaluations_of_commitTarget h hroom,
    length_commitPopulations hpopulations hbefore.populations⟩
  show next.sets.length ≤ _
  rw [hsets]
  exact hbefore.sets

end Commit

/-! ## Reachable states -/

/-- Every stored collection is within its declared bound. -/
structure Bounded (impl : Impl) : Prop where
  registry : impl.authority.Within impl.config.limits
  standing : impl.standing.Within impl.config

/-- An eviction finds an element that it may remove: the oldest attempt, a population,
and a record that is not current. -/
structure Evictable (impl : Impl) : Prop where
  attempts : impl.config.limits.maxMutationAttempts.toNat ≤ impl.authority.attempts.length →
    impl.authority.attempts ≠ []
  populations : ∀ snapshot call, (evaluateFinish impl snapshot call).isSome = true
  history : ∀ evaluations position, historyVictim evaluations = some position →
    ∃ record, evaluations[position]? = some record ∧ record.state ≠ .current

/-- A validated limit set remembers at least one attempt. -/
theorem maxMutationAttempts_pos {limits : Limits} (h : validateLimits limits = .ok ()) :
    0 < limits.maxMutationAttempts.toNat := by
  have hentry := validateLimits_entry_pos h
    ("max_mutation_attempts", limits.maxMutationAttempts) (by simp [Limits.entries])
  have hne : limits.maxMutationAttempts.toNat ≠ 0 :=
    fun hzero => hentry (UInt32.toNat_inj.mp hzero)
  omega

theorem commitPopulations_isSome {config : CoordinatorConfig}
    {populations : List CandidatePopulation} {setId : ConstraintSetId}
    {candidates : List CandidatePath} (hpositive : 0 < config.maxCandidatePopulations.toNat) :
    (commitPopulations config populations setId candidates).isSome = true := by
  unfold commitPopulations
  dsimp only
  split
  · rfl
  · split
    · next hfull =>
        cases populations with
        | nil =>
            rw [List.length_nil] at hfull
            omega
        | cons evicted retained => rfl
    · rfl

theorem evictable_of_positive {impl : Impl}
    (hlimits : validateLimits impl.config.limits = .ok ())
    (hpositive : 0 < impl.config.maxCandidatePopulations.toNat) : Evictable impl := by
  refine ⟨?_, ?_, fun _ _ => historyVictim_not_current⟩
  · intro hfull hnone
    have hattempts := maxMutationAttempts_pos hlimits
    rw [hnone, List.length_nil] at hfull
    omega
  · intro snapshot call
    unfold evaluateFinish
    dsimp only
    split
    · rfl
    · split
      · rfl
      · rw [Option.isSome_map, commitState, Option.isSome_map]
        exact commitPopulations_isSome hpositive

/-- Every step keeps the bounds. -/
theorem Bounded.stepped {event : Event} (htaken : event.Taken step)
    (hsound : Sound event.pre) (h : Bounded event.pre.impl) (hfinds : FindsHistory event) :
    Bounded event.post.impl ∧ KeepsCurrent event := by
  have hconfig := (section_of_taken htaken).config
  have hregistry := h.registry.moved (maxMutationAttempts_pos hsound.limits)
    (moves_of_taken htaken)
  have htransition := step_transition hsound.limits htaken
  suffices hstanding : event.post.impl.standing.Within event.pre.impl.config ∧
      KeepsCurrent event by
    rw [← hconfig] at hregistry hstanding
    exact ⟨⟨hregistry, hstanding.1⟩, hstanding.2⟩
  have hbefore := h.standing
  clear hconfig hregistry htaken
  cases htransition.standingStep with
  | kept hstanding hnone =>
      rw [hstanding]
      exact ⟨hbefore, fun ticket snapshot hcommits => absurd hcommits (hnone ticket snapshot)⟩
  | operated operation value haction heffect =>
      refine ⟨heffect.bounded hbefore, ?_⟩
      intro ticket snapshot hcommits
      have hfinish := hcommits.action
      rw [haction] at hfinish
      cases hfinish
  | committed ticket snapshot next hcommits _ htarget _ hstanding =>
      have hroom := hfinds ticket snapshot hcommits
      rw [hstanding]
      refine ⟨commitTarget_within htarget hbefore hroom, ?_⟩
      intro other found hother record hmem hcurrent
      have haction := hother.action
      rw [hcommits.action] at haction
      cases haction
      have hsame := hother.flight
      rw [hcommits.flight] at hsame
      cases hsame
      have hevaluations : event.post.impl.evaluations = next.evaluations :=
        congrArg Standing.evaluations hstanding
      rw [hevaluations, (commitTarget_standing htarget).2.2]
      exact mem_trimHistory_of_current hmem hcurrent

theorem nextIncarnation_none {clock : Nat → UInt64} {authority : AuthorityRegistry}
    (h : nextIncarnation none clock = .ok authority) : authority.fenced = ∅ := by
  obtain ⟨-, rfl⟩ := AuthorityRegistry.establishEpoch_ok h
  rfl

/-- A coordinator in memory starts with nothing stored. -/
theorem openCoordinator_fresh {config : CoordinatorConfig}
    {report : StoreReport config.limits} {call : Call} {impl : Impl}
    (h : openCoordinator config report call = .ok impl) (hpath : config.storePath = "") :
    impl.standing = ⟨config.evidence, [], [], []⟩ ∧
      ∃ authority, impl.authority = authority ∧ nextIncarnation none call.clock = .ok authority := by
  obtain ⟨-, restored, authority, hrestored, hauthority, hpersist⟩ :=
    openCoordinator_eq_ok.mp h
  have hnone : restored = none := by
    unfold restoredState at hrestored
    rw [if_pos hpath] at hrestored
    exact (Except.ok.inj hrestored).symm
  subst hnone
  obtain ⟨store, -, hsame⟩ := (recover (unopened config report authority) none).persist_fst
    (recover (unopened config report authority) none).toState call
  rw [hpersist] at hsame
  dsimp only at hsame
  subst hsame
  exact ⟨rfl, authority, rfl, hauthority⟩

/-- An opened coordinator is within the bounds of everything but its populations: what it
restores was validated, and so is what it writes. -/
theorem Opened.within {state : SystemState} (h : Opened state) :
    state.impl.authority.Within state.impl.config.limits ∧
      state.impl.sets.length ≤ state.impl.config.limits.maxConstraintSets.toNat ∧
      state.impl.evaluations.length ≤
        state.impl.config.limits.maxEvaluationsRetained.toNat := by
  cases h with
  | @opened config report call impl hopened =>
      dsimp only
      obtain ⟨restored, authority, hrestored, hauthority, hrecovered, hprojects⟩ :=
        openCoordinator_recovered hopened
      obtain ⟨hregistrations, hattempts⟩ := nextIncarnation_empty hauthority
      have hlive : impl.authority.liveRegistrations.length = 0 := by
        rw [hrecovered.registry, AuthorityRegistry.liveRegistrations, hregistrations]
        rfl
      have hwindow : impl.authority.attempts.length = 0 := by
        rw [hrecovered.registry, hattempts]
        rfl
      by_cases hdurable : impl.durable = true
      · have hvalid := (hprojects hdurable).1.valid
        have hsize : impl.authority.fenced.values.length = impl.authority.fenced.size := by
          rw [values_eq_map_toList, List.length_map, Std.ExtTreeMap.length_toList]
        have hfenced := hvalid.fencedCount
        change impl.authority.fenced.values.length ≤ _ at hfenced
        exact ⟨⟨by omega, by omega, by omega⟩, hvalid.setCount, hvalid.evaluationCount⟩
      · have hpath : config.storePath = "" := by
          have hnot := hrecovered.durable
          rw [Bool.not_eq_true] at hdurable
          rw [hdurable] at hnot
          simpa using hnot.symm
        obtain ⟨hstanding, fresh, hfresh, hnone⟩ := openCoordinator_fresh hopened hpath
        have hfenced : impl.authority.fenced.size = 0 := by
          rw [hfresh, nextIncarnation_none hnone]
          rfl
        have hsets := congrArg Standing.sets hstanding
        have hevaluations := congrArg Standing.evaluations hstanding
        change impl.sets = [] at hsets
        change impl.evaluations = [] at hevaluations
        refine ⟨⟨by omega, by omega, by omega⟩, ?_, ?_⟩
        · rw [hsets]
          exact Nat.zero_le _
        · rw [hevaluations]
          exact Nat.zero_le _

/-- In every run that starts with no more populations than it may retain, where it may
retain one at least, and whose commits find room in the history, every stored collection
stays within its bound, every eviction finds an element that it may remove, and no commit
evicts a current record. -/
theorem bounded_of_room {start last : SystemState} {events : List Event}
    (hopened : Opened start) (hrun : Run step start events last)
    (hpositive : 0 < start.impl.config.maxCandidatePopulations.toNat)
    (hrestored : start.impl.populations.length ≤
      start.impl.config.maxCandidatePopulations.toNat)
    (hfinds : ∀ event ∈ events, FindsHistory event) :
    Bounded last.impl ∧ Evictable last.impl ∧ ∀ event ∈ events, KeepsCurrent event := by
  let inv : List Event → SystemState → Prop := fun history state =>
    state.impl.config = start.impl.config ∧ Bounded state.impl ∧
      ∀ event ∈ history, KeepsCurrent event
  have hexecution : Execution events last := ⟨start, hopened, hrun⟩
  have hinv : inv events last := by
    refine @Run.history_invariant _ _ _ _ _ _ _ inv hrun ?_ ?_
    · obtain ⟨hregistry, hsets, hevaluations⟩ := hopened.within
      exact ⟨rfl, ⟨hregistry, hsets, hevaluations, hrestored⟩, fun _ hmem => by cases hmem⟩
    · intro before event after hevents htaken hbefore
      obtain ⟨hconfig, hbounded, hkeeps⟩ := hbefore
      subst hevents
      have hsound := hexecution.split.1.sound
      obtain ⟨hnext, hkeep⟩ := hbounded.stepped htaken hsound (hfinds event (by simp))
      refine ⟨(section_of_taken htaken).config.trans hconfig, hnext, ?_⟩
      intro earlier hmem
      rcases List.mem_append.mp hmem with hearlier | hlast
      · exact hkeeps earlier hearlier
      · rw [List.mem_singleton.mp hlast]
        exact hkeep
  obtain ⟨hconfig, hbounded, hkeeps⟩ := hinv
  rw [← hconfig] at hpositive
  exact ⟨hbounded, evictable_of_positive hexecution.sound.limits hpositive, hkeeps⟩

/-- The commits of the sample find room in the history. -/
def findsHistory (event : Event) : Bool :=
  match event.input.action with
  | .evaluateFinish ticket =>
      match event.pre.flights ticket with
      | some (.evaluating snapshot) =>
          let records := committedRecords event.pre.impl snapshot event.input.call
          decide (((Impl.currentRecords event.pre.impl.evaluations).filter fun record =>
            record.setId != snapshot.setId && record.id ∉ records.map (·.id)).length +
              records.length ≤ event.pre.impl.config.limits.maxEvaluationsRetained.toNat)
      | _ => true
  | _ => true

theorem findsHistory_sound {event : Event} (h : findsHistory event = true) :
    FindsHistory event := by
  intro ticket snapshot hcommits
  simp only [findsHistory, hcommits.action, hcommits.flight, decide_eq_true_eq] at h
  exact h

/-- The run starts with room for a population. -/
private def startsWithRoom (event : Event) : Bool :=
  decide (0 < event.pre.impl.config.maxCandidatePopulations.toNat) &&
    decide (event.pre.impl.populations.length ≤
      event.pre.impl.config.maxCandidatePopulations.toNat)

private theorem sampleTwins_room :
    ((sampleRun sampleTwins).any fun run =>
      run.1.head?.any startsWithRoom && run.1.all findsHistory) = true := by
  decide +kernel

theorem bounded_of_room_sample :
    ∃ events last, sampleRun sampleTwins = some (events, last) ∧
      Bounded last.impl ∧ Evictable last.impl ∧ ∀ event ∈ events, KeepsCurrent event := by
  obtain ⟨events, last, hrun, hexecution, hcheck⟩ :=
    sampleRun_execution sampleTwins
      (fun events => events.head?.any startsWithRoom && events.all findsHistory)
      sampleTwins_room
  rw [Bool.and_eq_true] at hcheck
  obtain ⟨hroom, hfinds⟩ := hcheck
  obtain ⟨start, hopened, hsteps⟩ := hexecution
  obtain ⟨first, hfirst, hstarts⟩ := (Option.any_eq_true _ _).mp hroom
  simp only [startsWithRoom, Bool.and_eq_true, decide_eq_true_eq] at hstarts
  cases hsteps with
  | nil => cases hfirst
  | cons htaken hrest =>
      cases hfirst
      exact ⟨_, last, hrun, bounded_of_room hopened (.cons htaken hrest) hstarts.1 hstarts.2
        fun event hmem => findsHistory_sound (List.all_eq_true.mp hfinds event hmem)⟩

/-! ## Commits without room -/

/-- A history of one record. -/
def sampleShort : CoordinatorConfig :=
  { sampleConfig with limits := { maxEvaluationsRetained := 1 } }

/-- No population is retained. -/
def sampleBare : CoordinatorConfig := { sampleConfig with maxCandidatePopulations := 0 }

private def outgrowsHistory (event : Event) : Bool :=
  decide (event.post.impl.config.limits.maxEvaluationsRetained.toNat <
    event.post.impl.evaluations.length)

private theorem sampleShort_outgrows :
    ((execute (openInMemory sampleShort sampleCall) (sampleRegister :: sampleTwins)).any
      fun run => run.1.getLast?.any outgrowsHistory) = true := by
  decide +kernel

/-- The evaluation in flight under the first ticket has no last section. -/
private def strands (event : Event) : Bool :=
  match event.post.flights 0 with
  | some (.evaluating snapshot) => (evaluateFinish event.post.impl snapshot sampleCall).isNone
  | _ => false

private theorem sampleBare_strands :
    ((execute (openInMemory sampleBare sampleCall)
      (sampleRegister :: samplePublish 5 10 ++ [sampleBegin 20 5 [31]])).any
      fun run => run.1.getLast?.any strands) = true := by
  decide +kernel

/-- Two records of one batch outgrow a history of one, and a commit that may retain no
population evicts one from none. -/
theorem commit_without_room :
    (∃ events last,
      execute (openInMemory sampleShort sampleCall) (sampleRegister :: sampleTwins) =
        some (events, last) ∧ Execution events last ∧ ¬ Bounded last.impl) ∧
    ∃ events last,
      execute (openInMemory sampleBare sampleCall)
        (sampleRegister :: samplePublish 5 10 ++ [sampleBegin 20 5 [31]]) =
          some (events, last) ∧ Execution events last ∧ ¬ Evictable last.impl := by
  constructor
  · obtain ⟨events, last, hrun, hexecution, hcheck⟩ := Execution.of_check
      (fun events => events.getLast?.any outgrowsHistory) sampleShort_outgrows
    obtain ⟨event, hlast, houtgrows⟩ := (Option.any_eq_true _ _).mp hcheck
    have hmore := of_decide_eq_true houtgrows
    rw [hexecution.post_of_getLast? hlast] at hmore
    refine ⟨events, last, hrun, hexecution, fun hbounded => ?_⟩
    exact Nat.not_lt.mpr hbounded.standing.evaluations hmore
  · obtain ⟨events, last, hrun, hexecution, hcheck⟩ := Execution.of_check
      (fun events => events.getLast?.any strands) sampleBare_strands
    obtain ⟨event, hlast, hstrands⟩ := (Option.any_eq_true _ _).mp hcheck
    refine ⟨events, last, hrun, hexecution, fun hevictable => ?_⟩
    unfold strands at hstrands
    rw [hexecution.post_of_getLast? hlast] at hstrands
    split at hstrands
    · next snapshot _ =>
        have hsome := hevictable.populations snapshot sampleCall
        rw [Option.isSome_iff_ne_none] at hsome
        exact hsome (Option.isNone_iff_eq_none.mp hstrands)
    · cases hstrands

end ConstraintRouting.Fabric
