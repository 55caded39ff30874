import ConstraintRouting.Fabric.PersistenceSpec
import ConstraintRouting.Fabric.SnapshotIsolation
import ConstraintRouting.Verified.KeyedTables

/-!
# Current records and retained populations

Only a committed evaluation makes a record current or retains a population.  It
replaces what the set had, and may evict the population of one other set.
-/

namespace ConstraintRouting.Fabric

open Verified.StepMachine Verified.KeyedTables
open Verified.SortedLists (sortBy)

/-! ## Requests -/

/-- A record that is current after a demotion was current before, and was not
selected. -/
theorem mem_of_mem_demote {selected : EvaluationRecord → Bool}
    {evaluations : List EvaluationRecord} {record : EvaluationRecord}
    (h : record ∈ demote selected evaluations) (hcurrent : record.state = .current) :
    record ∈ evaluations ∧ selected record = false := by
  obtain ⟨original, hmem, hrecord⟩ := List.mem_map.mp h
  split at hrecord
  · subst hrecord
    cases hcurrent
  · next hkept =>
      subst hrecord
      refine ⟨hmem, ?_⟩
      simpa [hcurrent] using hkept

/-- No request makes a record current. -/
theorem Operation.Effect.mem_of_current {impl : Impl} {operation : Operation} {value : Value}
    {standing : Standing} (h : operation.Effect impl value standing)
    {record : EvaluationRecord} (hmem : record ∈ standing.evaluations)
    (hcurrent : record.state = .current) : record ∈ impl.evaluations := by
  cases h with
  | published | advanced | invalidated => exact (mem_of_mem_demote hmem hcurrent).1
  | moved =>
      dsimp only at hmem
      split at hmem
      · exact (mem_of_mem_demote hmem hcurrent).1
      · exact hmem

/-- No request replaces a population. -/
theorem Operation.Effect.populations {impl : Impl} {operation : Operation} {value : Value}
    {standing : Standing} (h : operation.Effect impl value standing) :
    standing.populations = impl.populations := by
  cases h <;> rfl

/-! ## Commits -/

/-- A record that is current after a commit belongs to the batch, or to another
set. -/
theorem CommitWrites.current_cases {impl : Impl} {snapshot : EvaluationSnapshot}
    {call : Call} {next : PersistentState} {populations : List CandidatePopulation}
    {excess : Nat} (h : CommitWrites impl snapshot call next populations excess)
    {record : EvaluationRecord} (hmem : record ∈ next.evaluations)
    (hcurrent : record.state = .current) :
    record ∈ committedRecords impl snapshot call ∨
      record ∈ impl.evaluations ∧ record.setId ≠ snapshot.setId := by
  have hevaluations := congrArg Standing.evaluations h.standing
  change next.evaluations = _ at hevaluations
  rw [hevaluations] at hmem
  rcases List.mem_append.mp (trimHistory_sublist.mem hmem) with hold | hnew
  · obtain ⟨original, hretained, hrecord⟩ := List.mem_map.mp hold
    have horiginal := (List.mem_filter.mp hretained).1
    split at hrecord
    · subst hrecord
      cases hcurrent
    · next hother =>
        subst hrecord
        refine .inr ⟨horiginal, fun heq => hother ?_⟩
        simp [heq, hcurrent]
  · exact .inl hnew

/-- A committed record belongs to the set of its snapshot. -/
theorem setId_of_mem_committedRecords {impl : Impl} {snapshot : EvaluationSnapshot}
    {call : Call} {record : EvaluationRecord}
    (h : record ∈ committedRecords impl snapshot call) : record.setId = snapshot.set.id := by
  obtain ⟨-, -, candidate, -, rfl⟩ := mem_committedRecords h
  rfl

/-! ### The retained populations -/

/-- The population that a commit of candidates for the set evicts. -/
def evictedPopulation (config : CoordinatorConfig) (populations : List CandidatePopulation)
    (setId : ConstraintSetId) : Option CandidatePopulation :=
  if (findPopulation populations setId).isSome then none
  else if config.maxCandidatePopulations.toNat ≤ populations.length then populations.head?
  else none

/-- The population that a commit of the snapshot retains. -/
def EvaluationSnapshot.population (snapshot : EvaluationSnapshot) : CandidatePopulation :=
  ⟨snapshot.setId, sortBy (compareOn (·.path)) snapshot.candidates⟩

theorem setId_of_findPopulation {populations : List CandidatePopulation}
    {setId : ConstraintSetId} {population : CandidatePopulation}
    (h : findPopulation populations setId = some population) : population.setId = setId := by
  unfold findPopulation at h
  simpa using List.find?_some h

section Populations

variable {config : CoordinatorConfig} {populations after : List CandidatePopulation}
  {setId : ConstraintSetId} {candidates : List CandidatePath}

/-- A commit replaces the population of its set, or appends it after what it does
not evict. -/
theorem commitPopulations_cases
    (h : commitPopulations config populations setId candidates = some after) :
    (findPopulation populations setId).isSome = true ∧
      after = replaceFirst (·.setId == setId)
        ⟨setId, sortBy (compareOn (·.path)) candidates⟩ populations ∨
    findPopulation populations setId = none ∧
      ∃ kept, after = kept ++ [⟨setId, sortBy (compareOn (·.path)) candidates⟩] ∧
        (evictedPopulation config populations setId = none ∧ populations = kept ∨
          ∃ evicted, evictedPopulation config populations setId = some evicted ∧
            populations = evicted :: kept) := by
  unfold commitPopulations at h
  unfold evictedPopulation
  dsimp only at h
  split at h
  · next hfound =>
      cases h
      exact .inl ⟨hfound, rfl⟩
  · next hmissing =>
      refine .inr ⟨Option.not_isSome_iff_eq_none.mp hmissing, ?_⟩
      rw [if_neg hmissing]
      split at h
      · next hfull =>
          rw [if_pos hfull]
          cases populations with
          | nil => cases h
          | cons evicted kept =>
              cases h
              exact ⟨kept, rfl, .inr ⟨evicted, rfl, rfl⟩⟩
      · next hroom =>
          rw [if_neg hroom]
          cases h
          exact ⟨populations, rfl, .inl ⟨rfl, rfl⟩⟩

/-- After a commit its set has the population of the batch. -/
theorem findPopulation_commitPopulations
    (h : commitPopulations config populations setId candidates = some after) :
    findPopulation after setId =
      some ⟨setId, sortBy (compareOn (·.path)) candidates⟩ := by
  rcases commitPopulations_cases h with ⟨hfound, rfl⟩ | ⟨hmissing, kept, rfl, hkept⟩
  · exact find?_replaceFirst_self rfl hfound
  · refine find?_concat_self rfl ?_
    rcases hkept with ⟨-, rfl⟩ | ⟨evicted, -, rfl⟩
    · exact hmissing
    · unfold findPopulation at hmissing
      rw [List.find?_eq_none] at hmissing ⊢
      exact fun population hmem => hmissing population (List.mem_cons_of_mem _ hmem)

/-- Another set keeps its population, unless it is the one that is evicted. -/
theorem findPopulation_commitPopulations_of_ne {other : ConstraintSetId}
    (h : commitPopulations config populations setId candidates = some after)
    (hne : setId ≠ other)
    (hkept : ∀ evicted, evictedPopulation config populations setId = some evicted →
      evicted.setId ≠ other) :
    findPopulation after other = findPopulation populations other := by
  rcases commitPopulations_cases h with ⟨-, rfl⟩ | ⟨-, kept, rfl, ⟨-, rfl⟩ | ⟨evicted, hevicted, rfl⟩⟩
  · exact find?_replaceFirst_of_ne rfl hne
  · exact find?_concat_of_ne hne
  · have hmiss : (evicted.setId == other) = false :=
      beq_eq_false_iff_ne.mpr (hkept evicted hevicted)
    refine (find?_concat_of_ne hne).trans ?_
    simp only [findPopulation, List.find?_cons, hmiss]

theorem nodup_commitPopulations
    (h : commitPopulations config populations setId candidates = some after)
    (hdistinct : (populations.map (·.setId)).Nodup) : (after.map (·.setId)).Nodup := by
  rcases commitPopulations_cases h with ⟨-, rfl⟩ | ⟨hmissing, kept, rfl, hkept⟩
  · have hkeys : (replaceFirst (·.setId == setId)
        ⟨setId, sortBy (compareOn (·.path)) candidates⟩ populations).map (·.setId) =
        populations.map (·.setId) := map_key_replaceFirst rfl
    rwa [hkeys]
  · have hkeys : (kept.map (·.setId)).Nodup ∧
        ∀ population ∈ kept, population.setId ≠ setId := by
      unfold findPopulation at hmissing
      rw [List.find?_eq_none] at hmissing
      rcases hkept with ⟨-, rfl⟩ | ⟨evicted, -, rfl⟩
      · exact ⟨hdistinct, by simpa using hmissing⟩
      · rw [List.map_cons, List.nodup_cons] at hdistinct
        refine ⟨hdistinct.2, fun population hmem => ?_⟩
        simpa using hmissing population (List.mem_cons_of_mem _ hmem)
    rw [List.map_append, List.nodup_append]
    refine ⟨hkeys.1, by simp, ?_⟩
    intro one hone other hother
    obtain ⟨population, hmem, rfl⟩ := List.mem_map.mp hone
    simp only [List.map_cons, List.map_nil, List.mem_singleton] at hother
    exact hother ▸ hkeys.2 population hmem

/-- A commit gives no other set a population. -/
theorem findPopulation_of_commitPopulations {other : ConstraintSetId}
    {population : CandidatePopulation}
    (h : commitPopulations config populations setId candidates = some after)
    (hdistinct : (populations.map (·.setId)).Nodup) (hne : setId ≠ other)
    (hfound : findPopulation after other = some population) :
    findPopulation populations other = some population := by
  by_cases hstays : ∀ evicted, evictedPopulation config populations setId = some evicted →
      evicted.setId ≠ other
  · rwa [← findPopulation_commitPopulations_of_ne h hne hstays]
  · push Not at hstays
    obtain ⟨evicted, hevicted, heq⟩ := hstays
    rcases commitPopulations_cases h with ⟨hisSome, -⟩ | ⟨-, kept, rfl, ⟨hnone, -⟩ |
      ⟨_, hsome, rfl⟩⟩
    · simp [evictedPopulation, hisSome] at hevicted
    · rw [hnone] at hevicted
      cases hevicted
    · rw [hevicted] at hsome
      cases hsome
      rw [List.map_cons, List.nodup_cons] at hdistinct
      rw [findPopulation, find?_concat_of_ne hne] at hfound
      have hkey : population.setId = evicted.setId := by
        simpa [heq] using List.find?_some hfound
      exact absurd (List.mem_map.mpr ⟨population, List.mem_of_find?_eq_some hfound, hkey⟩)
        hdistinct.1

end Populations

/-! ## Steps -/

/-- The event committed the evaluation of the snapshot. -/
structure Commits (event : Event) (ticket : Nat) (snapshot : EvaluationSnapshot) : Prop
    extends Finishes event ticket snapshot where
  reports : ReportsCommit event

/-- What a step does to what stands: nothing, what an accepted request asks for, or what the
last section of an evaluation writes. -/
inductive StandingStep (event : Event) : Prop
  | kept :
      event.post.impl.standing = event.pre.impl.standing →
      (∀ ticket snapshot, ¬ Commits event ticket snapshot) → StandingStep event
  | operated (operation : Operation) (value : Value) :
      event.input.action = .operate operation →
      operation.Effect event.pre.impl value event.post.impl.standing →
      Published event.pre.impl event.post.impl → StandingStep event
  | committed (ticket : Nat) (snapshot : EvaluationSnapshot) (next : PersistentState) :
      Commits event ticket snapshot →
      DependenciesUnchanged event.pre.impl snapshot →
      commitTarget event.pre.impl snapshot event.input.call = some next →
      (event.pre.impl.persist next event.input.call).2 = .ok () →
      event.post.impl.standing = next.standing → StandingStep event

theorem Transition.standingStep {event : Event}
    (h : Transition event.pre event.input.call event.input.action event.output
      event.post) : StandingStep event := by
  obtain ⟨pre, ⟨action, call⟩, output, post⟩ := event
  dsimp only at h
  cases h with
  | operated operation =>
      rcases operation.run_cases pre.impl call with hkept | ⟨value, -, heffect, hpublished⟩
      · apply StandingStep.kept hkept.standing
        intro ticket snapshot hcommits
        cases hcommits.action
      · exact .operated operation value rfl heffect hpublished
  | ended hfinish _ hkept _ =>
      exact .kept hkept.standing fun ticket _ hcommits => hfinish ticket hcommits.action
  | read =>
      apply StandingStep.kept rfl
      intro ticket snapshot hcommits
      cases hcommits.action
  | started hfinish _ _ hcaptured _ =>
      obtain ⟨authority, rfl⟩ := hcaptured.after
      exact .kept rfl fun ticket _ hcommits => hfinish ticket hcommits.action
  | moved _ _ hcommitted _ =>
      apply StandingStep.kept rfl
      intro ticket snapshot hcommits
      obtain ⟨outcome, houtput, htrue⟩ := hcommits.reports
      cases houtput
      rw [hcommitted] at htrue
      cases htrue
  | @unwritten _ _ next =>
      apply StandingStep.kept (pre.impl.persist_kept next call).standing
      intro ticket snapshot hcommits
      obtain ⟨outcome, houtput, -⟩ := hcommits.reports
      cases houtput
  | @committed ticket snapshot next outcome hflight hunchanged htarget hok hcommitted =>
      exact .committed ticket snapshot next ⟨⟨rfl, hflight⟩, outcome, rfl, hcommitted⟩
        hunchanged htarget hok rfl

/-- What a step does to the current records and to the retained populations. -/
inductive ResultsStep (event : Event) : Prop
  | kept :
      (∀ record ∈ event.post.impl.evaluations, record.state = .current →
        record ∈ event.pre.impl.evaluations) →
      event.post.impl.populations = event.pre.impl.populations →
      (∀ ticket snapshot, ¬ Commits event ticket snapshot) → ResultsStep event
  | committed (ticket : Nat) (snapshot : EvaluationSnapshot) (next : PersistentState)
      (excess : Nat) :
      Commits event ticket snapshot →
      CommitGate event.pre.impl snapshot event.input.call →
      CommitWrites event.pre.impl snapshot event.input.call next
        event.post.impl.populations excess →
      event.post.impl.evaluations = next.evaluations → ResultsStep event

theorem Transition.resultsStep {event : Event}
    (h : Transition event.pre event.input.call event.input.action event.output
      event.post) : ResultsStep event := by
  cases h.standingStep with
  | kept hstanding hnone =>
      have hevaluations : event.post.impl.evaluations = event.pre.impl.evaluations :=
        congrArg Standing.evaluations hstanding
      apply ResultsStep.kept _ (congrArg Standing.populations hstanding) hnone
      intro record hmem _
      rwa [← hevaluations]
  | operated operation value haction heffect =>
      apply ResultsStep.kept (fun record => heffect.mem_of_current) heffect.populations
      intro ticket snapshot hcommits
      have hfinish := hcommits.action
      rw [haction] at hfinish
      cases hfinish
  | committed ticket snapshot next hcommits hunchanged htarget hok hstanding =>
      obtain ⟨populations, excess, hwrites⟩ := commitTarget_writes htarget
      have hpopulations : event.post.impl.populations = populations :=
        (congrArg Standing.populations hstanding).trans
          (congrArg Standing.populations hwrites.standing)
      refine .committed ticket snapshot next excess hcommits ⟨hunchanged, ?_⟩ ?_
        (congrArg Standing.evaluations hstanding)
      · intro other hother
        rw [htarget] at hother
        cases hother
        exact hok
      · rwa [hpopulations]

/-! ## Reachable states -/

theorem OpenedFrom.populations_distinct {impl : Impl} {restored : Option PersistentState}
    (h : OpenedFrom impl restored) : (impl.populations.map (·.setId)).Nodup := by
  rw [h.populations]
  cases restored with
  | none => exact List.nodup_nil
  | some state => exact (validatePersistentState_eq_ok.mp (h.valid state rfl)).populations

/-- The retained populations belong to distinct sets. -/
theorem Execution.populations_distinct {events : List Event} {last : SystemState}
    (h : Execution events last) : (last.impl.populations.map (·.setId)).Nodup := by
  let inv : List Event → SystemState → Prop := fun _ state =>
    (state.impl.populations.map (·.setId)).Nodup
  have hinv : inv events last := by
    refine h.history_invariant ?_ ?_
    · rintro start ⟨hopened⟩
      obtain ⟨restored, hfrom⟩ := openCoordinator_openedFrom hopened
      exact hfrom.populations_distinct
    · intro before event after _ _ htransition hdistinct
      cases htransition.resultsStep with
      | kept _ hsame _ => exact (congrArg (fun populations =>
          (populations.map CandidatePopulation.setId).Nodup) hsame).mpr hdistinct
      | committed ticket snapshot next excess _ _ hwrites _ =>
          exact nodup_commitPopulations hwrites.retained hdistinct
  exact hinv

/-- The snapshot of an evaluation in flight holds the set that it names. -/
theorem Execution.snapshot_set {events : List Event} {last : SystemState}
    (h : Execution events last) {ticket : Nat} {snapshot : EvaluationSnapshot}
    (hflight : last.flights ticket = some (.evaluating snapshot)) :
    snapshot.set.id = snapshot.setId ∧ snapshot.mask = consultedMask snapshot.set := by
  obtain ⟨earlier, start, between, rfl, hstarts⟩ := h.traced ticket snapshot hflight
  obtain ⟨-, hstart, -⟩ := h.split
  obtain ⟨-, -, _, _, _, hcaptured, -⟩ := hstart.starts hstarts
  have hfound := hcaptured.set
  unfold findSet at hfound
  refine ⟨?_, hcaptured.mask⟩
  rw [hcaptured.target]
  simpa using List.find?_some hfound

end ConstraintRouting.Fabric
