import ConstraintRouting.Fabric.IndexSpec
import ConstraintRouting.Fabric.ResultsSpec

/-!
# Currentness of the admissible results

A record that stands as current and admissible is bound to the present generation
of an active set and of every family that it consulted.  An advance of a family
reaches the record through the candidate that its set retains, so this holds as long
as each advance finds the populations of the records that it concerns.
-/

namespace ConstraintRouting.Fabric

open Verified.StepMachine Verified.KeyedTables

/-- The record is bound to what is required now. -/
structure UpToDate (standing : Standing) (record : EvaluationRecord) : Prop where
  set : ∃ set, findSet standing.sets record.setId = some set ∧ set.state = .active ∧
    record.setGeneration = set.generation
  evidence : ∀ family ∈ kFamilies, consults record.consulted family = true →
    evidenceGenerationOf record.evidence family = generationFor standing.evidence family

/-- Every current record with an admissible outcome is up to date. -/
def CurrentUpToDate (standing : Standing) : Prop :=
  ∀ record ∈ standing.evaluations, record.state = .current → record.isAdmissible = true →
    UpToDate standing record

/-- A request that asks for evidence under an unused attempt finds the population of
each current and admissible record that consulted a family whose generation moves
forward. -/
def FindsPopulations (event : Event) : Prop :=
  ∀ operation context requirements, event.input.action = .operate operation →
    operation.requirements event.pre.impl.evidence = some (context, requirements) →
    event.pre.impl.authority.findAttempt context.attempt = none →
    ∀ record ∈ event.pre.impl.evaluations, record.state = .current →
      record.isAdmissible = true →
      ∀ family ∈ advancedFamilies event.pre.impl.evidence requirements,
        consults record.consulted family = true →
        (findPopulation event.pre.impl.populations record.setId).isSome = true

/-! ## The invariant -/

/-- Current records can be indexed: their identities are valid, and their paths are in
the population of their set while it is retained. -/
structure Indexable (standing : Standing) : Prop where
  valid : ∀ record ∈ standing.evaluations, record.state = .current →
    record.id.isValid = true
  covered : ∀ record ∈ standing.evaluations, record.state = .current →
    ∀ population, findPopulation standing.populations record.setId = some population →
      ∃ candidate ∈ population.candidates, candidate.path = record.path

theorem derivedEvaluationId_isValid (setId : ConstraintSetId)
    (setGeneration : ConstraintSetGeneration) (path : PathId)
    (authorityGeneration : PathAuthorityGeneration) (evidence : EvidenceGenerationSet) :
    (derivedEvaluationId setId setGeneration path authorityGeneration evidence).isValid =
      true := by
  unfold derivedEvaluationId StrongId.isValid
  dsimp only
  split
  · rfl
  · next hne => simpa using hne

/-- A population that is found has the candidate of each of its paths. -/
theorem findCandidate_isSome {populations : List CandidatePopulation}
    {setId : ConstraintSetId} {path : PathId} {population : CandidatePopulation}
    {candidate : CandidatePath} (hfound : findPopulation populations setId = some population)
    (hmem : candidate ∈ population.candidates) (hpath : candidate.path = path) :
    ∃ found, findCandidate populations setId path = some found := by
  have hkey := setId_of_findPopulation hfound
  unfold findPopulation at hfound
  have hpopulation := List.mem_of_find?_eq_some hfound
  rw [← Option.isSome_iff_exists, findCandidate, List.find?_isSome]
  refine ⟨candidate, List.mem_flatMap.mpr ⟨population, ?_, hmem⟩, by simpa using hpath⟩
  exact List.mem_filter.mpr ⟨hpopulation, by simpa using hkey⟩

/-! ### Requests -/

section Requests

variable {impl : Impl} {operation : Operation} {value : Value} {standing : Standing}

theorem Operation.Effect.indexable (h : operation.Effect impl value standing)
    (hindexable : Indexable impl.standing) : Indexable standing := by
  constructor
  · intro record hmem hcurrent
    exact hindexable.valid record (h.mem_of_current hmem hcurrent) hcurrent
  · intro record hmem hcurrent population hfound
    rw [h.populations] at hfound
    exact hindexable.covered record (h.mem_of_current hmem hcurrent) hcurrent population
      hfound

/-- An advance reaches every current record that consulted an advanced family and whose
population is retained. -/
theorem mem_dependents_of_covered (hderived : impl.Derived)
    (hindexable : Indexable impl.standing) {record : EvaluationRecord}
    {family : EvidenceFamily} {set : ConstraintSet} (hmem : record ∈ impl.evaluations)
    (hcurrent : record.state = .current) (hset : findSet impl.sets record.setId = some set)
    (hretained : (findPopulation impl.populations record.setId).isSome = true)
    (hknown : family ∈ kFamilies) (hconsults : consults record.consulted family = true) :
    record.id ∈ dependentsOfFamily impl.index family := by
  obtain ⟨population, hfound⟩ := Option.isSome_iff_exists.mp hretained
  obtain ⟨candidate, hcandidate, hpath⟩ :=
    hindexable.covered record hmem hcurrent population hfound
  obtain ⟨found, hcandidateFound⟩ := findCandidate_isSome hfound hcandidate hpath
  rw [hderived.index]
  exact mem_dependentsOfFamily impl.standing hmem hcurrent
    (hindexable.valid record hmem hcurrent) hset hcandidateFound hknown hconsults

/-- A request keeps the admissible results up to date, if an advance finds the
populations that it needs. -/
theorem Operation.Effect.currentUpToDate (h : operation.Effect impl value standing)
    (hderived : impl.Derived) (hindexable : Indexable impl.standing)
    (hfinds : ∀ context requirements,
      operation.requirements impl.evidence = some (context, requirements) →
      impl.authority.findAttempt context.attempt = none →
      ∀ record ∈ impl.evaluations, record.state = .current → record.isAdmissible = true →
        ∀ family ∈ advancedFamilies impl.evidence requirements,
          consults record.consulted family = true →
          (findPopulation impl.populations record.setId).isSome = true)
    (hcurrent : CurrentUpToDate impl.standing) : CurrentUpToDate standing := by
  intro record hmem hstate hadmissible
  have hbefore := hcurrent record (h.mem_of_current hmem hstate) hstate hadmissible
  obtain ⟨⟨set, hset, hactive, hgeneration⟩, hevidence⟩ := hbefore
  cases h with
  | @published _ _ _ stored _ _ _ _ _ _ _ hpublished =>
      have hother : stored.id ≠ record.setId := by
        intro hsame
        simpa [hsame] using (mem_of_mem_demote hmem hstate).2
      exact ⟨⟨set, (findSet_publishInto_of_ne hpublished hother).trans hset, hactive,
        hgeneration⟩, hevidence⟩
  | @moved _ _ _ target state _ hfound _ =>
      refine ⟨?_, hevidence⟩
      have hid := id_of_findSet hfound
      by_cases hsame : target.id = record.setId
      · have hstill : state = .active := by
          by_contra hinactive
          rw [if_pos hinactive] at hmem
          simpa [hsame] using (mem_of_mem_demote hmem hstate).2
        rw [← hid, hsame] at hfound
        obtain rfl : target = set := Option.some.inj (hfound.symm.trans hset)
        refine ⟨{ target with state }, ?_, hstill, hgeneration⟩
        rw [← hsame]
        refine find?_replaceFirst_self rfl ?_
        change (findSet impl.sets target.id).isSome = true
        rw [hsame, hfound]
        rfl
      · have hkept : findSet (replaceFirst (·.id == target.id) { target with state } impl.sets)
            record.setId = findSet impl.sets record.setId :=
          find?_replaceFirst_of_ne rfl hsame
        exact ⟨set, hkept.trans hset, hactive, hgeneration⟩
  | @advanced _ context requirements hasks hunused hforward =>
      refine ⟨⟨set, hset, hactive, hgeneration⟩, fun family hknown hconsults => ?_⟩
      obtain ⟨hstood, hspared⟩ := mem_of_mem_demote hmem hstate
      have hkept : family ∉ advancedFamilies impl.evidence requirements := by
        intro hadvanced
        have hretained := hfinds context requirements hasks hunused record hstood hstate
          hadmissible family hadvanced hconsults
        have hdependent := mem_dependents_of_covered hderived hindexable hstood hstate hset
          hretained hknown hconsults
        have hselected : record.id ∈ (advancedFamilies impl.evidence requirements).flatMap
            (dependentsOfFamily impl.index) :=
          List.mem_flatMap.mpr ⟨family, hadvanced, hdependent⟩
        simp [hselected] at hspared
      have hnotLess : ¬ generationFor impl.evidence family <
          generationFor requirements family := by
        intro hless
        exact hkept (List.mem_filter.mpr ⟨hknown, by simpa using hless⟩)
      exact (hevidence family hknown hconsults).trans
        (UInt64.le_antisymm (hforward family hknown) (UInt64.not_lt.mp hnotLess))
  | invalidated => exact ⟨⟨set, hset, hactive, hgeneration⟩, hevidence⟩

end Requests

/-! ### Commits -/

section Commits

variable {impl : Impl} {snapshot : EvaluationSnapshot} {call : Call}
  {next : PersistentState} {populations : List CandidatePopulation} {excess : Nat}

theorem CommitWrites.indexable
    (h : CommitWrites impl snapshot call next populations excess)
    (hset : snapshot.set.id = snapshot.setId)
    (hdistinct : (impl.populations.map (·.setId)).Nodup)
    (hindexable : Indexable impl.standing) : Indexable next.standing := by
  have hpopulations : next.standing.populations = populations :=
    congrArg Standing.populations h.standing
  constructor
  · intro record hmem hcurrent
    rcases h.current_cases hmem hcurrent with hnew | ⟨hold, -⟩
    · obtain ⟨-, -, candidate, -, rfl⟩ := mem_committedRecords hnew
      exact derivedEvaluationId_isValid _ _ _ _ _
    · exact hindexable.valid record hold hcurrent
  · intro record hmem hcurrent population hfound
    rw [hpopulations] at hfound
    rcases h.current_cases hmem hcurrent with hnew | ⟨hold, hother⟩
    · have hsetId := (setId_of_mem_committedRecords hnew).trans hset
      rw [hsetId, findPopulation_commitPopulations h.retained] at hfound
      cases hfound
      obtain ⟨-, -, candidate, hcandidate, rfl⟩ := mem_committedRecords hnew
      exact ⟨candidate, (List.destutter_sublist _ _).mem hcandidate, rfl⟩
    · exact hindexable.covered record hold hcurrent population
        (findPopulation_of_commitPopulations h.retained hdistinct (Ne.symm hother) hfound)

/-- An admissible record that is committed on unchanged dependencies is up to date. -/
theorem upToDate_of_mem_committedRecords {record : EvaluationRecord}
    (hlimits : validateLimits impl.config.limits = .ok ())
    (hset : snapshot.set.id = snapshot.setId)
    (hunchanged : DependenciesUnchanged impl snapshot)
    (hmem : record ∈ committedRecords impl snapshot call)
    (hadmissible : record.isAdmissible = true) : UpToDate impl.standing record := by
  obtain ⟨⟨live, hlive, hgeneration, -, hstate⟩, hevidence, -⟩ := hunchanged
  obtain ⟨-, -, candidate, -, rfl⟩ := mem_committedRecords hmem
  have hgates := evaluationRecord_gates hlimits hadmissible
  refine ⟨⟨live, ?_, hstate.trans hgates.active, hgeneration.symm⟩, ?_⟩
  · rw [← hset] at hlive
    exact hlive
  · intro family hknown hconsults
    change evidenceGenerationOf candidate.evidence family =
      requiredGenerationOf impl.evidence family
    rw [hevidence]
    by_cases hauthority : family = .pathAuthority
    · subst hauthority
      have hformed := validateCandidate_wellFormed hgates.candidateValid
      exact congrArg Generation.value
        (hformed.authorityBinding.trans hgates.authorityFresh)
    · refine (hgates.familiesCurrent family ?_ hconsults).2
      simpa [kFamilies, currentnessFamilies, hauthority] using hknown

theorem CommitWrites.currentUpToDate
    (h : CommitWrites impl snapshot call next populations excess)
    (hlimits : validateLimits impl.config.limits = .ok ())
    (hset : snapshot.set.id = snapshot.setId)
    (hunchanged : DependenciesUnchanged impl snapshot)
    (hcurrent : CurrentUpToDate impl.standing) : CurrentUpToDate next.standing := by
  intro record hmem hstate hadmissible
  have hbefore : UpToDate impl.standing record := by
    rcases h.current_cases hmem hstate with hnew | ⟨hold, -⟩
    · exact upToDate_of_mem_committedRecords hlimits hset hunchanged hnew hadmissible
    · exact hcurrent record hold hstate hadmissible
  rw [h.standing]
  exact ⟨hbefore.set, hbefore.evidence⟩

end Commits

/-! ## Whole runs -/

/-- The invariant that a run maintains. -/
structure Tracked (state : SystemState) : Prop where
  indexable : Indexable state.impl.standing
  current : CurrentUpToDate state.impl.standing

theorem OpenedFrom.tracked {impl : Impl} {restored : Option PersistentState}
    (h : OpenedFrom impl restored) : Indexable impl.standing ∧ CurrentUpToDate impl.standing := by
  have hnone : ∀ record ∈ impl.standing.evaluations, record.state ≠ .current := by
    intro record hmem
    rw [h.evaluations record hmem]
    decide
  refine ⟨⟨?_, ?_⟩, ?_⟩
  · exact fun record hmem hcurrent => absurd hcurrent (hnone record hmem)
  · exact fun record hmem hcurrent => absurd hcurrent (hnone record hmem)
  · exact fun record hmem hcurrent => absurd hcurrent (hnone record hmem)

theorem Transition.tracked {event : Event}
    (h : Transition event.pre event.input.call event.input.action event.output event.post)
    (hsound : Sound event.pre)
    (hdistinct : (event.pre.impl.populations.map (·.setId)).Nodup)
    (hsets : ∀ ticket snapshot, event.pre.flights ticket = some (.evaluating snapshot) →
      snapshot.set.id = snapshot.setId)
    (hfinds : FindsPopulations event) (htracked : Tracked event.pre) :
    Tracked event.post := by
  obtain ⟨hindexable, hcurrent⟩ := htracked
  suffices hpost : Indexable event.post.impl.standing ∧
      CurrentUpToDate event.post.impl.standing from ⟨hpost.1, hpost.2⟩
  cases h.standingStep with
  | kept hstanding =>
      rw [hstanding]
      exact ⟨hindexable, hcurrent⟩
  | operated operation value haction heffect =>
      constructor
      · exact heffect.indexable hindexable
      · exact heffect.currentUpToDate hsound.derived hindexable
          (fun context requirements => hfinds operation context requirements haction) hcurrent
  | committed ticket snapshot next hcommits hunchanged htarget _ hstanding =>
      obtain ⟨populations, excess, hwrites⟩ := commitTarget_writes htarget
      have hset := hsets ticket snapshot hcommits.flight
      rw [hstanding]
      constructor
      · exact hwrites.indexable hset hdistinct hindexable
      · exact hwrites.currentUpToDate hsound.limits hset hunchanged hcurrent

theorem Execution.tracked {events : List Event} {last : SystemState}
    (h : Execution events last) (hfinds : ∀ event ∈ events, FindsPopulations event) :
    Tracked last := by
  let inv : List Event → SystemState → Prop := fun _ state => Tracked state
  have hinv : inv events last := by
    refine h.history_invariant ?_ ?_
    · rintro start ⟨hopened⟩
      obtain ⟨restored, hfrom⟩ := openCoordinator_openedFrom hopened
      exact ⟨hfrom.tracked.1, hfrom.tracked.2⟩
    · rintro before event after rfl hsound htransition htracked
      obtain ⟨hbefore, -, -⟩ := h.split
      exact htransition.tracked hsound hbefore.populations_distinct
        (fun ticket snapshot hflight => (hbefore.snapshot_set hflight).1)
        (hfinds event (by simp)) htracked
  exact hinv

/-- In a run whose evidence requests find the populations of the records that they
concern, every current record with an admissible outcome belongs to an active set at
its present generation and is bound to the present generation of every family that it
consulted. -/
theorem current_up_to_date_of_retained {events : List Event} {last : SystemState}
    (hexecution : Execution events last)
    (hfinds : ∀ event ∈ events, FindsPopulations event) :
    CurrentUpToDate last.impl.standing :=
  (hexecution.tracked hfinds).current

/-- An advance that finds the population of the record that it concerns. -/
def sampleAdvance : List Input :=
  samplePublish 5 10 ++ [sampleBegin 20 5 [31], sampleFinish 0,
    sampleInput (.operate (.advanceFamily (sampleContext 30) .pathAuthority 10))]

/-- The check that an evidence request finds the populations it needs. -/
def findsPopulations (event : Event) : Bool :=
  match event.input.action with
  | .operate operation =>
      match operation.requirements event.pre.impl.evidence with
      | some (_, requirements) => event.pre.impl.evaluations.all fun record =>
          (advancedFamilies event.pre.impl.evidence requirements).all fun family =>
            !consults record.consulted family ||
              (findPopulation event.pre.impl.populations record.setId).isSome
      | none => true
  | _ => true

theorem findsPopulations_sound {event : Event} (h : findsPopulations event = true) :
    FindsPopulations event := by
  intro operation context requirements haction hasks _ record hmem _ _ family hadvanced
    hconsults
  simp only [findsPopulations, haction, hasks, List.all_eq_true] at h
  simpa [hconsults] using h record hmem family hadvanced

private theorem sampleAdvance_findsPopulations :
    ((sampleRun sampleAdvance).any fun run => run.1.all findsPopulations) = true := by
  decide +kernel

theorem current_up_to_date_of_retained_sample :
    ∃ events last, sampleRun sampleAdvance = some (events, last) ∧
      CurrentUpToDate last.impl.standing := by
  obtain ⟨events, last, hrun, hexecution, hcheck⟩ :=
    sampleRun_execution sampleAdvance (fun events => events.all findsPopulations)
      sampleAdvance_findsPopulations
  exact ⟨events, last, hrun, current_up_to_date_of_retained hexecution
    fun event hmem => findsPopulations_sound (List.all_eq_true.mp hcheck event hmem)⟩

/-! ## An advance after an eviction -/

/-- Two sets share the one population that is retained, and a family advances. -/
def sampleEvict : List Input :=
  sampleRegister :: samplePublish 5 10 ++ samplePublish 6 12 ++
    [sampleBegin 20 5 [31], sampleFinish 0, sampleBegin 21 6 [32], sampleFinish 1,
     sampleInput (.operate (.advanceFamily (sampleContext 30) .pathAuthority 10))]

/-- A coordinator that retains one population. -/
def sampleNarrow : CoordinatorConfig := { sampleConfig with maxCandidatePopulations := 1 }

/-- After the last event some current and admissible record is bound to an older
generation of a family that it consulted. -/
private def keepsOutdated (events : List Event) : Bool :=
  events.getLast?.any fun event => event.post.impl.evaluations.any fun record =>
    decide (record.state = .current ∧ record.isAdmissible = true ∧
      consults record.consulted .pathAuthority = true ∧
      evidenceGenerationOf record.evidence .pathAuthority <
        generationFor event.post.impl.evidence .pathAuthority)

private theorem sampleEvict_keepsOutdated :
    ((execute (openInMemory sampleNarrow sampleCall) sampleEvict).any fun run =>
      keepsOutdated run.1) = true := by
  decide +kernel

/-- When the population of a record was evicted, an advance leaves the record current
under the old generation. -/
theorem evicted_population_leaves_outdated_record :
    ∃ events last, execute (openInMemory sampleNarrow sampleCall) sampleEvict =
        some (events, last) ∧ Execution events last ∧
      (∃ record ∈ last.impl.evaluations, record.state = .current ∧
        record.isAdmissible = true ∧ consults record.consulted .pathAuthority = true ∧
        evidenceGenerationOf record.evidence .pathAuthority <
          generationFor last.impl.evidence .pathAuthority) ∧
      ¬ CurrentUpToDate last.impl.standing := by
  obtain ⟨events, last, hrun, hexecution, hcheck⟩ :=
    Execution.of_check keepsOutdated sampleEvict_keepsOutdated
  refine ⟨events, last, hrun, hexecution, ?_⟩
  obtain ⟨event, hlast, houtdated⟩ := (Option.any_eq_true _ _).mp hcheck
  obtain ⟨before, rfl⟩ := List.getLast?_eq_some_iff.mp hlast
  obtain rfl := hexecution.split.2.2.eq_of_nil
  obtain ⟨record, hmem, hrecord⟩ := List.any_eq_true.mp houtdated
  obtain ⟨hcurrent, hadmissible, hconsults, holder⟩ := of_decide_eq_true hrecord
  refine ⟨⟨record, hmem, hcurrent, hadmissible, hconsults, holder⟩, fun hall => ?_⟩
  have hbound := (hall record hmem hcurrent hadmissible).evidence .pathAuthority (by decide)
    hconsults
  exact UInt64.ne_of_lt holder hbound

end ConstraintRouting.Fabric
