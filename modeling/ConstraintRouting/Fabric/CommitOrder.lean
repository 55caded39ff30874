import ConstraintRouting.Fabric.ResultsSpec

/-!
# The order of commits on one set

The last section of an evaluation does not compare its population with the one that
the set has retained, and a revalidation evaluates the population that it read
before its snapshot.  When the evaluations of each set commit in the order in which
they began, and no commit touches a population between the read and the snapshot of
a revalidation, the results of the newest evaluation stand.
-/

namespace ConstraintRouting.Fabric

open Verified.StepMachine

/-! ## The results that stand -/

/-- What the evaluation that `newer` committed has standing before `later` still
stands after it. -/
structure Stays (newer later : Event) (snapshot : EvaluationSnapshot) : Prop where
  records : ∀ record ∈ committedRecords newer.pre.impl snapshot newer.input.call,
    record ∈ later.pre.impl.evaluations → record ∈ later.post.impl.evaluations
  population : snapshot.population ∈ later.pre.impl.populations →
    snapshot.population ∈ later.post.impl.populations

/-- What a set has current or retained is from the committed evaluation of the set
that began last. -/
def NewestStands (history : List Event) (state : SystemState) : Prop :=
  ∀ event ∈ history, ∀ ticket snapshot, Commits event ticket snapshot →
    (∀ other ∈ history, ∀ another found, Commits other another found →
      found.setId = snapshot.setId → another ≤ ticket) →
    (∀ record ∈ state.impl.evaluations, record.setId = snapshot.setId →
      record.state = .current →
      record ∈ committedRecords event.pre.impl snapshot event.input.call) ∧
    ∀ population, findPopulation state.impl.populations snapshot.setId = some population →
      population = snapshot.population

/-- No commit replaces the results of an evaluation of the set that began later, the
newest results stand, and a revalidation evaluates the population that is retained
when it takes its snapshot. -/
structure NewestKept (events : List Event) (last : SystemState) : Prop where
  keeps : events.Pairwise fun earlier later => ∀ newer older snapshot found,
    Commits earlier newer snapshot → Commits later older found →
    snapshot.setId = found.setId → older < newer → Stays earlier later snapshot
  stands : NewestStands events last
  revalidates : ∀ event ∈ events, ∀ read ticket snapshot,
    event.input.action = .revalidateBegin read → Starts event ticket snapshot →
    snapshot.candidates = revalidateRead event.pre.impl snapshot.setId

/-! ## The order of the steps -/

/-- A last section whose gate is open neither replaces nor evicts a population that a
revalidation in flight has read. -/
def SparesReads (event : Event) : Prop :=
  ∀ ticket snapshot, Finishes event ticket snapshot →
    CommitGate event.pre.impl snapshot event.input.call →
    ∀ read context setId population,
      event.pre.flights read = some (.populationRead context setId population) →
      snapshot.setId ≠ setId ∧
        ∀ evicted, evictedPopulation event.pre.impl.config event.pre.impl.populations
          snapshot.setId = some evicted → evicted.setId ≠ setId

/-- The evaluations of each set reach their open gates in the order in which they
began, and spare the reads of revalidations. -/
structure InBeginOrder (events : List Event) : Prop where
  commits : events.Pairwise fun earlier later => ∀ first second snapshot found,
    Commits earlier first snapshot → Finishes later second found →
    CommitGate later.pre.impl found later.input.call →
    snapshot.setId = found.setId → first < second
  reads : ∀ event ∈ events, SparesReads event

/-! ## One step -/

theorem Commits.gate {event : Event} {ticket : Nat} {snapshot : EvaluationSnapshot}
    (h : Commits event ticket snapshot)
    (htransition : Transition event.pre event.input.call event.input.action event.output
      event.post) : CommitGate event.pre.impl snapshot event.input.call :=
  (htransition.reportsCommit_iff h.toFinishes).mp h.reports

theorem Finishes.unique {event : Event} {ticket other : Nat}
    {snapshot found : EvaluationSnapshot} (h : Finishes event ticket snapshot)
    (hother : Finishes event other found) : other = ticket ∧ found = snapshot := by
  have haction := h.action
  rw [hother.action] at haction
  cases haction
  have hflight := h.flight
  rw [hother.flight] at hflight
  cases hflight
  exact ⟨rfl, rfl⟩

/-- A step that does not commit leaves the newest results standing. -/
theorem NewestStands.kept {before : List Event} {event : Event}
    (h : NewestStands before event.pre)
    (hcurrent : ∀ record ∈ event.post.impl.evaluations, record.state = .current →
      record ∈ event.pre.impl.evaluations)
    (hpopulations : event.post.impl.populations = event.pre.impl.populations)
    (hnone : ∀ ticket snapshot, ¬ Commits event ticket snapshot) :
    NewestStands (before ++ [event]) event.post := by
  intro newest hnewest ticket snapshot hcommits hlatest
  rcases List.mem_append.mp hnewest with hbefore | hlast
  · obtain ⟨hrecords, hpopulation⟩ := h newest hbefore ticket snapshot hcommits
      fun other hother => hlatest other (List.mem_append_left _ hother)
    refine ⟨fun record hmem hset hstate => ?_, fun population hfound => ?_⟩
    · exact hrecords record (hcurrent record hmem hstate) hset hstate
    · exact hpopulation population (hpopulations ▸ hfound)
  · rw [List.mem_singleton.mp hlast] at hcommits
    exact absurd hcommits (hnone ticket snapshot)

/-- A commit on a set after all the earlier ones began leaves the newest results
standing. -/
theorem NewestStands.committed {before : List Event} {event : Event} {ticket : Nat}
    {snapshot : EvaluationSnapshot} {next : PersistentState} {excess : Nat}
    (h : NewestStands before event.pre)
    (hdistinct : (event.pre.impl.populations.map (·.setId)).Nodup)
    (hset : snapshot.set.id = snapshot.setId)
    (hcommits : Commits event ticket snapshot)
    (hwrites : CommitWrites event.pre.impl snapshot event.input.call next
      event.post.impl.populations excess)
    (hevaluations : event.post.impl.evaluations = next.evaluations)
    (hlater : ∀ earlier ∈ before, ∀ first found, Commits earlier first found →
      found.setId = snapshot.setId → first < ticket) :
    NewestStands (before ++ [event]) event.post := by
  intro newest hnewest first found hfirst hlatest
  have hlast : ticket ≤ first ∨ snapshot.setId ≠ found.setId := by
    by_cases hsame : snapshot.setId = found.setId
    · exact .inl (hlatest event (by simp) ticket snapshot hcommits hsame)
    · exact .inr hsame
  rcases List.mem_append.mp hnewest with hbefore | hevent
  · have hother : snapshot.setId ≠ found.setId := by
      rcases hlast with hle | hne
      · intro hsame
        have hless := hlater newest hbefore first found hfirst hsame.symm
        omega
      · exact hne
    obtain ⟨hrecords, hpopulation⟩ := h newest hbefore first found hfirst
      fun other hmem => hlatest other (List.mem_append_left _ hmem)
    refine ⟨fun record hmem hrecordSet hcurrent => ?_, fun population hfound => ?_⟩
    · rw [hevaluations] at hmem
      rcases hwrites.current_cases hmem hcurrent with hnew | ⟨hold, -⟩
      · have hbatch := setId_of_mem_committedRecords hnew
        exact absurd (hset.symm.trans (hbatch.symm.trans hrecordSet)) hother
      · exact hrecords record hold hrecordSet hcurrent
    · exact hpopulation population
        (findPopulation_of_commitPopulations hwrites.retained hdistinct hother hfound)
  · obtain rfl := List.mem_singleton.mp hevent
    obtain ⟨rfl, rfl⟩ := hcommits.toFinishes.unique hfirst.toFinishes
    refine ⟨fun record hmem hrecordSet hcurrent => ?_, fun population hfound => ?_⟩
    · rw [hevaluations] at hmem
      rcases hwrites.current_cases hmem hcurrent with hnew | ⟨-, hne⟩
      · exact hnew
      · exact absurd hrecordSet hne
    · rw [findPopulation_commitPopulations hwrites.retained] at hfound
      exact (Option.some.inj hfound).symm

/-- Every revalidation in flight has read the population that is retained. -/
def ReadsRetained (state : SystemState) : Prop :=
  ∀ read context setId population,
    state.flights read = some (.populationRead context setId population) →
    population = revalidateRead state.impl setId

theorem Transition.readsRetained {event : Event}
    (h : Transition event.pre event.input.call event.input.action event.output event.post)
    (hspares : SparesReads event) (hreads : ReadsRetained event.pre) :
    ReadsRetained event.post := by
  intro read context setId population hflight
  rcases h.flights hflight with hbefore | ⟨-, -, ⟨-, _, hstarted⟩ | ⟨himpl, _, _, hread⟩⟩
  · rw [hreads read context setId population hbefore]
    suffices hsame : findPopulation event.post.impl.populations setId =
        findPopulation event.pre.impl.populations setId by
      unfold revalidateRead
      rw [hsame]
    cases h.resultsStep with
    | kept _ hsame => rw [hsame]
    | committed ticket snapshot next excess hcommits hgate hwrites =>
        obtain ⟨hne, hstays⟩ := hspares ticket snapshot hcommits.toFinishes hgate read
          context setId population hbefore
        exact findPopulation_commitPopulations_of_ne hwrites.retained hne hstays
  · cases hstarted
  · cases hread
    rw [himpl]

/-! ## Whole runs -/

theorem Execution.newestStands {events : List Event} {last : SystemState}
    (h : Execution events last) (horder : InBeginOrder events) :
    NewestStands events last := by
  refine h.history_invariant ?_ ?_
  · intro start _ event hmem
    cases hmem
  · rintro before event after rfl _ htransition hstands
    obtain ⟨hbefore, -, -⟩ := h.split
    cases htransition.resultsStep with
    | kept hcurrent hpopulations hnone =>
        exact hstands.kept hcurrent hpopulations hnone
    | committed ticket snapshot next excess hcommits hgate hwrites hevaluations =>
        refine hstands.committed hbefore.populations_distinct
          (hbefore.snapshot_set hcommits.flight).1 hcommits hwrites hevaluations ?_
        intro earlier hearlier first found hfirst hsame
        exact (List.pairwise_append.mp horder.commits).2.2 earlier hearlier event
          List.mem_cons_self first ticket found snapshot hfirst hcommits.toFinishes hgate
          hsame

theorem Execution.readsRetained {events : List Event} {last : SystemState}
    (h : Execution events last) (hspares : ∀ event ∈ events, SparesReads event) :
    ReadsRetained last := by
  let inv : List Event → SystemState → Prop := fun _ state => ReadsRetained state
  have hinv : inv events last := by
    refine h.history_invariant ?_ ?_
    · rintro start ⟨hopened⟩ read context setId population hflight
      cases hflight
    · rintro before event after rfl _ htransition hreads
      exact htransition.readsRetained (hspares event (by simp)) hreads
  exact hinv

/-- In a run whose evaluations of each set commit in the order in which they began, and
whose commits spare the populations that revalidations in flight have read, no newer
result is lost to an older one. -/
theorem newest_kept_of_begin_order {events : List Event} {last : SystemState}
    (hexecution : Execution events last) (horder : InBeginOrder events) :
    NewestKept events last := by
  refine ⟨?_, hexecution.newestStands horder, ?_⟩
  · refine horder.commits.imp_of_mem ?_
    intro earlier later _ hlater hbegan newer older snapshot found hnewer holder hsame hless
    obtain ⟨before, after, rfl⟩ := List.append_of_mem hlater
    have hgate := holder.gate hexecution.split.2.1
    have hbefore := hbegan newer older snapshot found hnewer holder.toFinishes hgate hsame
    omega
  · intro event hmem read ticket snapshot haction hstarts
    obtain ⟨before, after, rfl⟩ := List.append_of_mem hmem
    obtain ⟨hbefore, htransition, -⟩ := hexecution.split
    obtain ⟨-, -, context, setId, candidates, hcaptured, hread⟩ := htransition.starts hstarts
    have hretained := hbefore.readsRetained
      (fun earlier hearlier => horder.reads earlier (List.mem_append_left _ hearlier))
      read context setId candidates (hread read haction)
    rw [hcaptured.population, hcaptured.target]
    exact hretained

/-- A revalidation after a commit, with nothing in between. -/
def sampleRevalidate : List Input :=
  samplePublish 5 10 ++ [sampleBegin 20 5 [31], sampleFinish 0,
    sampleInput (.revalidateRead (sampleContext 21) ⟨5⟩),
    sampleInput (.revalidateBegin 1), sampleFinish 2]

private def finishedTicket (event : Event) : Option Nat :=
  match event.input.action with
  | .evaluateFinish ticket => some ticket
  | _ => none

private theorem Finishes.finishedTicket {event : Event} {ticket : Nat}
    {snapshot : EvaluationSnapshot} (h : Finishes event ticket snapshot) :
    finishedTicket event = some ticket := by
  unfold Fabric.finishedTicket
  rw [h.action]

/-- Evaluations finish in the order in which they began, none while a revalidation has
read its population, and two of them commit. -/
private def finishesInOrder (events : List Event) : Bool :=
  decide ((events.filterMap finishedTicket).Pairwise (· < ·)) &&
    events.all (fun event => (finishedTicket event).isNone ||
      (List.range event.pre.nextTicket).all fun read =>
        match event.pre.flights read with
        | some (.populationRead _ _ _) => false
        | _ => true) &&
    decide ((events.filter fun event => ReportsCommit event).length = 2)

private theorem inBeginOrder_of_finishesInOrder {events : List Event} {last : SystemState}
    (hexecution : Execution events last) (h : finishesInOrder events = true) :
    InBeginOrder events := by
  simp only [finishesInOrder, Bool.and_eq_true, decide_eq_true_eq, List.all_eq_true] at h
  obtain ⟨⟨hordered, hfree⟩, -⟩ := h
  constructor
  · refine (List.pairwise_filterMap.mp hordered).imp ?_
    intro earlier later hless first second snapshot found hfirst hsecond _ _
    exact hless first hfirst.finishedTicket second hsecond.finishedTicket
  · intro event hmem ticket snapshot hfinish _ read context setId population hflight
    obtain ⟨before, after, rfl⟩ := List.append_of_mem hmem
    have hlaunched : read < event.pre.nextTicket := by
      by_contra hunused
      rw [hexecution.split.1.sound.unused read (Nat.le_of_not_lt hunused)] at hflight
      cases hflight
    have hevent := hfree event (by simp)
    rw [hfinish.finishedTicket] at hevent
    have hread := List.all_eq_true.mp (by simpa using hevent) read (List.mem_range.mpr hlaunched)
    rw [hflight] at hread
    cases hread

private theorem sampleRevalidate_finishesInOrder :
    ((sampleRun sampleRevalidate).any fun run => finishesInOrder run.1) = true := by
  decide +kernel

theorem newest_kept_of_begin_order_sample :
    ∃ events last, sampleRun sampleRevalidate = some (events, last) ∧
      NewestKept events last := by
  obtain ⟨events, last, hrun, hexecution, hcheck⟩ :=
    sampleRun_execution _ _ sampleRevalidate_finishesInOrder
  exact ⟨events, last, hrun, newest_kept_of_begin_order hexecution
    (inBeginOrder_of_finishesInOrder hexecution hcheck)⟩

/-! ## An older evaluation that finishes last -/

/-- The evaluation that began first finishes last, between the read and the snapshot
of a revalidation. -/
def sampleRace : List Input :=
  samplePublish 5 10 ++ [sampleBegin 20 5 [31], sampleBegin 21 5 [32], sampleFinish 1,
    sampleInput (.revalidateRead (sampleContext 22) ⟨5⟩), sampleFinish 0,
    sampleInput (.revalidateBegin 2)]

/-- The older evaluation commits last, what the newer one stored is gone after it, and
the revalidation evaluates a population that is no longer retained. -/
private def losesNewest : List Event → Bool
  | [_, _, _, _, _, second, _, first, again] =>
      match second.pre.flights 1, first.pre.flights 0, again.post.flights 3 with
      | some (.evaluating newer), some (.evaluating older), some (.evaluating reread) =>
          decide (second.input.action = .evaluateFinish 1 ∧ ReportsCommit second ∧
            first.input.action = .evaluateFinish 0 ∧ ReportsCommit first ∧
            newer.setId = older.setId ∧ older.generation.value < newer.generation.value ∧
            newer.population ∈ first.pre.impl.populations ∧
            newer.population ∉ first.post.impl.populations ∧
            again.input.action = .revalidateBegin 2 ∧ again.output = .evaluating 3 ∧
            reread.candidates ≠ revalidateRead again.pre.impl reread.setId) &&
          (committedRecords second.pre.impl newer second.input.call).any fun record =>
            decide (record ∈ first.pre.impl.evaluations ∧
              record ∉ first.post.impl.evaluations)
      | _, _, _ => false
  | _ => false

private theorem sampleRace_losesNewest :
    ((sampleRun sampleRace).any fun run => losesNewest run.1) = true := by
  decide +kernel

/-- An older evaluation replaces the current record and the population of a newer one,
and a revalidation evaluates the population that was replaced. -/
theorem older_evaluation_replaces_newer :
    ∃ events last, sampleRun sampleRace = some (events, last) ∧ Execution events last ∧
      (∃ earlier ∈ events, ∃ later ∈ events, ∃ snapshot found,
        Commits earlier 1 snapshot ∧ Commits later 0 found ∧
        snapshot.setId = found.setId ∧
        found.generation.value < snapshot.generation.value ∧
        (∃ record ∈ committedRecords earlier.pre.impl snapshot earlier.input.call,
          record ∈ later.pre.impl.evaluations ∧ record ∉ later.post.impl.evaluations) ∧
        snapshot.population ∈ later.pre.impl.populations ∧
        snapshot.population ∉ later.post.impl.populations) ∧
      (∃ event ∈ events, ∃ snapshot, event.input.action = .revalidateBegin 2 ∧
        Starts event 3 snapshot ∧
        snapshot.candidates ≠ revalidateRead event.pre.impl snapshot.setId) ∧
      ¬ NewestKept events last := by
  obtain ⟨events, last, hrun, hexecution, hcheck⟩ :=
    sampleRun_execution _ _ sampleRace_losesNewest
  refine ⟨events, last, hrun, hexecution, ?_⟩
  unfold losesNewest at hcheck
  split at hcheck
  · next second read first again =>
      split at hcheck
      · next newer older reread hnewer holder hreread =>
          rw [Bool.and_eq_true, decide_eq_true_eq, List.any_eq_true] at hcheck
          obtain ⟨⟨hsecond, hcommits, hfirst, hcommitsToo, hset, hgeneration, hbefore, hafter,
            hagain, hticket, hreplaced⟩, record, hrecord, hlost⟩ := hcheck
          obtain ⟨hstood, hgone⟩ := of_decide_eq_true hlost
          refine ⟨⟨second, by simp, first, by simp, newer, older,
            ⟨⟨hsecond, hnewer⟩, hcommits⟩, ⟨⟨hfirst, holder⟩, hcommitsToo⟩, hset, hgeneration,
            ⟨record, hrecord, hstood, hgone⟩, hbefore, hafter⟩,
            ⟨again, by simp, reread, hagain, ⟨hticket, hreread⟩, hreplaced⟩, fun hkept => ?_⟩
          exact hreplaced (hkept.revalidates again (by simp) 2 3 reread hagain
            ⟨hticket, hreread⟩)
      · cases hcheck
  · cases hcheck

end ConstraintRouting.Fabric
