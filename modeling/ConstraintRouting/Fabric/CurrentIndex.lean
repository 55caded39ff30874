import ConstraintRouting.Fabric.Lifetimes
import ConstraintRouting.Fabric.Queries
import ConstraintRouting.Fabric.ResultsSpec

/-!
# The index of current results

The stored records have distinct identities, a set has at most one current record for a
path, and the index of current results leads from the set and the path to exactly that
record.  A commit is what could break this: it replaces the records of the identities that
it derives and supersedes the other records of its set.
-/

namespace ConstraintRouting.Fabric

open Verified.StepMachine
open Verified.KeyedTables (getElem?_foldl_insert find?_of_mem)
open Verified.SortedLists

instance : Std.LawfulEqCmp resultKeyCompare where
  eq_of_compare {a b} h := by
    have hboth : (compareOn (·.1) a b).then (compareOn (·.2) a b) = .eq := h
    rw [Ordering.then_eq_eq] at hboth
    have hfirst : a.1 = b.1 := Std.LawfulEqOrd.eq_of_compare hboth.1
    have hsecond : a.2 = b.2 := Std.LawfulEqOrd.eq_of_compare hboth.2
    exact Prod.ext hfirst hsecond

/-! ## Distinct records -/

/-- A change of records that leaves the kept ones as they are, and no other one current,
leaves the kept ones among the current records. -/
theorem currentRecords_map {change : EvaluationRecord → EvaluationRecord}
    {keep : EvaluationRecord → Bool}
    (hkept : ∀ record, keep record = true → change record = record)
    (hlost : ∀ record, (change record).state = .current →
      keep record = true ∧ record.state = .current)
    (evaluations : List EvaluationRecord) :
    Impl.currentRecords (evaluations.map change) =
      (Impl.currentRecords evaluations).filter keep := by
  unfold Impl.currentRecords
  rw [List.filter_filter]
  induction evaluations with
  | nil => rfl
  | cons record rest ih =>
      rw [List.map_cons, List.filter_cons, List.filter_cons, ih]
      by_cases hstays : (change record).state = .current
      · obtain ⟨hkeep, hcurrent⟩ := hlost record hstays
        rw [hkept record hkeep, hkeep]
        rfl
      · have hdrops : ¬ (keep record = true ∧ record.state = .current) := by
          intro ⟨hkeep, hcurrent⟩
          rw [hkept record hkeep] at hstays
          exact hstays hcurrent
        have hnone : (keep record && decide (record.state = .current)) = false := by
          simpa using hdrops
        rw [hnone, if_neg (by simpa using hstays)]
        rfl

/-- The current records after a commit: those of other sets whose identities the batch does
not derive, and those of the batch. -/
theorem currentRecords_commitEvaluations (evaluations : List EvaluationRecord)
    (setId : ConstraintSetId) (records : List EvaluationRecord) :
    Impl.currentRecords (commitEvaluations evaluations setId records) =
      ((Impl.currentRecords evaluations).filter fun record =>
        record.setId != setId && record.id ∉ records.map (·.id)) ++
      Impl.currentRecords records := by
  let retained := evaluations.filter fun record => record.id ∉ records.map (·.id)
  let supersede : EvaluationRecord → EvaluationRecord := fun record =>
    if record.setId == setId && record.state ≠ .staleAtCommit then
      { record with state := .superseded }
    else record
  have hothers : Impl.currentRecords (retained.map supersede) =
      (Impl.currentRecords retained).filter (·.setId != setId) := by
    refine currentRecords_map ?_ ?_ retained
    · intro record hother
      have hne : ¬ record.setId = setId := by simpa using hother
      simp [supersede, hne]
    · intro record hstays
      dsimp only [supersede] at hstays
      split at hstays
      · cases hstays
      · next hnot =>
          refine ⟨?_, hstays⟩
          simpa [hstays] using hnot
  have hretained : Impl.currentRecords retained =
      (Impl.currentRecords evaluations).filter fun record =>
        record.id ∉ records.map (·.id) := List.filter_comm ..
  have hcurrent : Impl.currentRecords (commitEvaluations evaluations setId records) =
      Impl.currentRecords (retained.map supersede) ++ Impl.currentRecords records :=
    List.filter_append ..
  rw [hcurrent, hothers, hretained, List.filter_filter]

/-- Records have distinct identities, and current ones distinct sets and paths. -/
structure Indexed (evaluations : List EvaluationRecord) : Prop where
  identities : (evaluations.map (·.id)).Nodup
  keys : ((Impl.currentRecords evaluations).map (·.resultKey)).Nodup

namespace Indexed

variable {evaluations after records : List EvaluationRecord} {setId : ConstraintSetId}

theorem sublist (h : Indexed evaluations) (hsublist : after.Sublist evaluations) :
    Indexed after :=
  ⟨h.identities.sublist (hsublist.map _), h.keys.sublist ((hsublist.filter _).map _)⟩

/-- A demotion keeps the identities and makes no record current. -/
theorem demoted (h : Indexed evaluations) (selected : EvaluationRecord → Bool) :
    Indexed (demote selected evaluations) := by
  have hids : (demote selected evaluations).map (·.id) = evaluations.map (·.id) := by
    rw [demote, List.map_map]
    refine List.map_congr_left fun record _ => ?_
    dsimp only [Function.comp]
    split <;> rfl
  have hcurrent : Impl.currentRecords (demote selected evaluations) =
      (Impl.currentRecords evaluations).filter fun record => !selected record := by
    refine currentRecords_map ?_ ?_ evaluations
    · intro record hkeep
      have hnot : selected record = false := by simpa using hkeep
      simp [hnot]
    · intro record hstays
      split at hstays
      · cases hstays
      · next hnot =>
          refine ⟨?_, hstays⟩
          simpa [hstays] using hnot
  refine ⟨hids ▸ h.identities, ?_⟩
  rw [hcurrent]
  exact h.keys.sublist (List.filter_sublist.map _)

/-- The records after a commit are distinct when those of the batch are. -/
theorem committed (h : Indexed evaluations) (hids : (records.map (·.id)).Nodup)
    (hpaths : (records.map (·.path)).Nodup) (hset : ∀ record ∈ records, record.setId = setId) :
    Indexed (commitEvaluations evaluations setId records) := by
  constructor
  · have hretained := h.identities.sublist ((@List.filter_sublist _
      (fun record => decide (record.id ∉ records.map (·.id))) evaluations).map (·.id))
    unfold commitEvaluations
    rw [List.map_append, List.map_map]
    have hsame : ∀ retained : List EvaluationRecord, retained.map ((·.id) ∘ fun record =>
        if record.setId == setId && record.state ≠ .staleAtCommit then
          { record with state := .superseded }
        else record) = retained.map (·.id) := by
      intro retained
      refine List.map_congr_left fun record _ => ?_
      dsimp only [Function.comp]
      split <;> rfl
    rw [hsame]
    refine List.Nodup.append hretained hids ?_
    intro id hold hnew
    obtain ⟨record, hmem, rfl⟩ := List.mem_map.mp hold
    have houtside := (List.mem_filter.mp hmem).2
    exact of_decide_eq_true houtside hnew
  · rw [currentRecords_commitEvaluations, List.map_append]
    refine List.Nodup.append (h.keys.sublist (List.filter_sublist.map _)) ?_ ?_
    · have hkeys : (records.map (·.resultKey)).Nodup := by
        refine List.Nodup.of_map (fun key => (⟨key.2⟩ : PathId)) ?_
        rw [List.map_map]
        exact hpaths
      exact hkeys.sublist (List.filter_sublist.map _)
    · intro key hold hnew
      obtain ⟨old, holdMem, rfl⟩ := List.mem_map.mp hold
      obtain ⟨new, hnewMem, hkey⟩ := List.mem_map.mp hnew
      have hkept := (List.mem_filter.mp holdMem).2
      rw [Bool.and_eq_true, bne_iff_ne] at hkept
      have hown := hset new (List.mem_of_mem_filter hnewMem)
      have hvalue : new.setId.value = old.setId.value := congrArg Prod.fst hkey
      exact hkept.1 ((StrongId.ext hvalue).symm.trans hown)

end Indexed

/-! ## Steps -/

theorem Operation.Effect.indexed {impl : Impl} {operation : Operation} {value : Value}
    {standing : Standing} (h : operation.Effect impl value standing)
    (hbefore : Indexed impl.evaluations) : Indexed standing.evaluations := by
  cases h with
  | published | advanced | invalidated => exact hbefore.demoted _
  | moved =>
      dsimp only
      split
      · exact hbefore.demoted _
      · exact hbefore

/-- The paths of a batch are distinct. -/
theorem nodup_committedRecords_path (impl : Impl) (snapshot : EvaluationSnapshot)
    (call : Call) : ((committedRecords impl snapshot call).map (·.path)).Nodup := by
  unfold committedRecords batchRecords
  split
  · exact List.nodup_nil
  · rw [List.map_map, List.map_map]
    have hpaths : ((canonicalCandidates snapshot.candidates).map (·.path)).Nodup :=
      nodup_map_firstOfEach
    exact hpaths

/-- Records that a commit stores for different paths have different identities. -/
def DerivesDistinct (event : Event) : Prop :=
  ∀ ticket snapshot, Commits event ticket snapshot →
    ∀ a ∈ committedRecords event.pre.impl snapshot event.input.call,
    ∀ b ∈ committedRecords event.pre.impl snapshot event.input.call,
      a.id = b.id → a.path = b.path

theorem CommitWrites.indexed {impl : Impl} {snapshot : EvaluationSnapshot} {call : Call}
    {next : PersistentState} {populations : List CandidatePopulation} {excess : Nat}
    (h : CommitWrites impl snapshot call next populations excess)
    (hbefore : Indexed impl.evaluations) (hset : snapshot.set.id = snapshot.setId)
    (hdistinct : ∀ a ∈ committedRecords impl snapshot call,
      ∀ b ∈ committedRecords impl snapshot call, a.id = b.id → a.path = b.path) :
    Indexed next.evaluations := by
  have hpaths := nodup_committedRecords_path impl snapshot call
  have hids : ((committedRecords impl snapshot call).map (·.id)).Nodup := by
    refine List.Nodup.map_on ?_ (List.Nodup.of_map _ hpaths)
    intro a ha b hb hsame
    exact List.inj_on_of_nodup_map hpaths ha hb (hdistinct a ha b hb hsame)
  have hevaluations := congrArg Standing.evaluations h.standing
  change next.evaluations = _ at hevaluations
  rw [hevaluations]
  refine (hbefore.committed hids hpaths ?_).sublist trimHistory_sublist
  intro record hmem
  exact (setId_of_mem_committedRecords hmem).trans hset

/-- Every step keeps the records distinct. -/
theorem Transition.indexed {event : Event}
    (h : Transition event.pre event.input.call event.input.action event.output event.post)
    (hbefore : Indexed event.pre.impl.evaluations) (hdistinct : DerivesDistinct event)
    (hset : ∀ ticket snapshot, event.pre.flights ticket = some (.evaluating snapshot) →
      snapshot.set.id = snapshot.setId) :
    Indexed event.post.impl.evaluations := by
  cases h.standingStep with
  | kept hstanding =>
      have hkept : event.post.impl.evaluations = event.pre.impl.evaluations :=
        congrArg Standing.evaluations hstanding
      exact hkept ▸ hbefore
  | operated operation value _ heffect => exact heffect.indexed hbefore
  | committed ticket snapshot next hcommits _ htarget _ hstanding =>
      obtain ⟨populations, excess, hwrites⟩ := commitTarget_writes htarget
      have hevaluations : event.post.impl.evaluations = next.evaluations :=
        congrArg Standing.evaluations hstanding
      rw [hevaluations]
      exact hwrites.indexed hbefore (hset ticket snapshot hcommits.flight)
        (hdistinct ticket snapshot hcommits)

/-! ## Reachable states -/

theorem Opened.indexed {state : SystemState} (h : Opened state) :
    Indexed state.impl.evaluations := by
  cases h with
  | opened hopened =>
      dsimp only
      obtain ⟨-, restored, -, hrestored, -, -⟩ := openCoordinator_eq_ok.mp hopened
      rw [openCoordinator_evaluations hopened hrestored]
      cases restored with
      | none => exact ⟨List.nodup_nil, List.nodup_nil⟩
      | some state =>
          have hvalid := validatePersistentState_eq_ok.mp (restoredState_valid hrestored)
          constructor
          · rw [restoredEvaluations, List.map_map]
            exact hvalid.evaluationIds
          · have hnone : Impl.currentRecords (restoredEvaluations (some state)) = [] := by
              unfold Impl.currentRecords restoredEvaluations
              rw [List.filter_map, List.map_eq_nil_iff, List.filter_eq_nil_iff]
              intro record _ hcurrent
              simp at hcurrent
            rw [hnone]
            exact List.nodup_nil

/-- The records of a run whose batches derive distinct identities are distinct. -/
theorem Execution.indexed {events : List Event} {last : SystemState}
    (h : Execution events last) (hdistinct : ∀ event ∈ events, DerivesDistinct event) :
    Indexed last.impl.evaluations := by
  let inv : List Event → SystemState → Prop := fun _ state => Indexed state.impl.evaluations
  have hinv : inv events last := by
    refine h.history_invariant ?_ ?_
    · intro start hopened
      exact hopened.indexed
    · intro before event after hevents _ htransition hindexed
      subst hevents
      have hbefore := h.split.1
      refine htransition.indexed hindexed (hdistinct event (by simp)) ?_
      intro ticket snapshot hflight
      exact (hbefore.snapshot_set hflight).1
  exact hinv

/-! ## The index -/

/-- The record that the index of current results stands for. -/
theorem Impl.Derived.getElem?_current {impl : Impl} (h : impl.Derived)
    (hindexed : Indexed impl.evaluations) (key : UInt64 × UInt64) :
    impl.current[key]? =
      ((currentRecords impl.evaluations).find? (·.resultKey == key)).map (·.id) := by
  rw [h.current]
  exact getElem?_foldl_insert hindexed.keys key

/-- What the index of current results is for one set and path. -/
inductive Answers (impl : Impl) (setId : ConstraintSetId) (path : PathId) : Prop
  | unique (record : EvaluationRecord) :
      record ∈ impl.evaluations → record.state = .current → record.setId = setId →
      record.path = path →
      (∀ other ∈ impl.evaluations, other.state = .current → other.setId = setId →
        other.path = path → other = record) →
      impl.current[(setId.value, path.value)]? = some record.id →
      impl.currentResult setId path = .ok record → Answers impl setId path
  | absent :
      (∀ other ∈ impl.evaluations, other.state = .current → other.setId = setId →
        other.path ≠ path) →
      impl.current[(setId.value, path.value)]? = none →
      impl.currentResult setId path =
        failure .notFound "no current result for this path" → Answers impl setId path

theorem Indexed.answers {impl : Impl} (hindexed : Indexed impl.evaluations)
    (hderived : impl.Derived) (setId : ConstraintSetId) (path : PathId) :
    Answers impl setId path := by
  have hcurrent := hderived.getElem?_current hindexed (setId.value, path.value)
  have hkey : ∀ record : EvaluationRecord, record.setId = setId → record.path = path →
      record.resultKey = (setId.value, path.value) := by
    intro record hset hpath
    rw [EvaluationRecord.resultKey, hset, hpath]
  cases hfound : (Impl.currentRecords impl.evaluations).find?
      (·.resultKey == (setId.value, path.value)) with
  | none =>
      rw [hfound] at hcurrent
      have hnone : impl.current[(setId.value, path.value)]? = none := hcurrent
      refine .absent ?_ hnone ?_
      · intro other hmem hstate hset hpath
        have hother := List.find?_eq_none.mp hfound other
          (List.mem_filter.mpr ⟨hmem, decide_eq_true hstate⟩)
        exact hother (beq_iff_eq.mpr (hkey other hset hpath))
      · unfold Impl.currentResult
        rw [hnone]
  | some record =>
      rw [hfound] at hcurrent
      have hsome : impl.current[(setId.value, path.value)]? = some record.id := hcurrent
      obtain ⟨hmem, hstate⟩ := List.mem_filter.mp (List.mem_of_find?_eq_some hfound)
      have hmatches : record.resultKey = (setId.value, path.value) := by
        simpa using List.find?_some hfound
      have hset : record.setId = setId := StrongId.ext (congrArg Prod.fst hmatches)
      have hpath : record.path = path := StrongId.ext (congrArg Prod.snd hmatches)
      have hself := find?_of_mem hindexed.identities hmem
      refine .unique record hmem (of_decide_eq_true hstate) hset hpath ?_ hsome ?_
      · intro other hother hotherState hotherSet hotherPath
        have hsame := find?_of_mem hindexed.keys
          (List.mem_filter.mpr ⟨hother, decide_eq_true hotherState⟩)
        rw [hkey other hotherSet hotherPath] at hsame
        exact Option.some.inj (hsame.symm.trans hfound)
      · unfold Impl.currentResult
        rw [hsome]
        dsimp only
        rw [hself]

/-- In every run whose batches derive distinct identities for distinct paths, the stored
identities are distinct, and the index of current results leads from a set and a path to the
one current record there is. -/
theorem current_index_exact {events : List Event} {last : SystemState}
    (h : Execution events last) (hdistinct : ∀ event ∈ events, DerivesDistinct event) :
    (last.impl.evaluations.map (·.id)).Nodup ∧
      ∀ setId path, Answers last.impl setId path := by
  have hindexed := h.indexed hdistinct
  exact ⟨hindexed.identities, hindexed.answers h.sound.derived⟩

/-- One batch of two paths. -/
def sampleTwins : List Input :=
  samplePublish 5 10 ++ [sampleBegin 20 5 [31, 32], sampleFinish 0]

/-- The batches of the sample derive distinct identities. -/
def derivesDistinct (event : Event) : Bool :=
  match event.input.action with
  | .evaluateFinish ticket =>
      match event.pre.flights ticket with
      | some (.evaluating snapshot) =>
          let records := committedRecords event.pre.impl snapshot event.input.call
          records.all fun a => records.all fun b => a.id != b.id || a.path == b.path
      | _ => true
  | _ => true

theorem derivesDistinct_sound {event : Event} (h : derivesDistinct event = true) :
    DerivesDistinct event := by
  intro ticket snapshot hcommits a ha b hb hsame
  simp only [derivesDistinct, hcommits.action, hcommits.flight, List.all_eq_true] at h
  simpa [hsame] using h a ha b hb

private theorem sampleTwins_derives :
    ((sampleRun sampleTwins).any fun run => run.1.all derivesDistinct) = true := by
  decide +kernel

theorem current_index_exact_sample :
    ∃ events last, sampleRun sampleTwins = some (events, last) ∧
      (last.impl.evaluations.map (·.id)).Nodup ∧
      ∀ setId path, Answers last.impl setId path := by
  obtain ⟨events, last, hrun, hexecution, hcheck⟩ :=
    sampleRun_execution sampleTwins (fun events => events.all derivesDistinct)
      sampleTwins_derives
  exact ⟨events, last, hrun, current_index_exact hexecution fun event hmem =>
    derivesDistinct_sound (List.all_eq_true.mp hcheck event hmem)⟩

end ConstraintRouting.Fabric
