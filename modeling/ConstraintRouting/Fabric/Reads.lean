import ConstraintRouting.Fabric.CurrentIndex
import ConstraintRouting.Fabric.Currentness
import ConstraintRouting.Fabric.Disclosure
import ConstraintRouting.Fabric.SnapshotOrder

/-!
# The reads agree

Five queries show the current results of a set: the handoffs list them, `currentResult`
looks one up by its path, the report on currentness counts them, the snapshot of results
holds them among others, and the retained candidates have their paths.  In every reachable
state they show the same results.
-/

namespace ConstraintRouting.Fabric

open Verified.StepMachine
open Verified.SortedLists
open Verified.KeyedTables (find?_of_mem)

/-- What a handoff and a view show of one result. -/
structure ResultFace where
  path : PathId
  authorityGeneration : PathAuthorityGeneration
  outcome : Outcome
  evaluationId : ConstraintEvaluationId
  evaluationGeneration : EvaluationGeneration
  digest : Digest256

def RouteFabricHandoff.face (handoff : RouteFabricHandoff) : ResultFace :=
  { path := handoff.path, authorityGeneration := handoff.authorityGeneration,
    outcome := handoff.outcome, evaluationId := handoff.evaluationId,
    evaluationGeneration := handoff.evaluationGeneration, digest := handoff.digest }

def CandidateResultView.face (view : CandidateResultView) : ResultFace :=
  { path := view.path, authorityGeneration := view.authorityGeneration,
    outcome := view.outcome, evaluationId := view.evaluationId,
    evaluationGeneration := view.evaluationGeneration, digest := view.digest }

/-- The other reads of a set show the results that its handoffs list. -/
structure ReadsAgree (impl : Impl) (setId : ConstraintSetId)
    (handoffs : List RouteFabricHandoff) : Prop where
  /-- No path is handed over twice. -/
  ascending : handoffs.Pairwise fun a b => compare a.path b.path = .lt
  lookup : ∀ path, handoffs.find? (·.path == path) =
    (impl.currentResult setId path).toOption.map handoffOf
  counted : ∀ report, impl.currentness setId = .ok report →
    report.currentResults = handoffs.length ∧
      (.noCurrentResult ∈ report.causes ↔ handoffs = [])
  shown : ∀ snapshot, impl.snapshotResults setId = .ok snapshot →
    (snapshot.entries.filter (·.state = .current)).map (·.face) = handoffs.map (·.face)
  retained : ∀ candidates, impl.retainedCandidates setId = .ok candidates →
    ∀ handoff ∈ handoffs, handoff.path ∈ candidates.map (·.path)

/-! ## The current results of a set -/

section Results

variable {impl : Impl} {setId : ConstraintSetId}

/-- The current records of a set. -/
def Impl.resultsOf (impl : Impl) (setId : ConstraintSetId) : List EvaluationRecord :=
  impl.evaluations.filter fun record => record.setId == setId && record.state = .current

theorem Impl.mem_resultsOf {record : EvaluationRecord} :
    record ∈ impl.resultsOf setId ↔
      record ∈ impl.evaluations ∧ record.setId = setId ∧ record.state = .current := by
  unfold Impl.resultsOf
  rw [List.mem_filter, Bool.and_eq_true, beq_iff_eq, decide_eq_true_eq]

/-- A set has one current record for a path. -/
theorem Indexed.nodup_resultsOf (h : Indexed impl.evaluations) :
    ((impl.resultsOf setId).map (·.path)).Nodup := by
  have hresults : impl.resultsOf setId =
      (Impl.currentRecords impl.evaluations).filter (·.setId == setId) := by
    rw [Impl.resultsOf, Impl.currentRecords, List.filter_filter]
  have hkeys : ((impl.resultsOf setId).map (·.resultKey)).Nodup := by
    rw [hresults]
    exact h.keys.sublist (List.filter_sublist.map _)
  rw [List.Nodup, List.pairwise_map] at hkeys ⊢
  apply hkeys.imp_of_mem
  intro a b ha hb hother hpath
  apply hother
  unfold EvaluationRecord.resultKey
  rw [(Impl.mem_resultsOf.mp ha).2.1, (Impl.mem_resultsOf.mp hb).2.1, hpath]

theorem Impl.handoffs_eq_ok {context : AuthorityContext} {found : List RouteFabricHandoff}
    (h : impl.handoffs context setId = .ok found) :
    found = sortBy (compareOn (·.path)) ((impl.resultsOf setId).map handoffOf) := by
  unfold Impl.handoffs at h
  obtain ⟨_, -, hfound⟩ := Verified.Checks.bind_eq_ok.mp h
  exact (Except.ok.inj hfound).symm

/-- Looking up a path among the handoffs is asking for its current result. -/
theorem Indexed.find?_handoffs (h : Indexed impl.evaluations) (hderived : impl.Derived)
    (path : PathId) :
    (sortBy (compareOn (·.path)) ((impl.resultsOf setId).map handoffOf)).find?
        (·.path == path) =
      (impl.currentResult setId path).toOption.map handoffOf := by
  rw [find?_sortBy, List.find?_map]
  congr 1
  show (impl.resultsOf setId).find? (·.path == path) = _
  cases h.answers hderived setId path with
  | unique record hmem hstate hset hpath hunique hindex hanswer =>
      rw [hanswer, ← hpath]
      exact find?_of_mem h.nodup_resultsOf (Impl.mem_resultsOf.mpr ⟨hmem, hset, hstate⟩)
  | absent hnone hindex hanswer =>
      rw [hanswer, failure]
      apply List.find?_eq_none.mpr
      intro record hmem hpath
      obtain ⟨hrecord, hset, hstate⟩ := Impl.mem_resultsOf.mp hmem
      exact hnone record hrecord hstate hset (beq_iff_eq.mp hpath)

theorem countResults_current (setId : ConstraintSetId) :
    countResults impl.evaluations setId .current = (impl.resultsOf setId).length := by
  rw [countResults, Impl.resultsOf, List.countP_eq_length_filter]

/-- Entries of different paths that the snapshot sorts are sorted by their paths. -/
theorem path_lt_of_notAfter {a b : CandidateResultView} (hsorted : NotAfter compareEntry a b)
    (hother : a.path ≠ b.path) : compare a.path b.path = .lt := by
  cases hcompare : compare b.path a.path with
  | lt =>
      have hless : compareEntry b a = .lt := by
        unfold compareEntry compareLex compareOn
        rw [hcompare]
        rfl
      exact absurd hless hsorted
  | eq => exact absurd (Std.LawfulEqOrd.eq_of_compare hcompare).symm hother
  | gt => exact Std.OrientedCmp.lt_of_gt hcompare

/-- The current entries of the snapshot are the current results, sorted by path. -/
theorem Indexed.current_entries (h : Indexed impl.evaluations) :
    (sortBy compareEntry ((impl.evaluations.filter (·.setId == setId)).map resultView)).filter
        (·.state = .current) =
      sortBy (compareOn (·.path)) ((impl.resultsOf setId).map resultView) := by
  have hviews : ((impl.evaluations.filter (·.setId == setId)).map resultView).filter
      (·.state = .current) = (impl.resultsOf setId).map resultView := by
    rw [List.filter_map, List.filter_filter, Impl.resultsOf]
    congr 1
    apply List.filter_congr
    intro record _
    rw [Bool.and_comm]
    rfl
  have hperm := (sortBy_perm compareEntry
    ((impl.evaluations.filter (·.setId == setId)).map resultView)).filter (·.state = .current)
  rw [hviews] at hperm
  have hpaths : (((impl.resultsOf setId).map resultView).map (·.path)).Nodup := by
    rw [List.map_map]
    exact h.nodup_resultsOf
  apply @ascending_eq_of_mem_iff _ (compareOn (·.path)) _
  · have hsorted := (List.pairwise_insertionSort (NotAfter compareEntry)
      ((impl.evaluations.filter (·.setId == setId)).map resultView)).filter (·.state = .current)
    have hapart := (hperm.map (·.path)).nodup_iff.mpr hpaths
    rw [List.Nodup, List.pairwise_map] at hapart
    apply (hsorted.and hapart).imp
    intro a b hboth
    exact path_lt_of_notAfter hboth.1 hboth.2
  · exact sortBy_key_ascending hpaths
  · intro view
    rw [mem_sortBy]
    exact hperm.mem_iff

/-- The snapshot shows the current results in the order of the handoffs. -/
theorem Indexed.faces (h : Indexed impl.evaluations) :
    ((sortBy compareEntry ((impl.evaluations.filter (·.setId == setId)).map resultView)).filter
        (·.state = .current)).map (·.face) =
      (sortBy (compareOn (·.path)) ((impl.resultsOf setId).map handoffOf)).map (·.face) := by
  rw [h.current_entries,
    @map_sortBy _ _ CandidateResultView.face (compareOn (·.path))
      (compareOn (ResultFace.path ·)) (fun _ _ => rfl),
    @map_sortBy _ _ RouteFabricHandoff.face (compareOn (·.path))
      (compareOn (ResultFace.path ·)) (fun _ _ => rfl),
    List.map_map, List.map_map]
  rfl

/-- A set has no current result exactly when its report says so. -/
theorem mem_causes_iff (set : ConstraintSet) (count : ResultState → Nat) :
    .noCurrentResult ∈ (impl.reportCurrentness set setId count).causes ↔
      count .current = 0 := by
  have hfamily : ∀ family, advancedCause family ≠ some .noCurrentResult := by
    intro family
    cases family <;> decide
  unfold Impl.reportCurrentness
  rw [mem_sortUnique]
  simp [Impl.currentnessCauses, hfamily]

end Results

/-- The reads of a set answer for the same sets, those that are listed. -/
theorem Impl.known_iff (impl : Impl) (setId : ConstraintSetId) :
    ((∃ set, impl.getConstraintSet setId = .ok set) ↔ setId ∈ impl.constraintSetIds) ∧
      ((∃ snapshot, impl.snapshotDefinitions setId = .ok snapshot) ↔
        setId ∈ impl.constraintSetIds) ∧
      ((∃ snapshot, impl.snapshotResults setId = .ok snapshot) ↔
        setId ∈ impl.constraintSetIds) ∧
      ((∃ report, impl.currentness setId = .ok report) ↔ setId ∈ impl.constraintSetIds) := by
  have hlisted : setId ∈ impl.constraintSetIds ↔ (findSet impl.sets setId).isSome = true := by
    unfold findSet Impl.constraintSetIds
    rw [List.find?_isSome]
    simp only [List.mem_map, beq_iff_eq]
  unfold Impl.getConstraintSet Impl.snapshotDefinitions Impl.snapshotResults Impl.currentness
  rw [hlisted]
  cases findSet impl.sets setId with
  | none => simp [failure]
  | some set => simp

/-! ## Reachable states -/

/-- The current results of a run are of retained candidates, as long as their set has any. -/
theorem Execution.indexable {events : List Event} {last : SystemState}
    (h : Execution events last) : Indexable last.impl.standing := by
  let inv : List Event → SystemState → Prop := fun _ state => Indexable state.impl.standing
  have hinv : inv events last := by
    refine h.history_invariant ?_ ?_
    · rintro start ⟨hopened⟩
      obtain ⟨restored, hfrom⟩ := openCoordinator_openedFrom hopened
      exact hfrom.tracked.1
    · intro before event after hevents _ htransition hindexable
      subst hevents
      obtain ⟨hbefore, -, -⟩ := h.split
      show Indexable event.post.impl.standing
      cases htransition.standingStep with
      | kept hstanding =>
          rw [hstanding]
          exact hindexable
      | operated operation value haction heffect => exact heffect.indexable hindexable
      | committed ticket snapshot next hcommits hunchanged htarget _ hstanding =>
          obtain ⟨populations, excess, hwrites⟩ := commitTarget_writes htarget
          rw [hstanding]
          exact hwrites.indexable (hbefore.snapshot_set hcommits.flight).1
            hbefore.populations_distinct hindexable
  exact hinv

/-- In every reachable state the five reads of a set show the same current results. -/
theorem reads_agree {events : List Event} {last : SystemState}
    (h : Execution events last) (hdistinct : ∀ event ∈ events, DerivesDistinct event)
    {context : AuthorityContext} {setId : ConstraintSetId} {found : List RouteFabricHandoff}
    (hfound : last.impl.handoffs context setId = .ok found) :
    ReadsAgree last.impl setId found := by
  have hindexed := h.indexed hdistinct
  rw [Impl.handoffs_eq_ok hfound]
  have hpaths := @Indexed.nodup_resultsOf last.impl setId hindexed
  constructor
  · apply sortBy_key_ascending
    rw [List.map_map]
    exact hpaths
  · exact hindexed.find?_handoffs h.sound.derived
  · intro report hreport
    unfold Impl.currentness at hreport
    split at hreport
    · cases hreport
    · next set _ =>
        cases hreport
        rw [mem_causes_iff, countResults_current, ← List.length_eq_zero_iff, length_sortBy,
          List.length_map]
        exact ⟨countResults_current setId, Iff.rfl⟩
  · intro snapshot hsnapshot
    unfold Impl.snapshotResults at hsnapshot
    split at hsnapshot
    · cases hsnapshot
    · next set _ =>
        cases hsnapshot
        exact hindexed.faces
  · intro candidates hcandidates handoff hmem
    rw [mem_sortBy, List.mem_map] at hmem
    obtain ⟨record, hresult, hhandoff⟩ := hmem
    obtain ⟨hrecord, hset, hstate⟩ := Impl.mem_resultsOf.mp hresult
    unfold Impl.retainedCandidates at hcandidates
    split at hcandidates
    · cases hcandidates
    · next population hpopulation =>
        cases hcandidates
        rw [← hset] at hpopulation
        obtain ⟨candidate, hcandidate, hpath⟩ :=
          h.indexable.covered record hrecord hstate population hpopulation
        rw [← hhandoff]
        exact List.mem_map.mpr ⟨candidate, hcandidate, hpath⟩

/-- The evaluation of the twins derives distinct identities, and both paths are handed over
after it. -/
private def readsTwins (run : List Event × SystemState) : Bool :=
  run.1.all derivesDistinct &&
    match run.2.impl.handoffs (sampleContext 21) ⟨5⟩ with
    | .ok found => found.map (·.path.value) == [31, 32]
    | .error _ => false

private theorem sampleTwins_reads : (sampleRun sampleTwins).any readsTwins = true := by
  decide +kernel

theorem reads_agree_sample :
    ∃ events last found, sampleRun sampleTwins = some (events, last) ∧
      found.map (·.path.value) = [31, 32] ∧ ReadsAgree last.impl ⟨5⟩ found := by
  obtain ⟨⟨events, last⟩, hrun, hcheck⟩ := (Option.any_eq_true ..).mp sampleTwins_reads
  unfold readsTwins at hcheck
  rw [Bool.and_eq_true, List.all_eq_true] at hcheck
  obtain ⟨hdistinct, hpaths⟩ := hcheck
  split at hpaths
  · next found hfound =>
      exact ⟨events, last, found, hrun, beq_iff_eq.mp hpaths,
        reads_agree (Execution.of_execute hrun)
          (fun event hmem => derivesDistinct_sound (hdistinct event hmem)) hfound⟩
  · cases hpaths

end ConstraintRouting.Fabric
