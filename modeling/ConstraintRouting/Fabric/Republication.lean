import ConstraintRouting.Fabric.Acknowledgement
import ConstraintRouting.Fabric.LifecycleLaw
import ConstraintRouting.Fabric.RecordDigests

/-!
# Republications

A publication of the definition that is stored is told by its digest, which covers the
generation that the caller submits; and the records of the set are demoted whether the
definition changed or not.
-/

namespace ConstraintRouting.Fabric

open Verified.StepMachine
open Verified.SortedLists (sortBy_eq_of_perm)

/-! ## Definitions that mean the same -/

/-- The sets have the same constraints in canonical form, the same evidence requirements and
the same ranking. -/
structure SameDefinition (set existing : ConstraintSet) : Prop where
  constraints : canonicalConstraints set = canonicalConstraints existing
  evidence : set.evidence = existing.evidence
  ranking : set.ranking = existing.ranking

/-- The order of the constraints does not matter. -/
theorem SameDefinition.of_perm {set existing : ConstraintSet}
    (hconstraints : set.constraints.Perm existing.constraints)
    (hevidence : set.evidence = existing.evidence) (hranking : set.ranking = existing.ranking) :
    SameDefinition set existing := by
  refine ⟨?_, hevidence, hranking⟩
  have hsorted := sortBy_eq_of_perm (fun _ _ _ _ h => canonicalCompare_eq_iff.mp h)
    (hconstraints.map (canonicalizeEntities · |>.1))
  unfold canonicalConstraints
  rw [hsorted]

/-- The digest of a definition depends on the submission by its generation only. -/
theorem SameDefinition.digest {set existing : ConstraintSet} (h : SameDefinition set existing)
    (hid : existing.id = set.id) :
    constraintSetDigest (canonicalForm set) =
      constraintSetDigest { canonicalForm existing with generation := set.generation } := by
  unfold constraintSetDigest feedConstraintSet canonicalForm
  rw [h.constraints, h.evidence, h.ranking, hid]

/-! ## What a publication leaves -/

/-- A demotion changes nothing exactly when no selected record is current. -/
theorem demote_eq_self_iff {selected : EvaluationRecord → Bool}
    {evaluations : List EvaluationRecord} :
    demote selected evaluations = evaluations ↔
      ∀ record ∈ evaluations, selected record = true → record.state ≠ .current := by
  have hidentity : demote selected evaluations = evaluations ↔
      demote selected evaluations = evaluations.map id := by rw [List.map_id]
  rw [hidentity, demote, List.map_inj_left]
  apply forall₂_congr
  intro record _
  by_cases hselected : selected record = true
  · by_cases hcurrent : record.state = .current
    · simp only [hselected, hcurrent, Bool.true_and, decide_true, if_true, true_imp_iff,
        ne_eq, not_true_eq_false, iff_false]
      intro hsame
      have hstate : ResultState.revalidationRequired = record.state :=
        congrArg EvaluationRecord.state hsame
      rw [hcurrent] at hstate
      cases hstate
    · simp [hcurrent]
  · simp [hselected]

/-- What a publication assigns is what stood exactly when the digests agree. -/
theorem republish_keeps_iff {existing finalized stored : ConstraintSet}
    (h : republish existing finalized = .ok stored) :
    stored.generation = existing.generation ∧ stored.state = existing.state ∧
        stored.digest = existing.digest ↔ finalized.digest = existing.digest := by
  unfold republish at h
  split at h
  · next hsame =>
      cases h
      simp [hsame]
  · next hdiffers =>
      split at h
      · cases h
      · cases h
        exact ⟨fun hkept => hkept.2.2, fun hsame => absurd hsame.symm hdiffers⟩

/-- The event publishes under a fresh attempt what the stored set is. -/
structure Republishes (event : Event) (set existing : ConstraintSet) : Prop where
  request : ∃ context, event.input.action = .operate (.publishConstraintSet context set) ∧
    event.pre.impl.authority.findAttempt context.attempt = none
  stored : findSet event.pre.impl.sets set.id = some existing
  same : SameDefinition set existing

/-- The generation, the lifecycle state and the digest of the set stay, and so does every
evaluation record. -/
structure AdvancesNothing (event : Event) (existing : ConstraintSet) : Prop where
  set : ∃ stored, findSet event.post.impl.sets existing.id = some stored ∧
    stored.generation = existing.generation ∧ stored.state = existing.state ∧
    stored.digest = existing.digest
  records : event.post.impl.evaluations = event.pre.impl.evaluations

/-- What an accepted publication of a stored set does. -/
theorem Republishes.effect {event : Event} {set existing : ConstraintSet}
    (h : Republishes event set existing) (hsound : Sound event.pre)
    (htaken : event.Taken step) (haccepted : ∃ value, event.output = .operated (.ok value)) :
    ∃ finalized stored, finalized.digest = constraintSetDigest (canonicalForm set) ∧
      republish existing finalized = .ok stored ∧
      findSet event.post.impl.sets set.id = some stored ∧
      event.post.impl.evaluations = demote (·.setId == set.id) event.pre.impl.evaluations := by
  obtain ⟨⟨context, hpublishes, hunused⟩, hfound, -⟩ := h
  have hasks : asks event = some (context.attempt, .publish set) := by
    simp [asks, hpublishes, Operation.asks]
  have hfresh : Replays event = false := by
    simp [Replays, hpublishes, Operation.replays, isReplay_of_unused hunused]
  have happlied := (carriesOut_of_operate hsound htaken hpublishes
    ⟨hasks, hfresh, .inl haccepted⟩).1
  obtain ⟨operation, result, hoperation, heffect⟩ := happlied
  rw [hpublishes] at hoperation
  cases hoperation
  generalize hstanding : event.post.impl.standing = standing at heffect
  have hsets := congrArg Standing.sets hstanding
  have hevaluations := congrArg Standing.evaluations hstanding
  change event.post.impl.sets = _ at hsets
  change event.post.impl.evaluations = _ at hevaluations
  cases heffect with
  | advanced hrequirements => cases hrequirements
  | @published _ _ finalized stored _ _ _ _ _ _ hfinalized hinto =>
      obtain ⟨-, hid, hdigest⟩ := finalized_of_submitted hfinalized
      have hstored := id_of_publishInto hfinalized hinto
      rcases publishInto_cases hinto with ⟨hmissing, -, -⟩ |
        ⟨other, hother, hrepublished, hafter⟩
      · rw [hid, hfound] at hmissing
        cases hmissing
      · rw [hid, hfound] at hother
        cases hother
        refine ⟨finalized, stored, hdigest, hrepublished, ?_, ?_⟩
        · rw [hsets]
          dsimp only
          rw [hafter, hid]
          exact findSet_replaceFirst_self hstored hfound
        · rw [hevaluations]
          dsimp only
          rw [hstored]

/-- A publication of the stored definition advances nothing when it is refused; when it is
accepted, exactly if the stored digest is the one at the submitted generation and no record
of the set is current. -/
theorem republication_advances_nothing_iff {event : Event} {set existing : ConstraintSet}
    (hreachable : Reachable event.pre) (htaken : event.Taken step)
    (hrepublishes : Republishes event set existing) :
    ((∃ error, event.output = .operated (.error error)) → AdvancesNothing event existing) ∧
    ((∃ value, event.output = .operated (.ok value)) →
      (AdvancesNothing event existing ↔
        constraintSetDigest { canonicalForm existing with generation := set.generation } =
            existing.digest ∧
          ∀ record ∈ event.pre.impl.evaluations, record.setId = set.id →
            record.state ≠ .current)) := by
  obtain ⟨events, hexecution⟩ := hreachable
  have hsound := hexecution.sound
  have hid := id_of_findSet hrepublishes.stored
  constructor
  · rintro ⟨error, hrefused⟩
    obtain ⟨⟨context, hpublishes, -⟩, hfound, -⟩ := hrepublishes
    obtain ⟨pre, ⟨action, call⟩, output, post⟩ := event
    dsimp only at hpublishes hfound hrefused
    subst hpublishes
    unfold Event.Taken step at htaken
    simp only [Option.some.injEq, Prod.mk.injEq] at htaken
    obtain ⟨rfl, rfl⟩ := htaken
    rcases Operation.run_cases (.publishConstraintSet context set) pre.impl call with
      hkept | ⟨value, hvalue, -⟩
    · refine ⟨⟨existing, ?_, rfl, rfl, rfl⟩, hkept.evaluations⟩
      show findSet (Operation.run _ pre.impl call).1.sets _ = _
      rw [hkept.sets, hid, hfound]
    · have hresult := Reply.operated.inj hrefused
      rw [hvalue] at hresult
      cases hresult
  · intro haccepted
    obtain ⟨finalized, stored, hdigest, hrepublished, hpost, hevaluations⟩ :=
      hrepublishes.effect hsound htaken haccepted
    have hkeeps := republish_keeps_iff hrepublished
    rw [hdigest, hrepublishes.same.digest hid] at hkeeps
    have hrecords : event.post.impl.evaluations = event.pre.impl.evaluations ↔
        ∀ record ∈ event.pre.impl.evaluations, record.setId = set.id →
          record.state ≠ .current := by
      rw [hevaluations, demote_eq_self_iff]
      simp only [beq_iff_eq]
    rw [← hkeeps, ← hrecords]
    constructor
    · rintro ⟨⟨other, hother, hkept⟩, hstay⟩
      rw [hid, hpost] at hother
      cases hother
      exact ⟨hkept, hstay⟩
    · rintro ⟨hkept, hstay⟩
      exact ⟨⟨stored, hid ▸ hpost, hkept⟩, hstay⟩

/-- Set 5, submitted at a generation. -/
def sampleDefinition (generation : UInt64) : ConstraintSet :=
  { sampleSet 5 with generation := ⟨generation⟩ }

def samplePublication (generation : UInt64) : Input :=
  sampleInput (.operate (.publishConstraintSet (sampleContext 30) (sampleDefinition generation)))

/-- The last event publishes what is stored, is accepted and meets the test. -/
private def republishesLast (generation : UInt64) (test : Event → Bool)
    (events : List Event) : Bool :=
  events.getLast?.any fun event =>
    let set := sampleDefinition generation
    match event.output, findSet event.pre.impl.sets set.id with
    | .operated (.ok _), some existing =>
        decide (event.input.action =
            .operate (.publishConstraintSet (sampleContext 30) set) ∧
          event.pre.impl.authority.findAttempt (sampleContext 30).attempt = none ∧
          set.constraints = existing.constraints ∧ set.evidence = existing.evidence ∧
          set.ranking = existing.ranking ∧ existing.generation = ⟨1⟩) && test event
    | _, _ => false

private theorem republishes_of_check {inputs : List Input} {generation : UInt64}
    {test : Event → Bool}
    (h : ((sampleRun inputs).any fun run => republishesLast generation test run.1) = true) :
    ∃ event existing, Reachable event.pre ∧ event.Taken step ∧
      Republishes event (sampleDefinition generation) existing ∧
      (∃ value, event.output = .operated (.ok value)) ∧ existing.generation = ⟨1⟩ ∧
      test event = true := by
  obtain ⟨events, last, -, hexecution, hcheck⟩ := sampleRun_execution _ _ h
  unfold republishesLast at hcheck
  obtain ⟨event, hlast, hevent⟩ := (Option.any_eq_true _ _).mp hcheck
  obtain ⟨before, rfl⟩ := List.getLast?_eq_some_iff.mp hlast
  have htaken := hexecution.taken_of_getLast? hlast
  dsimp only at hevent
  split at hevent
  · next value existing houtput hfound =>
      rw [Bool.and_eq_true] at hevent
      obtain ⟨hdecided, htest⟩ := hevent
      obtain ⟨haction, hunused, hconstraints, hevidence, hranking, hgeneration⟩ :=
        of_decide_eq_true hdecided
      have hsame : SameDefinition (sampleDefinition generation) existing :=
        .of_perm (.of_eq hconstraints) hevidence hranking
      exact ⟨event, existing, ⟨before, hexecution.split.1⟩, htaken,
        ⟨⟨_, haction, hunused⟩, hfound, hsame⟩, ⟨_, houtput⟩, hgeneration, htest⟩
  · cases hevent

private theorem samplePublication_moves :
    ((sampleRun (samplePublish 5 10 ++ [sampleBegin 20 5 [31], sampleFinish 0,
      samplePublication 1])).any fun run => republishesLast 1 (fun event =>
        (event.pre.impl.evaluations.map (·.state) == [.current]) &&
          event.post.impl.evaluations.map (·.state) == [.revalidationRequired]) run.1) = true ∧
    ((sampleRun (samplePublish 5 10 ++ [samplePublication 7])).any fun run =>
      republishesLast 7 (fun event =>
        (findSet event.post.impl.sets ⟨5⟩).any (·.generation == ⟨2⟩)) run.1) = true := by
  decide +kernel

/-- The stored definition is published again: at its own generation, which demotes the record
that was current; and at another one, which advances the generation. -/
theorem republication_advances :
    (∃ event existing, Reachable event.pre ∧ event.Taken step ∧
      Republishes event (sampleDefinition 1) existing ∧ ¬ AdvancesNothing event existing) ∧
    ∃ event existing, Reachable event.pre ∧ event.Taken step ∧
      Republishes event (sampleDefinition 7) existing ∧ ¬ AdvancesNothing event existing := by
  constructor
  · obtain ⟨event, existing, hreachable, htaken, hrepublishes, -, -, htest⟩ :=
      republishes_of_check samplePublication_moves.1
    refine ⟨event, existing, hreachable, htaken, hrepublishes, ?_⟩
    rw [Bool.and_eq_true, beq_iff_eq, beq_iff_eq] at htest
    intro hnothing
    rw [hnothing.records, htest.1] at htest
    cases htest.2
  · obtain ⟨event, existing, hreachable, htaken, hrepublishes, -, hgeneration, htest⟩ :=
      republishes_of_check samplePublication_moves.2
    refine ⟨event, existing, hreachable, htaken, hrepublishes, ?_⟩
    obtain ⟨stored, hstored, hadvanced⟩ := (Option.any_eq_true _ _).mp htest
    intro hnothing
    obtain ⟨other, hother, hsame, -⟩ := hnothing.set
    have hid := id_of_findSet hrepublishes.stored
    rw [hid] at hother
    have heq := hother.symm.trans hstored
    cases heq
    rw [beq_iff_eq, hsame, hgeneration] at hadvanced
    cases hadvanced

theorem republication_advances_nothing_iff_sample :
    ∃ event existing, (∃ value, event.output = .operated (.ok value)) ∧
      (AdvancesNothing event existing ↔
        constraintSetDigest { canonicalForm existing with generation := ⟨1⟩ } =
            existing.digest ∧
          ∀ record ∈ event.pre.impl.evaluations, record.setId = ⟨5⟩ →
            record.state ≠ .current) := by
  obtain ⟨event, existing, hreachable, htaken, hrepublishes, haccepted, -, -⟩ :=
    republishes_of_check samplePublication_moves.1
  exact ⟨event, existing, haccepted,
    (republication_advances_nothing_iff hreachable htaken hrepublishes).2 haccepted⟩

end ConstraintRouting.Fabric
