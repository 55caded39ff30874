import ConstraintRouting.Fabric.CurrentIndex
import ConstraintRouting.Fabric.Lifetimes

/-!
# Digests of stored records

A record is given its digest when it is evaluated, as a current one.  The digest covers the
result state, and what rewrites the state later leaves the digest as it was.
-/

namespace ConstraintRouting.Fabric

open Verified.StepMachine

/-! ## Records -/

namespace EvaluationRecord

/-- The record carries the digest that it has as a current one. -/
def Sealed (record : EvaluationRecord) : Prop :=
  record.digest = evaluationDigest { record with state := .current }

/-- Another result state leaves the digest as it is. -/
theorem Sealed.withState {record : EvaluationRecord} (h : record.Sealed)
    (state : ResultState) : ({ record with state } : EvaluationRecord).Sealed := h

/-- The digests of the record and of the same record as a current one coincide, though it
is not current. -/
def Collides (record : EvaluationRecord) : Prop :=
  record.state ≠ .current ∧
    evaluationDigest record = evaluationDigest { record with state := .current }

/-- The digest of a sealed record is its own when it is current, or by coincidence. -/
theorem Sealed.digest_iff {record : EvaluationRecord} (h : record.Sealed) :
    record.digest = evaluationDigest record ↔ record.state = .current ∨ record.Collides := by
  have hcurrent : record.state = .current →
      ({ record with state := .current } : EvaluationRecord) = record := by
    intro hstate
    rw [← hstate]
  constructor
  · intro hdigest
    by_cases hstate : record.state = .current
    · exact .inl hstate
    · exact .inr ⟨hstate, hdigest.symm.trans h⟩
  · intro hcase
    rcases hcase with hstate | hcollides
    · rw [h, hcurrent hstate]
    · exact h.trans hcollides.2.symm

end EvaluationRecord

/-- An evaluation seals the records that it commits. -/
theorem sealed_of_mem_committedRecords {impl : Impl} {snapshot : EvaluationSnapshot}
    {call : Call} {record : EvaluationRecord}
    (h : record ∈ committedRecords impl snapshot call) :
    record.Sealed ∧ record.state = .current := by
  obtain ⟨evaluated, hmem, rfl⟩ := List.mem_map.mp h
  refine ⟨?_, rfl⟩
  unfold batchRecords at hmem
  split at hmem
  · cases hmem
  · obtain ⟨candidate, -, rfl⟩ := List.mem_map.mp hmem
    rfl

/-! ## What rewrites a record -/

/-- The operation is due to demote the record, when it is current. -/
def Operation.Demotes (operation : Operation) (impl : Impl) (record : EvaluationRecord) :
    Prop :=
  match operation with
  | .publishConstraintSet _ set => record.setId = set.id
  | .applyLifecycle _ setId event =>
      record.setId = setId ∧ ∃ target state, findSet impl.sets setId = some target ∧
        applyLifecycleEvent target.state event = .ok state ∧ state ≠ .active
  | .invalidateKey _ key => record.id ∈ impl.index.dependents key
  | operation =>
      ∃ context requirements,
        operation.requirements impl.evidence = some (context, requirements) ∧
        record.id ∈ (advancedFamilies impl.evidence requirements).flatMap
          (dependentsOfFamily impl.index)

/-- The step is due to supersede, demote or recover the stored record. -/
def Turn.Rewrites (turn : Turn) (state : SystemState) (record : EvaluationRecord) : Prop :=
  match turn with
  | .serve ⟨.operate operation, _⟩ => operation.Demotes state.impl record
  | .serve ⟨.evaluateFinish ticket, call⟩ =>
      ∃ snapshot, state.flights ticket = some (.evaluating snapshot) ∧
        record.setId = snapshot.setId ∧
        record.id ∉ (committedRecords state.impl snapshot call).map (·.id)
  | .serve _ => False
  | .restart _ _ => True

/-- Where a record comes from that stands after a step. -/
inductive Origin (event : LifeEvent) (record : EvaluationRecord) : Prop
  | kept : record ∈ event.pre.impl.evaluations → Origin event record
  | rewritten (before : EvaluationRecord) (state : ResultState) :
      before ∈ event.pre.impl.evaluations → event.input.Rewrites event.pre before →
      record = { before with state } → Origin event record
  | committed (snapshot : EvaluationSnapshot) (call : Call) :
      record ∈ committedRecords event.pre.impl snapshot call → Origin event record

/-- A demotion keeps a record, or rewrites one that it selects. -/
theorem demote_cases {selected : EvaluationRecord → Bool}
    {evaluations : List EvaluationRecord} {record : EvaluationRecord}
    (h : record ∈ demote selected evaluations) :
    record ∈ evaluations ∨ ∃ before ∈ evaluations, selected before = true ∧
      record = { before with state := .revalidationRequired } := by
  obtain ⟨before, hmem, rfl⟩ := List.mem_map.mp h
  by_cases hselected : (selected before && before.state = .current) = true
  · have hboth := hselected
    rw [Bool.and_eq_true] at hboth
    exact .inr ⟨before, hmem, hboth.1, if_pos hselected⟩
  · rw [if_neg hselected]
    exact .inl hmem

/-- A commit keeps a record, supersedes one of its set that it does not replace, or stores
one of its batch. -/
theorem commitEvaluations_cases {evaluations records : List EvaluationRecord}
    {setId : ConstraintSetId} {record : EvaluationRecord}
    (h : record ∈ commitEvaluations evaluations setId records) :
    record ∈ evaluations ∨ record ∈ records ∨ ∃ before ∈ evaluations,
      before.setId = setId ∧ before.id ∉ records.map (·.id) ∧
      record = { before with state := .superseded } := by
  unfold commitEvaluations at h
  rcases List.mem_append.mp h with hold | hnew
  · obtain ⟨before, hretained, rfl⟩ := List.mem_map.mp hold
    obtain ⟨hmem, houtside⟩ := List.mem_filter.mp hretained
    by_cases hset : (before.setId == setId && before.state ≠ .staleAtCommit) = true
    · have hboth := hset
      rw [Bool.and_eq_true, beq_iff_eq] at hboth
      exact .inr (.inr ⟨before, hmem, hboth.1, of_decide_eq_true houtside, if_pos hset⟩)
    · rw [if_neg hset]
      exact .inl hmem
  · exact .inr (.inl hnew)

/-- A publication stores its set under the identity that was submitted. -/
theorem id_of_publishInto {limits : Limits} {set finalized stored : ConstraintSet}
    {tick : UInt64} {defects : List SetDefect} {sets after : List ConstraintSet}
    (hfinalized : validateAndFinalizeConstraintSet { set with declaredTick := tick } limits =
      .ok (finalized, defects))
    (hstored : publishInto limits sets finalized = .ok (after, stored)) :
    stored.id = set.id := by
  have hid : finalized.id = set.id := by
    obtain ⟨-, rfl⟩ := validateAndFinalizeConstraintSet_eq_ok_iff.mp ⟨defects, hfinalized⟩
    rfl
  rcases publishInto_cases hstored with ⟨-, rfl, -⟩ | ⟨_, -, hrepublished, -⟩
  · exact hid
  · exact (republish_id hrepublished).trans hid

/-- An operation keeps a record, or demotes one that it is due to. -/
theorem Operation.Effect.demotes {impl : Impl} {operation : Operation} {value : Value}
    {standing : Standing} (h : operation.Effect impl value standing)
    {record : EvaluationRecord} (hmem : record ∈ standing.evaluations) :
    record ∈ impl.evaluations ∨ ∃ before ∈ impl.evaluations,
      operation.Demotes impl before ∧
      record = { before with state := .revalidationRequired } := by
  cases h with
  | published _ _ hfinalized hstored =>
      rcases demote_cases hmem with hkept | ⟨before, hbefore, hselected, hrecord⟩
      · exact .inl hkept
      · have hset := beq_iff_eq.mp hselected
        exact .inr ⟨before, hbefore, hset.trans (id_of_publishInto hfinalized hstored), hrecord⟩
  | @moved _ setId _ target state _ hfound happly =>
      by_cases hactive : state = .active
      · simp only [hactive, ne_eq, not_true_eq_false, if_false] at hmem
        exact .inl hmem
      · simp only [hactive, ne_eq, not_false_eq_true, if_true] at hmem
        rcases demote_cases hmem with hkept | ⟨before, hbefore, hselected, hrecord⟩
        · exact .inl hkept
        · have hset : before.setId = setId :=
            (beq_iff_eq.mp hselected).trans (id_of_findSet hfound)
          exact .inr ⟨before, hbefore, ⟨hset, target, state, hfound, happly, hactive⟩, hrecord⟩
  | @advanced _ context requirements hrequirements =>
      rcases demote_cases hmem with hkept | ⟨before, hbefore, hselected, hrecord⟩
      · exact .inl hkept
      · have hdependent := of_decide_eq_true hselected
        refine .inr ⟨before, hbefore, ?_, hrecord⟩
        cases operation with
        | setEvidenceRequirements | advanceFamily =>
            exact ⟨context, requirements, hrequirements, hdependent⟩
        | _ => cases hrequirements
  | invalidated =>
      rcases demote_cases hmem with hkept | ⟨before, hbefore, hselected, hrecord⟩
      · exact .inl hkept
      · have hdependent := of_decide_eq_true hselected
        exact .inr ⟨before, hbefore, hdependent, hrecord⟩

/-! ## Steps -/

/-- What stands after a critical section was kept, rewritten or committed by it. -/
theorem Serving.origin {event : LifeEvent} {served : Event} (h : Serving event served)
    (htransition : Transition served.pre served.input.call served.input.action served.output
      served.post) {record : EvaluationRecord}
    (hmem : record ∈ served.post.impl.evaluations) : Origin event record := by
  obtain ⟨pre, input, output, post⟩ := event
  obtain ⟨rfl, rfl, rfl, rfl⟩ := h
  cases htransition.standingStep with
  | kept hstanding =>
      have hkept : served.post.impl.evaluations = served.pre.impl.evaluations :=
        congrArg Standing.evaluations hstanding
      exact .kept (hkept ▸ hmem)
  | operated operation value haction heffect =>
      rcases heffect.demotes hmem with hkept | ⟨before, hbefore, hdemotes, hrecord⟩
      · exact .kept hkept
      · refine .rewritten before _ hbefore ?_ hrecord
        obtain ⟨pre, ⟨action, call⟩, reply, post⟩ := served
        obtain rfl : action = .operate operation := haction
        exact hdemotes
  | committed ticket snapshot next hcommits _ htarget _ hstanding =>
      obtain ⟨populations, excess, hwrites⟩ := commitTarget_writes htarget
      have hnext := congrArg Standing.evaluations (hstanding.trans hwrites.standing)
      change served.post.impl.evaluations = _ at hnext
      rw [hnext] at hmem
      rcases commitEvaluations_cases (trimHistory_sublist.subset hmem) with
        hkept | hnew | ⟨before, hbefore, hset, houtside, hrecord⟩
      · exact .kept hkept
      · exact .committed snapshot _ hnew
      · refine .rewritten before .superseded hbefore ?_ hrecord
        obtain ⟨pre, ⟨action, call⟩, reply, post⟩ := served
        obtain rfl : action = .evaluateFinish ticket := hcommits.action
        exact ⟨snapshot, hcommits.flight, hset, houtside⟩

/-- What stands after any step was kept, rewritten or committed by it. -/
theorem LifeSound.origin {event : LifeEvent} (h : LifeSound event.pre)
    (htaken : event.Taken turn) {record : EvaluationRecord}
    (hmem : record ∈ event.post.impl.evaluations) : Origin event record := by
  rcases turn_cases htaken with ⟨served, hserving, hstep⟩ | ⟨config, call, hrestarting⟩
  · have hlimits : validateLimits served.pre.impl.config.limits = .ok () := by
      rw [← hserving.pre]
      exact h.limits
    rw [hserving.post] at hmem
    exact hserving.origin (step_transition hlimits hstep) hmem
  · rcases hrestarting.evaluations h with hnone | hrecovered
    · rw [hnone] at hmem
      cases hmem
    · rw [hrecovered] at hmem
      obtain ⟨before, hbefore, rfl⟩ := List.mem_map.mp hmem
      refine .rewritten before _ hbefore ?_ rfl
      rw [hrestarting.input]
      trivial

/-! ## Lifetimes -/

/-- A lifetime whose first coordinator found no stored record. -/
def Founded (events : List LifeEvent) (last : SystemState) : Prop :=
  ∃ start, Opened start ∧ start.impl.evaluations = [] ∧ Run turn start events last

/-- The step is due to rewrite none of the stored records. -/
def Unrewritten (event : LifeEvent) : Prop :=
  ∀ record ∈ event.pre.impl.evaluations, ¬ event.input.Rewrites event.pre record

/-- What a first commit establishes of a record, and every step keeps. -/
theorem Founded.invariant {property : EvaluationRecord → Prop} {events : List LifeEvent}
    {last : SystemState} (h : Founded events last)
    (hcommitted : ∀ event ∈ events, ∀ snapshot call record,
      record ∈ committedRecords event.pre.impl snapshot call → property record)
    (hrewritten : ∀ event ∈ events, ∀ record ∈ event.pre.impl.evaluations, ∀ state,
      event.input.Rewrites event.pre record → property record →
      property { record with state }) :
    ∀ record ∈ last.impl.evaluations, property record := by
  obtain ⟨start, hstart, hnone, hrun⟩ := h
  let inv : SystemState → Prop := fun state =>
    LifeSound state ∧ ∀ record ∈ state.impl.evaluations, property record
  have hinv : inv last := by
    refine hrun.invariant ⟨hstart.lifeSound, ?_⟩ ?_
    · intro record hmem
      rw [hnone] at hmem
      cases hmem
    · intro event hevent htaken hbefore
      obtain ⟨hsound, hall⟩ := hbefore
      refine ⟨hsound.turned htaken, ?_⟩
      intro record hmem
      cases hsound.origin htaken hmem with
      | kept hkept => exact hall record hkept
      | rewritten before state hmember hrewrites hrecord =>
          rw [hrecord]
          exact hrewritten event hevent before hmember state hrewrites (hall before hmember)
      | committed snapshot call hnew => exact hcommitted event hevent snapshot call record hnew
  exact hinv.2

theorem Founded.sealed {events : List LifeEvent} {last : SystemState}
    (h : Founded events last) : ∀ record ∈ last.impl.evaluations, record.Sealed := by
  refine h.invariant ?_ ?_
  · intro _ _ _ _ _ hmem
    exact (sealed_of_mem_committedRecords hmem).1
  · intro _ _ _ _ state _ hsealed
    exact hsealed.withState state

theorem Founded.current {events : List LifeEvent} {last : SystemState}
    (h : Founded events last) (hunrewritten : ∀ event ∈ events, Unrewritten event) :
    ∀ record ∈ last.impl.evaluations, record.state = .current := by
  refine h.invariant ?_ ?_
  · intro _ _ _ _ _ hmem
    exact (sealed_of_mem_committedRecords hmem).2
  · intro event hevent record hmem _ hrewrites
    exact absurd hrewrites (hunrewritten event hevent record hmem)

/-- In every state that is reached a stored record's digest is its own exactly when the
record is still current, up to coincidence.  In every run that rewrites no stored record
they all are. -/
theorem digest_own_iff_current {events : List LifeEvent} {last : SystemState}
    (h : Founded events last) :
    (∀ record ∈ last.impl.evaluations,
      (record.digest = evaluationDigest record ↔
        record.state = .current ∨ record.Collides)) ∧
    ((∀ event ∈ events, Unrewritten event) →
      ∀ record ∈ last.impl.evaluations, record.digest = evaluationDigest record) := by
  have hiff : ∀ record ∈ last.impl.evaluations,
      (record.digest = evaluationDigest record ↔
        record.state = .current ∨ record.Collides) := by
    intro record hmem
    exact (h.sealed record hmem).digest_iff
  refine ⟨hiff, ?_⟩
  intro hunrewritten record hmem
  exact (hiff record hmem).mpr (.inl (h.current hunrewritten record hmem))

/-! ## One record demoted -/

/-- Turns of a coordinator in memory that pass a check are a founded lifetime that passes
it. -/
theorem Founded.of_run_check {config : CoordinatorConfig} {call : Call} {turns : List Turn}
    (check : List LifeEvent × SystemState → Bool)
    (h : (live (openInMemory config call) turns).any check = true) :
    ∃ events last, live (openInMemory config call) turns = some (events, last) ∧
      Founded events last ∧ check (events, last) = true := by
  cases hopened : openInMemory config call with
  | error error => simp [hopened, live] at h
  | ok impl =>
      rw [hopened] at h
      obtain ⟨run, hrun, hcheck⟩ := (Option.any_eq_true _ _).mp h
      have hnone : impl.evaluations = [] := @openCoordinator_evaluations _ _ _ _ none hopened rfl
      exact ⟨run.1, run.2, hrun, ⟨{ impl }, .opened hopened, hnone, Run.of_exec hrun⟩, hcheck⟩

/-- Publishes and activates a set, and evaluates a path of it. -/
def sampleFirst : List Turn :=
  (samplePublish 5 10 ++ [sampleBegin 20 5 [31], sampleFinish 0]).map .serve

/-- Suspends the set, which demotes what is current. -/
def sampleSuspend : Turn :=
  .serve (sampleInput (.operate (.applyLifecycle (sampleContext 30) ⟨5⟩ .suspend)))

private theorem sampleSuspend_disowns :
    ((sampleLife (sampleFirst ++ [sampleSuspend])).any fun run =>
      run.2.impl.evaluations.any fun record =>
        record.state == .revalidationRequired && record.digest != evaluationDigest record) =
          true := by
  decide +kernel

/-- A demoted record carries another digest than its own. -/
theorem demoted_digest_differs :
    ∃ events last, sampleLife (sampleFirst ++ [sampleSuspend]) = some (events, last) ∧
      Founded events last ∧ ∃ record ∈ last.impl.evaluations,
        record.state = .revalidationRequired ∧ record.digest ≠ evaluationDigest record := by
  obtain ⟨events, last, hrun, hfounded, hcheck⟩ := Founded.of_run_check _ sampleSuspend_disowns
  obtain ⟨record, hmem, hdisowns⟩ := List.any_eq_true.mp hcheck
  rw [Bool.and_eq_true, beq_iff_eq, bne_iff_ne] at hdisowns
  exact ⟨events, last, hrun, hfounded, record, hmem, hdisowns⟩

private theorem sampleFirst_undisturbed :
    ((sampleLife sampleFirst).any fun run => run.2.impl.evaluations.length == 1 &&
      run.1.all fun event => event.pre.impl.evaluations.isEmpty) = true := by
  decide +kernel

theorem digest_own_iff_current_sample :
    ∃ events last, sampleLife sampleFirst = some (events, last) ∧
      last.impl.evaluations.length = 1 ∧
      ∀ record ∈ last.impl.evaluations, record.digest = evaluationDigest record := by
  obtain ⟨events, last, hrun, hfounded, hcheck⟩ :=
    Founded.of_run_check _ sampleFirst_undisturbed
  rw [Bool.and_eq_true, beq_iff_eq] at hcheck
  refine ⟨events, last, hrun, hcheck.1, (digest_own_iff_current hfounded).2 ?_⟩
  intro event hevent record hmem
  have hempty := List.all_eq_true.mp hcheck.2 event hevent
  rw [List.isEmpty_iff.mp hempty] at hmem
  cases hmem

end ConstraintRouting.Fabric
