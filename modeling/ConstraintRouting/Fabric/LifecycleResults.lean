import ConstraintRouting.Fabric.Acknowledgement
import ConstraintRouting.Fabric.LifecycleLaw

/-!
# Results from another lifecycle state

An evaluation reports the lifecycle state that it finds its set in, and is committed as
current in every such state.  A lifecycle event demotes the records of its set only when it
leads to a state other than active.
-/

namespace ConstraintRouting.Fabric

open Verified.StepMachine Verified.KeyedTables

/-! ## In which state a record was evaluated -/

/-- An event of the history committed the record, evaluated while its set was in the
state. -/
def EvaluatedIn (history : List Event) (record : EvaluationRecord)
    (state : ConstraintSetState) : Prop :=
  ∃ event ∈ history, ∃ ticket snapshot, Commits event ticket snapshot ∧
    record ∈ committedRecords event.pre.impl snapshot event.input.call ∧
    snapshot.set.state = state

/-- No record of the set is current that was evaluated while the set was in another state
than the one it is in. -/
def EvaluatedAsStands (history : List Event) (impl : Impl) (setId : ConstraintSetId) : Prop :=
  ∀ record ∈ impl.evaluations, record.setId = setId → record.state = .current →
    ∀ state, EvaluatedIn history record state → lifecycleOf impl setId = some state

/-- The record was evaluated in the state that its set is in, unless the set is active. -/
def Accounted (history : List Event) (impl : Impl) (record : EvaluationRecord) : Prop :=
  ∃ state, EvaluatedIn history record state ∧
    (lifecycleOf impl record.setId = some state ∨
      lifecycleOf impl record.setId = some .active)

theorem EvaluatedIn.append {before : List Event} {event : Event} {record : EvaluationRecord}
    {state : ConstraintSetState} (h : EvaluatedIn before record state) :
    EvaluatedIn (before ++ [event]) record state := by
  obtain ⟨earlier, hmem, hcommits⟩ := h
  exact ⟨earlier, List.mem_append_left _ hmem, hcommits⟩

/-- A step that leaves the state of the record's set keeps the record accounted for. -/
theorem Accounted.kept {before : List Event} {event : Event} {impl after : Impl}
    {record : EvaluationRecord} (h : Accounted before impl record)
    (hsame : findSet after.sets record.setId = findSet impl.sets record.setId) :
    Accounted (before ++ [event]) after record := by
  obtain ⟨state, hevaluated, hstands⟩ := h
  refine ⟨state, hevaluated.append, ?_⟩
  unfold lifecycleOf at hstands ⊢
  rwa [hsame]

/-! ## Steps -/

/-- No event of the table leads to the state that it starts from. -/
theorem ne_of_applyLifecycleEvent {before after : ConstraintSetState}
    {lifecycle : LifecycleEvent} (h : applyLifecycleEvent before lifecycle = .ok after) :
    after ≠ before := by
  intro hsame
  subst hsame
  cases after <;> cases lifecycle <;> cases h

/-- A set that was moved is found in its new state. -/
theorem findSet_moved {sets : List ConstraintSet} {setId : ConstraintSetId}
    {target : ConstraintSet} {state : ConstraintSetState}
    (hfound : findSet sets setId = some target) :
    findSet (replaceFirst (·.id == target.id) { target with state } sets) setId =
      some { target with state } := by
  obtain rfl := id_of_findSet hfound
  exact findSet_replaceFirst_self rfl hfound

section Steps

variable {event : Event} {before : List Event}

/-- Every request leaves the current records accounted for. -/
theorem accounted_of_effect {operation : Operation} {value : Value} {standing : Standing}
    (heffect : operation.Effect event.pre.impl value standing)
    (hstanding : event.post.impl.standing = standing)
    (hbefore : ∀ record ∈ event.pre.impl.evaluations, record.state = .current →
      Accounted before event.pre.impl record)
    {record : EvaluationRecord} (hmem : record ∈ event.post.impl.evaluations)
    (hcurrent : record.state = .current) :
    Accounted (before ++ [event]) event.post.impl record := by
  have hsets : event.post.impl.sets = standing.sets := congrArg Standing.sets hstanding
  have hevaluations : event.post.impl.evaluations = standing.evaluations :=
    congrArg Standing.evaluations hstanding
  rw [hevaluations] at hmem
  have haccounted := hbefore record (heffect.mem_of_current hmem hcurrent) hcurrent
  cases heffect with
  | published _ _ _ hpublished =>
      apply haccounted.kept
      rw [hsets]
      apply findSet_publishInto_of_ne hpublished
      have hother := (mem_of_mem_demote hmem hcurrent).2
      exact fun hsame => absurd hsame.symm (by simpa using hother)
  | @moved _ _ _ target state _ hfound =>
      by_cases hset : target.id = record.setId
      · by_cases hactive : state = .active
        · obtain ⟨evaluated, hevaluated, -⟩ := haccounted
          refine ⟨evaluated, hevaluated.append, .inr ?_⟩
          have hrecord := hset.symm.trans (id_of_findSet hfound)
          unfold lifecycleOf
          rw [hsets, hrecord, findSet_moved hfound, hactive]
          rfl
        · -- The records of the set were demoted.
          rw [if_pos hactive] at hmem
          have hother := (mem_of_mem_demote hmem hcurrent).2
          simp [hset] at hother
      · apply haccounted.kept
        rw [hsets]
        exact find?_replaceFirst_of_ne rfl hset
  | advanced | invalidated =>
      apply haccounted.kept
      rw [hsets]
      rfl

/-- Every step leaves the current records accounted for. -/
theorem Transition.accounted
    (h : Transition event.pre event.input.call event.input.action event.output event.post)
    (hset : ∀ ticket snapshot, event.pre.flights ticket = some (.evaluating snapshot) →
      snapshot.set.id = snapshot.setId)
    (hbefore : ∀ record ∈ event.pre.impl.evaluations, record.state = .current →
      Accounted before event.pre.impl record) :
    ∀ record ∈ event.post.impl.evaluations, record.state = .current →
      Accounted (before ++ [event]) event.post.impl record := by
  intro record hmem hcurrent
  cases h.standingStep with
  | kept hstanding =>
      have hevaluations : event.post.impl.evaluations = event.pre.impl.evaluations :=
        congrArg Standing.evaluations hstanding
      have hsets : event.post.impl.sets = event.pre.impl.sets :=
        congrArg Standing.sets hstanding
      apply (hbefore record (hevaluations ▸ hmem) hcurrent).kept
      rw [hsets]
  | operated operation value _ heffect =>
      exact accounted_of_effect heffect rfl hbefore hmem hcurrent
  | committed ticket snapshot next hcommits hunchanged htarget _ hstanding =>
      obtain ⟨populations, excess, hwrites⟩ := commitTarget_writes htarget
      have hsets : event.post.impl.sets = event.pre.impl.sets :=
        congrArg Standing.sets (hstanding.trans hwrites.standing)
      have hevaluations : event.post.impl.evaluations = next.evaluations :=
        congrArg Standing.evaluations hstanding
      rw [hevaluations] at hmem
      rcases hwrites.current_cases hmem hcurrent with hnew | ⟨hold, -⟩
      · refine ⟨snapshot.set.state, ?_, .inl ?_⟩
        · exact ⟨_, List.mem_concat_self, ticket, snapshot, hcommits, hnew, rfl⟩
        · obtain ⟨⟨live, hlive, -, -, hstate⟩, -⟩ := hunchanged
          have hrecord := (setId_of_mem_committedRecords hnew).trans
            (hset ticket snapshot hcommits.flight)
          unfold lifecycleOf
          rw [hrecord, hsets, hlive, Option.map_some, hstate]
      · apply (hbefore record hold hcurrent).kept
        rw [hsets]

end Steps

/-- In every run the current records are accounted for. -/
theorem Execution.accounted {events : List Event} {last : SystemState}
    (h : Execution events last) : ∀ record ∈ last.impl.evaluations, record.state = .current →
      Accounted events last.impl record := by
  let inv : List Event → SystemState → Prop := fun history state =>
    ∀ record ∈ state.impl.evaluations, record.state = .current →
      Accounted history state.impl record
  have hinv : inv events last := by
    refine h.history_invariant ?_ ?_
    · rintro start ⟨hopened⟩ record hmem hcurrent
      obtain ⟨restored, hfrom⟩ := openCoordinator_openedFrom hopened
      have hstate := hfrom.evaluations record hmem
      rw [hcurrent] at hstate
      cases hstate
    · intro before event after hevents _ htransition hbefore
      subst hevents
      apply htransition.accounted _ hbefore
      intro ticket snapshot hflight
      exact (h.split.1.snapshot_set hflight).1
  exact hinv

/-! ## Lifecycle events -/

/-- The event accepted the lifecycle event for the set, and not as a replay. -/
structure AcceptsLifecycle (event : Event) (setId : ConstraintSetId)
    (lifecycle : LifecycleEvent) : Prop where
  request : ∃ context, event.input.action = .operate (.applyLifecycle context setId lifecycle)
  fresh : Replays event = false
  accepted : ∃ value, event.output = .operated (.ok value)

/-- What an accepted lifecycle event does. -/
theorem AcceptsLifecycle.effect {event : Event} {setId : ConstraintSetId}
    {lifecycle : LifecycleEvent} (h : AcceptsLifecycle event setId lifecycle)
    (hsound : Sound event.pre) (htaken : event.Taken step) :
    ∃ target state, findSet event.pre.impl.sets setId = some target ∧
      applyLifecycleEvent target.state lifecycle = .ok state ∧
      lifecycleOf event.post.impl setId = some state ∧
      event.post.impl.evaluations =
        if state ≠ .active then demote (·.setId == target.id) event.pre.impl.evaluations
        else event.pre.impl.evaluations := by
  obtain ⟨⟨context, haction⟩, hfresh, value, haccepted⟩ := h
  have hasks : asks event = some (context.attempt, .lifecycle setId lifecycle) := by
    simp [asks, haction, Operation.asks]
  have happlied := (carriesOut_of_operate hsound htaken haction
    ⟨hasks, hfresh, .inl ⟨value, haccepted⟩⟩).1
  obtain ⟨operation, result, hoperation, heffect⟩ := happlied
  rw [haction] at hoperation
  cases hoperation
  generalize hstanding : event.post.impl.standing = standing at heffect
  have hsets := congrArg Standing.sets hstanding
  have hevaluations := congrArg Standing.evaluations hstanding
  cases heffect with
  | advanced hrequirements => cases hrequirements
  | @moved _ _ _ target state _ hfound htable =>
      refine ⟨target, state, hfound, htable, ?_, hevaluations⟩
      change event.post.impl.sets = _ at hsets
      unfold lifecycleOf
      rw [hsets, findSet_moved hfound]
      rfl

/-- After an accepted lifecycle event no record of the set is current that was evaluated in
another state exactly when the event leads elsewhere than to active, or no record of the set
was current. -/
theorem evaluated_as_stands_iff {before after : List Event} {event : Event}
    {last : SystemState} {setId : ConstraintSetId} {lifecycle : LifecycleEvent}
    (hexecution : Execution (before ++ event :: after) last)
    (haccepts : AcceptsLifecycle event setId lifecycle) :
    EvaluatedAsStands before event.post.impl setId ↔
      ∀ target, findSet event.pre.impl.sets setId = some target →
        applyLifecycleEvent target.state lifecycle = .ok .active →
        ∀ record ∈ event.pre.impl.evaluations, record.setId = setId →
          record.state ≠ .current := by
  have hbefore := hexecution.split.1
  have htaken := hexecution.taken
  obtain ⟨target, state, hfound, htable, hpost, hevaluations⟩ :=
    haccepts.effect hbefore.sound htaken
  constructor
  · intro hstands other hother hactive record hmem hset hcurrent
    rw [hfound] at hother
    cases hother
    rw [htable] at hactive
    cases hactive
    -- The record was evaluated before the set became active.
    obtain ⟨evaluated, hevaluated, hcases⟩ := hbefore.accounted record hmem hcurrent
    have hpre : lifecycleOf event.pre.impl record.setId = some target.state := by
      unfold lifecycleOf
      rw [hset, hfound]
      rfl
    have hnot := ne_of_applyLifecycleEvent htable
    have hstays : record ∈ event.post.impl.evaluations := by
      rw [hevaluations, if_neg (by simp)]
      exact hmem
    have hnow := hstands record hstays hset hcurrent evaluated hevaluated
    rw [hpost] at hnow
    rw [hpre] at hcases
    rcases hcases with hsame | hactive
    · exact hnot (Option.some.inj (hnow.trans hsame.symm))
    · exact hnot (Option.some.inj hactive).symm
  · intro hnone record hmem hset hcurrent
    exfalso
    rw [hevaluations] at hmem
    by_cases hactive : state = .active
    · rw [if_neg (by simpa using hactive)] at hmem
      exact hnone target hfound (hactive ▸ htable) record hmem hset hcurrent
    · rw [if_pos hactive] at hmem
      have hother := (mem_of_mem_demote hmem hcurrent).2
      have hid := id_of_findSet hfound
      simp [hset, hid] at hother

/-- Set 5 is evaluated while it is declared, and then activated. -/
def sampleDeclared : List Input :=
  [sampleInput (.operate (.publishConstraintSet (sampleContext 10) (sampleSet 5))),
    sampleBegin 20 5 [31], sampleFinish 0,
    sampleInput (.operate (.applyLifecycle (sampleContext 21) ⟨5⟩ .activate))]

/-- The last event activates the set and leaves a record current that was evaluated while the
set was declared. -/
private def activatesLast : List Event → Bool
  | [_, _, _, finish, activate] =>
      match finish.pre.flights 0, activate.output with
      | some (.evaluating snapshot), .operated (.ok _) =>
          decide (finish.input.action = .evaluateFinish 0 ∧ ReportsCommit finish ∧
            snapshot.set.state = .declared ∧
            activate.input.action =
              .operate (.applyLifecycle (sampleContext 21) ⟨5⟩ .activate) ∧
            Replays activate = false ∧ lifecycleOf activate.post.impl ⟨5⟩ = some .active) &&
          (committedRecords finish.pre.impl snapshot finish.input.call).any fun record =>
            decide (record ∈ activate.post.impl.evaluations ∧ record.setId = ⟨5⟩ ∧
              record.state = .current)
      | _, _ => false
  | _ => false

private theorem sampleDeclared_activates :
    ((sampleRun sampleDeclared).any fun run => activatesLast run.1) = true := by
  decide +kernel

private theorem sampleDeclared_event :
    ∃ before event last, Execution (before ++ event :: []) last ∧
      AcceptsLifecycle event ⟨5⟩ .activate ∧
      lifecycleOf event.post.impl ⟨5⟩ = some .active ∧
      ∃ record ∈ event.post.impl.evaluations, record.setId = ⟨5⟩ ∧
        record.state = .current ∧ EvaluatedIn before record .declared := by
  obtain ⟨events, last, -, hexecution, hcheck⟩ :=
    sampleRun_execution _ _ sampleDeclared_activates
  unfold activatesLast at hcheck
  split at hcheck
  · next a b c finish activate =>
      split at hcheck
      · next snapshot value hflight houtput =>
          rw [Bool.and_eq_true, List.any_eq_true] at hcheck
          obtain ⟨hdecided, record, hcommitted, hrecord⟩ := hcheck
          obtain ⟨hfinish, hreports, hdeclared, hactivate, hfresh, hactive⟩ :=
            of_decide_eq_true hdecided
          obtain ⟨hmem, hset, hcurrent⟩ := of_decide_eq_true hrecord
          have hcommits : Commits finish 0 snapshot := ⟨⟨hfinish, hflight⟩, hreports⟩
          refine ⟨[a, b, c, finish], activate, last, hexecution,
            ⟨⟨_, hactivate⟩, hfresh, _, houtput⟩, hactive, record, hmem, hset, hcurrent, ?_⟩
          exact ⟨finish, by simp, 0, snapshot, hcommits, hcommitted, hdeclared⟩
      · cases hcheck
  · cases hcheck

/-- A record that was evaluated while its set was declared stays current when the set is
activated. -/
theorem declared_result_stays_current :
    ∃ before event last, Execution (before ++ event :: []) last ∧
      AcceptsLifecycle event ⟨5⟩ .activate ∧
      ¬ EvaluatedAsStands before event.post.impl ⟨5⟩ := by
  obtain ⟨before, event, last, hexecution, haccepts, hactive, record, hmem, hset, hcurrent,
    hevaluated⟩ := sampleDeclared_event
  refine ⟨before, event, last, hexecution, haccepts, ?_⟩
  intro hstands
  have hsame := hstands record hmem hset hcurrent .declared hevaluated
  rw [hactive] at hsame
  cases hsame

theorem evaluated_as_stands_iff_sample :
    ∃ before event last, Execution (before ++ event :: []) last ∧
      (EvaluatedAsStands before event.post.impl ⟨5⟩ ↔
        ∀ target, findSet event.pre.impl.sets ⟨5⟩ = some target →
          applyLifecycleEvent target.state .activate = .ok .active →
          ∀ record ∈ event.pre.impl.evaluations, record.setId = ⟨5⟩ →
            record.state ≠ .current) := by
  obtain ⟨before, event, last, hexecution, haccepts, -⟩ := sampleDeclared_event
  exact ⟨before, event, last, hexecution, evaluated_as_stands_iff hexecution haccepts⟩

end ConstraintRouting.Fabric
