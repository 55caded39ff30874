import ConstraintRouting.Fabric.Bounds

/-!
# Batches that are rejected as a whole

A population that is rejected as a whole gives a batch without records, and the last section
commits it like any other: the records of the set are superseded by nothing, and the
population is retained.
-/

namespace ConstraintRouting.Fabric

open Verified.StepMachine
open Verified.SortedLists (sortBy)

/-! ## What eviction removes -/

/-- The record stands for nothing any more. -/
def EvaluationRecord.Retired (record : EvaluationRecord) : Prop :=
  record.state = .superseded ∨ record.state = .staleAtCommit

section Histories

variable {evaluations : List EvaluationRecord}

/-- Eviction stops within the bound, or at records that are all current. -/
theorem trimHistory_settles {bound excess : Nat}
    (hexcess : evaluations.length ≤ bound + excess) :
    (trimHistory excess evaluations).length ≤ bound ∨
      ∀ record ∈ trimHistory excess evaluations, record.state = .current := by
  induction excess generalizing evaluations with
  | zero => exact .inl hexcess
  | succ excess ih =>
      rw [trimHistory]
      split
      · next hvictim => exact .inr (current_of_historyVictim_none hvictim)
      · next position hvictim =>
          obtain ⟨victim, hvictimAt, -⟩ := historyVictim_not_current hvictim
          have hposition := (List.getElem?_eq_some_iff.mp hvictimAt).1
          have hlength := List.length_eraseIdx_of_lt hposition
          apply ih
          omega

/-- Taking out an element that a filter drops leaves what the filter keeps. -/
theorem filter_eraseIdx {α : Type} {keep : α → Bool} {dropped : α} :
    ∀ {values : List α} {position : Nat}, values[position]? = some dropped →
      keep dropped = false → (values.eraseIdx position).filter keep = values.filter keep
  | [], _, hfound, _ => by simp at hfound
  | first :: rest, 0, hfound, hdropped => by
      have hsame : first = dropped := by simpa using hfound
      rw [List.eraseIdx_cons_zero, List.filter_cons, hsame, hdropped]
      rfl
  | first :: rest, position + 1, hfound, hdropped => by
      have hrest : rest[position]? = some dropped := by simpa using hfound
      rw [List.eraseIdx_cons_succ, List.filter_cons, List.filter_cons,
        filter_eraseIdx hrest hdropped]

/-- Eviction leaves the current records. -/
theorem currentRecords_trimHistory {excess : Nat} :
    Impl.currentRecords (trimHistory excess evaluations) = Impl.currentRecords evaluations := by
  induction excess generalizing evaluations with
  | zero => rfl
  | succ excess ih =>
      rw [trimHistory]
      split
      · rfl
      · next position hvictim =>
          obtain ⟨victim, hvictimAt, hstate⟩ := historyVictim_not_current hvictim
          rw [ih]
          exact filter_eraseIdx hvictimAt (decide_eq_false hstate)

/-- A demotion retires no record. -/
theorem mem_of_retired_demote {selected : EvaluationRecord → Bool} {record : EvaluationRecord}
    (hmem : record ∈ demote selected evaluations) (hretired : record.Retired) :
    record ∈ evaluations := by
  obtain ⟨original, horiginal, hrecord⟩ := List.mem_map.mp hmem
  split at hrecord
  · subst hrecord
    rcases hretired with hstate | hstate <;> cases hstate
  · exact hrecord ▸ horiginal

end Histories

/-! ## Retired records are within the bound -/

/-- Retired records are stored only where the history is within its bound. -/
def Evicted (impl : Impl) : Prop :=
  impl.evaluations.length ≤ impl.config.limits.maxEvaluationsRetained.toNat ∨
    ∀ record ∈ impl.evaluations, ¬ record.Retired

theorem Evicted.demoted {impl : Impl} {selected : EvaluationRecord → Bool} (h : Evicted impl) :
    (demote selected impl.evaluations).length ≤
        impl.config.limits.maxEvaluationsRetained.toNat ∨
      ∀ record ∈ demote selected impl.evaluations, ¬ record.Retired := by
  rcases h with hwithin | hnone
  · left
    rwa [length_demote]
  · right
    intro record hmem hretired
    exact hnone record (mem_of_retired_demote hmem hretired) hretired

theorem Operation.Effect.evicted {impl : Impl} {operation : Operation} {value : Value}
    {standing : Standing} (h : operation.Effect impl value standing) (hbefore : Evicted impl) :
    standing.evaluations.length ≤ impl.config.limits.maxEvaluationsRetained.toNat ∨
      ∀ record ∈ standing.evaluations, ¬ record.Retired := by
  cases h with
  | published | advanced | invalidated => exact hbefore.demoted
  | moved =>
      dsimp only
      split
      · exact hbefore.demoted
      · exact hbefore

/-- Every step evicts what it retires beyond the bound. -/
theorem Evicted.stepped {event : Event} (htaken : event.Taken step) (hsound : Sound event.pre)
    (h : Evicted event.pre.impl) : Evicted event.post.impl := by
  have hconfig := (section_of_taken htaken).config
  have htransition := step_transition hsound.limits htaken
  unfold Evicted
  rw [hconfig]
  cases htransition.standingStep with
  | kept hstanding =>
      have hkept : event.post.impl.evaluations = event.pre.impl.evaluations :=
        congrArg Standing.evaluations hstanding
      rw [hkept]
      exact h
  | operated operation value _ heffect => exact heffect.evicted h
  | committed ticket snapshot next _ _ htarget _ hstanding =>
      have hevaluations : event.post.impl.evaluations = next.evaluations :=
        congrArg Standing.evaluations hstanding
      rw [hevaluations, (commitTarget_standing htarget).2.2]
      refine (trimHistory_settles (by omega)).imp_right ?_
      intro hcurrent record hmem hretired
      have hstate := hcurrent record hmem
      rcases hretired with hother | hother <;> rw [hstate] at hother <;> cases hother

theorem Reachable.evicted {state : SystemState} (h : Reachable state) : Evicted state.impl := by
  obtain ⟨events, start, hopened, hrun⟩ := h
  let inv : SystemState → Prop := fun state => Sound state ∧ Evicted state.impl
  have hinv : inv state := by
    apply hrun.invariant ⟨hopened.sound, .inl hopened.within.2.2⟩
    intro event _ htaken hbefore
    have htransition := step_transition hbefore.1.limits htaken
    exact ⟨htransition.sound hbefore.1, hbefore.2.stepped htaken hbefore.1⟩
  exact hinv.2

/-! ## Sections of an evaluation -/

/-- The section is one of an evaluation of the candidates on the set. -/
inductive Evaluates (event : Event) (setId : ConstraintSetId)
    (candidates : List CandidatePath) : Prop
  | begins (context : AuthorityContext) (expectedGeneration : ConstraintSetGeneration) :
      event.input.action = .evaluateBegin context setId candidates expectedGeneration →
      Evaluates event setId candidates
  | revalidates (ticket : Nat) (context : AuthorityContext) :
      event.input.action = .revalidateBegin ticket →
      event.pre.flights ticket = some (.populationRead context setId candidates) →
      Evaluates event setId candidates
  | finishes (ticket : Nat) (snapshot : EvaluationSnapshot) :
      Finishes event ticket snapshot → snapshot.setId = setId →
      snapshot.candidates = candidates → Evaluates event setId candidates

/-- The section leaves the records of the set and their states, the index of current
results, and the population that is retained for the set. -/
structure KeepsResults (event : Event) (setId : ConstraintSetId) : Prop where
  records : event.post.impl.evaluations.filter (·.setId == setId) =
    event.pre.impl.evaluations.filter (·.setId == setId)
  current : event.post.impl.current = event.pre.impl.current
  population : findPopulation event.post.impl.populations setId =
    findPopulation event.pre.impl.populations setId

/-- A commit without records has nothing to change: the records of the set are retired, and
the population of the batch is the one that is retained. -/
structure Settled (impl : Impl) (setId : ConstraintSetId) (candidates : List CandidatePath) :
    Prop where
  records : ∀ record ∈ impl.evaluations, record.setId = setId → record.Retired
  population : findPopulation impl.populations setId =
    some ⟨setId, sortBy (compareOn (·.path)) candidates⟩

/-! ## Commits without records -/

section Commits

variable {impl : Impl} {snapshot : EvaluationSnapshot} {call : Call} {next : PersistentState}

theorem committedRecords_rejected
    (h : (batchRejection impl.config.limits snapshot.candidates).isSome = true) :
    committedRecords impl snapshot call = [] := by
  have hnone : batchRecords (snapshot.evaluationContext impl.config.limits (call.clock 0))
      snapshot.candidates = [] := if_pos h
  rw [committedRecords, hnone, List.map_nil]

/-- A commit without records changes the records that are of the set and not retired. -/
theorem commitEvaluations_nil_of_retired {evaluations : List EvaluationRecord}
    {setId : ConstraintSetId}
    (h : ∀ record ∈ evaluations, record.setId = setId → record.Retired) :
    commitEvaluations evaluations setId [] = evaluations := by
  unfold commitEvaluations
  simp only [List.map_nil, List.not_mem_nil, not_false_eq_true, decide_true,
    List.filter_true, List.append_nil]
  rw [List.map_congr_left (g := id), List.map_id]
  intro record hmem
  split
  · next hsupersedes =>
      rw [Bool.and_eq_true, beq_iff_eq, decide_eq_true_eq] at hsupersedes
      have hstate := (h record hmem hsupersedes.1).resolve_right hsupersedes.2
      exact congrArg (fun state => { record with state }) hstate.symm
  · rfl

/-- The records of the set that a commit without records leaves are retired. -/
theorem retired_of_mem_commitEvaluations {evaluations : List EvaluationRecord}
    {record : EvaluationRecord} {setId : ConstraintSetId}
    (hmem : record ∈ commitEvaluations evaluations setId []) (hset : record.setId = setId) :
    record.Retired := by
  unfold commitEvaluations at hmem
  rw [List.append_nil] at hmem
  obtain ⟨original, -, rfl⟩ := List.mem_map.mp hmem
  by_cases hsupersedes : (original.setId == setId && original.state ≠ .staleAtCommit) = true
  · rw [if_pos hsupersedes]
    exact .inl rfl
  · rw [if_neg hsupersedes] at hset ⊢
    rw [Bool.and_eq_true, beq_iff_eq, decide_eq_true_eq] at hsupersedes
    right
    by_contra hstate
    exact hsupersedes ⟨hset, hstate⟩

/-- A commit without records leaves the results of a set that is settled. -/
theorem kept_of_settled (hevicted : Evicted impl)
    (hsettled : Settled impl snapshot.setId snapshot.candidates)
    (hrecords : committedRecords impl snapshot call = [])
    (htarget : commitTarget impl snapshot call = some next) :
    next.evaluations.filter (·.setId == snapshot.setId) =
        impl.evaluations.filter (·.setId == snapshot.setId) ∧
      Impl.currentRecords next.evaluations = Impl.currentRecords impl.evaluations := by
  have hevaluations := (commitTarget_standing htarget).2.2
  rw [hrecords, commitEvaluations_nil_of_retired hsettled.records] at hevaluations
  rw [hevaluations]
  refine ⟨?_, currentRecords_trimHistory⟩
  rcases hevicted with hwithin | hnone
  · have hexcess : impl.evaluations.length -
        impl.config.limits.maxEvaluationsRetained.toNat = 0 := by omega
    rw [hexcess]
    rfl
  · -- Beyond the bound nothing is retired, so the set has no record at all.
    have hempty : impl.evaluations.filter (·.setId == snapshot.setId) = [] := by
      rw [List.filter_eq_nil_iff]
      intro record hmem hset
      exact hnone record hmem (hsettled.records record hmem (beq_iff_eq.mp hset))
    rw [hempty]
    apply List.eq_nil_of_sublist_nil
    rw [← hempty]
    exact trimHistory_sublist.filter _

/-- What a commit without records leaves as it was is settled. -/
theorem settled_of_kept (hrecords : committedRecords impl snapshot call = [])
    (htarget : commitTarget impl snapshot call = some next)
    (hkept : next.evaluations.filter (·.setId == snapshot.setId) =
      impl.evaluations.filter (·.setId == snapshot.setId))
    (hpopulation : findPopulation next.populations snapshot.setId =
      findPopulation impl.populations snapshot.setId) :
    Settled impl snapshot.setId snapshot.candidates := by
  obtain ⟨hpopulations, -, hevaluations⟩ := commitTarget_standing htarget
  rw [hrecords] at hevaluations
  refine ⟨?_, ?_⟩
  · intro record hmem hset
    have hstays : record ∈ next.evaluations.filter (·.setId == snapshot.setId) := by
      rw [hkept, List.mem_filter]
      exact ⟨hmem, beq_iff_eq.mpr hset⟩
    have hafter := List.mem_of_mem_filter hstays
    rw [hevaluations] at hafter
    exact retired_of_mem_commitEvaluations (trimHistory_sublist.mem hafter) hset
  · rw [← hpopulation]
    exact findPopulation_commitPopulations hpopulations

end Commits

/-- A section that keeps the state keeps the results. -/
theorem Impl.Kept.keepsResults {event : Event} (h : event.pre.impl.Kept event.post.impl)
    (setId : ConstraintSetId) : KeepsResults event setId :=
  ⟨by rw [h.evaluations], h.current, by rw [h.populations]⟩

/-- The sections before the last one keep the results. -/
theorem Transition.keepsResults {event : Event}
    (h : Transition event.pre event.input.call event.input.action event.output event.post)
    (hfinish : ∀ ticket, event.input.action ≠ .evaluateFinish ticket)
    (hoperate : ∀ operation, event.input.action ≠ .operate operation)
    (setId : ConstraintSetId) : KeepsResults event setId := by
  obtain ⟨pre, ⟨action, call⟩, output, post⟩ := event
  dsimp only at h hfinish hoperate
  cases h with
  | operated operation => exact absurd rfl (hoperate operation)
  | ended _ _ hkept _ => exact hkept.keepsResults setId
  | read => exact ⟨rfl, rfl, rfl⟩
  | started _ _ _ hcaptured _ =>
      obtain ⟨authority, rfl⟩ := hcaptured.after
      exact ⟨rfl, rfl, rfl⟩
  | @moved ticket | @unwritten ticket | @committed ticket => exact absurd rfl (hfinish ticket)

/-- A last section without records keeps the results exactly when it does not commit, or
finds its set settled. -/
theorem Transition.keepsResults_iff {event : Event} {ticket : Nat}
    {snapshot : EvaluationSnapshot}
    (h : Transition event.pre event.input.call event.input.action event.output event.post)
    (hfinish : Finishes event ticket snapshot) (hsound : Sound event.pre)
    (hevicted : Evicted event.pre.impl)
    (hrecords : committedRecords event.pre.impl snapshot event.input.call = []) :
    KeepsResults event snapshot.setId ↔
      (CommitGate event.pre.impl snapshot event.input.call →
        Settled event.pre.impl snapshot.setId snapshot.candidates) := by
  rw [← h.reportsCommit_iff hfinish]
  cases h.finishOutcome hfinish with
  | moved outcome _ houtput hcommitted _ hpost =>
      have himpl : event.post.impl = event.pre.impl := by
        rw [hpost]
        rfl
      constructor
      · rintro - ⟨other, hother, htrue⟩
        rw [houtput] at hother
        cases hother
        rw [hcommitted] at htrue
        cases htrue
      · intro _
        exact ⟨by rw [himpl], by rw [himpl], by rw [himpl]⟩
  | unwritten next error _ _ houtput hpost =>
      have hkept := event.pre.impl.persist_kept next event.input.call
      constructor
      · rintro - ⟨other, hother, -⟩
        rw [houtput] at hother
        cases hother
      · intro _
        rw [← hpost] at hkept
        exact hkept.keepsResults _
  | committed next outcome _ htarget _ houtput hcommitted _ _ hpost =>
      have hevaluations : event.post.impl.evaluations = next.evaluations := by
        rw [hpost]
        rfl
      have hpopulations : event.post.impl.populations = next.populations := by
        rw [hpost]
        rfl
      constructor
      · rintro ⟨hkept, -, hpopulation⟩ -
        rw [hevaluations] at hkept
        rw [hpopulations] at hpopulation
        exact settled_of_kept hrecords htarget hkept hpopulation
      · intro hsettled
        have hstands := hsettled ⟨outcome, houtput, hcommitted⟩
        obtain ⟨hkept, hcurrent⟩ := kept_of_settled hevicted hstands hrecords htarget
        refine ⟨hevaluations ▸ hkept, ?_, ?_⟩
        · have hderived : event.post.impl.Derived := hpost ▸ Impl.applyState_derived _ _
          rw [hderived.current, hsound.derived.current]
          unfold Standing.current
          have hsame : Impl.currentRecords event.post.impl.evaluations =
              Impl.currentRecords event.pre.impl.evaluations := hevaluations ▸ hcurrent
          exact congrArg (List.foldl _ ∅) hsame
        · rw [hpopulations, hstands.population]
          exact findPopulation_commitPopulations (commitTarget_standing htarget).1

/-- A section of an evaluation whose population is rejected as a whole keeps the results of
its set exactly when it does not commit, or has nothing to change. -/
theorem rejected_batch_harmless_iff {event : Event} {setId : ConstraintSetId}
    {candidates : List CandidatePath} (hreachable : Reachable event.pre)
    (htaken : event.Taken step) (hevaluates : Evaluates event setId candidates)
    (hrejected :
      (batchRejection event.pre.impl.config.limits candidates).isSome = true) :
    KeepsResults event setId ↔
      ∀ ticket snapshot, Finishes event ticket snapshot →
        CommitGate event.pre.impl snapshot event.input.call →
        Settled event.pre.impl setId candidates := by
  have hevicted := hreachable.evicted
  obtain ⟨events, hexecution⟩ := hreachable
  have hsound := hexecution.sound
  have htransition := step_transition hsound.limits htaken
  have hbegins : (∀ ticket, event.input.action ≠ .evaluateFinish ticket) →
      (∀ operation, event.input.action ≠ .operate operation) →
      (KeepsResults event setId ↔ ∀ ticket snapshot, Finishes event ticket snapshot →
        CommitGate event.pre.impl snapshot event.input.call →
        Settled event.pre.impl setId candidates) := by
    intro hfinish hoperate
    have hkept := htransition.keepsResults hfinish hoperate setId
    exact ⟨fun _ ticket _ hfinishes => absurd hfinishes.action (hfinish ticket), fun _ => hkept⟩
  cases hevaluates with
  | begins context expectedGeneration haction =>
      exact hbegins (by simp [haction]) (by simp [haction])
  | revalidates ticket context haction _ =>
      exact hbegins (by simp [haction]) (by simp [haction])
  | finishes ticket snapshot hfinishes hset hcandidates =>
      subst hset hcandidates
      rw [htransition.keepsResults_iff hfinishes hsound hevicted
        (committedRecords_rejected hrejected)]
      constructor
      · intro hsettled other found hother hgate
        have haction := hother.action
        rw [hfinishes.action] at haction
        cases haction
        have hflight := hother.flight
        rw [hfinishes.flight] at hflight
        cases hflight
        exact hsettled hgate
      · intro hsettled hgate
        exact hsettled ticket snapshot hfinishes hgate

/-- Two paths of one identity over different links. -/
def sampleClash : List CandidatePath :=
  [samplePath 31, { samplePath 32 with path := ⟨31⟩ }]

/-- An evaluation of path 31 that commits, and one of a population that is rejected. -/
def sampleErasure : List Input :=
  samplePublish 5 10 ++ [sampleBegin 20 5 [31], sampleFinish 0,
    sampleInput (.evaluateBegin (sampleContext 21) ⟨5⟩ sampleClash {}), sampleFinish 1]

/-- The last event commits the rejected population over a current record. -/
private def erasesLast : List Event → Bool
  | [_, _, _, _, _, _, finish] =>
      match finish.pre.flights 1 with
      | some (.evaluating snapshot) =>
          decide (finish.input.action = .evaluateFinish 1 ∧ snapshot.setId = ⟨5⟩ ∧
            snapshot.candidates = sampleClash ∧
            (batchRejection finish.pre.impl.config.limits sampleClash).isSome = true ∧
            (finish.pre.impl.evaluations.filter (·.setId == ⟨5⟩)).map (·.state) = [.current] ∧
            (finish.post.impl.evaluations.filter (·.setId == ⟨5⟩)).map (·.state) =
              [.superseded])
      | _ => false
  | _ => false

private theorem sampleErasure_erases :
    ((sampleRun sampleErasure).any fun run => erasesLast run.1) = true := by
  decide +kernel

private theorem sampleErasure_event :
    ∃ event, Reachable event.pre ∧ event.Taken step ∧ Evaluates event ⟨5⟩ sampleClash ∧
      (batchRejection event.pre.impl.config.limits sampleClash).isSome = true ∧
      (event.pre.impl.evaluations.filter (·.setId == ⟨5⟩)).map (·.state) = [.current] ∧
      (event.post.impl.evaluations.filter (·.setId == ⟨5⟩)).map (·.state) = [.superseded] := by
  obtain ⟨events, last, -, hexecution, hcheck⟩ := sampleRun_execution _ _ sampleErasure_erases
  unfold erasesLast at hcheck
  split at hcheck
  · next a b c d e f finish =>
      split at hcheck
      · next snapshot hflight =>
          obtain ⟨haction, hset, hcandidates, hrejected, hbefore, hafter⟩ :=
            of_decide_eq_true hcheck
          have hcut : Execution ([a, b, c, d, e, f] ++ finish :: []) last := hexecution
          have htaken := hexecution.taken_of_getLast? rfl
          exact ⟨finish, ⟨_, hcut.split.1⟩, htaken,
            .finishes 1 snapshot ⟨haction, hflight⟩ hset hcandidates, hrejected, hbefore, hafter⟩
      · cases hcheck
  · cases hcheck

/-- A population that is rejected supersedes the current record of its set. -/
theorem rejected_batch_supersedes :
    ∃ event, Reachable event.pre ∧ event.Taken step ∧ Evaluates event ⟨5⟩ sampleClash ∧
      (batchRejection event.pre.impl.config.limits sampleClash).isSome = true ∧
      ¬ KeepsResults event ⟨5⟩ := by
  obtain ⟨event, hreachable, htaken, hevaluates, hrejected, hbefore, hafter⟩ :=
    sampleErasure_event
  refine ⟨event, hreachable, htaken, hevaluates, hrejected, ?_⟩
  intro hkeeps
  rw [hkeeps.records, hbefore] at hafter
  cases hafter

theorem rejected_batch_harmless_iff_sample :
    ∃ event, Reachable event.pre ∧
      (KeepsResults event ⟨5⟩ ↔
        ∀ ticket snapshot, Finishes event ticket snapshot →
          CommitGate event.pre.impl snapshot event.input.call →
          Settled event.pre.impl ⟨5⟩ sampleClash) := by
  obtain ⟨event, hreachable, htaken, hevaluates, hrejected, -, -⟩ := sampleErasure_event
  exact ⟨event, hreachable,
    rejected_batch_harmless_iff hreachable htaken hevaluates hrejected⟩

end ConstraintRouting.Fabric
