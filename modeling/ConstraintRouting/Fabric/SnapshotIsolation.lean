import ConstraintRouting.Fabric.ExecutionSpec

/-!
# Isolation of an evaluation in flight

Between its two critical sections an evaluation holds a snapshot.  The last section
compares the set, the evidence and the family watermarks with it, and nothing else:
a key watermark that advanced in between and a caller that lost its authority in
between do not stop a commit.
-/

namespace ConstraintRouting.Fabric

open Verified.StepMachine

/-- The event is the last section of the evaluation of the snapshot. -/
structure Finishes (event : Event) (ticket : Nat) (snapshot : EvaluationSnapshot) : Prop where
  action : event.input.action = .evaluateFinish ticket
  flight : event.pre.flights ticket = some (.evaluating snapshot)

/-- The event reported a committed batch. -/
def ReportsCommit (event : Event) : Prop :=
  ∃ outcome, event.output = .evaluated (.ok outcome) ∧ outcome.committed = true

instance : DecidablePred ReportsCommit := fun event =>
  match houtput : event.output with
  | .evaluated (.ok outcome) =>
      if hcommitted : outcome.committed = true then .isTrue ⟨outcome, houtput, hcommitted⟩
      else .isFalse fun ⟨other, hother, htrue⟩ => by
        rw [houtput] at hother
        cases hother
        exact hcommitted htrue
  | .evaluated (.error error) => .isFalse fun ⟨other, hother, _⟩ => by
      rw [houtput] at hother
      cases hother
  | .operated _ | .populationRead _ | .evaluating _ => .isFalse fun ⟨other, hother, _⟩ => by
      rw [houtput] at hother
      cases hother

theorem Transition.finishes {event : Event} {ticket : Nat}
    (h : Transition event.pre event.input.call event.input.action event.output event.post)
    (haction : event.input.action = .evaluateFinish ticket) :
    ∃ snapshot, Finishes event ticket snapshot := by
  obtain ⟨pre, ⟨action, call⟩, output, post⟩ := event
  dsimp only at h haction
  subst haction
  cases h with
  | ended hnot | started hnot => exact absurd rfl (hnot ticket)
  | moved hflight | unwritten hflight | committed hflight => exact ⟨_, rfl, hflight⟩

/-- What the last section of an evaluation can do. -/
inductive FinishOutcome (event : Event) (ticket : Nat) (snapshot : EvaluationSnapshot) : Prop
  | moved (outcome : CommitOutcome) :
      ¬ DependenciesUnchanged event.pre.impl snapshot →
      event.output = .evaluated (.ok outcome) → outcome.committed = false →
      (∀ record ∈ outcome.batch.records, record.state = .staleAtCommit) →
      event.post = event.pre.land ticket → FinishOutcome event ticket snapshot
  | unwritten (next : PersistentState) (error : Error) :
      commitTarget event.pre.impl snapshot event.input.call = some next →
      (event.pre.impl.persist next event.input.call).2 = .error error →
      event.output = .evaluated (.error error) →
      event.post.impl = (event.pre.impl.persist next event.input.call).1 →
      FinishOutcome event ticket snapshot
  | committed (next : PersistentState) (outcome : CommitOutcome) :
      DependenciesUnchanged event.pre.impl snapshot →
      commitTarget event.pre.impl snapshot event.input.call = some next →
      (event.pre.impl.persist next event.input.call).2 = .ok () →
      event.output = .evaluated (.ok outcome) → outcome.committed = true →
      outcome.batch.records = committedRecords event.pre.impl snapshot event.input.call →
      outcome.batch.generation = snapshot.generation →
      event.post.impl = (event.pre.impl.persist next event.input.call).1.applyState next →
      FinishOutcome event ticket snapshot

theorem Transition.finishOutcome {event : Event} {ticket : Nat}
    {snapshot : EvaluationSnapshot}
    (h : Transition event.pre event.input.call event.input.action event.output event.post)
    (hfinish : Finishes event ticket snapshot) : FinishOutcome event ticket snapshot := by
  obtain ⟨haction, hflight⟩ := hfinish
  obtain ⟨pre, ⟨action, call⟩, output, post⟩ := event
  dsimp only at h haction hflight
  subst haction
  cases h with
  | ended hfinish => exact absurd rfl (hfinish ticket)
  | started hfinish => exact absurd rfl (hfinish ticket)
  | moved hfound hmoved hcommitted hrecords =>
      rw [hflight] at hfound
      cases hfound
      exact .moved _ hmoved rfl hcommitted hrecords rfl
  | unwritten hfound _ htarget herror =>
      rw [hflight] at hfound
      cases hfound
      exact .unwritten _ _ htarget herror rfl rfl
  | committed hfound hunchanged htarget hok hcommitted hrecords hgeneration =>
      rw [hflight] at hfound
      cases hfound
      exact .committed _ _ hunchanged htarget hok rfl hcommitted hrecords hgeneration rfl

/-- A last section returns the result of its evaluation. -/
theorem Transition.finish_output {event : Event} {ticket : Nat}
    {snapshot : EvaluationSnapshot}
    (h : Transition event.pre event.input.call event.input.action event.output event.post)
    (hfinish : Finishes event ticket snapshot) :
    ∃ result, event.output = .evaluated result := by
  cases h.finishOutcome hfinish with
  | moved _ _ houtput => exact ⟨_, houtput⟩
  | unwritten _ _ _ _ houtput => exact ⟨_, houtput⟩
  | committed _ _ _ _ _ houtput => exact ⟨_, houtput⟩

/-- A last section reports a commit exactly when its gate is open. -/
theorem Transition.reportsCommit_iff {event : Event} {ticket : Nat}
    {snapshot : EvaluationSnapshot}
    (h : Transition event.pre event.input.call event.input.action event.output event.post)
    (hfinish : Finishes event ticket snapshot) :
    ReportsCommit event ↔ CommitGate event.pre.impl snapshot event.input.call := by
  cases h.finishOutcome hfinish with
  | moved outcome hmoved houtput hcommitted =>
      refine ⟨?_, fun hgate => absurd hgate.1 hmoved⟩
      rintro ⟨other, hother, htrue⟩
      rw [houtput] at hother
      cases hother
      rw [hcommitted] at htrue
      cases htrue
  | unwritten next error htarget herror houtput =>
      constructor
      · rintro ⟨other, hother, -⟩
        rw [houtput] at hother
        cases hother
      · rintro ⟨-, hwrites⟩
        rw [hwrites next htarget] at herror
        cases herror
  | committed next outcome hunchanged htarget hok houtput hcommitted =>
      refine ⟨fun _ => ⟨hunchanged, ?_⟩, fun _ => ⟨outcome, houtput, hcommitted⟩⟩
      intro other hother
      rw [htarget] at hother
      cases hother
      exact hok

/-! ## What the last section compares -/

/-- An evaluation commits only on the set and the evidence that its first section
saw, and a stale completion changes nothing. -/
theorem evaluate_commits_on_snapshot {before after : List Event} {finish : Event}
    {last : SystemState} {ticket : Nat} {outcome : CommitOutcome}
    (hexecution : Execution (before ++ finish :: after) last)
    (hfinish : finish.input.action = .evaluateFinish ticket)
    (houtput : finish.output = .evaluated (.ok outcome)) :
    (outcome.committed = true →
      ∃ earlier start between snapshot live, before = earlier ++ start :: between ∧
        Starts start ticket snapshot ∧
        findSet start.pre.impl.sets snapshot.setId = some snapshot.set ∧
        findSet finish.pre.impl.sets snapshot.setId = some live ∧
        live.generation = snapshot.set.generation ∧ live.digest = snapshot.set.digest ∧
        live.state = snapshot.set.state ∧
        finish.pre.impl.evidence = start.pre.impl.evidence) ∧
    (outcome.committed = false →
      finish.post.impl = finish.pre.impl ∧
        ∀ record ∈ outcome.batch.records, record.state = .staleAtCommit) := by
  obtain ⟨hbefore, htransition, -⟩ := hexecution.split
  obtain ⟨snapshot, hsnapshot⟩ := htransition.finishes hfinish
  cases htransition.finishOutcome hsnapshot with
  | moved other _ hother hcommitted hrecords hpost =>
      rw [houtput] at hother
      cases hother
      refine ⟨fun htrue => ?_, fun _ => ⟨by rw [hpost]; rfl, hrecords⟩⟩
      rw [hcommitted] at htrue
      cases htrue
  | unwritten next error _ _ hother =>
      rw [houtput] at hother
      cases hother
  | committed next other hunchanged _ _ hother hcommitted =>
      rw [houtput] at hother
      cases hother
      refine ⟨fun _ => ?_, fun hfalse => ?_⟩
      · obtain ⟨earlier, start, between, rfl, hstarts⟩ := hbefore.traced ticket snapshot
          hsnapshot.flight
        obtain ⟨-, hstart, -⟩ := hbefore.split
        obtain ⟨-, -, _, _, _, hcaptured, -⟩ := hstart.starts hstarts
        obtain ⟨⟨live, hlive, hgeneration, hdigest, hstate⟩, hevidence, -⟩ := hunchanged
        exact ⟨earlier, start, between, snapshot, live, rfl, hstarts,
          hcaptured.target ▸ hcaptured.set, hlive, hgeneration, hdigest, hstate,
          hevidence.trans hcaptured.evidence⟩
      · rw [hcommitted] at hfalse
        cases hfalse

/-- The last event is a last section that commits. -/
private def commitsLast : List Event → Bool
  | [_, _, _, _, finish] =>
      decide (finish.input.action = .evaluateFinish 0 ∧ ReportsCommit finish)
  | _ => false

private theorem commitsLast_run :
    ((sampleRun (samplePublish 5 10 ++ [sampleBegin 20 5 [31], sampleFinish 0])).any
      fun run => commitsLast run.1) = true := by
  decide +kernel

theorem evaluate_commits_on_snapshot_sample :
    ∃ earlier start between finish snapshot live last,
      Execution (earlier ++ start :: between ++ [finish]) last ∧
      ReportsCommit finish ∧ Starts start 0 snapshot ∧
      findSet finish.pre.impl.sets snapshot.setId = some live ∧
      live.generation = snapshot.set.generation ∧
      finish.pre.impl.evidence = start.pre.impl.evidence := by
  obtain ⟨events, last, -, hexecution, hcheck⟩ := sampleRun_execution _ _ commitsLast_run
  unfold commitsLast at hcheck
  split at hcheck
  · next a b c d finish =>
      obtain ⟨haction, hreports⟩ := of_decide_eq_true hcheck
      obtain ⟨outcome, houtput, hcommitted⟩ := hreports
      have hcut : Execution ([a, b, c, d] ++ finish :: []) last := hexecution
      obtain ⟨earlier, start, between, snapshot, live, heq, hstarts, -, hlive, hgeneration,
        -, -, hevidence⟩ := (evaluate_commits_on_snapshot hcut haction houtput).1 hcommitted
      rw [heq] at hcut
      exact ⟨earlier, start, between, finish, snapshot, live, last, hcut,
        ⟨outcome, houtput, hcommitted⟩, hstarts, hlive, hgeneration, hevidence⟩
  · cases hcheck

/-! ## Authority lost in flight -/

/-- The caller holds live authority: its boot is not fenced and its publisher is
registered live in its session under that boot. -/
def CallerLive (registry : AuthorityRegistry) (context : AuthorityContext) : Prop :=
  registry.isBootFenced context.workerBoot = false ∧
    ∃ registration, registry.sessionRegistration context = some registration ∧
      registration.boot = context.workerBoot

/-- The event is the last section of an evaluation whose caller lost its authority. -/
structure FinishesLost (event : Event) (ticket : Nat) (snapshot : EvaluationSnapshot) : Prop
    extends Finishes event ticket snapshot where
  lost : ¬ CallerLive event.pre.impl.authority snapshot.context

/-- The event commits no record and replaces no population. -/
structure LeavesResults (event : Event) : Prop where
  reports : ¬ ReportsCommit event
  evaluations : event.post.impl.evaluations = event.pre.impl.evaluations
  populations : event.post.impl.populations = event.pre.impl.populations

/-- A last section leaves the results exactly when its gate is closed. -/
theorem Transition.leavesResults_iff {event : Event} {ticket : Nat}
    {snapshot : EvaluationSnapshot}
    (h : Transition event.pre event.input.call event.input.action event.output event.post)
    (hfinish : Finishes event ticket snapshot) :
    LeavesResults event ↔ ¬ CommitGate event.pre.impl snapshot event.input.call := by
  rw [← h.reportsCommit_iff hfinish]
  refine ⟨fun hleaves => hleaves.reports, fun hreports => ?_⟩
  suffices hsame : event.post.impl.evaluations = event.pre.impl.evaluations ∧
      event.post.impl.populations = event.pre.impl.populations from
    ⟨hreports, hsame.1, hsame.2⟩
  cases h.finishOutcome hfinish with
  | moved _ _ _ _ _ hpost => exact ⟨by rw [hpost]; rfl, by rw [hpost]; rfl⟩
  | unwritten next _ _ _ _ hpost =>
      have hkept := event.pre.impl.persist_kept next event.input.call
      exact ⟨by rw [hpost, hkept.evaluations], by rw [hpost, hkept.populations]⟩
  | committed _ outcome _ _ _ houtput hcommitted =>
      exact absurd ⟨outcome, houtput, hcommitted⟩ hreports

/-- In a run, callers that lost their authority in flight never commit exactly when
each of their last sections finds its gate closed by something else. -/
theorem lost_callers_never_commit_iff {events : List Event} {last : SystemState}
    (hexecution : Execution events last) :
    (∀ event ∈ events, ∀ ticket snapshot, FinishesLost event ticket snapshot →
      LeavesResults event) ↔
    ∀ event ∈ events, ∀ ticket snapshot, FinishesLost event ticket snapshot →
      ¬ CommitGate event.pre.impl snapshot event.input.call := by
  refine forall₂_congr fun event hmem => forall₃_congr fun ticket snapshot hlost => ?_
  obtain ⟨before, after, rfl⟩ := List.append_of_mem hmem
  exact hexecution.split.2.1.leavesResults_iff hlost.toFinishes

/-- The boot of the sample caller is fenced while its evaluation is in flight. -/
def sampleFence : List Input :=
  samplePublish 5 10 ++ [sampleBegin 20 5 [31],
    sampleInput (.operate (.fenceBoot (sampleContext 30) ⟨4242⟩)), sampleFinish 0]

/-- The last event is the commit of a caller whose boot is fenced. -/
private def commitsFenced : List Event → Bool
  | [_, _, _, _, _, finish] =>
      match finish.pre.flights 0 with
      | some (.evaluating snapshot) =>
          decide (finish.input.action = .evaluateFinish 0 ∧ ReportsCommit finish ∧
            finish.pre.impl.authority.isBootFenced snapshot.context.workerBoot = true)
      | _ => false
  | _ => false

private theorem sampleFence_commits :
    ((sampleRun sampleFence).any fun run => commitsFenced run.1) = true := by
  decide +kernel

/-- A boot that is fenced while its evaluation is in flight still commits it. -/
theorem fenced_caller_commits :
    ∃ events last, sampleRun sampleFence = some (events, last) ∧ Execution events last ∧
      ∃ event ∈ events, ∃ snapshot, FinishesLost event 0 snapshot ∧
        event.pre.impl.authority.isBootFenced snapshot.context.workerBoot = true ∧
        ¬ LeavesResults event := by
  obtain ⟨events, last, hrun, hexecution, hcheck⟩ := sampleRun_execution _ _ sampleFence_commits
  refine ⟨events, last, hrun, hexecution, ?_⟩
  unfold commitsFenced at hcheck
  split at hcheck
  · next finish =>
      split at hcheck
      · next snapshot hflight =>
          obtain ⟨haction, hreports, hfenced⟩ := of_decide_eq_true hcheck
          refine ⟨finish, by simp, snapshot, ⟨⟨haction, hflight⟩, ?_⟩, hfenced,
            fun hleaves => hleaves.reports hreports⟩
          rintro ⟨hlive, -⟩
          rw [hfenced] at hlive
          cases hlive
      · cases hcheck
  · cases hcheck

theorem lost_callers_never_commit_iff_sample :
    ∃ events last, sampleRun sampleFence = some (events, last) ∧
      ((∀ event ∈ events, ∀ ticket snapshot, FinishesLost event ticket snapshot →
        LeavesResults event) ↔
      ∀ event ∈ events, ∀ ticket snapshot, FinishesLost event ticket snapshot →
        ¬ CommitGate event.pre.impl snapshot event.input.call) := by
  obtain ⟨events, last, hrun, hexecution, -⟩ := sampleRun_execution _ _ sampleFence_commits
  exact ⟨events, last, hrun, lost_callers_never_commit_iff hexecution⟩

/-! ## Keys invalidated in flight -/

/-- The key was invalidated while the evaluation that `finish` ends was in flight. -/
def InvalidatedInFlight (events : List Event) (finish : Event) (ticket : Nat)
    (snapshot : EvaluationSnapshot) (key : InvalidationKey) : Prop :=
  Finishes finish ticket snapshot ∧
    ∃ earlier start between after, events = earlier ++ start :: between ++ finish :: after ∧
      Starts start ticket snapshot ∧
      ∃ event ∈ between, ∃ context,
        event.input.action = .operate (.invalidateKey context key) ∧
        event.output = .operated (.ok .done)

/-- No record of the evaluation that depends on the key is current after it. -/
def RespectsKey (finish : Event) (snapshot : EvaluationSnapshot) (key : InvalidationKey) :
    Prop :=
  ∀ outcome, finish.output = .evaluated (.ok outcome) →
    ∀ record ∈ outcome.batch.records, record ∈ finish.post.impl.evaluations →
      record.state = .current →
      ∀ candidate ∈ canonicalCandidates snapshot.candidates, candidate.path = record.path →
        key ∉ dependencyKeys record snapshot.set candidate

/-- The keys that an evaluation of the candidate against the set depends on. -/
def requestKeys (set : ConstraintSet) (candidate : CandidatePath) : List InvalidationKey :=
  dependencyKeys { consulted := consultedMask set } set candidate

/-- Some candidate that the request gets evaluated depends on the key. -/
def DependsOnKey (limits : Limits) (snapshot : EvaluationSnapshot) (key : InvalidationKey) :
    Prop :=
  batchRejection limits snapshot.candidates = none ∧
    ∃ candidate ∈ canonicalCandidates snapshot.candidates,
      key ∈ requestKeys snapshot.set candidate

/-- A record's keys depend on it only through the families that it consulted. -/
theorem dependencyKeys_eq_requestKeys {record : EvaluationRecord} {set : ConstraintSet}
    (candidate : CandidatePath) (h : record.consulted = consultedMask set) :
    dependencyKeys record set candidate = requestKeys set candidate := by
  simp only [requestKeys, dependencyKeys, collectedKeys, h]

/-- A committed record belongs to an evaluated candidate, and its keys are those of
the request. -/
theorem mem_committedRecords {impl : Impl} {snapshot : EvaluationSnapshot} {call : Call}
    {record : EvaluationRecord} (h : record ∈ committedRecords impl snapshot call) :
    batchRejection impl.config.limits snapshot.candidates = none ∧
      record.consulted = consultedMask snapshot.set ∧
      ∃ candidate ∈ canonicalCandidates snapshot.candidates, record =
        { evaluationRecord (snapshot.evaluationContext impl.config.limits (call.clock 0))
            candidate with
          state := .current, committedTick := call.clock 0 } := by
  simp only [committedRecords, List.mem_map] at h
  obtain ⟨original, horiginal, rfl⟩ := h
  unfold batchRecords at horiginal
  split at horiginal
  · cases horiginal
  · next hadmitted =>
      obtain ⟨candidate, hcandidate, rfl⟩ := List.mem_map.mp horiginal
      exact ⟨Option.not_isSome_iff_eq_none.mp hadmitted, rfl, candidate, hcandidate, rfl⟩

/-- An evaluated candidate has its committed record. -/
theorem committedRecord_mem {impl : Impl} {snapshot : EvaluationSnapshot} (call : Call)
    {candidate : CandidatePath}
    (hadmitted : batchRejection impl.config.limits snapshot.candidates = none)
    (hcandidate : candidate ∈ canonicalCandidates snapshot.candidates) :
    ∃ record ∈ committedRecords impl snapshot call, record.path = candidate.path ∧
      record.consulted = consultedMask snapshot.set := by
  have hbatch : evaluationRecord
      (snapshot.evaluationContext impl.config.limits (call.clock 0)) candidate ∈
      batchRecords (snapshot.evaluationContext impl.config.limits (call.clock 0))
        snapshot.candidates := by
    unfold batchRecords
    split
    · next hrejected =>
        exact absurd hrejected (Option.not_isSome_iff_eq_none.mpr hadmitted)
    · exact List.mem_map_of_mem hcandidate
  exact ⟨_, List.mem_map.mpr ⟨_, hbatch, rfl⟩, rfl, rfl⟩

/-- A last section respects a key exactly when its gate is closed or nothing that it
evaluates depends on the key. -/
theorem Transition.respectsKey_iff {event : Event} {ticket : Nat}
    {snapshot : EvaluationSnapshot} {key : InvalidationKey}
    (h : Transition event.pre event.input.call event.input.action event.output event.post)
    (hfinish : Finishes event ticket snapshot) :
    RespectsKey event snapshot key ↔
      ¬ (CommitGate event.pre.impl snapshot event.input.call ∧
        DependsOnKey event.pre.impl.config.limits snapshot key) := by
  rw [← h.reportsCommit_iff hfinish]
  cases h.finishOutcome hfinish with
  | moved outcome _ houtput hcommitted hrecords =>
      refine ⟨?_, fun _ other hother record hrecord _ hcurrent => ?_⟩
      · rintro - ⟨⟨other, hother, htrue⟩, -⟩
        rw [houtput] at hother
        cases hother
        rw [hcommitted] at htrue
        cases htrue
      · rw [houtput] at hother
        cases hother
        rw [hrecords record hrecord] at hcurrent
        cases hcurrent
  | unwritten next error _ _ houtput =>
      refine ⟨?_, fun _ other hother => ?_⟩
      · rintro - ⟨⟨other, hother, -⟩, -⟩
        rw [houtput] at hother
        cases hother
      · rw [houtput] at hother
        cases hother
  | committed next outcome _ htarget _ houtput hcommitted hrecords _ hpost =>
      obtain ⟨populations, excess, hwrites⟩ := commitTarget_writes htarget
      constructor
      · rintro hrespects ⟨-, hadmitted, candidate, hcandidate, hkey⟩
        obtain ⟨record, hrecord, hpath, hconsulted⟩ :=
          committedRecord_mem event.input.call hadmitted hcandidate
        obtain ⟨hcurrent, hstored⟩ := hwrites.mem_evaluations hrecord
        refine hrespects outcome houtput record (hrecords ▸ hrecord) ?_ hcurrent candidate
          hcandidate hpath.symm ?_
        · rw [hpost]
          exact hstored
        · rwa [dependencyKeys_eq_requestKeys _ hconsulted]
      · intro hindependent other hother record hrecord _ _ candidate hcandidate _ hkey
        rw [houtput] at hother
        cases hother
        rw [hrecords] at hrecord
        obtain ⟨hadmitted, hconsulted, -⟩ := mem_committedRecords hrecord
        refine hindependent ⟨⟨outcome, houtput, hcommitted⟩, hadmitted, candidate, hcandidate, ?_⟩
        rwa [dependencyKeys_eq_requestKeys _ hconsulted] at hkey

/-- In a run, a key that is invalidated in flight is respected by every evaluation
exactly when each evaluation whose candidates depend on it finds its gate closed by
something else. -/
theorem keys_invalidated_in_flight_iff {events : List Event} {last : SystemState}
    (hexecution : Execution events last) :
    (∀ finish ticket snapshot key, InvalidatedInFlight events finish ticket snapshot key →
      RespectsKey finish snapshot key) ↔
    ∀ finish ticket snapshot key, InvalidatedInFlight events finish ticket snapshot key →
      ¬ (CommitGate finish.pre.impl snapshot finish.input.call ∧
        DependsOnKey finish.pre.impl.config.limits snapshot key) := by
  refine forall₃_congr fun finish ticket snapshot => forall₂_congr fun key hinvalidated => ?_
  obtain ⟨hfinish, earlier, start, between, after, rfl, -⟩ := hinvalidated
  exact hexecution.split.2.1.respectsKey_iff hfinish

/-- The path of the sample candidate is invalidated while its evaluation is in
flight. -/
def sampleInvalidate : List Input :=
  samplePublish 5 10 ++ [sampleBegin 20 5 [31],
    sampleInput (.operate (.invalidateKey (sampleContext 30) ⟨.path, 31⟩)), sampleFinish 0]

/-- The key is invalidated between the two sections, and the last one commits a
current record that depends on it. -/
private def commitsInvalidated : List Event → Bool
  | [_, _, _, start, invalidate, finish] =>
      match finish.pre.flights 0, finish.output with
      | some (.evaluating snapshot), .evaluated (.ok outcome) =>
          decide (finish.input.action = .evaluateFinish 0 ∧
            start.output = .evaluating 0 ∧
            start.post.flights 0 = some (.evaluating snapshot) ∧
            invalidate.input.action =
              .operate (.invalidateKey (sampleContext 30) ⟨.path, 31⟩) ∧
            invalidate.output = .operated (.ok .done)) &&
          outcome.batch.records.any fun record =>
            decide (record ∈ finish.post.impl.evaluations ∧ record.state = .current) &&
            (canonicalCandidates snapshot.candidates).any fun candidate =>
              decide (candidate.path = record.path ∧
                ⟨.path, 31⟩ ∈ dependencyKeys record snapshot.set candidate)
      | _, _ => false
  | _ => false

private theorem sampleInvalidate_commits :
    ((sampleRun sampleInvalidate).any fun run => commitsInvalidated run.1) = true := by
  decide +kernel

/-- A path that is invalidated while its evaluation is in flight gets a current
record. -/
theorem invalidated_path_commits :
    ∃ events last, sampleRun sampleInvalidate = some (events, last) ∧
      Execution events last ∧
      ∃ finish snapshot, InvalidatedInFlight events finish 0 snapshot ⟨.path, 31⟩ ∧
        ¬ RespectsKey finish snapshot ⟨.path, 31⟩ := by
  obtain ⟨events, last, hrun, hexecution, hcheck⟩ :=
    sampleRun_execution _ _ sampleInvalidate_commits
  refine ⟨events, last, hrun, hexecution, ?_⟩
  unfold commitsInvalidated at hcheck
  split at hcheck
  · next a b c start invalidate finish =>
      split at hcheck
      · next snapshot outcome hflight houtput =>
          rw [Bool.and_eq_true, decide_eq_true_eq, List.any_eq_true] at hcheck
          obtain ⟨⟨haction, hticket, hstarted, hinvalidate, hdone⟩, record, hrecord, hcheck⟩ :=
            hcheck
          rw [Bool.and_eq_true, decide_eq_true_eq, List.any_eq_true] at hcheck
          obtain ⟨⟨hstored, hcurrent⟩, candidate, hcandidate, hkey⟩ := hcheck
          obtain ⟨hpath, hdepends⟩ := of_decide_eq_true hkey
          refine ⟨finish, snapshot, ⟨⟨haction, hflight⟩, [a, b, c], start, [invalidate], [],
            rfl, ⟨hticket, hstarted⟩, invalidate, by simp, _, hinvalidate, hdone⟩, ?_⟩
          intro hrespects
          exact hrespects outcome houtput record hrecord hstored hcurrent candidate
            hcandidate hpath hdepends
      · cases hcheck
  · cases hcheck

theorem keys_invalidated_in_flight_iff_sample :
    ∃ events last, sampleRun sampleInvalidate = some (events, last) ∧
      ((∀ finish ticket snapshot key,
        InvalidatedInFlight events finish ticket snapshot key →
          RespectsKey finish snapshot key) ↔
      ∀ finish ticket snapshot key, InvalidatedInFlight events finish ticket snapshot key →
        ¬ (CommitGate finish.pre.impl snapshot finish.input.call ∧
          DependsOnKey finish.pre.impl.config.limits snapshot key)) := by
  obtain ⟨events, last, hrun, hexecution, -⟩ :=
    sampleRun_execution _ _ sampleInvalidate_commits
  exact ⟨events, last, hrun, keys_invalidated_in_flight_iff hexecution⟩

end ConstraintRouting.Fabric
