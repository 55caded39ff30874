import ConstraintRouting.Fabric.CoordinatorSpec
import ConstraintRouting.Fabric.EvaluatorSpec

/-!
# What the two sections of an evaluation can do

Under valid limits the pure evaluation always produces a batch, so the last
critical section either finds a checked dependency moved, and changes nothing, or
stages the batch.  `CommitGate` is the condition under which it reports a commit.
-/

namespace ConstraintRouting.Fabric

/-! ## Batches -/

/-- The records that a batch holds: none for a rejected population. -/
def batchRecords (context : EvaluationContext) (candidates : List CandidatePath) :
    List EvaluationRecord :=
  if (batchRejection context.limits candidates).isSome then []
  else (canonicalCandidates candidates).map (evaluationRecord context)

/-- Under valid limits every candidate gives a record. -/
theorem mapM_evaluateCandidate {context : EvaluationContext} (canonical : List CandidatePath)
    (hlimits : validateLimits context.limits = .ok ()) :
    canonical.mapM (evaluateCandidate context) =
      .ok (canonical.map (evaluationRecord context)) := by
  have hevaluate : evaluateCandidate context =
      fun candidate => .ok (evaluationRecord context candidate) := by
    funext candidate
    simp only [evaluateCandidate, hlimits]
    rfl
  rw [hevaluate]
  exact List.mapM_pure

/-- Under valid limits every population gives a batch. -/
theorem evaluateBatch_eq_ok (context : EvaluationContext) (candidates : List CandidatePath)
    (hlimits : validateLimits context.limits = .ok ()) :
    ∃ batch, evaluateBatch context candidates = .ok batch ∧
      batch.records = batchRecords context candidates ∧
      batch.generation = context.generation := by
  unfold evaluateBatch batchRecords
  cases batchRejection context.limits candidates with
  | some reason => exact ⟨_, rfl, rfl, rfl⟩
  | none =>
      simp only [mapM_evaluateCandidate _ hlimits]
      exact ⟨_, rfl, rfl, rfl⟩

/-! ## Re-verification -/

/-- The dependencies that the last section checks are those of the snapshot. -/
def DependenciesUnchanged (impl : Impl) (snapshot : EvaluationSnapshot) : Prop :=
  (∃ live, findSet impl.sets snapshot.setId = some live ∧
    live.generation = snapshot.set.generation ∧ live.digest = snapshot.set.digest ∧
    live.state = snapshot.set.state) ∧
  impl.evidence = snapshot.evidence ∧
  ∀ family ∈ kFamilies, consults snapshot.mask family = true →
    impl.watermarks.family family ≤ generationFor snapshot.evidence family

private theorem stalenessReason_ne_none (family : EvidenceFamily) :
    stalenessReason family ≠ .none := by
  cases family <;> decide

private theorem firstMoved_eq_none_iff {mask : EvidenceFamilyMask}
    {moved : EvidenceFamily → Bool} {otherwise : ReasonCode} :
    (match (kFamilies.filter (consults mask)).find? moved with
      | some family => stalenessReason family
      | none => otherwise) = .none ↔
      otherwise = .none ∧
        ∀ family ∈ kFamilies, consults mask family = true → moved family = false := by
  cases hfound : (kFamilies.filter (consults mask)).find? moved with
  | some family =>
      obtain ⟨hknown, hconsults⟩ := List.mem_filter.mp (List.mem_of_find?_eq_some hfound)
      have hmoved := List.find?_some hfound
      simp only [stalenessReason_ne_none, false_iff]
      rintro ⟨-, hall⟩
      rw [hall family hknown hconsults] at hmoved
      cases hmoved
  | none =>
      have hall := List.find?_eq_none.mp hfound
      refine ⟨fun h => ⟨h, fun family hknown hconsults => ?_⟩, fun h => h.1⟩
      simpa using hall family (List.mem_filter.mpr ⟨hknown, hconsults⟩)

/-- Nothing is stale exactly when the checked dependencies are unchanged. -/
theorem staleReason_eq_none_iff {impl : Impl} {snapshot : EvaluationSnapshot} :
    staleReason impl snapshot = .none ↔ DependenciesUnchanged impl snapshot := by
  unfold staleReason DependenciesUnchanged
  cases hfound : findSet impl.sets snapshot.setId with
  | none => simp
  | some live =>
      simp only [Option.some.injEq, exists_eq_left']
      split
      · next hmoved =>
          simp only [reduceCtorEq, false_iff]
          rintro ⟨⟨hgeneration, hdigest, hstate⟩, -⟩
          simp [hgeneration, hdigest, hstate] at hmoved
      · next hsame =>
          have hset : live.generation = snapshot.set.generation ∧
              live.digest = snapshot.set.digest ∧ live.state = snapshot.set.state := by
            simpa [and_assoc] using hsame
          split
          · next hevidence =>
              refine firstMoved_eq_none_iff.trans ?_
              simp [hevidence]
          · next hevidence =>
              refine firstMoved_eq_none_iff.trans ?_
              simp [hset, not_not.mp hevidence]

/-! ## The last section -/

/-- The records that a commit of the snapshot stores. -/
def committedRecords (impl : Impl) (snapshot : EvaluationSnapshot) (call : Call) :
    List EvaluationRecord :=
  (batchRecords (snapshot.evaluationContext impl.config.limits (call.clock 0))
    snapshot.candidates).map fun record =>
      { record with state := .current, committedTick := call.clock 0 }

/-- The state that a commit of the snapshot writes. -/
def commitTarget (impl : Impl) (snapshot : EvaluationSnapshot) (call : Call) :
    Option PersistentState :=
  commitState impl snapshot { records := committedRecords impl snapshot call }

theorem evaluateFinish_moved {impl : Impl} {snapshot : EvaluationSnapshot} (call : Call)
    (hlimits : validateLimits impl.config.limits = .ok ())
    (hmoved : ¬ DependenciesUnchanged impl snapshot) :
    ∃ outcome, evaluateFinish impl snapshot call = some (.reply impl (.ok outcome)) ∧
      outcome.committed = false ∧
      ∀ record ∈ outcome.batch.records, record.state = .staleAtCommit := by
  obtain ⟨batch, hbatch, -, -⟩ := evaluateBatch_eq_ok
    (snapshot.evaluationContext impl.config.limits (call.clock 0)) snapshot.candidates
    hlimits
  have hstale := mt staleReason_eq_none_iff.mp hmoved
  unfold evaluateFinish
  simp only [hbatch, ne_eq, hstale, not_false_eq_true, if_true]
  refine ⟨_, rfl, rfl, ?_⟩
  simp only [staleBatch, List.mem_map]
  rintro record ⟨original, -, rfl⟩
  rfl

theorem evaluateFinish_unchanged {impl : Impl} {snapshot : EvaluationSnapshot}
    (call : Call)
    (hlimits : validateLimits impl.config.limits = .ok ())
    (hunchanged : DependenciesUnchanged impl snapshot) :
    ∃ outcome, evaluateFinish impl snapshot call =
        (commitTarget impl snapshot call).map (.write impl · true outcome) ∧
      outcome.committed = true ∧
      outcome.batch.records = committedRecords impl snapshot call ∧
      outcome.batch.generation = snapshot.generation := by
  obtain ⟨batch, hbatch, hrecords, hgeneration⟩ := evaluateBatch_eq_ok
    (snapshot.evaluationContext impl.config.limits (call.clock 0)) snapshot.candidates
    hlimits
  have hstale := staleReason_eq_none_iff.mpr hunchanged
  unfold evaluateFinish
  simp only [hbatch, ne_eq, hstale, not_true_eq_false, if_false, commitTarget, commitState,
    committedBatch, committedRecords, hrecords]
  exact ⟨_, rfl, rfl, rfl, hgeneration⟩

/-! ### What a commit stores -/

private theorem foldl_victim_not_current {evaluations : List EvaluationRecord}
    {entries : List (EvaluationRecord × Nat)} {victim : Option (Nat × UInt64)}
    (hentries : ∀ entry ∈ entries, evaluations[entry.2]? = some entry.1)
    (hvictim : ∀ found, victim = some found →
      ∃ record, evaluations[found.1]? = some record ∧ record.state ≠ .current) :
    ∀ found, entries.foldl (fun (victim : Option (Nat × UInt64)) (record, position) =>
        if record.state = .current then victim
        else
          match victim with
          | none => some (position, record.generation.value)
          | some (_, oldest) =>
              if record.generation.value < oldest then
                some (position, record.generation.value)
              else victim) victim = some found →
      ∃ record, evaluations[found.1]? = some record ∧ record.state ≠ .current := by
  induction entries generalizing victim with
  | nil => exact hvictim
  | cons entry rest ih =>
      obtain ⟨record, position⟩ := entry
      have hentry := hentries (record, position) List.mem_cons_self
      rw [List.foldl_cons]
      refine ih (fun other hother => hentries other (List.mem_cons_of_mem _ hother)) ?_
      intro found hfound
      dsimp only at hfound hentry
      split at hfound
      · exact hvictim found hfound
      · next hstate =>
          split at hfound
          · cases hfound
            exact ⟨record, hentry, hstate⟩
          · split at hfound
            · cases hfound
              exact ⟨record, hentry, hstate⟩
            · exact hvictim found hfound

/-- Eviction never chooses a current record. -/
theorem historyVictim_not_current {evaluations : List EvaluationRecord} {position : Nat}
    (h : historyVictim evaluations = some position) :
    ∃ record, evaluations[position]? = some record ∧ record.state ≠ .current := by
  simp only [historyVictim, Option.map_eq_some_iff] at h
  obtain ⟨found, hfound, rfl⟩ := h
  refine foldl_victim_not_current ?_ (by simp) found hfound
  rintro ⟨record, position⟩ hmem
  exact List.mem_zipIdx_iff_getElem?.mp hmem

theorem trimHistory_sublist {excess : Nat} {evaluations : List EvaluationRecord} :
    (trimHistory excess evaluations).Sublist evaluations := by
  induction excess generalizing evaluations with
  | zero => exact List.Sublist.refl _
  | succ excess ih =>
      rw [trimHistory]
      split
      · exact List.Sublist.refl _
      · exact ih.trans (List.eraseIdx_sublist _ _)

/-- Trimming keeps every current record. -/
theorem mem_trimHistory_of_current {excess : Nat} {evaluations : List EvaluationRecord}
    {record : EvaluationRecord} (hmem : record ∈ evaluations)
    (hcurrent : record.state = .current) : record ∈ trimHistory excess evaluations := by
  induction excess generalizing evaluations with
  | zero => exact hmem
  | succ excess ih =>
      rw [trimHistory]
      split
      · exact hmem
      · next position hvictim =>
          obtain ⟨victim, hvictimAt, hstate⟩ := historyVictim_not_current hvictim
          obtain ⟨index, hindex⟩ := List.mem_iff_getElem?.mp hmem
          refine ih (List.mem_eraseIdx_iff_getElem?.mpr ⟨index, ?_, hindex⟩)
          rintro rfl
          rw [hvictimAt, Option.some.injEq] at hindex
          exact hstate (hindex ▸ hcurrent)

/-- The state that a commit writes, over the state before it. -/
structure CommitWrites (impl : Impl) (snapshot : EvaluationSnapshot) (call : Call)
    (next : PersistentState) (populations : List CandidatePopulation) (excess : Nat) :
    Prop where
  retained : commitPopulations impl.config impl.populations snapshot.setId
    snapshot.candidates = some populations
  standing : next.standing =
    { impl.standing with
      evaluations := trimHistory excess (commitEvaluations impl.evaluations snapshot.setId
        (committedRecords impl snapshot call))
      populations }
  watermarks : next.watermarks = impl.watermarks
  fencedBoots : next.fencedBoots = impl.authority.fenced.values
  generation : next.lastEvaluationGeneration = snapshot.generation

theorem commitTarget_writes {impl : Impl} {snapshot : EvaluationSnapshot} {call : Call}
    {next : PersistentState} (h : commitTarget impl snapshot call = some next) :
    ∃ populations excess, CommitWrites impl snapshot call next populations excess := by
  simp only [commitTarget, commitState, Option.map_eq_some_iff] at h
  obtain ⟨populations, hpopulations, rfl⟩ := h
  exact ⟨populations, _, hpopulations, rfl, rfl, rfl, rfl⟩

/-- A committed record is current and stored. -/
theorem CommitWrites.mem_evaluations {impl : Impl} {snapshot : EvaluationSnapshot}
    {call : Call} {next : PersistentState} {populations : List CandidatePopulation}
    {excess : Nat} (h : CommitWrites impl snapshot call next populations excess)
    {record : EvaluationRecord} (hrecord : record ∈ committedRecords impl snapshot call) :
    record.state = .current ∧ record ∈ next.evaluations := by
  have hcurrent : record.state = .current := by
    obtain ⟨_, -, rfl⟩ := List.mem_map.mp hrecord
    rfl
  have hevaluations := congrArg Standing.evaluations h.standing
  change next.evaluations = _ at hevaluations
  rw [hevaluations]
  exact ⟨hcurrent, mem_trimHistory_of_current (List.mem_append_right _ hrecord) hcurrent⟩

/-- The last section reports a commit: the checked dependencies are unchanged and
the durable write of the staged state succeeds. -/
def CommitGate (impl : Impl) (snapshot : EvaluationSnapshot) (call : Call) : Prop :=
  DependenciesUnchanged impl snapshot ∧
    ∀ next, commitTarget impl snapshot call = some next →
      (impl.persist next call).2 = .ok ()

/-! ## The first section -/

/-- The snapshot that a first section takes, and the state that it leaves. -/
structure Captured (before after : Impl) (context : AuthorityContext)
    (setId : ConstraintSetId) (candidates : List CandidatePath)
    (snapshot : EvaluationSnapshot) : Prop where
  caller : snapshot.context = context
  target : snapshot.setId = setId
  population : snapshot.candidates = candidates
  set : findSet before.sets setId = some snapshot.set
  evidence : snapshot.evidence = before.evidence
  mask : snapshot.mask = consultedMask snapshot.set
  generation : before.lastGeneration.next = some snapshot.generation
  authorized : before.authority.authorize context (scopeBit .publishEvaluation) = .ok ()
  after : ∃ authority, after =
    { before with authority, lastGeneration := snapshot.generation }

/-- A first section reserves a generation for its snapshot, or keeps the state. -/
theorem evaluateBegin_cases (impl : Impl) (context : AuthorityContext)
    (setId : ConstraintSetId) (candidates : List CandidatePath)
    (expectedGeneration : ConstraintSetGeneration) (call : Call) :
    (∃ snapshot,
      (evaluateBegin impl context setId candidates expectedGeneration call).2 =
        .ok (.started snapshot) ∧
      Captured impl (evaluateBegin impl context setId candidates expectedGeneration call).1
        context setId candidates snapshot) ∨
    (∀ snapshot,
      (evaluateBegin impl context setId candidates expectedGeneration call).2 ≠
        .ok (.started snapshot)) ∧
      impl.Kept (evaluateBegin impl context setId candidates expectedGeneration call).1 := by
  unfold evaluateBegin
  split
  · exact .inr ⟨by simp, .refl impl⟩
  · exact .inr ⟨by simp, .refl impl⟩
  · next fresh hadmitted =>
      have hkept := admit_fresh_kept hadmitted
      obtain ⟨authority, rfl, hauthorized, -⟩ := admit_fresh hadmitted
      split
      · exact .inr ⟨by simp [failure], hkept⟩
      · next set hset =>
          split
          · exact .inr ⟨by simp [failure], hkept⟩
          · split
            · exact .inr ⟨by simp [failure], hkept⟩
            · next generation hnext =>
                exact .inl ⟨_, rfl, rfl, rfl, rfl, hset, rfl, rfl, hnext, hauthorized,
                  authority, rfl⟩

/-! ## Steps of the system -/

/-- The flights of `after` were in flight before. -/
def FewerFlights (before after : Nat → Option Flight) : Prop :=
  ∀ ticket flight, after ticket = some flight → before ticket = some flight

/-- What one critical section does to the system, by how it ends. -/
inductive Transition (pre : SystemState) (call : Call) : Action → Reply → SystemState → Prop
  /-- A request was served. -/
  | operated (operation : Operation) :
      Transition pre call (.operate operation)
        (.operated (operation.run pre.impl call).2)
        { pre with impl := (operation.run pre.impl call).1 }
  /-- A first section ended its call. -/
  | ended {action : Action} {impl : Impl} {flights : Nat → Option Flight}
      {result : Result CommitOutcome} :
      (∀ ticket, action ≠ .evaluateFinish ticket) → (∀ operation, action ≠ .operate operation) →
      pre.impl.Kept impl → FewerFlights pre.flights flights →
      Transition pre call action (.evaluated result) { pre with impl, flights }
  /-- A revalidation read its population. -/
  | read {context : AuthorityContext} {setId : ConstraintSetId} :
      Transition pre call (.revalidateRead context setId) (.populationRead pre.nextTicket)
        (pre.launch (.populationRead context setId (revalidateRead pre.impl setId)))
  /-- A first section took its snapshot. -/
  | started {action : Action} {context : AuthorityContext} {setId : ConstraintSetId}
      {candidates : List CandidatePath} {snapshot : EvaluationSnapshot} {impl : Impl}
      {flights : Nat → Option Flight} :
      (∀ ticket, action ≠ .evaluateFinish ticket) → (∀ operation, action ≠ .operate operation) →
      (∀ ticket, action = .revalidateBegin ticket →
        pre.flights ticket = some (.populationRead context setId candidates)) →
      Captured pre.impl impl context setId candidates snapshot →
      FewerFlights pre.flights flights →
      Transition pre call action (.evaluating pre.nextTicket)
        ({ pre with impl, flights }.launch (.evaluating snapshot))
  /-- A last section found a dependency moved. -/
  | moved {ticket : Nat} {snapshot : EvaluationSnapshot} {outcome : CommitOutcome} :
      pre.flights ticket = some (.evaluating snapshot) →
      ¬ DependenciesUnchanged pre.impl snapshot →
      outcome.committed = false →
      (∀ record ∈ outcome.batch.records, record.state = .staleAtCommit) →
      Transition pre call (.evaluateFinish ticket) (.evaluated (.ok outcome))
        (pre.land ticket)
  /-- The durable write of a last section failed. -/
  | unwritten {ticket : Nat} {snapshot : EvaluationSnapshot} {next : PersistentState}
      {error : Error} :
      pre.flights ticket = some (.evaluating snapshot) →
      DependenciesUnchanged pre.impl snapshot →
      commitTarget pre.impl snapshot call = some next →
      (pre.impl.persist next call).2 = .error error →
      Transition pre call (.evaluateFinish ticket) (.evaluated (.error error))
        ({ pre with impl := (pre.impl.persist next call).1 }.land ticket)
  /-- A last section committed. -/
  | committed {ticket : Nat} {snapshot : EvaluationSnapshot} {next : PersistentState}
      {outcome : CommitOutcome} :
      pre.flights ticket = some (.evaluating snapshot) →
      DependenciesUnchanged pre.impl snapshot →
      commitTarget pre.impl snapshot call = some next →
      (pre.impl.persist next call).2 = .ok () →
      outcome.committed = true →
      outcome.batch.records = committedRecords pre.impl snapshot call →
      outcome.batch.generation = snapshot.generation →
      Transition pre call (.evaluateFinish ticket) (.evaluated (.ok outcome))
        ({ pre with impl := (pre.impl.persist next call).1.applyState next }.land ticket)

section Steps

variable {pre post : SystemState} {call : Call} {reply : Reply}

private theorem begin_transition {base : SystemState} {action : Action}
    {context : AuthorityContext} {setId : ConstraintSetId} {candidates : List CandidatePath}
    {expectedGeneration : ConstraintSetGeneration}
    (hfinish : ∀ ticket, action ≠ .evaluateFinish ticket)
    (hoperate : ∀ operation, action ≠ .operate operation)
    (hread : ∀ ticket, action = .revalidateBegin ticket →
      pre.flights ticket = some (.populationRead context setId candidates))
    (himpl : base.impl = pre.impl) (hticket : base.nextTicket = pre.nextTicket)
    (hflights : FewerFlights pre.flights base.flights) :
    Transition pre call action
      (base.begin context setId candidates expectedGeneration call).2
      (base.begin context setId candidates expectedGeneration call).1 := by
  obtain ⟨impl, flights, ticket⟩ := base
  obtain rfl : impl = pre.impl := himpl
  obtain rfl : ticket = pre.nextTicket := hticket
  have hcases := evaluateBegin_cases pre.impl context setId candidates expectedGeneration call
  unfold SystemState.begin
  rcases hbegin : evaluateBegin pre.impl context setId candidates expectedGeneration call
    with ⟨after, error | outcome | snapshot⟩
  all_goals
    rw [hbegin] at hcases
    dsimp only at hcases ⊢
  · rcases hcases with ⟨snapshot, hstarted, -⟩ | ⟨-, hkept⟩
    · cases hstarted
    · exact .ended hfinish hoperate hkept hflights
  · rcases hcases with ⟨snapshot, hstarted, -⟩ | ⟨-, hkept⟩
    · cases hstarted
    · exact .ended hfinish hoperate hkept hflights
  · rcases hcases with ⟨other, hstarted, hcaptured⟩ | ⟨hnone, -⟩
    · cases hstarted
      exact .started hfinish hoperate hread hcaptured hflights
    · exact absurd rfl (hnone snapshot)

theorem fewerFlights_update (flights : Nat → Option Flight) (ticket : Nat) :
    FewerFlights flights (Function.update flights ticket none) := by
  intro other flight h
  by_cases heq : other = ticket
  · simp [heq] at h
  · rwa [Function.update_of_ne heq] at h

private theorem finish_transition {ticket : Nat}
    (hlimits : validateLimits pre.impl.config.limits = .ok ())
    (h : pre.finish ticket call = some (post, reply)) :
    Transition pre call (.evaluateFinish ticket) reply post := by
  unfold SystemState.finish at h
  cases hflight : pre.flights ticket with
  | none => simp [hflight] at h
  | some flight =>
      cases flight with
      | populationRead context setId population => simp [hflight] at h
      | evaluating snapshot =>
          simp only [hflight, Option.map_eq_some_iff, Prod.mk.injEq] at h
          obtain ⟨staged, hstaged, rfl, rfl⟩ := h
          by_cases hunchanged : DependenciesUnchanged pre.impl snapshot
          · obtain ⟨outcome, hfinish, hcommitted, hrecords, hgeneration⟩ :=
              evaluateFinish_unchanged call hlimits hunchanged
            rw [hfinish, Option.map_eq_some_iff] at hstaged
            obtain ⟨next, htarget, rfl⟩ := hstaged
            rcases hpersist : pre.impl.persist next call with ⟨saved, error | ⟨⟨⟩⟩⟩
            · simp only [Staged.settle, hpersist]
              have hsaved := congrArg Prod.fst hpersist
              have herror := congrArg Prod.snd hpersist
              dsimp only at hsaved
              rw [← hsaved]
              exact .unwritten hflight hunchanged htarget herror
            · simp only [Staged.settle, hpersist]
              have hsaved := congrArg Prod.fst hpersist
              have hok := congrArg Prod.snd hpersist
              dsimp only at hsaved
              rw [← hsaved]
              exact .committed hflight hunchanged htarget hok hcommitted hrecords hgeneration
          · obtain ⟨outcome, hfinish, hcommitted, hstates⟩ :=
              evaluateFinish_moved call hlimits hunchanged
            rw [hfinish, Option.some.injEq] at hstaged
            rw [← hstaged]
            exact .moved hflight hunchanged hcommitted hstates

/-- Every step is one of the transitions. -/
theorem step_transition {input : Input}
    (hlimits : validateLimits pre.impl.config.limits = .ok ())
    (h : step pre input = some (post, reply)) :
    Transition pre input.call input.action reply post := by
  unfold step at h
  rcases input with ⟨action, call⟩
  cases action with
  | operate operation =>
      simp only [Option.some.injEq, Prod.mk.injEq] at h
      obtain ⟨rfl, rfl⟩ := h
      exact .operated operation
  | evaluateBegin context setId candidates expectedGeneration =>
      simp only [Option.some.injEq] at h
      have hbegin : Transition pre call
          (.evaluateBegin context setId candidates expectedGeneration)
          (pre.begin context setId candidates expectedGeneration call).2
          (pre.begin context setId candidates expectedGeneration call).1 :=
        begin_transition (by simp) (by simp) (by simp) rfl rfl fun _ _ h => h
      rwa [h] at hbegin
  | evaluateFinish ticket => exact finish_transition hlimits h
  | revalidateRead context setId =>
      simp only [Option.some.injEq, SystemState.readPopulation] at h
      split at h
      · cases h
        exact .ended (by simp) (by simp) (.refl _) fun _ _ h => h
      · cases h
        exact .read
  | revalidateBegin ticket =>
      simp only [SystemState.revalidate] at h
      cases hflight : pre.flights ticket with
      | none => simp [hflight] at h
      | some flight =>
          cases flight with
          | evaluating snapshot => simp [hflight] at h
          | populationRead context setId population =>
              simp only [hflight, Option.some.injEq] at h
              have hread : ∀ other, Action.revalidateBegin ticket = .revalidateBegin other →
                  pre.flights other = some (.populationRead context setId population) := by
                rintro other ⟨⟩
                exact hflight
              have hbegin : Transition pre call (.revalidateBegin ticket)
                  ((pre.land ticket).begin context setId population {} call).2
                  ((pre.land ticket).begin context setId population {} call).1 :=
                begin_transition (by simp) (by simp) hread rfl rfl
                  (fewerFlights_update _ _)
              rwa [h] at hbegin

end Steps

end ConstraintRouting.Fabric
