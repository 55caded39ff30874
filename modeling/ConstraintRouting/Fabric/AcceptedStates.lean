import ConstraintRouting.Fabric.Bounds
import ConstraintRouting.Fabric.BatchRoundTrip
import ConstraintRouting.Fabric.GenerationCounter
import ConstraintRouting.Fabric.LiveBoots
import ConstraintRouting.Fabric.Resubmission
import ConstraintRouting.Fabric.StoredSets

/-!
# States that validation accepts

Validation restates what the operations should keep by themselves: identities that are
distinct and valid, canonical sets, records of present sets with canonical reasons, a counter
that is not behind.  `Savable` is that as an invariant of a coordinator in memory, and
`AddsAcceptable` what a step has to meet for it; nothing in the operations checks the latter.
-/

namespace ConstraintRouting.Fabric

open Verified.StepMachine Verified.KeyedTables
open Verified.Checks (seq_eq_ok failIf_eq_ok)
open Verified.SortedLists

/-! ## The registry -/

namespace AuthorityRegistry

variable {registry after : AuthorityRegistry} {limits : Limits}

/-- Every fencing record is of the boot that it is kept under, and every boot that is fenced
or live is valid. -/
structure Identified (registry : AuthorityRegistry) : Prop where
  keyed : registry.Keyed
  known : ∀ boot, registry.Known boot → boot.isValid = true

namespace Identified

theorem fencedBoot (h : registry.Identified) {boot : WorkerBootId}
    {fencedAt : CoordinatorEpoch} {tick : UInt64}
    (hfence : registry.fenceBoot boot fencedAt tick limits = .ok after) :
    after.Identified := by
  obtain ⟨hretains, hlearned⟩ := retains_of_fenceBoot hfence
  simp only [fenceBoot, seq_eq_ok, failIf_eq_ok, Bool.not_eq_false'] at hfence
  refine ⟨hretains.keyed h.keyed, ?_⟩
  intro other hknown
  rcases hlearned other hknown with hbefore | rfl
  · exact h.known other hbefore
  · exact hfence.1

theorem droppedSession (h : registry.Identified) {session : SessionId}
    (hdrop : registry.dropSession session = .ok after) : after.Identified := by
  obtain ⟨hlearned, -, -⟩ := retained_of_dropSession hdrop
  obtain ⟨registrations, rfl⟩ := dropSession_ok hdrop
  exact ⟨h.keyed, fun boot hknown => h.known boot (hlearned boot hknown)⟩

/-- A registration makes one boot known, which is valid. -/
theorem registered (h : registry.Identified) {registration : PublisherRegistration}
    {status : Status}
    (hregister : registry.registerPublisher registration limits = (after, status)) :
    after.Identified := by
  cases status with
  | error error =>
      obtain ⟨hretains, hlearned⟩ := rearranges_of_refused hregister
      exact ⟨hretains.keyed h.keyed, fun boot hknown => h.known boot (hlearned boot hknown)⟩
  | ok _ =>
      refine ⟨(retains_of_registerPublisher hregister).keyed h.keyed, ?_⟩
      unfold registerPublisher at hregister
      split at hregister
      · cases hregister
      · next hadmitted =>
          simp only [admitRegistration, seq_eq_ok, failIf_eq_ok, Bool.not_eq_false'] at hadmitted
          split at hregister
          · cases hregister
          · next middle hprevious =>
              have hearlier := (rearranges_of_fencePrevious hprevious).2
              split at hregister
              · cases hregister
              · cases hregister
                intro boot hknown
                rcases hknown with hfenced | ⟨existing, hmem, hlive, rfl⟩
                · exact h.known boot (hearlier boot (.inl hfenced))
                · rcases List.mem_append.mp hmem with hold | hnew
                  · exact h.known _ (hearlier _ (.inr ⟨existing, hold, hlive, rfl⟩))
                  · rw [List.mem_singleton.mp hnew]
                    exact hadmitted.2.1

theorem moved {config : CoordinatorConfig} (h : registry.Identified)
    (hmoves : registry.Moves config after) : after.Identified := by
  induction hmoves with
  | refl => exact h
  | observed _ hobserve ih =>
      obtain ⟨attempts, rfl⟩ := observeAttempt_ok hobserve
      exact ⟨ih.keyed, ih.known⟩
  | fenced _ hfence ih => exact ih.fencedBoot hfence
  | dropped _ hdrop ih => exact ih.droppedSession hdrop
  | registered _ _ _ hregister ih => exact ih.registered hregister

/-- The durable view lists distinct fenced boots, each of them valid. -/
theorem fencedBoots (h : registry.Identified) :
    (registry.fenced.values.map (·.boot)).Nodup ∧
      ∀ record ∈ registry.fenced.values, record.boot.isValid = true := by
  have hentry : ∀ entry ∈ registry.fenced.toList, entry.2.boot = entry.1 ∧
      registry.isBootFenced entry.1 = true := by
    rintro ⟨boot, record⟩ hmem
    have hfound := Std.ExtTreeMap.mem_toList_iff_getElem?_eq_some.mp hmem
    refine ⟨h.keyed boot record hfound, ?_⟩
    rw [isBootFenced, Std.ExtTreeMap.contains_eq_isSome_getElem?, hfound]
    rfl
  constructor
  · have hkeys : registry.fenced.values.map (·.boot) = registry.fenced.keys := by
      rw [values_eq_map_toList, List.map_map, ← Std.ExtTreeMap.map_fst_toList_eq_keys]
      apply List.map_congr_left
      intro entry hmem
      exact (hentry entry hmem).1
    rw [hkeys]
    exact Std.ExtTreeMap.nodup_keys
  · intro record hmem
    rw [values_eq_map_toList] at hmem
    obtain ⟨entry, hin, rfl⟩ := List.mem_map.mp hmem
    obtain ⟨hboot, hfenced⟩ := hentry entry hin
    rw [hboot]
    exact h.known _ (.inl hfenced)

end Identified

end AuthorityRegistry

/-! ## What stands -/

/-- What validation asks of what stands, under a generation counter. -/
structure Standing.Accepted (standing : Standing) (limits : Limits)
    (counter : EvaluationGeneration) : Prop where
  setCount : standing.sets.length ≤ limits.maxConstraintSets.toNat
  evaluationCount : standing.evaluations.length ≤ limits.maxEvaluationsRetained.toNat
  canonical : ∀ set ∈ standing.sets, verifyCanonicalConstraintSet set limits = .ok ()
  setIds : (standing.sets.map (·.id)).Nodup
  population : ∀ population ∈ standing.populations,
    population.Validated limits (standing.sets.map (·.id))
  populations : (standing.populations.map (·.setId)).Nodup
  record : ∀ record ∈ standing.evaluations,
    record.Validated limits (standing.sets.map (·.id))
  indexed : Indexed standing.evaluations
  counted : ∀ record ∈ standing.evaluations, record.generation.value ≤ counter.value

/-- The checks of a record do not look at its state. -/
theorem EvaluationRecord.Validated.restated {limits : Limits} {setIds : List ConstraintSetId}
    {record : EvaluationRecord} (h : record.Validated limits setIds)
    (state : ResultState) :
    ({ record with state } : EvaluationRecord).Validated limits setIds := by
  obtain ⟨⟨hsetId, hpath, hauthority, hgeneration, hreasons⟩, hset, hbound⟩ := h
  exact ⟨⟨hsetId, hpath, hauthority, hgeneration, hreasons.classes, hreasons.ordered,
    hreasons.primary, hreasons.size⟩, hset, hbound⟩

section States

variable {holds : EvaluationRecord → Prop} {evaluations records : List EvaluationRecord}
  (hstate : ∀ record state, holds record → holds { record with state })
include hstate

/-- A demotion keeps what does not depend on the states. -/
theorem forall_demote (selected : EvaluationRecord → Bool)
    (h : ∀ record ∈ evaluations, holds record) :
    ∀ record ∈ demote selected evaluations, holds record := by
  intro record hmem
  obtain ⟨original, horiginal, rfl⟩ := List.mem_map.mp hmem
  split
  · exact hstate original _ (h original horiginal)
  · exact h original horiginal

/-- A commit keeps what does not depend on the states and holds of its batch. -/
theorem forall_commitEvaluations {setId : ConstraintSetId}
    (h : ∀ record ∈ evaluations, holds record) (hbatch : ∀ record ∈ records, holds record) :
    ∀ record ∈ commitEvaluations evaluations setId records, holds record := by
  intro record hmem
  rcases List.mem_append.mp hmem with hold | hnew
  · obtain ⟨original, hretained, rfl⟩ := List.mem_map.mp hold
    have horiginal := (List.mem_filter.mp hretained).1
    split
    · exact hstate original _ (h original horiginal)
    · exact h original horiginal
  · exact hbatch record hnew

end States

namespace Standing.Accepted

variable {standing : Standing} {limits : Limits} {counter : EvaluationGeneration}

theorem demoted (h : standing.Accepted limits counter) (selected : EvaluationRecord → Bool) :
    ({ standing with evaluations := demote selected standing.evaluations } : Standing).Accepted
      limits counter := by
  refine ⟨h.setCount, ?_, h.canonical, h.setIds, h.population, h.populations, ?_,
    h.indexed.demoted selected, ?_⟩
  · rw [length_demote]
    exact h.evaluationCount
  · exact forall_demote (fun _ state hvalid => hvalid.restated state) selected h.record
  · exact forall_demote (fun _ _ hbelow => hbelow) selected h.counted

theorem rejudged (h : standing.Accepted limits counter) (evidence : EvidenceRequirements) :
    ({ standing with evidence } : Standing).Accepted limits counter :=
  ⟨h.setCount, h.evaluationCount, h.canonical, h.setIds, h.population, h.populations, h.record,
    h.indexed, h.counted⟩

/-- Sets may be added and replaced, as long as they are canonical and distinct. -/
theorem redefined (h : standing.Accepted limits counter) {sets : List ConstraintSet}
    (hcount : sets.length ≤ limits.maxConstraintSets.toNat)
    (hcanonical : ∀ set ∈ sets, verifyCanonicalConstraintSet set limits = .ok ())
    (hids : (sets.map (·.id)).Nodup)
    (hkept : standing.sets.map (·.id) ⊆ sets.map (·.id)) :
    ({ standing with sets } : Standing).Accepted limits counter := by
  refine ⟨hcount, h.evaluationCount, hcanonical, hids, ?_, h.populations, ?_, h.indexed,
    h.counted⟩
  · intro population hmem
    have hvalid := h.population population hmem
    exact ⟨hkept hvalid.set, hvalid.size, hvalid.candidates⟩
  · intro record hmem
    have hvalid := h.record record hmem
    exact ⟨hvalid.toValid, hkept hvalid.set, hvalid.bound⟩

end Standing.Accepted

/-- A publication keeps the identities, and adds one that was not there. -/
theorem setIds_publishInto {limits : Limits} {sets after : List ConstraintSet}
    {finalized stored : ConstraintSet}
    (h : publishInto limits sets finalized = .ok (after, stored))
    (hids : (sets.map (·.id)).Nodup) :
    (after.map (·.id)).Nodup ∧ sets.map (·.id) ⊆ after.map (·.id) := by
  rcases publishInto_cases h with ⟨hmissing, rfl, rfl⟩ | ⟨existing, -, hrepublished, rfl⟩
  · rw [List.map_append]
    refine ⟨List.Nodup.append hids (List.nodup_singleton _) ?_, List.subset_append_left _ _⟩
    intro id hold hnew
    obtain ⟨set, hmem, rfl⟩ := List.mem_map.mp hold
    have hother := List.find?_eq_none.mp hmissing set hmem
    apply hother
    exact beq_iff_eq.mpr (List.mem_singleton.mp hnew)
  · have hsame : (replaceFirst (·.id == finalized.id) stored sets).map (·.id) =
        sets.map (·.id) := map_key_replaceFirst (republish_id hrepublished)
    rw [hsame]
    exact ⟨hids, List.Subset.refl _⟩

/-- A request keeps what stands acceptable, as long as the sets stay canonical. -/
theorem Operation.Effect.accepted {impl : Impl} {operation : Operation} {value : Value}
    {standing : Standing} {counter : EvaluationGeneration}
    (h : operation.Effect impl value standing)
    (hbefore : impl.standing.Accepted impl.config.limits counter)
    (hcanonical : ∀ set ∈ standing.sets,
      verifyCanonicalConstraintSet set impl.config.limits = .ok ()) :
    standing.Accepted impl.config.limits counter := by
  cases h with
  | published _ _ _ hpublished =>
      obtain ⟨hids, hkept⟩ := setIds_publishInto hpublished hbefore.setIds
      exact (hbefore.redefined (length_publishInto hpublished hbefore.setCount) hcanonical hids
        hkept).demoted _
  | @moved _ _ _ target state _ _ _ =>
      have hsame : (replaceFirst (·.id == target.id) { target with state } impl.sets).map
          (·.id) = impl.sets.map (·.id) := map_key_replaceFirst rfl
      have hmoved := hbefore.redefined (length_replaceFirst.trans_le hbefore.setCount)
        hcanonical (hsame ▸ hbefore.setIds) (hsame ▸ List.Subset.refl _)
      dsimp only
      split
      · exact hmoved.demoted _
      · exact hmoved
  | advanced => exact (hbefore.rejudged _).demoted _
  | invalidated => exact hbefore.demoted _

/-! ## Commits -/

/-- The set of a call in flight is canonical, and its generation was reserved. -/
structure EvaluationSnapshot.Held (snapshot : EvaluationSnapshot) (limits : Limits) : Prop where
  canonical : verifyCanonicalConstraintSet snapshot.set limits = .ok ()
  named : snapshot.set.id = snapshot.setId
  generation : snapshot.generation.isValid = true

/-- The records that a commit of the snapshot leaves. -/
def commitHistory (impl : Impl) (snapshot : EvaluationSnapshot) (call : Call) :
    List EvaluationRecord :=
  let evaluations := commitEvaluations impl.evaluations snapshot.setId
    (committedRecords impl snapshot call)
  trimHistory (evaluations.length - impl.config.limits.maxEvaluationsRetained.toNat) evaluations

/-- What validation asks of a batch: a population of valid candidates, of which those that are
evaluated bind what the set consults and get reasons that differ, and no record of a later
evaluation beside it. -/
structure AddsValid (impl : Impl) (snapshot : EvaluationSnapshot) (call : Call) : Prop where
  size : snapshot.candidates.length ≤ impl.config.limits.maxCandidatesPerEvaluation.toNat
  candidates : ∀ candidate ∈ snapshot.candidates,
    validateCandidate candidate impl.config.limits = .ok ()
  bound : ∀ candidate ∈ evaluatedCandidates
      (snapshot.evaluationContext impl.config.limits (call.clock 0)) snapshot.candidates,
    ∀ family ∈ kFamilies, consults (consultedMask snapshot.set) family = true →
      evidenceGenerationOf candidate.evidence family ≠ 0
  reasons : ∀ candidate ∈ evaluatedCandidates
      (snapshot.evaluationContext impl.config.limits (call.clock 0)) snapshot.candidates,
    KeepsApart (snapshot.evaluationContext impl.config.limits (call.clock 0)) candidate
  latest : ∀ record ∈ commitHistory impl snapshot call,
    record.generation.value ≤ snapshot.generation.value

section Commit

variable {impl : Impl} {snapshot : EvaluationSnapshot} {call : Call} {next : PersistentState}

theorem validated_of_mem_committedRecords {record : EvaluationRecord}
    {setIds : List ConstraintSetId} (hheld : snapshot.Held impl.config.limits)
    (hadds : AddsValid impl snapshot call) (hpresent : snapshot.setId ∈ setIds)
    (hmem : record ∈ committedRecords impl snapshot call) :
    record.Validated impl.config.limits setIds := by
  obtain ⟨hadmitted, -, candidate, hcandidate, rfl⟩ := mem_committedRecords hmem
  have hevaluated : candidate ∈ evaluatedCandidates
      (snapshot.evaluationContext impl.config.limits (call.clock 0)) snapshot.candidates := by
    rw [evaluatedCandidates_of_accepted hadmitted]
    exact hcandidate
  have hchecked := hadds.candidates candidate (mem_of_mem_evaluatedCandidates hevaluated)
  have hvalid := validateCandidate_eq_ok_iff.mp hchecked
  have hset := verifyCanonicalConstraintSet_eq_ok_iff.mp hheld.canonical
  have hreasons := (@evaluationRecord_canonicalReasons_iff
    (snapshot.evaluationContext impl.config.limits (call.clock 0)) candidate hheld.canonical
    hchecked).mpr (hadds.reasons candidate hevaluated)
  constructor
  · constructor
    · exact hset.1.id
    · exact hvalid.path
    · exact hvalid.authority
    · exact hheld.generation
    · exact ⟨hreasons.classes, hreasons.ordered, hreasons.primary, hreasons.size⟩
  · show snapshot.set.id ∈ setIds
    rw [hheld.named]
    exact hpresent
  · exact hadds.bound candidate hevaluated

/-- A population after a commit is that of the batch, or was there before. -/
theorem mem_commitPopulations {config : CoordinatorConfig}
    {populations after : List CandidatePopulation} {setId : ConstraintSetId}
    {candidates : List CandidatePath}
    (h : commitPopulations config populations setId candidates = some after)
    {population : CandidatePopulation} (hmem : population ∈ after) :
    population = ⟨setId, sortBy (compareOn (·.path)) candidates⟩ ∨
      population ∈ populations := by
  rcases commitPopulations_cases h with ⟨-, rfl⟩ | ⟨-, kept, rfl, hkept⟩
  · exact mem_replaceFirst hmem
  · rcases List.mem_append.mp hmem with hold | hnew
    · right
      rcases hkept with ⟨-, rfl⟩ | ⟨evicted, -, rfl⟩
      · exact hold
      · exact List.mem_cons_of_mem _ hold
    · exact .inl (List.mem_singleton.mp hnew)

/-- A commit of a valid batch keeps what stands acceptable. -/
theorem accepted_of_commitTarget (h : commitTarget impl snapshot call = some next)
    (hbefore : impl.standing.Accepted impl.config.limits impl.lastGeneration)
    (hheld : snapshot.Held impl.config.limits) (hunchanged : DependenciesUnchanged impl snapshot)
    (hadds : AddsValid impl snapshot call)
    (hdistinct : ∀ a ∈ committedRecords impl snapshot call,
      ∀ b ∈ committedRecords impl snapshot call, a.id = b.id → a.path = b.path)
    (hroom : ((Impl.currentRecords impl.evaluations).filter fun record =>
      record.setId != snapshot.setId &&
        record.id ∉ (committedRecords impl snapshot call).map (·.id)).length +
      (committedRecords impl snapshot call).length ≤
        impl.config.limits.maxEvaluationsRetained.toNat) :
    next.standing.Accepted impl.config.limits snapshot.generation := by
  obtain ⟨populations, excess, hwrites⟩ := commitTarget_writes h
  have hcount := length_evaluations_of_commitTarget h hroom
  have hindexed := hwrites.indexed hbefore.indexed hheld.named hdistinct
  obtain ⟨hpopulations, hsets, hevaluations⟩ := commitTarget_standing h
  have hpresent : snapshot.setId ∈ impl.sets.map (·.id) := by
    obtain ⟨live, hfound, -⟩ := hunchanged.1
    rw [← id_of_findSet hfound]
    exact List.mem_map_of_mem (List.mem_of_find?_eq_some hfound)
  have hrecords : ∀ record ∈ next.evaluations,
      record.Validated impl.config.limits (impl.sets.map (·.id)) := by
    rw [hevaluations]
    intro record hmem
    exact forall_commitEvaluations (fun _ state hvalid => hvalid.restated state)
      hbefore.record (fun _ => validated_of_mem_committedRecords hheld hadds hpresent) record
      (trimHistory_sublist.mem hmem)
  have hstored : ∀ population ∈ next.populations,
      population.Validated impl.config.limits (impl.sets.map (·.id)) := by
    intro population hmem
    rcases mem_commitPopulations hpopulations hmem with rfl | hold
    · refine ⟨hpresent, ?_, ?_⟩
      · rw [length_sortBy]
        exact hadds.size
      · intro candidate hcandidate
        exact hadds.candidates candidate (mem_sortBy.mp hcandidate)
    · exact hbefore.population population hold
  have hcounted : ∀ record ∈ next.evaluations,
      record.generation.value ≤ snapshot.generation.value := by
    rw [hevaluations]
    exact hadds.latest
  have hids := nodup_commitPopulations hpopulations hbefore.populations
  constructor
  · show next.sets.length ≤ _
    rw [hsets]
    exact hbefore.setCount
  · exact hcount
  · show ∀ set ∈ next.sets, _
    rw [hsets]
    exact hbefore.canonical
  · show (next.sets.map (·.id)).Nodup
    rw [hsets]
    exact hbefore.setIds
  · show ∀ population ∈ next.populations, population.Validated _ (next.sets.map (·.id))
    rw [hsets]
    exact hstored
  · exact hids
  · show ∀ record ∈ next.evaluations, record.Validated _ (next.sets.map (·.id))
    rw [hsets]
    exact hrecords
  · exact hindexed
  · exact hcounted

end Commit

/-! ## Runs in memory -/

/-- The step adds nothing that validation refuses. -/
structure AddsAcceptable (event : Event) : Prop where
  published : PublishesAssigned event
  registered : FindsPlace event
  distinct : DerivesDistinct event
  history : FindsHistory event
  committed : ∀ ticket snapshot, Commits event ticket snapshot →
    AddsValid event.pre.impl snapshot event.input.call

/-- A coordinator in memory that validation would accept, and goes on accepting. -/
structure Savable (state : SystemState) : Prop where
  memory : state.impl.durable = false
  epoch : Generation.isRepresentable state.impl.authority.epoch.value = true
  identified : state.impl.authority.Identified
  within : state.impl.authority.Within state.impl.config.limits
  live : (Impl.liveBoots state.impl.authority).length ≤
    state.impl.config.limits.maxFencedBoots.toNat
  attempt : ∀ record ∈ state.impl.authority.attempts, record.attempt.isValid = true
  standing : state.impl.standing.Accepted state.impl.config.limits state.impl.lastGeneration
  held : ∀ ticket snapshot, state.flights ticket = some (.evaluating snapshot) →
    snapshot.Held state.impl.config.limits

/-- The counter does not decrease but by a commit. -/
theorem counter_le_of_not_commits {event : Event}
    (h : Transition event.pre event.input.call event.input.action event.output event.post)
    (hnone : ∀ ticket snapshot, ¬ Commits event ticket snapshot) :
    event.pre.impl.lastGeneration.value ≤ event.post.impl.lastGeneration.value := by
  apply h.counter_le_iff.mpr
  intro ticket snapshot hfinish hgate
  cases h.finishOutcome hfinish with
  | moved _ hmoved => exact absurd hgate.1 hmoved
  | unwritten next _ htarget herror =>
      rw [hgate.2 next htarget] at herror
      cases herror
  | committed next outcome _ _ _ houtput hcommitted =>
      exact absurd ⟨hfinish, outcome, houtput, hcommitted⟩ (hnone ticket snapshot)

/-- A commit sets the counter to the generation of its snapshot. -/
theorem counter_of_commits {event : Event} {ticket : Nat} {snapshot : EvaluationSnapshot}
    (h : Transition event.pre event.input.call event.input.action event.output event.post)
    (hcommits : Commits event ticket snapshot) :
    event.post.impl.lastGeneration = snapshot.generation := by
  obtain ⟨outcome, houtput, hcommitted⟩ := hcommits.reports
  cases h.finishOutcome hcommits.toFinishes with
  | moved other _ hother hnot =>
      rw [houtput] at hother
      cases hother
      rw [hcommitted] at hnot
      cases hnot
  | unwritten next error _ _ hother =>
      rw [houtput] at hother
      cases hother
  | committed next _ _ htarget _ _ _ _ _ hpost =>
      obtain ⟨_, _, hwrites⟩ := commitTarget_writes htarget
      rw [hpost, Impl.applyState_lastGeneration]
      exact hwrites.generation

theorem Standing.Accepted.raised {standing : Standing} {limits : Limits}
    {counter later : EvaluationGeneration} (h : standing.Accepted limits counter)
    (hle : counter.value ≤ later.value) : standing.Accepted limits later :=
  ⟨h.setCount, h.evaluationCount, h.canonical, h.setIds, h.population, h.populations, h.record,
    h.indexed, fun record hmem => UInt64.le_trans (h.counted record hmem) hle⟩

/-- What stands stays acceptable. -/
theorem Savable.standing_step {event : Event} (h : Savable event.pre) (hsound : Sound event.pre)
    (htransition : Transition event.pre event.input.call event.input.action event.output
      event.post) (hadds : AddsAcceptable event) :
    event.post.impl.standing.Accepted event.pre.impl.config.limits
      event.post.impl.lastGeneration := by
  have hcanonical := StoresCanonical.step hsound htransition hadds.published
    h.standing.canonical
  unfold StoresCanonical at hcanonical
  rw [(htransition.impl_kept hsound.derived).1] at hcanonical
  cases htransition.standingStep with
  | kept hstanding hnone =>
      rw [hstanding]
      exact h.standing.raised (counter_le_of_not_commits htransition hnone)
  | operated operation value haction heffect =>
      apply (heffect.accepted h.standing hcanonical).raised
      apply counter_le_of_not_commits htransition
      intro ticket snapshot hcommits
      have hfinish := hcommits.action
      rw [haction] at hfinish
      cases hfinish
  | committed ticket snapshot next hcommits hunchanged htarget _ hstanding =>
      rw [hstanding, counter_of_commits htransition hcommits]
      exact accepted_of_commitTarget htarget h.standing
        (h.held ticket snapshot hcommits.flight) hunchanged
        (hadds.committed ticket snapshot hcommits) (hadds.distinct ticket snapshot hcommits)
        (hadds.history ticket snapshot hcommits)

/-- A call in flight holds a canonical set and a generation that was reserved. -/
theorem Savable.held_step {event : Event} (h : Savable event.pre)
    (htransition : Transition event.pre event.input.call event.input.action event.output
      event.post) {ticket : Nat} {snapshot : EvaluationSnapshot}
    (hflight : event.post.flights ticket = some (.evaluating snapshot)) :
    snapshot.Held event.pre.impl.config.limits := by
  rcases htransition.flights hflight with hbefore | ⟨-, -, ⟨hreply, -⟩ | ⟨-, _, _, hread⟩⟩
  · exact h.held ticket snapshot hbefore
  · obtain ⟨-, -, _, _, _, hcaptured, -⟩ := htransition.starts ⟨hreply, hflight⟩
    have hmem := List.mem_of_find?_eq_some hcaptured.set
    refine ⟨h.standing.canonical _ hmem, ?_, ?_⟩
    · rw [hcaptured.target]
      exact id_of_findSet hcaptured.set
    · have hless := Generation.lt_of_next hcaptured.generation
      rw [UInt64.lt_iff_toNat_lt] at hless
      apply bne_iff_ne.mpr
      intro hzero
      rw [hzero] at hless
      cases hless
  · cases hread

/-- A step that adds nothing that validation refuses keeps the coordinator savable. -/
theorem Savable.step {before : List Event} {event : Event} (h : Savable event.pre)
    (hexecution : Execution before event.pre) (htaken : event.Taken step)
    (hadds : AddsAcceptable event) : Savable event.post := by
  have hsound := hexecution.sound
  have htransition := step_transition hsound.limits htaken
  obtain ⟨hconfig, hdurable, -, -⟩ := htransition.impl_kept hsound.derived
  have hmoves := moves_of_taken htaken
  have hunfenced := (Reachable.enrolled ⟨before, hexecution⟩).unfenced
  have hepoch : event.post.impl.authority.epoch = event.pre.impl.authority.epoch := by
    rcases (section_of_taken htaken).registry with hreplied | hwrote
    · exact hreplied.epoch
    · exact hwrote.epoch
  constructor
  · exact hdurable.trans h.memory
  · rw [hepoch]
    exact h.epoch
  · exact h.identified.moved hmoves
  · rw [hconfig]
    exact h.within.moved (maxMutationAttempts_pos hsound.limits) hmoves
  · rw [hconfig]
    exact length_liveBoots_of_taken htaken h.memory hunfenced hadds.registered h.live
  · intro record hmem
    rcases (window_of_taken htaken).mem hmem with hold | ⟨context, -, hvalid, -, hattempt⟩
    · exact h.attempt record hold
    · rw [hattempt]
      exact hvalid
  · rw [hconfig]
    exact h.standing_step hsound htransition hadds
  · intro ticket snapshot hflight
    rw [hconfig]
    exact h.held_step htransition hflight

/-- Validation accepts what a savable coordinator projects. -/
theorem Savable.validated {state : SystemState} (h : Savable state)
    (hlimits : validateLimits state.impl.config.limits = .ok ())
    (hattempts : (state.impl.authority.attempts.map (·.attempt)).Nodup) :
    Validated state.impl.toState state.impl.config.limits := by
  obtain ⟨hfencedBoots, hfenced⟩ := h.identified.fencedBoots
  have hstanding := h.standing
  constructor
  · exact hlimits
  · exact fun _ => h.epoch
  · exact hstanding.setCount
  · exact hstanding.evaluationCount
  · show state.impl.authority.fenced.values.length ≤ _
    rw [values_eq_map_toList, List.length_map, Std.ExtTreeMap.length_toList]
    exact h.within.fenced
  · exact h.within.attempts
  · exact hstanding.canonical
  · exact hstanding.setIds
  · exact hstanding.population
  · exact hstanding.populations
  · exact hstanding.record
  · exact hstanding.indexed.identities
  · exact hstanding.indexed.keys
  · intro hsome
    refine ⟨?_, hstanding.counted⟩
    obtain ⟨record, hmem⟩ := List.exists_mem_of_ne_nil _ hsome
    have hvalid := (hstanding.record record hmem).generation
    have hbelow := hstanding.counted record hmem
    apply bne_iff_ne.mpr
    intro hzero
    have hreal := bne_iff_ne.mp hvalid
    apply hreal
    change state.impl.lastGeneration.value = 0 at hzero
    rw [hzero, UInt64.le_iff_toNat_le] at hbelow
    exact UInt64.toNat_inj.mp (Nat.le_zero.mp hbelow)
  · exact h.live
  · intro boot hmem
    obtain ⟨registration, hlive, rfl⟩ := AuthorityRegistry.mem_liveBoots.mp hmem
    obtain ⟨hregistered, hlive⟩ := AuthorityRegistry.mem_liveRegistrations.mp hlive
    exact h.identified.known _ (.inr ⟨registration, hregistered, hlive, rfl⟩)
  · exact nodup_eraseDups _
  · exact hfenced
  · exact hfencedBoots
  · exact h.attempt
  · exact hattempts

end ConstraintRouting.Fabric
