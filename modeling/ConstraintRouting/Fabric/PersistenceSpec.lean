import ConstraintRouting.Fabric.CandidateSpec
import ConstraintRouting.Fabric.Persistence
import ConstraintRouting.Verified.KeyedTables

/-!
# What a validated state holds

Validation of a persisted state as the conjunction of its checks: bounded counts,
canonical sets, populations and records of present sets, a generation counter that is
not behind its records, and distinct valid identities.
-/

namespace ConstraintRouting.Fabric

open Verified.Checks (seq_eq_ok forM_eq_ok)
open Verified.SortedLists
open Verified.KeyedTables (Distinct distinct_nil distinct_cons distinct_empty)

/-! ## Scans -/

theorem validateSets_eq_ok {limits : Limits} {seen : List ConstraintSetId}
    {sets : List ConstraintSet} : validateSets limits seen sets = .ok () ↔
      (∀ set ∈ sets, verifyCanonicalConstraintSet set limits = .ok ()) ∧
        Distinct seen (sets.map (·.id)) := by
  induction sets generalizing seen with
  | nil => simp [validateSets, distinct_nil]
  | cons first rest ih =>
      rw [validateSets, seq_eq_ok, failIf_eq_ok, List.map_cons, distinct_cons,
        List.forall_mem_cons, decide_eq_false_iff_not]
      cases hverified : verifyCanonicalConstraintSet first limits with
      | error error => simp [failure, bind, Except.bind]
      | ok _ =>
          simp only [ih, true_and]
          exact ⟨fun ⟨h, hall, hrest⟩ => ⟨hall, h, hrest⟩, fun ⟨hall, h, hrest⟩ => ⟨h, hall, hrest⟩⟩

theorem validatePopulationCandidate_eq_ok {limits : Limits} {candidate : CandidatePath} :
    validatePopulationCandidate limits candidate = .ok () ↔
      validateCandidate candidate limits = .ok () := by
  unfold validatePopulationCandidate
  cases validateCandidate candidate limits <;> simp [failure]

/-- A population of a present set, within the limit, of valid candidates. -/
structure CandidatePopulation.Validated (limits : Limits) (setIds : List ConstraintSetId)
    (population : CandidatePopulation) : Prop where
  set : population.setId ∈ setIds
  size : population.candidates.length ≤ limits.maxCandidatesPerEvaluation.toNat
  candidates : ∀ candidate ∈ population.candidates,
    validateCandidate candidate limits = .ok ()

theorem validatePopulations_eq_ok {limits : Limits} {setIds seen : List ConstraintSetId}
    {populations : List CandidatePopulation} :
    validatePopulations limits setIds seen populations = .ok () ↔
      (∀ population ∈ populations, population.Validated limits setIds) ∧
        Distinct seen (populations.map (·.setId)) := by
  induction populations generalizing seen with
  | nil => simp [validatePopulations, distinct_nil]
  | cons first rest ih =>
      simp only [validatePopulations, seq_eq_ok, failIf_eq_ok, forM_eq_ok, ih,
        decide_eq_false_iff_not, not_not, Bool.not_eq_false', listWithin_eq_true,
        validatePopulationCandidate_eq_ok, List.map_cons, distinct_cons, List.forall_mem_cons]
      constructor
      · intro h
        obtain ⟨hset, hunseen, hsize, hcandidates, hrest, hdistinct⟩ := h
        exact ⟨⟨⟨hset, hsize, hcandidates⟩, hrest⟩, hunseen, hdistinct⟩
      · intro h
        obtain ⟨⟨hfirst, hrest⟩, hunseen, hdistinct⟩ := h
        exact ⟨hfirst.set, hunseen, hfirst.size, hfirst.candidates, hrest, hdistinct⟩

theorem validateReasons_eq_ok {previous : Option Reason} {reasons : List Reason} :
    validateReasons previous reasons = .ok () ↔
      (∀ reason ∈ reasons, reasonClassOf reason.code = reason.reasonClass) ∧
        List.IsChain (fun a b => compareReason a b = .lt) (previous.toList ++ reasons) := by
  induction reasons generalizing previous with
  | nil => cases previous <;> simp [validateReasons]
  | cons first rest ih =>
      simp only [validateReasons, seq_eq_ok, failIf_eq_ok, ih, bne_eq_false_iff_eq,
        List.forall_mem_cons]
      cases previous with
      | none =>
          simp only [Option.any_none, Option.toList_none, Option.toList_some, List.nil_append,
            List.singleton_append, true_and]
          exact ⟨fun ⟨h, hall, hchain⟩ => ⟨⟨h, hall⟩, hchain⟩,
            fun ⟨⟨h, hall⟩, hchain⟩ => ⟨h, hall, hchain⟩⟩
      | some last =>
          simp only [Option.any_some, Option.toList_some, List.singleton_append,
            List.isChain_cons_cons, reasonLess, Bool.not_eq_false', decide_eq_true_eq]
          exact ⟨fun ⟨h, hless, hall, hchain⟩ => ⟨⟨h, hall⟩, hless, hchain⟩,
            fun ⟨⟨h, hall⟩, hless, hchain⟩ => ⟨h, hless, hall, hchain⟩⟩

/-! ## Records -/

/-- Reasons of the right class in canonical order, led by the primary one. -/
structure EvaluationRecord.CanonicalReasons (limits : Limits) (record : EvaluationRecord) :
    Prop where
  classes : ∀ reason ∈ record.reasons, reasonClassOf reason.code = reason.reasonClass
  ordered : strictlyAscending compareReason record.reasons = true
  primary : record.primaryReason = headReason record.reasons
  size : record.reasons.length ≤ limits.maxExplanationReasons.toNat

theorem validateRecordReasons_eq_ok {limits : Limits} {record : EvaluationRecord} :
    validateRecordReasons limits record = .ok () ↔ record.CanonicalReasons limits := by
  have hcanonical : record.CanonicalReasons limits ↔
      ((∀ reason ∈ record.reasons, reasonClassOf reason.code = reason.reasonClass) ∧
        List.IsChain (fun a b => compareReason a b = .lt) record.reasons) ∧
      record.primaryReason = headReason record.reasons ∧
      record.reasons.length ≤ limits.maxExplanationReasons.toNat :=
    ⟨fun h => ⟨⟨h.classes, of_decide_eq_true h.ordered⟩, h.primary, h.size⟩,
      fun ⟨⟨hclasses, hordered⟩, hprimary, hsize⟩ =>
        ⟨hclasses, decide_eq_true hordered, hprimary, hsize⟩⟩
  rw [hcanonical, validateRecordReasons, seq_eq_ok, validateReasons_eq_ok]
  cases hreasons : record.reasons with
  | nil =>
      simp only [Option.toList_none, List.nil_append, seq_eq_ok, failIf_eq_ok,
        bne_eq_false_iff_eq, Bool.not_eq_false', listWithin_eq_true, headReason]
  | cons front rest =>
      simp only [Option.toList_none, List.nil_append, seq_eq_ok, failIf_eq_ok,
        bne_eq_false_iff_eq, Bool.not_eq_false', listWithin_eq_true, headReason]

/-- A record with real identities and canonical reasons. -/
structure EvaluationRecord.Valid (limits : Limits) (record : EvaluationRecord) : Prop where
  setId : record.setId.isValid = true
  path : record.path.isValid = true
  authorityGeneration : record.authorityGeneration.isValid = true
  generation : record.generation.isValid = true
  reasons : record.CanonicalReasons limits

/-- A valid record of a present set, that binds every family it consulted. -/
structure EvaluationRecord.Validated (limits : Limits) (setIds : List ConstraintSetId)
    (record : EvaluationRecord) : Prop extends record.Valid limits where
  set : record.setId ∈ setIds
  bound : ∀ family ∈ kFamilies, consults record.consulted family = true →
    evidenceGenerationOf record.evidence family ≠ 0

/-- The result keys of the current records. -/
def currentKeys (evaluations : List EvaluationRecord) : List (UInt64 × UInt64) :=
  (evaluations.filter (·.state = .current)).map (·.resultKey)

theorem validateEvaluations_eq_ok {limits : Limits} {setIds : List ConstraintSetId}
    {ids : List ConstraintEvaluationId} {keys : List (UInt64 × UInt64)}
    {evaluations : List EvaluationRecord} :
    validateEvaluations limits setIds ids keys evaluations = .ok () ↔
      (∀ record ∈ evaluations, record.Validated limits setIds) ∧
        Distinct ids (evaluations.map (·.id)) ∧ Distinct keys (currentKeys evaluations) := by
  induction evaluations generalizing ids keys with
  | nil => simp [validateEvaluations, currentKeys, distinct_nil]
  | cons first rest ih =>
      have hfirst : first.Validated limits setIds ↔
          (first.setId.isValid = true ∧ first.path.isValid = true ∧
            first.authorityGeneration.isValid = true ∧ first.generation.isValid = true) ∧
          first.setId ∈ setIds ∧ first.CanonicalReasons limits ∧
          ∀ family ∈ kFamilies, consults first.consulted family = true →
            evidenceGenerationOf first.evidence family ≠ 0 :=
        ⟨fun h => ⟨⟨h.setId, h.path, h.authorityGeneration, h.generation⟩, h.set, h.reasons,
            h.bound⟩,
          fun ⟨⟨h1, h2, h3, h4⟩, hset, hreasons, hbound⟩ =>
            ⟨⟨h1, h2, h3, h4, hreasons⟩, hset, hbound⟩⟩
      have hkeys : (¬ (first.state = .current ∧ first.resultKey ∈ keys) ∧
          Distinct (if first.state = .current then first.resultKey :: keys else keys)
            (currentKeys rest)) ↔ Distinct keys (currentKeys (first :: rest)) := by
        by_cases hcurrent : first.state = .current
        · have hfilter : currentKeys (first :: rest) = first.resultKey :: currentKeys rest := by
            simp [currentKeys, hcurrent]
          rw [hfilter, distinct_cons, if_pos hcurrent]
          simp only [hcurrent, true_and]
        · have hfilter : currentKeys (first :: rest) = currentKeys rest := by
            simp [currentKeys, hcurrent]
          rw [hfilter, if_neg hcurrent]
          simp only [hcurrent, false_and, not_false_eq_true, true_and]
      rw [List.forall_mem_cons, List.map_cons, distinct_cons, ← hkeys, hfirst]
      simp only [validateEvaluations, seq_eq_ok, failIf_eq_ok, ih, validateRecordReasons_eq_ok,
        Bool.or_eq_false_iff, Bool.not_eq_false', decide_eq_false_iff_not, not_not,
        Bool.and_eq_false_imp, List.any_eq_false, Bool.and_eq_true, decide_eq_true_eq, not_and, ne_eq, and_assoc]
      constructor
      · intro h
        obtain ⟨hid, h1, h2, h3, h4, hset, hreasons, hkey, hbound, hrest, hids, hlater⟩ := h
        exact ⟨h1, h2, h3, h4, hset, hreasons, hbound, hrest, hid, hids, hkey, hlater⟩
      · intro h
        obtain ⟨h1, h2, h3, h4, hset, hreasons, hbound, hrest, hid, hids, hkey, hlater⟩ := h
        exact ⟨hid, h1, h2, h3, h4, hset, hreasons, hkey, hbound, hrest, hids, hlater⟩

theorem validateIdentities_eq_ok {α : Type} {domain : IdentityDomain}
    {key : α → StrongId domain} {zero duplicate : String} {seen : List (StrongId domain)}
    {entries : List α} :
    validateIdentities key zero duplicate seen entries = .ok () ↔
      (∀ entry ∈ entries, (key entry).isValid = true) ∧ Distinct seen (entries.map key) := by
  induction entries generalizing seen with
  | nil => simp [validateIdentities, distinct_nil]
  | cons first rest ih =>
      simp only [validateIdentities, seq_eq_ok, failIf_eq_ok, ih, Bool.not_eq_false',
        decide_eq_false_iff_not, List.map_cons, distinct_cons, List.forall_mem_cons]
      exact ⟨fun ⟨h, hunseen, hrest, hdistinct⟩ => ⟨⟨h, hrest⟩, hunseen, hdistinct⟩,
        fun ⟨⟨h, hrest⟩, hunseen, hdistinct⟩ => ⟨h, hunseen, hrest, hdistinct⟩⟩

theorem highestGeneration_le {evaluations : List EvaluationRecord} {bound : UInt64} :
    highestGeneration evaluations ≤ bound ↔
      ∀ record ∈ evaluations, record.generation.value ≤ bound := by
  have hmax : ∀ a b : UInt64, max a b ≤ bound ↔ a ≤ bound ∧ b ≤ bound := by
    intro a b
    show (if a ≤ b then b else a) ≤ bound ↔ _
    simp only [UInt64.le_iff_toNat_le]
    split <;> omega
  have hfold : ∀ start : UInt64,
      evaluations.foldl (fun highest record => max highest record.generation.value) start ≤
        bound ↔ start ≤ bound ∧ ∀ record ∈ evaluations, record.generation.value ≤ bound := by
    induction evaluations with
    | nil => simp
    | cons first rest ih =>
        intro start
        rw [List.foldl_cons, ih, List.forall_mem_cons, ← and_assoc]
        exact and_congr_left' (hmax start first.generation.value)
  rw [highestGeneration, hfold]
  exact and_iff_right (UInt64.zero_le)

/-! ## States -/

/-- The checks of a validated state. -/
structure Validated (state : PersistentState) (limits : Limits) : Prop where
  limitsValid : validateLimits limits = .ok ()
  epoch : state.epoch.isValid = true → Generation.isRepresentable state.epoch.value = true
  setCount : state.sets.length ≤ limits.maxConstraintSets.toNat
  evaluationCount : state.evaluations.length ≤ limits.maxEvaluationsRetained.toNat
  fencedCount : state.fencedBoots.length ≤ limits.maxFencedBoots.toNat
  attemptCount : state.attempts.length ≤ limits.maxMutationAttempts.toNat
  canonical : ∀ set ∈ state.sets, verifyCanonicalConstraintSet set limits = .ok ()
  setIds : (state.sets.map (·.id)).Nodup
  population : ∀ population ∈ state.populations,
    population.Validated limits (state.sets.map (·.id))
  populations : (state.populations.map (·.setId)).Nodup
  record : ∀ record ∈ state.evaluations, record.Validated limits (state.sets.map (·.id))
  evaluationIds : (state.evaluations.map (·.id)).Nodup
  results : (currentKeys state.evaluations).Nodup
  counter : state.evaluations ≠ [] → state.lastEvaluationGeneration.isValid = true ∧
    ∀ record ∈ state.evaluations,
      record.generation.value ≤ state.lastEvaluationGeneration.value
  liveCount : state.liveBoots.length ≤ limits.maxFencedBoots.toNat
  live : ∀ boot ∈ state.liveBoots, boot.isValid = true
  liveBoots : state.liveBoots.Nodup
  fenced : ∀ record ∈ state.fencedBoots, record.boot.isValid = true
  fencedBoots : (state.fencedBoots.map (·.boot)).Nodup
  attempt : ∀ record ∈ state.attempts, record.attempt.isValid = true
  attempts : (state.attempts.map (·.attempt)).Nodup

/-- Validation accepts exactly the states that pass each check. -/
theorem validatePersistentState_eq_ok {state : PersistentState} {limits : Limits} :
    validatePersistentState state limits = .ok () ↔ Validated state limits := by
  have hcounter : (!state.evaluations.isEmpty &&
      (!state.lastEvaluationGeneration.isValid ||
        state.lastEvaluationGeneration.value < highestGeneration state.evaluations)) = false ↔
      (state.evaluations ≠ [] → state.lastEvaluationGeneration.isValid = true ∧
        ∀ record ∈ state.evaluations,
          record.generation.value ≤ state.lastEvaluationGeneration.value) := by
    rw [← highestGeneration_le]
    by_cases hempty : state.evaluations = []
    · simp [hempty]
    · simp [hempty]
  unfold validatePersistentState
  cases hlimits : validateLimits limits with
  | error why =>
      constructor
      · intro h
        cases h
      · intro h
        have hok := h.limitsValid
        rw [hlimits] at hok
        cases hok
  | ok _ =>
      simp only [seq_eq_ok, failIf_eq_ok, Bool.not_eq_false', listWithin_eq_true, hcounter,
        validateSets_eq_ok, validatePopulations_eq_ok, validateEvaluations_eq_ok,
        validateIdentities_eq_ok, distinct_empty, List.map_id, id_eq, Bool.and_eq_false_imp]
      constructor
      · intro h
        obtain ⟨hepoch, h1, h2, h3, h4, ⟨h5, h6⟩, ⟨h7, h8⟩, ⟨h9, h10, h11⟩, h12, h13,
          ⟨h14, h15⟩, ⟨h16, h17⟩, h18, h19⟩ := h
        exact ⟨hlimits, fun hvalid => hepoch hvalid, h1, h2, h3, h4, h5, h6, h7, h8, h9, h10,
          h11, h12, h13, h14, h15, h16, h17, h18, h19⟩
      · intro h
        exact ⟨h.epoch, h.setCount, h.evaluationCount, h.fencedCount, h.attemptCount,
          ⟨h.canonical, h.setIds⟩, ⟨h.population, h.populations⟩,
          ⟨h.record, h.evaluationIds, h.results⟩, h.counter, h.liveCount,
          ⟨h.live, h.liveBoots⟩, ⟨h.fenced, h.fencedBoots⟩, h.attempt, h.attempts⟩

end ConstraintRouting.Fabric
