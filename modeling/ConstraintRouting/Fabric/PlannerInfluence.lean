import ConstraintRouting.Fabric.ArrivalOrder
import ConstraintRouting.Fabric.OrderingSpec

/-!
# What the planner's data decides where the planner is not consulted

Two populations that differ in planner data alone are evaluated under one context.  The
consulted mask leaves the planner out although the ranking may read its rank, and the
structural checks always read its figures.
-/

namespace ConstraintRouting.Fabric

open Verified.Checks (seq_eq_ok failIf_eq_ok)
open Verified.SortedLists

/-- The candidate without a rank and without a cost, bound to one planner generation. -/
def CandidatePath.replanned (candidate : CandidatePath) : CandidatePath :=
  { candidate with
    plannerGeneration := ⟨1⟩, hasPlannerRank := false, plannerRank := 0
    hasPlannerCost := false, plannerCost := 0, costModel := .none
    latency.plannerGeneration := ⟨1⟩, evidence.planner := ⟨1⟩ }

/-- The planner data of a candidate is well formed. -/
structure CandidatePath.PlannerSound (candidate : CandidatePath) : Prop where
  generation : candidate.latency.source = .plannerCost →
    candidate.latency.plannerGeneration.isValid = true ∧
      candidate.latency.plannerGeneration = candidate.evidence.planner
  cost : candidate.hasPlannerCost = true ↔ candidate.costModel ≠ .none

/-- The candidate passes every gate and meets every mandatory constraint. -/
def Admits (context : EvaluationContext) (candidate : CandidatePath) : Prop :=
  GateConditions context candidate ∧ mandatoryReasons context candidate = []

section Replanned

variable {context : EvaluationContext} {candidate : CandidatePath} {limits : Limits}

private theorem validateLatency_replanned :
    validateLatency candidate.latency candidate.evidence = .ok () ↔
      validateLatency candidate.replanned.latency candidate.replanned.evidence = .ok () ∧
        (candidate.latency.source = .plannerCost →
          candidate.latency.plannerGeneration.isValid = true ∧
            candidate.latency.plannerGeneration = candidate.evidence.planner) := by
  have hvalid : (⟨1⟩ : PlannerGeneration).isValid = true := rfl
  cases hsource : candidate.latency.source with
  | unset => simp [validateLatency, CandidatePath.replanned, hsource]
  | plannerCost =>
      simp only [validateLatency, CandidatePath.replanned, hsource, hvalid, reduceCtorEq,
        if_false, seq_eq_ok, failIf_eq_ok]
      simp
  | observedLatency =>
      simp only [validateLatency, CandidatePath.replanned, hsource, hvalid, reduceCtorEq,
        if_false, seq_eq_ok, failIf_eq_ok]
      simp

/-- A candidate is valid exactly when its planner data is well formed and the rest of it
is valid. -/
theorem validateCandidate_replanned :
    validateCandidate candidate limits = .ok () ↔
      validateCandidate candidate.replanned limits = .ok () ∧ candidate.PlannerSound := by
  have hsound : candidate.PlannerSound ↔
      (candidate.latency.source = .plannerCost →
        candidate.latency.plannerGeneration.isValid = true ∧
          candidate.latency.plannerGeneration = candidate.evidence.planner) ∧
      (candidate.hasPlannerCost && candidate.costModel = .none) = false ∧
      (!candidate.hasPlannerCost && candidate.costModel != .none) = false := by
    constructor
    · intro ⟨hgeneration, hcost⟩
      refine ⟨hgeneration, ?_⟩
      cases hhas : candidate.hasPlannerCost <;> simp_all
    · intro ⟨hgeneration, hboth, hneither⟩
      refine ⟨hgeneration, ?_⟩
      cases hhas : candidate.hasPlannerCost <;> simp_all
  rw [hsound]
  simp only [validateCandidate, seq_eq_ok, failIf_eq_ok]
  rw [validateLatency_replanned]
  simp only [CandidatePath.replanned]
  tauto

theorem mandatoryReasons_replanned :
    mandatoryReasons context candidate.replanned = mandatoryReasons context candidate := by
  rfl

theorem collectPreferences_replanned :
    collectPreferences context candidate.replanned = collectPreferences context candidate := by
  rfl

/-- A ranking that consumes the planner's cost consults the planner. -/
private theorem consumePlannerCost_of_unconsulted
    (hplanner : consults (consultedMask context.set) .planner = false) :
    context.set.ranking.consumePlannerCost = false := by
  by_contra hconsumes
  rw [Bool.not_eq_false] at hconsumes
  have hbit : familyBit .planner ≠ 0 := by decide
  have habsorbs : ∀ mask bit : UInt32, (mask ||| bit) &&& bit = bit := by
    intro mask bit
    rw [← UInt32.toBitVec_inj]
    ext index hindex
    simp only [UInt32.toBitVec_and, UInt32.toBitVec_or, BitVec.getElem_and, BitVec.getElem_or]
    cases bit.toBitVec[index] <;> simp
  unfold consults consultedMask at hplanner
  rw [if_pos hconsumes, bne_eq_false_iff_eq, habsorbs] at hplanner
  exact hbit hplanner

/-- Where the planner is not consulted, a candidate is admitted exactly when its planner
data is well formed and the rest of it is admitted. -/
theorem admits_iff (hplanner : consults (consultedMask context.set) .planner = false) :
    Admits context candidate ↔ Admits context candidate.replanned ∧ candidate.PlannerSound := by
  have hcost := consumePlannerCost_of_unconsulted hplanner
  have hfamilies : ∀ family ∈ currentnessFamilies,
      consults (consultedMask context.set) family = true →
        (FamilyCurrent context.current candidate.evidence family ↔
          FamilyCurrent context.current candidate.replanned.evidence family) := by
    intro family _ hconsulted
    cases family with
    | planner =>
        rw [hplanner] at hconsulted
        cases hconsulted
    | _ => exact Iff.rfl
  unfold Admits
  rw [mandatoryReasons_replanned]
  constructor
  · intro ⟨hgates, hmandatory⟩
    obtain ⟨hrest, hsound⟩ := validateCandidate_replanned.mp hgates.candidateValid
    refine ⟨⟨?_, hmandatory⟩, hsound⟩
    exact { hgates with
      candidateValid := hrest
      familiesCurrent := fun family hmem hconsulted =>
        (hfamilies family hmem hconsulted).mp (hgates.familiesCurrent family hmem hconsulted)
      costModel := fun hconsumes => absurd hconsumes (by simp [hcost]) }
  · intro ⟨⟨hgates, hmandatory⟩, hsound⟩
    refine ⟨?_, hmandatory⟩
    exact { hgates with
      candidateValid := validateCandidate_replanned.mpr ⟨hgates.candidateValid, hsound⟩
      familiesCurrent := fun family hmem hconsulted =>
        (hfamilies family hmem hconsulted).mpr (hgates.familiesCurrent family hmem hconsulted)
      costModel := fun hconsumes => absurd hconsumes (by simp [hcost]) }

end Replanned

section Records

variable {context : EvaluationContext} {candidate : CandidatePath}

/-- The record of a candidate is admissible exactly when the candidate is admitted. -/
theorem isAdmissible_iff_admits (hlimits : validateLimits context.limits = .ok ()) :
    (evaluationRecord context candidate).isAdmissible = true ↔ Admits context candidate := by
  rw [evaluationRecord_isAdmissible_iff hlimits, collectReasons_eq_nil_iff,
    admissionReasons_eq_nil_iff]
  rfl

/-- The preferences of an admitted candidate. -/
private theorem preferences_of_admits (h : Admits context candidate) :
    (evaluationRecord context candidate).preferences = collectPreferences context candidate := by
  have hnone : (collectReasons context candidate).reasons = [] :=
    collectReasons_eq_nil_iff.mpr ⟨admissionReasons_eq_nil_iff.mpr h.1, h.2⟩
  simp only [evaluationRecord, hnone, List.isEmpty_nil, if_true]

/-- The entries of a population stand for its admitted candidates. -/
private theorem mem_entries_iff {candidates : List CandidatePath} {entry : RankedCandidate}
    (hlimits : validateLimits context.limits = .ok ()) :
    entry ∈ admissibleEntries (candidates.map (evaluationRecord context)) ↔
      ∃ index, ∃ h : index < candidates.length, Admits context candidates[index] ∧
        entry = ⟨candidates[index].path, UInt32.ofNat index⟩ := by
  rw [mem_admissibleEntries]
  constructor
  · intro ⟨index, hindex, hadmissible, hentry⟩
    rw [List.getElem_map] at hadmissible hentry
    rw [List.length_map] at hindex
    exact ⟨index, hindex, (isAdmissible_iff_admits hlimits).mp hadmissible, hentry⟩
  · intro ⟨index, hindex, hadmits, hentry⟩
    refine ⟨index, by rw [List.length_map]; exact hindex, ?_⟩
    rw [List.getElem_map]
    exact ⟨(isAdmissible_iff_admits hlimits).mpr hadmits, hentry⟩

/-- The entry of one position is there exactly when its candidate is admitted. -/
private theorem entry_mem_iff {candidates : List CandidatePath} {index : Nat}
    (hlimits : validateLimits context.limits = .ok ())
    (hrange : candidates.length ≤ UInt32.size) (h : index < candidates.length) :
    (⟨candidates[index].path, UInt32.ofNat index⟩ : RankedCandidate) ∈
      admissibleEntries (candidates.map (evaluationRecord context)) ↔
        Admits context candidates[index] := by
  rw [mem_entries_iff hlimits]
  constructor
  · intro ⟨other, hother, hadmits, hentry⟩
    rw [RankedCandidate.mk.injEq] at hentry
    have hindex := congrArg UInt32.toNat hentry.2
    rw [UInt32.toNat_ofNat_of_lt' (by omega), UInt32.toNat_ofNat_of_lt' (by omega)] at hindex
    subst hindex
    exact hadmits
  · intro hadmits
    exact ⟨index, h, hadmits, rfl⟩

/-- How the policy ranks two candidates whose preferences tie. -/
def compareTied (a b : CandidatePath) (policy : RankingPolicy) : Ordering :=
  (comparePlannerRank a b policy).then (compareTiebreak a b policy)

/-- How two admitted candidates are ranked when the cost is not consumed. -/
private theorem cmp_of_admits {a b : CandidatePath}
    (hcost : context.set.ranking.consumePlannerCost = false) (ha : Admits context a)
    (hb : Admits context b) :
    Contender.cmp context.set.ranking ⟨evaluationRecord context a, a⟩
        ⟨evaluationRecord context b, b⟩ =
      (comparePreferences (collectPreferences context a) (collectPreferences context b)).then
        (compareTied a b context.set.ranking) := by
  have hnone : comparePlannerCost a b context.set.ranking = .eq := by
    simp only [comparePlannerCost, hcost, Bool.not_false, if_true]
  unfold Contender.cmp compareRanked compareTied compareTiebreak
  rw [preferences_of_admits ha, preferences_of_admits hb, hnone]
  rfl

/-- The admissible order of a population of evaluated candidates. -/
private theorem admissibleOrder_eq (candidates : List CandidatePath) :
    (acceptedBatch context candidates).admissibleOrder =
      sortBy (RankedCandidate.cmp (candidates.map (evaluationRecord context)) candidates
          context.set.ranking)
        (admissibleEntries (candidates.map (evaluationRecord context))) :=
  orderAdmissible_eq (List.length_map (evaluationRecord context))

/-- How the entries of two admitted candidates are ranked. -/
private theorem entry_cmp_eq {candidates : List CandidatePath} {i j : Nat}
    (hcost : context.set.ranking.consumePlannerCost = false)
    (hrange : candidates.length ≤ UInt32.size) (hi : i < candidates.length)
    (hj : j < candidates.length) (hadmitsI : Admits context candidates[i])
    (hadmitsJ : Admits context candidates[j]) :
    RankedCandidate.cmp (candidates.map (evaluationRecord context)) candidates
        context.set.ranking ⟨candidates[i].path, UInt32.ofNat i⟩
        ⟨candidates[j].path, UInt32.ofNat j⟩ =
      (comparePreferences (collectPreferences context candidates[i])
        (collectPreferences context candidates[j])).then
        (compareTied candidates[i] candidates[j] context.set.ranking) := by
  have hlength := @List.length_map _ _ candidates (evaluationRecord context)
  unfold RankedCandidate.cmp
  rw [contenderAt_of_lt (by omega) hi (by omega), contenderAt_of_lt (by omega) hj (by omega),
    List.getElem_map, List.getElem_map, cmp_of_admits hcost hadmitsI hadmitsJ]

end Records

/-! ## Two populations -/

/-- The populations differ in planner data alone, candidate by candidate. -/
def PlannerTwins (xs ys : List CandidatePath) : Prop :=
  xs.map CandidatePath.replanned = ys.map CandidatePath.replanned

/-- No record of the population says that the planner was consulted. -/
def PlannerUnconsulted (context : EvaluationContext) (candidates : List CandidatePath) : Prop :=
  ∀ batch, evaluateBatch context candidates = .ok batch →
    ∀ record ∈ batch.records, consults record.consulted .planner = false

/-- The populations are given the same admissible order. -/
def SameOrder (context : EvaluationContext) (xs ys : List CandidatePath) : Prop :=
  (evaluateBatch context xs).map (·.admissibleOrder) =
    (evaluateBatch context ys).map (·.admissibleOrder)

/-- The planner data of two parallel populations agrees wherever it is read: on which of
the otherwise admitted candidates are well formed, and on how those whose preferences tie
are ranked. -/
structure PlannersAgree (context : EvaluationContext) (xs ys : List CandidatePath) : Prop where
  sound : ∀ pair ∈ xs.zip ys, Admits context pair.1.replanned →
    (pair.1.PlannerSound ↔ pair.2.PlannerSound)
  tied : ∀ first ∈ xs.zip ys, ∀ second ∈ xs.zip ys,
    Admits context first.1 → Admits context second.1 →
      comparePreferences (collectPreferences context first.1)
        (collectPreferences context second.1) = .eq →
      compareTied first.1 second.1 context.set.ranking =
        compareTied first.2 second.2 context.set.ranking

/-- The limits are valid and no candidate of the population is admitted. -/
def NothingAdmitted (context : EvaluationContext) (candidates : List CandidatePath) : Prop :=
  validateLimits context.limits = .ok () ∧
    ∀ candidate ∈ canonicalCandidates candidates, ¬ Admits context candidate

/-- The planner data decides nothing: not whether a population is rejected while the other
has something to order, and nothing that the ranking reads. -/
def PlannerSilent (context : EvaluationContext) (xs ys : List CandidatePath) : Prop :=
  match batchRejection context.limits xs, batchRejection context.limits ys with
  | none, none => validateLimits context.limits = .ok () →
      PlannersAgree context (canonicalCandidates xs) (canonicalCandidates ys)
  | some _, none => NothingAdmitted context ys
  | none, some _ => NothingAdmitted context xs
  | some _, some _ => True

private theorem mem_zip_iff_getElem {α : Type} {xs ys : List α} {pair : α × α} :
    pair ∈ xs.zip ys ↔ ∃ index, ∃ hx : index < xs.length, ∃ hy : index < ys.length,
      pair = (xs[index], ys[index]) := by
  rw [List.mem_iff_getElem]
  constructor
  · intro ⟨index, hindex, hpair⟩
    rw [List.length_zip] at hindex
    refine ⟨index, by omega, by omega, ?_⟩
    rw [← hpair, List.getElem_zip]
  · intro ⟨index, hx, hy, hpair⟩
    refine ⟨index, by rw [List.length_zip]; omega, ?_⟩
    rw [hpair, List.getElem_zip]

section Twins

variable {context : EvaluationContext} {xs ys : List CandidatePath}

theorem PlannerTwins.length_eq (h : PlannerTwins xs ys) : xs.length = ys.length := by
  have hlengths := congrArg List.length h
  rw [List.length_map, List.length_map] at hlengths
  exact hlengths

private theorem PlannerTwins.getElem (h : PlannerTwins xs ys) {index : Nat}
    (hx : index < xs.length) (hy : index < ys.length) :
    xs[index].replanned = ys[index].replanned := by
  have hmapped := List.getElem_of_eq h (i := index) (by rw [List.length_map]; exact hx)
  rw [List.getElem_map, List.getElem_map] at hmapped
  exact hmapped

/-- Twins have one canonical population apart from planner data. -/
theorem PlannerTwins.canonicalCandidates (h : PlannerTwins xs ys) :
    PlannerTwins (canonicalCandidates xs) (canonicalCandidates ys) := by
  have hmap : ∀ candidates, (Fabric.canonicalCandidates candidates).map CandidatePath.replanned =
      firstOfEach CandidatePath.path (candidates.map CandidatePath.replanned) := by
    intro candidates
    have hpath : ∀ candidate : CandidatePath, candidate.replanned.path = candidate.path :=
      fun _ => rfl
    exact map_firstOfEach hpath candidates
  unfold PlannerTwins
  rw [hmap, hmap, h]

/-- Two parallel populations of distinct paths are ordered alike exactly when their planner
data agrees wherever it is read. -/
private theorem admissibleOrder_eq_iff (htwins : PlannerTwins xs ys)
    (hlimits : validateLimits context.limits = .ok ())
    (hplanner : consults (consultedMask context.set) .planner = false)
    (hrange : xs.length ≤ UInt32.size) (hx : (xs.map (·.path)).Nodup)
    (hy : (ys.map (·.path)).Nodup) :
    (acceptedBatch context xs).admissibleOrder = (acceptedBatch context ys).admissibleOrder ↔
      PlannersAgree context xs ys := by
  have hlength := htwins.length_eq
  have hcost := consumePlannerCost_of_unconsulted hplanner
  have hrest : ∀ index (hi : index < xs.length) (hj : index < ys.length),
      xs[index].replanned = ys[index].replanned := fun _ hi hj => htwins.getElem hi hj
  have hpath : ∀ index (hi : index < xs.length) (hj : index < ys.length),
      xs[index].path = ys[index].path := fun index hi hj => congrArg (·.path) (hrest index hi hj)
  have hpreferences : ∀ index (hi : index < xs.length) (hj : index < ys.length),
      collectPreferences context xs[index] = collectPreferences context ys[index] := by
    intro index hi hj
    rw [← collectPreferences_replanned, hrest index hi hj, collectPreferences_replanned]
  have hsplit : ∀ candidate, Admits context candidate ↔
      Admits context candidate.replanned ∧ candidate.PlannerSound := fun _ => admits_iff hplanner
  have hentries : ∀ candidates : List CandidatePath,
      (candidates.map (evaluationRecord context)).length = candidates.length :=
    fun _ => List.length_map _
  rw [admissibleOrder_eq, admissibleOrder_eq, sortBy_eq_sortBy_iff
    (nodup_admissibleEntries (by rw [hentries]; omega))
    (nodup_admissibleEntries (by rw [hentries]; omega))
    (eq_of_cmp_eq (hentries xs) (by rw [hentries]; omega) hx)
    (eq_of_cmp_eq (hentries ys) (by rw [hentries]; omega) hy)]
  constructor
  · intro ⟨hperm, hagree⟩
    have hadmits : ∀ i (hi : i < xs.length) (hj : i < ys.length),
        Admits context xs[i] ↔ Admits context ys[i] := by
      intro i hi hj
      rw [← entry_mem_iff hlimits hrange hi, hperm.mem_iff, hpath i hi hj,
        entry_mem_iff hlimits (by omega) hj]
    constructor
    · intro pair hpair hadmitsRest
      obtain ⟨i, hi, hj, rfl⟩ := mem_zip_iff_getElem.mp hpair
      have hsame := hadmits i hi hj
      rw [hsplit xs[i], hsplit ys[i], ← hrest i hi hj] at hsame
      dsimp only at hadmitsRest ⊢
      simpa only [hadmitsRest, true_and] using hsame
    · intro first hfirst second hsecond hone htwo htie
      obtain ⟨i, hi, hi', rfl⟩ := mem_zip_iff_getElem.mp hfirst
      obtain ⟨j, hj, hj', rfl⟩ := mem_zip_iff_getElem.mp hsecond
      dsimp only at hone htwo htie ⊢
      have hsame := hagree _ ((entry_mem_iff hlimits hrange hi).mpr hone) _
        ((entry_mem_iff hlimits hrange hj).mpr htwo)
      rw [entry_cmp_eq hcost hrange hi hj hone htwo, hpath i hi hi', hpath j hj hj',
        entry_cmp_eq hcost (by omega) hi' hj' ((hadmits i hi hi').mp hone)
          ((hadmits j hj hj').mp htwo),
        ← hpreferences i hi hi', ← hpreferences j hj hj', htie] at hsame
      exact hsame
  · intro hagree
    have hadmits : ∀ i (hi : i < xs.length) (hj : i < ys.length),
        Admits context xs[i] ↔ Admits context ys[i] := by
      intro i hi hj
      have hsound := hagree.sound _ (mem_zip_iff_getElem.mpr ⟨i, hi, hj, rfl⟩)
      dsimp only at hsound
      rw [hsplit xs[i], hsplit ys[i], ← hrest i hi hj]
      exact and_congr_right hsound
    constructor
    · rw [List.perm_ext_iff_of_nodup (nodup_admissibleEntries (by rw [hentries]; omega))
        (nodup_admissibleEntries (by rw [hentries]; omega))]
      intro entry
      rw [mem_entries_iff hlimits, mem_entries_iff hlimits]
      constructor
      · intro ⟨i, hi, hadmit, hentry⟩
        have hj : i < ys.length := by omega
        exact ⟨i, hj, (hadmits i hi hj).mp hadmit, by rw [hentry, hpath i hi hj]⟩
      · intro ⟨i, hj, hadmit, hentry⟩
        have hi : i < xs.length := by omega
        exact ⟨i, hi, (hadmits i hi hj).mpr hadmit, by rw [hentry, hpath i hi hj]⟩
    · intro first hfirst second hsecond
      obtain ⟨i, hi, hone, rfl⟩ := (mem_entries_iff hlimits).mp hfirst
      obtain ⟨j, hj, htwo, rfl⟩ := (mem_entries_iff hlimits).mp hsecond
      have hi' : i < ys.length := by omega
      have hj' : j < ys.length := by omega
      have htied := hagree.tied _ (mem_zip_iff_getElem.mpr ⟨i, hi, hi', rfl⟩) _
        (mem_zip_iff_getElem.mpr ⟨j, hj, hj', rfl⟩) hone htwo
      rw [entry_cmp_eq hcost hrange hi hj hone htwo, hpath i hi hi', hpath j hj hj',
        entry_cmp_eq hcost (by omega) hi' hj' ((hadmits i hi hi').mp hone)
          ((hadmits j hj hj').mp htwo),
        ← hpreferences i hi hi', ← hpreferences j hj hj']
      cases hcompare : comparePreferences (collectPreferences context xs[i])
          (collectPreferences context xs[j]) with
      | lt => rfl
      | eq => exact htied hcompare
      | gt => rfl

/-- A rejected population is given an empty order. -/
private theorem order_of_rejected {reason : ReasonCode}
    (hrejected : batchRejection context.limits xs = some reason) :
    (evaluateBatch context xs).map (·.admissibleOrder) = .ok [] := by
  unfold evaluateBatch
  rw [hrejected]
  rfl

/-- The order of a population is empty exactly when no candidate is admitted. -/
private theorem admissibleOrder_eq_nil_iff (hlimits : validateLimits context.limits = .ok ()) :
    (acceptedBatch context xs).admissibleOrder = [] ↔
      ∀ candidate ∈ xs, ¬ Admits context candidate := by
  have hempty : ∀ entries : List RankedCandidate, ∀ cmp, sortBy cmp entries = [] ↔
      ∀ entry, entry ∉ entries := by
    intro entries cmp
    rw [List.eq_nil_iff_forall_not_mem]
    simp only [mem_sortBy]
  rw [admissibleOrder_eq, hempty]
  constructor
  · intro hnone candidate hmem hadmits
    obtain ⟨i, hi, rfl⟩ := List.mem_iff_getElem.mp hmem
    exact hnone _ ((mem_entries_iff hlimits).mpr ⟨i, hi, hadmits, rfl⟩)
  · intro hnone entry hentry
    obtain ⟨i, hi, hadmits, -⟩ := (mem_entries_iff hlimits).mp hentry
    exact hnone xs[i] (List.getElem_mem hi) hadmits

/-- Where one twin is rejected, the orders are the same exactly when the other has nothing
to order. -/
private theorem sameOrder_of_one_rejected (htwins : PlannerTwins xs ys) {reason : ReasonCode}
    (hrejected : batchRejection context.limits xs = some reason)
    (haccepted : batchRejection context.limits ys = none) :
    SameOrder context xs ys ↔ NothingAdmitted context ys := by
  unfold SameOrder NothingAdmitted
  rw [order_of_rejected hrejected]
  cases hlimits : validateLimits context.limits with
  | ok _ =>
      rw [evaluateBatch_of_accepted hlimits haccepted]
      have hnone := @admissibleOrder_eq_nil_iff context (canonicalCandidates ys) hlimits
      simp only [Except.map, Except.ok.injEq, eq_comm (a := []), hnone, true_and]
  | error why =>
      rw [evaluateBatch_of_invalid hlimits haccepted]
      have hsome : ys ≠ [] := by
        intro hnone
        have hlength := htwins.length_eq
        rw [hnone, List.length_nil, List.length_eq_zero_iff] at hlength
        rw [hlength, ← hnone, haccepted] at hrejected
        cases hrejected
      rw [if_neg hsome]
      simp [failure, Except.map]

/-- The positions of an accepted population fit their index. -/
private theorem length_of_accepted (haccepted : batchRejection context.limits xs = none) :
    xs.length ≤ UInt32.size := by
  have hbound := context.limits.maxCandidatesPerEvaluation.toNat_lt
  have hlength := length_le_of_accepted haccepted
  have hsize : UInt32.size = 2 ^ 32 := rfl
  omega

theorem SameOrder.comm : SameOrder context xs ys ↔ SameOrder context ys xs := eq_comm

/-- An evaluated candidate shows the mask of the set. -/
private theorem PlannerUnconsulted.mask (h : PlannerUnconsulted context xs)
    (hlimits : validateLimits context.limits = .ok ())
    (haccepted : batchRejection context.limits xs = none)
    (hsome : canonicalCandidates xs ≠ []) :
    consults (consultedMask context.set) .planner = false := by
  obtain ⟨candidate, hmem⟩ := List.exists_mem_of_ne_nil _ hsome
  exact h _ (evaluateBatch_of_accepted hlimits haccepted) (evaluationRecord context candidate)
    (List.mem_map_of_mem hmem)

/-- Where both twins are accepted, the orders are the same exactly when their planner data
agrees wherever it is read. -/
private theorem sameOrder_of_accepted (htwins : PlannerTwins xs ys)
    (hunconsulted : PlannerUnconsulted context xs)
    (hx : batchRejection context.limits xs = none)
    (hy : batchRejection context.limits ys = none) :
    SameOrder context xs ys ↔ (validateLimits context.limits = .ok () →
      PlannersAgree context (canonicalCandidates xs) (canonicalCandidates ys)) := by
  have hcanonical := htwins.canonicalCandidates
  unfold SameOrder
  cases hlimits : validateLimits context.limits with
  | error why =>
      have hempty : xs = [] ↔ ys = [] := by
        rw [← List.length_eq_zero_iff, htwins.length_eq, List.length_eq_zero_iff]
      rw [evaluateBatch_of_invalid hlimits hx, evaluateBatch_of_invalid hlimits hy]
      simp [hempty]
  | ok _ =>
      rw [evaluateBatch_of_accepted hlimits hx, evaluateBatch_of_accepted hlimits hy]
      simp only [Except.map, Except.ok.injEq, forall_const]
      by_cases hsome : Fabric.canonicalCandidates xs = []
      · have hother : Fabric.canonicalCandidates ys = [] := by
          rw [← List.length_eq_zero_iff, ← hcanonical.length_eq, hsome, List.length_nil]
        rw [hsome, hother]
        exact iff_of_true rfl ⟨by simp, by simp⟩
      · refine admissibleOrder_eq_iff hcanonical hlimits
          (hunconsulted.mask hlimits hx hsome) ?_ nodup_map_firstOfEach nodup_map_firstOfEach
        exact (length_canonicalCandidates_le xs).trans (length_of_accepted hx)

end Twins

/-- Where the planner is not consulted, populations that differ in planner data alone are
given the same admissible order exactly when that data decides nothing. -/
theorem sameOrder_iff (context : EvaluationContext) (xs ys : List CandidatePath)
    (htwins : PlannerTwins xs ys) (hunconsulted : PlannerUnconsulted context xs) :
    SameOrder context xs ys ↔ PlannerSilent context xs ys := by
  unfold PlannerSilent
  cases hfirst : batchRejection context.limits xs with
  | none =>
      cases hsecond : batchRejection context.limits ys with
      | none => exact sameOrder_of_accepted htwins hunconsulted hfirst hsecond
      | some reason =>
          rw [SameOrder.comm]
          exact sameOrder_of_one_rejected htwins.symm hsecond hfirst
  | some reason =>
      cases hsecond : batchRejection context.limits ys with
      | none => exact sameOrder_of_one_rejected htwins hfirst hsecond
      | some other =>
          refine iff_of_true ?_ trivial
          unfold SameOrder
          rw [order_of_rejected hfirst, order_of_rejected hsecond]

/-! ## A rank that is read but not consulted -/

/-- An active set without constraints whose ranking consumes the planner's rank. -/
def sampleRanking : EvaluationContext where
  set :=
    let set := { sampleSet 5 with ranking.consumePlannerRank := true }
    { set with state := .active, digest := constraintSetDigest set }
  current := sampleEvidence
  authorityVerified := true

/-- Two paths with their planner ranks. -/
def sampleRanks (first second : UInt32) : List CandidatePath :=
  [{ samplePath 31 with hasPlannerRank := true, plannerRank := first },
   { samplePath 32 with hasPlannerRank := true, plannerRank := second }]

/-- What a batch shows of the ranks: the order of the positions, and the masks. -/
private def EvaluationBatch.ranking (batch : EvaluationBatch) :
    List UInt32 × List EvidenceFamilyMask :=
  (batch.admissibleOrder.map (·.recordIndex), batch.records.map (·.consulted))

private theorem sampleRanks_evaluated :
    ((evaluateBatch sampleRanking (sampleRanks 1 2)).map EvaluationBatch.ranking).toOption =
        some ([0, 1], [familyBit .pathAuthority, familyBit .pathAuthority]) ∧
      ((evaluateBatch sampleRanking (sampleRanks 2 1)).map EvaluationBatch.ranking).toOption =
        some ([1, 0], [familyBit .pathAuthority, familyBit .pathAuthority]) := by
  decide +kernel

/-- A batch whose masks are known to leave the planner out. -/
private theorem PlannerUnconsulted.of_ranking {context : EvaluationContext}
    {candidates : List CandidatePath} {order : List UInt32} {masks : List EvidenceFamilyMask}
    (h : ((evaluateBatch context candidates).map EvaluationBatch.ranking).toOption =
      some (order, masks)) (hmasks : ∀ mask ∈ masks, consults mask .planner = false) :
    PlannerUnconsulted context candidates := by
  intro batch hbatch record hrecord
  rw [hbatch] at h
  have hranking : batch.ranking = (order, masks) := Option.some.inj h
  have hconsulted : batch.records.map (·.consulted) = masks := congrArg Prod.snd hranking
  exact hmasks _ (hconsulted ▸ List.mem_map_of_mem hrecord)

private theorem sampleRanks_unconsulted : PlannerUnconsulted sampleRanking (sampleRanks 1 2) ∧
    PlannerUnconsulted sampleRanking (sampleRanks 2 1) := by
  have hmasks : ∀ mask ∈ [familyBit .pathAuthority, familyBit .pathAuthority],
      consults mask .planner = false := by
    intro mask hmask
    have hmask : mask = familyBit .pathAuthority := by simpa using hmask
    rw [hmask]
    decide
  exact ⟨.of_ranking sampleRanks_evaluated.1 hmasks, .of_ranking sampleRanks_evaluated.2 hmasks⟩

/-- The planner's ranks alone decide the admissible order of two paths, although no record
says that the planner was consulted. -/
theorem planner_rank_decides_order :
    PlannerTwins (sampleRanks 1 2) (sampleRanks 2 1) ∧
      PlannerUnconsulted sampleRanking (sampleRanks 1 2) ∧
      PlannerUnconsulted sampleRanking (sampleRanks 2 1) ∧
      ¬ SameOrder sampleRanking (sampleRanks 1 2) (sampleRanks 2 1) := by
  refine ⟨rfl, sampleRanks_unconsulted.1, sampleRanks_unconsulted.2, fun hsame => ?_⟩
  have hpositions := congrArg
    (fun order => (order.map fun entries => entries.map RankedCandidate.recordIndex).toOption)
    hsame
  have horder : ∀ candidates, (((evaluateBatch sampleRanking candidates).map
      (·.admissibleOrder)).map fun entries =>
        entries.map RankedCandidate.recordIndex).toOption =
      (((evaluateBatch sampleRanking candidates).map EvaluationBatch.ranking).toOption).map
        Prod.fst := by
    intro candidates
    cases evaluateBatch sampleRanking candidates <;> rfl
  rw [horder, horder, sampleRanks_evaluated.1, sampleRanks_evaluated.2] at hpositions
  exact absurd hpositions (by decide)

theorem sameOrder_iff_sample :
    SameOrder sampleRanking (sampleRanks 1 2) (sampleRanks 2 1) ↔
      PlannerSilent sampleRanking (sampleRanks 1 2) (sampleRanks 2 1) :=
  sameOrder_iff sampleRanking (sampleRanks 1 2) (sampleRanks 2 1) rfl sampleRanks_unconsulted.1

end ConstraintRouting.Fabric
