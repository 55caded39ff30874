import Mathlib.Data.List.GetD
import ConstraintRouting.Fabric.CommitSpec

/-!
# Batches and the order of arrival

A batch keeps the first candidate of each path and compares the others with it by their
digests, which leave the ticks out.  The age gate reads a tick, so the order of arrival
shows exactly when the age gate tells two candidates of one path apart.
-/

namespace ConstraintRouting.Fabric

open Verified.SortedLists

/-! ## Candidates up to their ticks -/

def LinkFact.timeless (link : LinkFact) : LinkFact :=
  { link with bandwidth.observedTick := 0 }

/-- The candidate without the ticks, which its digest leaves out. -/
def CandidatePath.timeless (candidate : CandidatePath) : CandidatePath :=
  { candidate with
    links := candidate.links.map LinkFact.timeless
    latency.observedTick := 0
    evidence.capturedTick := 0 }

section Timeless

variable {candidate a b : CandidatePath} {limits : Limits}

private theorem validateLinks_timeless {links : List LinkFact} {nodes : List NodeFact} :
    validateLinks limits (links.map LinkFact.timeless) nodes =
      validateLinks limits links nodes := by
  induction links generalizing nodes with
  | nil => rfl
  | cons link rest ih =>
      match nodes with
      | [] | [_] => rfl
      | first :: second :: later =>
          rw [List.map_cons, validateLinks, validateLinks, ih]
          rfl

/-- Validation reads no tick. -/
theorem validateCandidate_timeless :
    validateCandidate candidate.timeless limits = validateCandidate candidate limits := by
  unfold validateCandidate listWithin
  simp only [CandidatePath.timeless, List.length_map, validateLinks_timeless]
  rfl

theorem entitiesOf_timeless : entitiesOf candidate.timeless = entitiesOf candidate := by
  unfold entitiesOf
  have hview : NodeFact.view ∘ id = NodeFact.view := rfl
  have hlinks : LinkFact.view ∘ LinkFact.timeless = LinkFact.view := rfl
  simp only [CandidatePath.timeless, List.map_map, hlinks]

private theorem bottleneckFrom_timeless {required : CapabilityGeneration}
    {links : List LinkFact} {bottleneck : Option Int64} :
    bottleneckFrom required bottleneck (links.map LinkFact.timeless) =
      bottleneckFrom required bottleneck links := by
  induction links generalizing bottleneck with
  | nil => rfl
  | cons link rest ih =>
      simp only [List.map_cons, bottleneckFrom, ih]
      rfl

theorem pathBandwidthCapability_timeless {required : CapabilityGeneration} :
    pathBandwidthCapability candidate.timeless required =
      pathBandwidthCapability candidate required := by
  unfold pathBandwidthCapability
  simp only [CandidatePath.timeless, bottleneckFrom_timeless, List.isEmpty_map]

theorem scanDomains_timeless {kind : DomainKind} :
    scanDomains candidate.timeless kind = scanDomains candidate kind := by
  unfold scanDomains
  rw [entitiesOf_timeless]

/-- No constraint reads a tick. -/
theorem evaluateMandatory_timeless {constraint : Constraint} {ordinal : UInt32}
    {current : EvidenceRequirements} :
    evaluateMandatory constraint ordinal candidate.timeless current =
      evaluateMandatory constraint ordinal candidate current := by
  have hlinks : candidate.timeless.links.map (·.link) = candidate.links.map (·.link) := by
    simp only [CandidatePath.timeless, List.map_map]
    rfl
  unfold evaluateMandatory
  cases constraint.kind with
  | minBandwidthCapability =>
      dsimp only [checkMinBandwidth]
      rw [pathBandwidthCapability_timeless]
      rfl
  | requiredLink =>
      dsimp only [checkRequiredLink]
      rw [hlinks]
  | forbiddenLink =>
      dsimp only [checkForbiddenLink]
      rw [hlinks]
  | isolationClass =>
      dsimp only [checkIsolationClass]
      rw [entitiesOf_timeless]
  | requiredCapability =>
      dsimp only [checkRequiredCapability]
      rw [entitiesOf_timeless]
  | forbiddenCapability =>
      dsimp only [checkForbiddenCapability]
      rw [entitiesOf_timeless]
  | requiredFailureDomainRelation =>
      dsimp only [checkRequiredDomainRelation]
      rw [scanDomains_timeless]
  | forbiddenFailureDomainRelation =>
      dsimp only [checkForbiddenDomainRelation]
      rw [scanDomains_timeless]
  | _ => rfl

theorem evaluatePreference_timeless {constraint : Constraint} {ordinal : UInt32}
    {current : EvidenceRequirements} :
    evaluatePreference constraint ordinal candidate.timeless current =
      evaluatePreference constraint ordinal candidate current := by
  have hverdict : preferenceVerdict constraint ordinal candidate.timeless current =
      preferenceVerdict constraint ordinal candidate current := by
    unfold preferenceVerdict
    rw [pathBandwidthCapability_timeless, scanDomains_timeless, evaluateMandatory_timeless]
    rfl
  unfold evaluatePreference
  rw [hverdict]

end Timeless

/-! ## The age gate among the others -/

/-- The reasons of the stages before the currentness gate. -/
def earlierReasons (context : EvaluationContext) (candidate : CandidatePath) : List Reason :=
  gate (resourceAdmissionReasons context) <|
  gate (wireDecodeReasons context candidate) <|
  gate (authorityContextReasons context) <|
  gate (lifecycleReasons context) (pathAuthorityReasons context candidate)

/-- The reasons of the families that are not current. -/
def familyStaleness (context : EvaluationContext) (candidate : CandidatePath) : List Reason :=
  currentnessFamilies.flatMap (familyReasons context candidate)

/-- The number of a reason's code. -/
def Reason.rank (reason : Reason) : Nat := reason.code.code.toNat

/-- The number of an age reason's code. -/
def ageRank : Nat := ReasonCode.evidenceAgeExceeded.code.toNat

/-- The reasons of the currentness gate that stand before an age reason. -/
def staleBefore (context : EvaluationContext) (candidate : CandidatePath) : List Reason :=
  (familyStaleness context candidate).filter (·.rank < ageRank)

/-- The reasons of the currentness gate that stand after an age reason. -/
def staleAfter (context : EvaluationContext) (candidate : CandidatePath) : List Reason :=
  (familyStaleness context candidate).filter (ageRank < ·.rank) ++
    costModelReasons context candidate

section Ages

variable {context : EvaluationContext} {candidate a b : CandidatePath} {limits : Limits}

private theorem gate_assoc (first second third : List Reason) :
    gate first (gate second third) = gate (gate first second) third := by
  cases first <;> rfl

theorem admissionReasons_eq_gate : admissionReasons context candidate =
    gate (earlierReasons context candidate) (currentnessReasons context candidate) := by
  simp only [admissionReasons, earlierReasons, gate_assoc]

theorem earlierReasons_timeless :
    earlierReasons context candidate.timeless = earlierReasons context candidate := by
  unfold earlierReasons wireDecodeReasons
  rw [validateCandidate_timeless]
  rfl

/-- What the reasons of the currentness gate have in common. -/
structure CurrentnessReason (reason : Reason) : Prop where
  coded : reasonClassOf reason.code = .evidenceCurrentness
  reasonClass : reason.reasonClass = .evidenceCurrentness
  ordinal : reason.constraintOrdinal = 0
  constraint : reason.constraint = {}

private theorem currentness_of_pathReason {code : ReasonCode} {family : EvidenceFamily}
    {expected actual : UInt64} (h : reasonClassOf code = .evidenceCurrentness) :
    CurrentnessReason (pathReason candidate code family expected actual) := ⟨h, h, rfl, rfl⟩

/-- No reason of a family is an age reason. -/
private theorem familyStaleness_mem {reason : Reason}
    (h : reason ∈ familyStaleness context candidate) : CurrentnessReason reason ∧
      reason.rank ≠ ageRank := by
  have hcodes : ∀ family ∈ currentnessFamilies,
      reasonClassOf (stalenessCode family) = .evidenceCurrentness ∧
        (stalenessCode family).code.toNat ≠ ageRank := by decide
  have hunbound : ReasonCode.evidenceNotBound.code.toNat ≠ ageRank := by decide
  obtain ⟨family, hfamily, hreason⟩ := List.mem_flatMap.mp h
  obtain ⟨hclass, hcode⟩ := hcodes family hfamily
  dsimp only [familyReasons] at hreason
  split at hreason
  · cases hreason
  · split at hreason
    · obtain rfl := List.mem_singleton.mp hreason
      exact ⟨currentness_of_pathReason rfl, hunbound⟩
    · split at hreason
      · obtain rfl := List.mem_singleton.mp hreason
        exact ⟨currentness_of_pathReason hclass, hcode⟩
      · cases hreason

/-- There is at most one age reason. -/
private theorem ageReasons_cases : ageReasons context candidate = [] ∨
    ∃ actual, ageReasons context candidate =
      [pathReason candidate .evidenceAgeExceeded .constraintSet
        context.current.maxEvidenceAgeTicks actual] := by
  dsimp only [ageReasons]
  split
  · exact .inr ⟨_, rfl⟩
  · exact .inl rfl

private theorem ageReasons_mem {reason : Reason} (h : reason ∈ ageReasons context candidate) :
    CurrentnessReason reason ∧ reason.rank = ageRank := by
  rcases @ageReasons_cases context candidate with hnone | ⟨actual, hage⟩
  · rw [hnone] at h
    cases h
  · rw [hage] at h
    obtain rfl := List.mem_singleton.mp h
    exact ⟨currentness_of_pathReason rfl, rfl⟩

private theorem costModelReasons_mem {reason : Reason}
    (h : reason ∈ costModelReasons context candidate) :
    CurrentnessReason reason ∧ ageRank < reason.rank := by
  have hafter : ageRank < ReasonCode.plannerCostModelMismatch.code.toNat := by decide
  dsimp only [costModelReasons] at h
  split at h
  · obtain rfl := List.mem_singleton.mp h
    exact ⟨currentness_of_pathReason rfl, hafter⟩
  · cases h

private theorem currentnessReasons_mem {reason : Reason}
    (h : reason ∈ currentnessReasons context candidate) : CurrentnessReason reason := by
  simp only [currentnessReasons, List.mem_append] at h
  rcases h with (hfamily | hage) | hcost
  · exact (familyStaleness_mem hfamily).1
  · exact (ageReasons_mem hage).1
  · exact (costModelReasons_mem hcost).1

instance : Std.TransCmp compareReason := by
  unfold compareReason
  infer_instance

/-- Reasons of the currentness gate are ordered by their codes first. -/
private theorem compareReason_of_rank_lt {first second : Reason}
    (hfirst : CurrentnessReason first) (hsecond : CurrentnessReason second)
    (hrank : first.rank < second.rank) : compareReason first second = .lt := by
  have hless : compare first.code.code second.code.code = .lt :=
    Std.compare_eq_lt.mpr (UInt16.lt_iff_toNat_lt.mpr hrank)
  simp [compareReason, compareLex, compareOn, hfirst.reasonClass, hsecond.reasonClass,
    hfirst.ordinal, hsecond.ordinal, hless]

/-- Sorting the reasons of the currentness gate puts the age reason between the others. -/
theorem sortBy_currentnessReasons :
    sortBy compareReason (currentnessReasons context candidate) =
      sortBy compareReason (staleBefore context candidate) ++
        (ageReasons context candidate ++
          sortBy compareReason (staleAfter context candidate)) := by
  have hfamily := fun reason => @familyStaleness_mem context candidate reason
  have hage := fun reason => @ageReasons_mem context candidate reason
  have hcost := fun reason => @costModelReasons_mem context candidate reason
  have hall : currentnessReasons context candidate = familyStaleness context candidate ++
      ageReasons context candidate ++ costModelReasons context candidate := rfl
  have hbelow : (currentnessReasons context candidate).filter (·.rank < ageRank) =
      staleBefore context candidate := by
    have hages : (ageReasons context candidate).filter (·.rank < ageRank) = [] := by
      rw [List.filter_eq_nil_iff]
      intro reason hmem
      simp [(hage reason hmem).2]
    have hcosts : (costModelReasons context candidate).filter (·.rank < ageRank) = [] := by
      rw [List.filter_eq_nil_iff]
      intro reason hmem
      simpa using (hcost reason hmem).2.le
    rw [hall, List.filter_append, List.filter_append, hages, hcosts, List.append_nil,
      List.append_nil]
    rfl
  have hat : (currentnessReasons context candidate).filter (·.rank = ageRank) =
      ageReasons context candidate := by
    have hfamilies : (familyStaleness context candidate).filter (·.rank = ageRank) = [] := by
      rw [List.filter_eq_nil_iff]
      intro reason hmem
      simpa using (hfamily reason hmem).2
    have hages : (ageReasons context candidate).filter (·.rank = ageRank) =
        ageReasons context candidate := by
      rw [List.filter_eq_self]
      intro reason hmem
      simpa using (hage reason hmem).2
    have hcosts : (costModelReasons context candidate).filter (·.rank = ageRank) = [] := by
      rw [List.filter_eq_nil_iff]
      intro reason hmem
      simpa using (hcost reason hmem).2.ne'
    rw [hall, List.filter_append, List.filter_append, hfamilies, hages, hcosts,
      List.append_nil, List.nil_append]
  have habove : (currentnessReasons context candidate).filter (ageRank < ·.rank) =
      staleAfter context candidate := by
    have hages : (ageReasons context candidate).filter (ageRank < ·.rank) = [] := by
      rw [List.filter_eq_nil_iff]
      intro reason hmem
      simp [(hage reason hmem).2]
    have hcosts : (costModelReasons context candidate).filter (ageRank < ·.rank) =
        costModelReasons context candidate := by
      rw [List.filter_eq_self]
      intro reason hmem
      simpa using (hcost reason hmem).2
    rw [hall, List.filter_append, List.filter_append, hages, hcosts, List.append_nil]
    rfl
  have hsingle : sortBy compareReason (ageReasons context candidate) =
      ageReasons context candidate := by
    rcases @ageReasons_cases context candidate with hnone | ⟨_, hone⟩
    · rw [hnone]
      rfl
    · rw [hone]
      rfl
  rw [sortBy_split_at Reason.rank ageRank, hbelow, hat, habove, hsingle]
  intro first hfirst second hsecond
  exact compareReason_of_rank_lt (currentnessReasons_mem hfirst) (currentnessReasons_mem hsecond)

/-- Reasons that are of no constraint are kept up to the explanation limit. -/
private theorem keepReasons_of_unconstrained {reasons : List Reason} {kept : Nat}
    {represented : List ConstraintId} (h : ∀ reason ∈ reasons, reason.constraint = {}) :
    keepReasons limits kept represented reasons =
      reasons.take (limits.maxExplanationReasons.toNat - kept) := by
  induction reasons generalizing kept with
  | nil => simp [keepReasons]
  | cons first rest ih =>
      have hfirst : first.constraint.isValid = false := by
        rw [h first List.mem_cons_self]
        rfl
      have hrest := @ih (kept + 1) fun reason hmem => h reason (List.mem_cons_of_mem _ hmem)
      rw [keepReasons, hfirst, Bool.false_and, if_neg Bool.false_ne_true]
      by_cases hfull : limits.maxExplanationReasons.toNat ≤ kept
      · rw [if_pos hfull, Nat.sub_eq_zero_of_le hfull, List.take_zero]
      · rw [if_neg hfull, hrest]
        have hroom : limits.maxExplanationReasons.toNat - kept =
            limits.maxExplanationReasons.toNat - (kept + 1) + 1 := by omega
        rw [hroom, List.take_succ_cons]

theorem canonicalizeReasons_currentnessReasons :
    canonicalizeReasons (currentnessReasons context candidate) limits =
      (sortBy compareReason (staleBefore context candidate) ++
        (ageReasons context candidate ++
          sortBy compareReason (staleAfter context candidate))).take
            limits.maxExplanationReasons.toNat := by
  unfold canonicalizeReasons
  rw [keepReasons_of_unconstrained, sortBy_currentnessReasons, Nat.sub_zero]
  intro reason hmem
  exact (currentnessReasons_mem (mem_sortBy.mp hmem)).constraint

/-- What stands between two lists shows unless the first one uses up the limit. -/
private theorem take_between_eq_iff {α : Type} {before after first second : List α} {limit : Nat}
    (hfirst : first = [] ∨ ∃ x, first = [x] ∧ x ∉ after)
    (hsecond : second = [] ∨ ∃ x, second = [x] ∧ x ∉ after) :
    (before ++ (first ++ after)).take limit = (before ++ (second ++ after)).take limit ↔
      limit ≤ before.length ∨ first = second := by
  by_cases hused : limit ≤ before.length
  · rw [List.take_append_of_le_length hused, List.take_append_of_le_length hused]
    exact iff_of_true rfl (.inl hused)
  · obtain ⟨room, rfl⟩ : ∃ room, limit = before.length + (room + 1) :=
      ⟨limit - before.length - 1, by omega⟩
    have hcut : ∀ rest : List α, (before ++ rest).take (before.length + (room + 1)) =
        before ++ rest.take (room + 1) := by
      intro rest
      rw [List.take_append, List.take_of_length_le (by omega)]
      simp
    -- Neither list begins as the one after it does.
    have hhead : ∀ x, x ∉ after → ∀ rest : List α, after.take (room + 1) ≠ x :: rest := by
      intro x hmissing rest hequal
      have hmem : x ∈ after.take (room + 1) := hequal ▸ List.mem_cons_self
      exact hmissing (List.mem_of_mem_take hmem)
    rw [hcut, hcut, List.append_cancel_left_eq]
    refine ⟨fun hequal => .inr ?_, fun hsame => ?_⟩
    · rcases hfirst with rfl | ⟨x, rfl, hx⟩
      · rcases hsecond with rfl | ⟨y, rfl, hy⟩
        · rfl
        · exact absurd hequal (hhead y hy _)
      · rcases hsecond with rfl | ⟨y, rfl, hy⟩
        · exact absurd hequal.symm (hhead x hx _)
        · rw [List.singleton_append, List.singleton_append, List.take_succ_cons,
            List.take_succ_cons] at hequal
          rw [(List.cons.inj hequal).1]
    · rcases hsame with hfew | rfl
      · omega
      · rfl

/-- The evaluator gives the two candidates the same reasons as far as their age goes: an
earlier stage decides, or stale families use up the explanation, or the age gate says the
same of both. -/
def AgesAlike (context : EvaluationContext) (a b : CandidatePath) : Prop :=
  earlierReasons context a ≠ [] ∨
    context.limits.maxExplanationReasons.toNat ≤ (staleBefore context a).length ∨
    ageReasons context a = ageReasons context b

private theorem mandatoryReasons_timeless :
    mandatoryReasons context candidate.timeless = mandatoryReasons context candidate := by
  unfold mandatoryReasons
  simp only [evaluateMandatory_timeless]

private theorem collectPreferences_timeless :
    collectPreferences context candidate.timeless = collectPreferences context candidate := by
  unfold collectPreferences
  simp only [evaluatePreference_timeless]

/-- What the evaluator makes of a candidate apart from its age. -/
private theorem same_of_timeless (context : EvaluationContext)
    (h : a.timeless = b.timeless) :
    earlierReasons context a = earlierReasons context b ∧
      staleBefore context a = staleBefore context b ∧
      staleAfter context a = staleAfter context b ∧
      familyStaleness context a = familyStaleness context b ∧
      costModelReasons context a = costModelReasons context b ∧
      mandatoryReasons context a = mandatoryReasons context b ∧
      collectPreferences context a = collectPreferences context b := by
  have hbefore : ∀ candidate, staleBefore context candidate.timeless =
      staleBefore context candidate := fun _ => rfl
  have hafter : ∀ candidate, staleAfter context candidate.timeless =
      staleAfter context candidate := fun _ => rfl
  have hfamilies : ∀ candidate, familyStaleness context candidate.timeless =
      familyStaleness context candidate := fun _ => rfl
  have hcosts : ∀ candidate, costModelReasons context candidate.timeless =
      costModelReasons context candidate := fun _ => rfl
  refine ⟨?_, ?_, ?_, ?_, ?_, ?_, ?_⟩
  · rw [← earlierReasons_timeless, h, earlierReasons_timeless]
  · rw [← hbefore, h, hbefore]
  · rw [← hafter, h, hafter]
  · rw [← hfamilies, h, hfamilies]
  · rw [← hcosts, h, hcosts]
  · rw [← mandatoryReasons_timeless, h, mandatoryReasons_timeless]
  · rw [← collectPreferences_timeless, h, collectPreferences_timeless]

/-- The reasons that the record of a candidate shows. -/
abbrev shownReasons (context : EvaluationContext) (candidate : CandidatePath) : List Reason :=
  canonicalizeReasons (collectReasons context candidate).reasons context.limits

/-- A candidate that the gates admit shows no reason of the currentness gate. -/
private theorem shownReasons_ne (hlimits : validateLimits context.limits = .ok ())
    (hadmitted : admissionReasons context a = []) (hearlier : earlierReasons context b = [])
    (hstale : currentnessReasons context b ≠ []) :
    shownReasons context a ≠ shownReasons context b := by
  intro hsame
  have hcollected : (collectReasons context b).reasons = currentnessReasons context b := by
    have hadmission : admissionReasons context b = currentnessReasons context b := by
      rw [admissionReasons_eq_gate, hearlier]
      rfl
    unfold collectReasons
    simp only [hadmission, List.isEmpty_iff, if_neg hstale]
  have hshown : shownReasons context b ≠ [] := by
    intro hnone
    rw [shownReasons, canonicalizeReasons_eq_nil_iff hlimits, hcollected] at hnone
    exact hstale hnone
  obtain ⟨reason, hmem⟩ := List.exists_mem_of_ne_nil _ hshown
  have hmandatory := collectReasons_coded hadmitted reason
    (mem_of_mem_canonicalizeReasons (hsame ▸ hmem))
  have hcurrentness := currentnessReasons_mem (hcollected ▸ mem_of_mem_canonicalizeReasons hmem)
  rw [Mandatory, hcurrentness.coded] at hmandatory
  cases hmandatory

private theorem ageReasons_between :
    ageReasons context candidate = [] ∨ ∃ reason, ageReasons context candidate = [reason] ∧
      reason ∉ sortBy compareReason (staleAfter context candidate) := by
  rcases @ageReasons_cases context candidate with hnone | ⟨actual, hone⟩
  · exact .inl hnone
  · refine .inr ⟨_, hone, fun hmem => ?_⟩
    have hrank := (@ageReasons_mem context candidate _
      (hone ▸ List.mem_singleton.mpr rfl)).2
    rcases List.mem_append.mp (mem_sortBy.mp hmem) with hfamily | hcost
    · exact (familyStaleness_mem (List.mem_filter.mp hfamily).1).2 hrank
    · exact absurd hrank (costModelReasons_mem hcost).2.ne'

/-- A candidate that an admission stage stops shows the reasons of that stage. -/
private theorem collectReasons_of_stopped (h : admissionReasons context candidate ≠ []) :
    (collectReasons context candidate).reasons = admissionReasons context candidate := by
  unfold collectReasons
  simp only [List.isEmpty_iff, if_neg h]

private theorem AgesAlike.symm (hsame : a.timeless = b.timeless) (h : AgesAlike context a b) :
    AgesAlike context b a := by
  obtain ⟨hearlier, hbefore, -⟩ := same_of_timeless context hsame
  rcases h with hstopped | hfew | hages
  · exact .inl (hearlier ▸ hstopped)
  · exact .inr (.inl (hbefore ▸ hfew))
  · exact .inr (.inr hages.symm)

/-- The currentness gate lets both of two candidates pass whose ages are alike. -/
private theorem currentness_of_agesAlike (hlimits : validateLimits context.limits = .ok ())
    (hsame : a.timeless = b.timeless) (hearlier : earlierReasons context a = [])
    (hcurrent : currentnessReasons context a = []) (h : AgesAlike context a b) :
    currentnessReasons context b = [] := by
  obtain ⟨-, -, -, hfamilies, hcosts, -⟩ := same_of_timeless context hsame
  have hall : ∀ candidate, currentnessReasons context candidate =
      familyStaleness context candidate ++ ageReasons context candidate ++
        costModelReasons context candidate := fun _ => rfl
  rw [hall, List.append_eq_nil_iff, List.append_eq_nil_iff] at hcurrent
  obtain ⟨⟨hfamily, hage⟩, hcost⟩ := hcurrent
  rcases h with hstopped | hfew | hages
  · exact absurd hearlier hstopped
  · have hfour := UInt32.le_iff_toNat_le.mp (validateLimits_explanation hlimits)
    have hliteral : (4 : UInt32).toNat = 4 := rfl
    rw [staleBefore, hfamily, List.filter_nil, List.length_nil] at hfew
    omega
  · rw [hall, ← hages, ← hfamilies, ← hcosts, hfamily, hage, hcost]
    rfl

/-- Two candidates that differ in their ticks alone show the same reasons exactly when the
evaluator finds their ages alike. -/
theorem shownReasons_eq_iff (hlimits : validateLimits context.limits = .ok ())
    (h : a.timeless = b.timeless) :
    shownReasons context a = shownReasons context b ↔ AgesAlike context a b := by
  obtain ⟨hearlier, hbefore, hafter, hfamilies, hcosts, hmandatory, -⟩ :=
    same_of_timeless context h
  by_cases hdecided : earlierReasons context a = []
  · have hdecidedB : earlierReasons context b = [] := hearlier ▸ hdecided
    have hadmission : ∀ candidate, earlierReasons context candidate = [] →
        admissionReasons context candidate = currentnessReasons context candidate := by
      intro candidate hnone
      rw [admissionReasons_eq_gate, hnone]
      rfl
    have hadmissionA := hadmission a hdecided
    have hadmissionB := hadmission b hdecidedB
    by_cases hcurrentA : currentnessReasons context a = []
    · by_cases hcurrentB : currentnessReasons context b = []
      · have hages : ∀ candidate, currentnessReasons context candidate = [] →
            ageReasons context candidate = [] := by
          intro candidate hnone
          exact (List.append_eq_nil_iff.mp (List.append_eq_nil_iff.mp hnone).1).2
        refine iff_of_true ?_ (.inr (.inr ((hages a hcurrentA).trans (hages b hcurrentB).symm)))
        simp only [shownReasons, collectReasons, hadmissionA, hadmissionB, hcurrentA,
          hcurrentB, hmandatory]
      · refine iff_of_false (shownReasons_ne hlimits (hadmissionA.trans hcurrentA) hdecidedB
          hcurrentB) fun halike => hcurrentB ?_
        exact currentness_of_agesAlike hlimits h hdecided hcurrentA halike
    · by_cases hcurrentB : currentnessReasons context b = []
      · refine iff_of_false (shownReasons_ne hlimits (hadmissionB.trans hcurrentB) hdecided
          hcurrentA).symm fun halike => hcurrentA ?_
        exact currentness_of_agesAlike hlimits h.symm hdecidedB hcurrentB (halike.symm h)
      · have hshown : ∀ candidate, admissionReasons context candidate =
              currentnessReasons context candidate → currentnessReasons context candidate ≠ [] →
            shownReasons context candidate =
              canonicalizeReasons (currentnessReasons context candidate) context.limits := by
          intro candidate hequal hstale
          rw [shownReasons, collectReasons_of_stopped (hequal ▸ hstale), hequal]
        rw [hshown a hadmissionA hcurrentA, hshown b hadmissionB hcurrentB,
          canonicalizeReasons_currentnessReasons, canonicalizeReasons_currentnessReasons,
          ← hbefore, ← hafter, take_between_eq_iff ageReasons_between, length_sortBy]
        · exact ⟨.inr, fun halike => halike.resolve_left fun hstopped => hstopped hdecided⟩
        · rw [hafter]
          exact ageReasons_between
  · have hstopped : ∀ candidate, earlierReasons context candidate ≠ [] →
        admissionReasons context candidate = earlierReasons context candidate := by
      intro candidate hreasons
      rw [admissionReasons_eq_gate, gate, if_neg (by simpa using hreasons)]
    have hstoppedA := hstopped a hdecided
    have hstoppedB := hstopped b (hearlier ▸ hdecided)
    refine iff_of_true ?_ (.inl hdecided)
    rw [shownReasons, shownReasons, collectReasons_of_stopped (hstoppedA ▸ hdecided),
      collectReasons_of_stopped (hstoppedB ▸ hearlier ▸ hdecided), hstoppedA, hstoppedB, hearlier]

/-- What two candidates of like age make of their records. -/
private theorem record_of_agesAlike (hlimits : validateLimits context.limits = .ok ())
    (hsame : a.timeless = b.timeless) (h : AgesAlike context a b) :
    (evaluationRecord context a).reasons = (evaluationRecord context b).reasons ∧
      (evaluationRecord context a).preferences = (evaluationRecord context b).preferences ∧
      (evaluationRecord context a).outcome = (evaluationRecord context b).outcome := by
  have hshown := (shownReasons_eq_iff hlimits hsame).mpr h
  obtain ⟨-, -, -, -, -, -, hpreferences⟩ := same_of_timeless context hsame
  have hnone : ∀ candidate, shownReasons context candidate = [] ↔
      (collectReasons context candidate).reasons = [] :=
    fun _ => canonicalizeReasons_eq_nil_iff hlimits
  have hempty : (collectReasons context a).reasons.isEmpty =
      (collectReasons context b).reasons.isEmpty := by
    rw [Bool.eq_iff_iff, List.isEmpty_iff, List.isEmpty_iff, ← hnone, hshown, hnone]
  have hslots : (evaluationRecord context a).preferences =
      (evaluationRecord context b).preferences := by
    simp only [evaluationRecord, hempty, hpreferences]
  refine ⟨hshown, hslots, ?_⟩
  change outcomeFromReasons (shownReasons context a)
      (!(evaluationRecord context a).preferences.isEmpty) =
    outcomeFromReasons (shownReasons context b)
      (!(evaluationRecord context b).preferences.isEmpty)
  rw [hshown, hslots]

end Ages

/-! ## What a batch shows -/

/-- What a record says of its candidate. -/
structure Verdict where
  path : PathId
  outcome : Outcome
  primaryReason : ReasonCode
  reasons : List Reason
deriving DecidableEq

def EvaluationRecord.verdict (record : EvaluationRecord) : Verdict where
  path := record.path
  outcome := record.outcome
  primaryReason := record.primaryReason
  reasons := record.reasons

/-- What a batch says of its population. -/
structure BatchVerdict where
  outcome : BatchOutcome
  reason : ReasonCode
  records : List Verdict
  admissibleOrder : List RankedCandidate
deriving DecidableEq

def EvaluationBatch.verdict (batch : EvaluationBatch) : BatchVerdict where
  outcome := batch.batchOutcome
  reason := batch.primaryBatchReason
  records := batch.records.map EvaluationRecord.verdict
  admissibleOrder := batch.admissibleOrder

/-- Every arrangement of the candidates is given the same batch. -/
def ArrivalIndependent (context : EvaluationContext) (candidates : List CandidatePath) : Prop :=
  ∀ arrived, arrived.Perm candidates →
    (evaluateBatch context arrived).map EvaluationBatch.verdict =
      (evaluateBatch context candidates).map EvaluationBatch.verdict

/-- Candidates of one path that have one digest differ in their ticks alone. -/
def DigestsTell (candidates : List CandidatePath) : Prop :=
  ∀ a ∈ candidates, ∀ b ∈ candidates, a.path = b.path →
    candidateDigest a = candidateDigest b → a.timeless = b.timeless

/-! ## Rejections -/

section Rejections

variable {candidates arrived : List CandidatePath} {limits : Limits}

private theorem conflictingNeighbours_eq_false_iff {ordered : List CandidatePath} :
    conflictingNeighbours ordered = false ↔
      ordered.IsChain fun a b => a.path = b.path → candidateDigest a = candidateDigest b := by
  induction ordered with
  | nil => simp [conflictingNeighbours]
  | cons a rest ih =>
      cases rest with
      | nil => simp [conflictingNeighbours]
      | cons b later =>
          rw [conflictingNeighbours, Bool.or_eq_false_iff, ih, List.isChain_cons_cons]
          simp [Decidable.imp_iff_not_or]

/-- No neighbours conflict exactly when the candidates of each path have one digest. -/
private theorem conflictingNeighbours_sortBy_eq_false_iff :
    conflictingNeighbours (sortBy (compareOn (·.path)) candidates) = false ↔
      ∀ a ∈ candidates, ∀ b ∈ candidates, a.path = b.path →
        candidateDigest a = candidateDigest b := by
  rw [conflictingNeighbours_eq_false_iff]
  constructor
  · intro hchain
    exact agree_of_neighbours hchain
  · intro hagree
    have hpairs : (sortBy (compareOn CandidatePath.path) candidates).Pairwise
        fun a b => a.path = b.path → candidateDigest a = candidateDigest b :=
      List.pairwise_of_forall_mem_list fun a ha b hb =>
        hagree a (mem_sortBy.mp ha) b (mem_sortBy.mp hb)
    exact hpairs.isChain

/-- A rejection does not depend on the order of arrival. -/
theorem batchRejection_perm (h : arrived.Perm candidates) :
    batchRejection limits arrived = batchRejection limits candidates := by
  have hconflict : conflictingNeighbours (sortBy (compareOn (·.path)) arrived) =
      conflictingNeighbours (sortBy (compareOn (·.path)) candidates) := by
    rw [Bool.eq_iff_iff, ← not_iff_not, Bool.not_eq_true, Bool.not_eq_true,
      conflictingNeighbours_sortBy_eq_false_iff, conflictingNeighbours_sortBy_eq_false_iff]
    simp only [h.mem_iff]
  unfold batchRejection listWithin
  rw [hconflict, h.length_eq]

/-- An accepted population is within the limit of an evaluation. -/
theorem length_le_of_accepted (haccepted : batchRejection limits candidates = none) :
    candidates.length ≤ limits.maxCandidatesPerEvaluation.toNat := by
  have hwithin : listWithin candidates limits.maxCandidatesPerEvaluation = true := by
    by_contra hbeyond
    unfold batchRejection at haccepted
    rw [if_pos (by simpa using hbeyond)] at haccepted
    cases haccepted
  rwa [listWithin_eq_true] at hwithin

/-- The candidates of one path of an accepted population have one digest. -/
theorem digest_of_accepted (haccepted : batchRejection limits candidates = none) :
    ∀ a ∈ candidates, ∀ b ∈ candidates, a.path = b.path →
      candidateDigest a = candidateDigest b := by
  unfold batchRejection at haccepted
  split at haccepted
  · cases haccepted
  · split at haccepted
    · cases haccepted
    · split at haccepted
      · cases haccepted
      · next hconflict =>
          exact conflictingNeighbours_sortBy_eq_false_iff.mp (Bool.not_eq_true _ ▸ hconflict)

end Rejections

/-! ## Accepted populations -/

section Accepted

variable {context : EvaluationContext} {candidates arrived : List CandidatePath}

/-- The batch of a population that is not rejected. -/
def acceptedBatch (context : EvaluationContext) (canonical : List CandidatePath) :
    EvaluationBatch :=
  let records := canonical.map (evaluationRecord context)
  let admissibleOrder := orderAdmissible records canonical context.set.ranking
  let hasAdmissible := !admissibleOrder.isEmpty
  { setId := context.set.id, setGeneration := context.set.generation
    generation := context.generation, records, admissibleOrder, hasAdmissible
    batchOutcome :=
      if hasAdmissible then .admissibleCandidatesAvailable else .noAdmissibleCandidate
    primaryBatchReason := if hasAdmissible then .none else primaryBatchReason records }

theorem evaluateBatch_of_accepted (hlimits : validateLimits context.limits = .ok ())
    (haccepted : batchRejection context.limits candidates = none) :
    evaluateBatch context candidates =
      .ok (acceptedBatch context (canonicalCandidates candidates)) := by
  unfold evaluateBatch
  simp only [haccepted, mapM_evaluateCandidate _ hlimits]
  rfl

theorem length_canonicalCandidates_le (candidates : List CandidatePath) :
    (canonicalCandidates candidates).length ≤ candidates.length := by
  have hkept := (List.destutter_sublist (fun a b : CandidatePath => a.path ≠ b.path)
    (sortBy (compareOn (·.path)) candidates)).length_le
  rw [length_sortBy] at hkept
  exact hkept

private theorem find?_canonicalCandidates {path : PathId} :
    (canonicalCandidates candidates).find? (·.path == path) =
      candidates.find? (·.path == path) := by
  show (firstOfEach CandidatePath.path candidates).find? _ = _
  exact find?_firstOfEach

/-- Without valid limits no candidate is evaluated. -/
theorem evaluateBatch_of_invalid {why : String}
    (hlimits : validateLimits context.limits = .error why)
    (haccepted : batchRejection context.limits candidates = none) :
    evaluateBatch context candidates =
      if candidates = [] then .ok (acceptedBatch context []) else failure .invalidArgument why := by
  have hevaluate : evaluateCandidate context = fun _ => failure .invalidArgument why := by
    funext candidate
    simp only [evaluateCandidate, hlimits]
  unfold evaluateBatch
  simp only [haccepted, hevaluate]
  by_cases hnone : candidates = []
  · subst hnone
    rfl
  · obtain ⟨first, hfirst⟩ := List.exists_mem_of_ne_nil _ hnone
    rw [if_neg hnone]
    cases hcanonical : canonicalCandidates candidates with
    | nil =>
        have hfound := @find?_canonicalCandidates candidates first.path
        rw [hcanonical, List.find?_nil, eq_comm, List.find?_eq_none] at hfound
        exact absurd (beq_self_eq_true _) (hfound first hfirst)
    | cons head rest => rfl

/-- What the admissible order reads of a record. -/
private def ranked (record : EvaluationRecord) : PathId × Outcome × List PreferenceSlot :=
  (record.path, record.outcome, record.preferences)

/-- The admissible order reads no tick. -/
private theorem orderAdmissible_congr {records others : List EvaluationRecord}
    {xs ys : List CandidatePath} {policy : RankingPolicy}
    (hrecords : records.map ranked = others.map ranked)
    (hcandidates : xs.map CandidatePath.timeless = ys.map CandidatePath.timeless) :
    orderAdmissible records xs policy = orderAdmissible others ys policy := by
  have hlengths : records.length = others.length := by
    simpa using congrArg List.length hrecords
  have hcounts : xs.length = ys.length := by
    simpa using congrArg List.length hcandidates
  have hslots : ∀ index, (records.getD index {}).preferences =
      (others.getD index {}).preferences := by
    intro index
    have hentry := congrArg (fun entries => entries.getD index (ranked {})) hrecords
    simp only [List.getD_map] at hentry
    exact congrArg (·.2.2) hentry
  have hpaths : ∀ index, (xs.getD index {}).timeless = (ys.getD index {}).timeless := by
    intro index
    have hentry := congrArg
      (fun entries => entries.getD index (CandidatePath.timeless {})) hcandidates
    simp only [List.getD_map] at hentry
    exact hentry
  have hcompare : ∀ first second i j, compareRanked first (xs.getD i {}) second (xs.getD j {})
      policy = compareRanked { preferences := first.preferences } (xs.getD i {}).timeless
        { preferences := second.preferences } (xs.getD j {}).timeless policy :=
    fun _ _ _ _ => rfl
  have hadmissible : ∀ keep : EvaluationRecord × Nat → Option RankedCandidate,
      (∀ record index, keep (record, index) =
        if record.isAdmissible then some ⟨record.path, UInt32.ofNat index⟩ else none) →
      records.zipIdx.filterMap keep = others.zipIdx.filterMap keep := by
    intro keep hkeep
    have hranked : ∀ entries : List EvaluationRecord, entries.zipIdx.filterMap keep =
        (entries.map ranked).zipIdx.filterMap fun entry =>
          if entry.1.2.1 = .admissible || entry.1.2.1 = .admissibleWithPreferences then
            some ⟨entry.1.1, UInt32.ofNat entry.2⟩ else none := by
      intro entries
      rw [List.zipIdx_map, List.filterMap_map]
      apply List.filterMap_congr
      intro entry _
      exact hkeep entry.1 entry.2
    rw [hranked records, hranked others, hrecords]
  unfold orderAdmissible
  rw [hlengths, hcounts, hadmissible _ fun _ _ => rfl]
  simp only [hcompare, hslots, hpaths]
  rfl

private theorem primaryBatchReason_congr {records others : List EvaluationRecord}
    (h : records.map (·.primaryReason) = others.map (·.primaryReason)) :
    primaryBatchReason records = primaryBatchReason others := by
  let worse (primary reason : ReasonCode) : ReasonCode :=
    let recordClass := (reasonClassOf reason).code
    let primaryClass := (reasonClassOf primary).code
    if reason ≠ .none && recordClass < primaryClass then reason
    else if recordClass == primaryClass && reason.code < primary.code then reason
    else primary
  have hreasons : ∀ first rest, primaryBatchReason (first :: rest) =
      ((first :: rest).map (·.primaryReason)).foldl worse first.primaryReason := by
    intro first rest
    rw [List.foldl_map]
    rfl
  cases records with
  | nil =>
      rw [List.map_nil, eq_comm, List.map_eq_nil_iff] at h
      rw [h]
  | cons first rest =>
      cases others with
      | nil => cases h
      | cons other later =>
          have hfirst : first.primaryReason = other.primaryReason := (List.cons.inj h).1
          rw [hreasons, hreasons, h, hfirst]

/-- Populations whose candidates are alike one by one are given the same batch. -/
private theorem acceptedBatch_congr {xs ys : List CandidatePath}
    (htimeless : xs.map CandidatePath.timeless = ys.map CandidatePath.timeless)
    (hverdicts : xs.map (fun candidate => (evaluationRecord context candidate).verdict) =
      ys.map fun candidate => (evaluationRecord context candidate).verdict)
    (hranked : xs.map (fun candidate => ranked (evaluationRecord context candidate)) =
      ys.map fun candidate => ranked (evaluationRecord context candidate)) :
    (acceptedBatch context xs).verdict = (acceptedBatch context ys).verdict := by
  have hrecords : (xs.map (evaluationRecord context)).map EvaluationRecord.verdict =
      (ys.map (evaluationRecord context)).map EvaluationRecord.verdict := by
    rw [List.map_map, List.map_map]
    exact hverdicts
  have hrank : (xs.map (evaluationRecord context)).map ranked =
      (ys.map (evaluationRecord context)).map ranked := by
    rw [List.map_map, List.map_map]
    exact hranked
  have hreasons : (xs.map (evaluationRecord context)).map (·.primaryReason) =
      (ys.map (evaluationRecord context)).map (·.primaryReason) := by
    have hprimary : ∀ records : List EvaluationRecord, records.map (·.primaryReason) =
        (records.map EvaluationRecord.verdict).map Verdict.primaryReason := by
      intro records
      rw [List.map_map]
      rfl
    rw [hprimary, hrecords, ← hprimary]
  simp only [EvaluationBatch.verdict, acceptedBatch, hrecords,
    orderAdmissible_congr hrank htimeless, primaryBatchReason_congr hreasons]

private theorem canonicalCandidates_keys (h : arrived.Perm candidates) :
    (canonicalCandidates arrived).map (·.path) = (canonicalCandidates candidates).map (·.path) :=
  map_key_firstOfEach_of_perm h

/-- Candidates of like age are given one batch in every order of arrival. -/
private theorem acceptedBatch_of_agesAlike (hlimits : validateLimits context.limits = .ok ())
    (htells : DigestsTell candidates)
    (haccepted : batchRejection context.limits candidates = none)
    (halike : ∀ a ∈ candidates, ∀ b ∈ candidates, a.path = b.path → AgesAlike context a b)
    (h : arrived.Perm candidates) :
    (acceptedBatch context (canonicalCandidates arrived)).verdict =
      (acceptedBatch context (canonicalCandidates candidates)).verdict := by
  have hsame : ∀ a ∈ canonicalCandidates arrived, ∀ b ∈ canonicalCandidates candidates,
      a.path = b.path → a.timeless = b.timeless ∧ AgesAlike context a b := by
    intro a ha b hb hpath
    have hmemA := h.mem_iff.mp (mem_of_mem_firstOfEach ha)
    have hmemB := mem_of_mem_firstOfEach hb
    have hdigest := digest_of_accepted haccepted a hmemA b hmemB hpath
    exact ⟨htells a hmemA b hmemB hpath hdigest, halike a hmemA b hmemB hpath⟩
  have hkeys := canonicalCandidates_keys h
  apply acceptedBatch_congr
  · exact map_eq_of_map_key_eq hkeys fun a ha b hb hpath => (hsame a ha b hb hpath).1
  · refine map_eq_of_map_key_eq hkeys fun a ha b hb hpath => ?_
    obtain ⟨htimeless, hages⟩ := hsame a ha b hb hpath
    obtain ⟨hreasons, -, houtcome⟩ := record_of_agesAlike hlimits htimeless hages
    have hprimary : (evaluationRecord context a).primaryReason =
        (evaluationRecord context b).primaryReason := congrArg primaryReasonOf hreasons
    simp only [EvaluationRecord.verdict, hreasons, houtcome, hprimary]
    exact congrArg (fun path => Verdict.mk path _ _ _) hpath
  · refine map_eq_of_map_key_eq hkeys fun a ha b hb hpath => ?_
    obtain ⟨htimeless, hages⟩ := hsame a ha b hb hpath
    obtain ⟨-, hpreferences, houtcome⟩ := record_of_agesAlike hlimits htimeless hages
    simp only [ranked, hpreferences, houtcome]
    exact congrArg (fun path => (path, _)) hpath

/-- The first of two arrangements that begin with candidates of one path gives that path
the reasons of the candidate it begins with. -/
private theorem shownReasons_of_independent (hlimits : validateLimits context.limits = .ok ())
    (haccepted : batchRejection context.limits candidates = none)
    (hindependent : ArrivalIndependent context candidates) {a : CandidatePath}
    (ha : a ∈ candidates) :
    ((acceptedBatch context (canonicalCandidates candidates)).verdict.records.find?
      (·.path == a.path)).map Verdict.reasons = some (shownReasons context a) := by
  have hperm : (a :: candidates.erase a).Perm candidates := (List.perm_cons_erase ha).symm
  have hsame := hindependent _ hperm
  rw [evaluateBatch_of_accepted hlimits haccepted,
    evaluateBatch_of_accepted hlimits (batchRejection_perm hperm ▸ haccepted)] at hsame
  have hverdict : (acceptedBatch context (canonicalCandidates (a :: candidates.erase a))).verdict =
      (acceptedBatch context (canonicalCandidates candidates)).verdict := Except.ok.inj hsame
  have hfirst : (canonicalCandidates (a :: candidates.erase a)).find? (·.path == a.path) =
      some a := by
    rw [find?_canonicalCandidates]
    exact List.find?_cons_of_pos (beq_self_eq_true a.path)
  rw [← hverdict]
  have hrecords : (acceptedBatch context
        (canonicalCandidates (a :: candidates.erase a))).verdict.records =
      (canonicalCandidates (a :: candidates.erase a)).map fun candidate =>
        (evaluationRecord context candidate).verdict := List.map_map
  rw [hrecords, List.find?_map]
  have hpath : ((fun verdict : Verdict => verdict.path == a.path) ∘ fun candidate =>
      (evaluationRecord context candidate).verdict) = fun candidate =>
        candidate.path == a.path := rfl
  rw [hpath, hfirst]
  rfl

end Accepted

/-- The order of arrival does not show exactly when the evaluator cannot run, when it
rejects the population, or when the ages of the candidates of each path are alike. -/
theorem arrivalIndependent_iff (context : EvaluationContext) (candidates : List CandidatePath)
    (htells : DigestsTell candidates) :
    ArrivalIndependent context candidates ↔
      validateLimits context.limits ≠ .ok () ∨
        (batchRejection context.limits candidates).isSome = true ∨
        ∀ a ∈ candidates, ∀ b ∈ candidates, a.path = b.path → AgesAlike context a b := by
  rcases hrejected : batchRejection context.limits candidates with _ | reason
  · rcases hlimits : validateLimits context.limits with why | ⟨⟨⟩⟩
    · refine iff_of_true (fun arrived hperm => ?_) (.inl (by simp))
      rw [evaluateBatch_of_invalid hlimits hrejected,
        evaluateBatch_of_invalid hlimits (batchRejection_perm hperm ▸ hrejected)]
      have hempty : arrived = [] ↔ candidates = [] :=
        ⟨fun hnone => (hnone ▸ hperm).nil_eq.symm, fun hnone => (hnone ▸ hperm).eq_nil⟩
      simp only [hempty]
    · constructor
      · intro hindependent
        refine .inr (.inr fun a ha b hb hpath => ?_)
        have hdigest := digest_of_accepted hrejected a ha b hb hpath
        have htimeless := htells a ha b hb hpath hdigest
        have hfirst := shownReasons_of_independent hlimits hrejected hindependent ha
        have hsecond := shownReasons_of_independent hlimits hrejected hindependent hb
        rw [← hpath, hfirst, Option.some.injEq] at hsecond
        exact (shownReasons_eq_iff hlimits htimeless).mp hsecond
      · intro hcondition arrived hperm
        have halike := (hcondition.resolve_left (by simp)).resolve_left (by simp)
        rw [evaluateBatch_of_accepted hlimits hrejected,
          evaluateBatch_of_accepted hlimits (batchRejection_perm hperm ▸ hrejected)]
        exact congrArg Except.ok
          (acceptedBatch_of_agesAlike hlimits htells hrejected halike hperm)
  · refine iff_of_true (fun arrived hperm => ?_) (.inr (.inl rfl))
    unfold evaluateBatch
    rw [batchRejection_perm hperm, hrejected]

/-! ## Two copies of one path -/

/-- An active set without constraints, at a tick when evidence of the first ticks is too
old. -/
def sampleAged : EvaluationContext where
  set := { sampleSet 5 with
    state := .active, digest := constraintSetDigest (sampleSet 5) }
  current := { sampleEvidence with maxEvidenceAgeTicks := 500 }
  nowTick := 1000
  authorityVerified := true

/-- One path twice: captured long ago, and captured again. -/
def sampleCopies : List CandidatePath :=
  [samplePath 31, { samplePath 31 with evidence.capturedTick := 900 }]

private theorem sampleCopies_outcomes :
    ((evaluateBatch sampleAged sampleCopies).map (·.verdict.outcome)).toOption =
        some .noAdmissibleCandidate ∧
      ((evaluateBatch sampleAged sampleCopies.reverse).map (·.verdict.outcome)).toOption =
        some .admissibleCandidatesAvailable := by
  decide +kernel

/-- The batch admits the path or not by which of its copies arrives first. -/
theorem arrival_order_decides_admission :
    (∃ older, evaluateBatch sampleAged sampleCopies = .ok older ∧
      older.batchOutcome = .noAdmissibleCandidate) ∧
    (∃ newer, evaluateBatch sampleAged sampleCopies.reverse = .ok newer ∧
      newer.batchOutcome = .admissibleCandidatesAvailable) ∧
    ¬ ArrivalIndependent sampleAged sampleCopies := by
  obtain ⟨holder, hnewer⟩ := sampleCopies_outcomes
  cases hfirst : evaluateBatch sampleAged sampleCopies with
  | error why => simp [hfirst, Except.map, Except.toOption] at holder
  | ok older =>
      cases hsecond : evaluateBatch sampleAged sampleCopies.reverse with
      | error why => simp [hsecond, Except.map, Except.toOption] at hnewer
      | ok newer =>
          rw [hfirst] at holder
          rw [hsecond] at hnewer
          have hold : older.batchOutcome = .noAdmissibleCandidate := Option.some.inj holder
          have hnew : newer.batchOutcome = .admissibleCandidatesAvailable :=
            Option.some.inj hnewer
          refine ⟨⟨older, rfl, hold⟩, ⟨newer, rfl, hnew⟩, fun hindependent => ?_⟩
          have hsame := hindependent _ (List.reverse_perm sampleCopies)
          rw [hfirst, hsecond] at hsame
          have hverdict : newer.verdict = older.verdict := Except.ok.inj hsame
          have houtcome : newer.batchOutcome = older.batchOutcome :=
            congrArg BatchVerdict.outcome hverdict
          rw [hold, hnew] at houtcome
          cases houtcome

private theorem sampleCopies_tell : DigestsTell sampleCopies := by
  have htimeless : ∀ copy ∈ sampleCopies, copy.timeless = (samplePath 31).timeless := by
    decide
  intro a ha b hb _ _
  rw [htimeless a ha, htimeless b hb]

theorem arrivalIndependent_iff_sample :
    ArrivalIndependent sampleAged sampleCopies ↔
      validateLimits sampleAged.limits ≠ .ok () ∨
        (batchRejection sampleAged.limits sampleCopies).isSome = true ∨
        ∀ a ∈ sampleCopies, ∀ b ∈ sampleCopies, a.path = b.path → AgesAlike sampleAged a b :=
  arrivalIndependent_iff sampleAged sampleCopies sampleCopies_tell

end ConstraintRouting.Fabric
