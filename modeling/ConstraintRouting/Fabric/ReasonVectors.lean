import ConstraintRouting.Fabric.CandidateForm
import ConstraintRouting.Fabric.Repetitions

/-!
# The reasons of a record

The gates never give one reason twice, so the reasons that a record keeps ascend strictly as
long as no constraint gives one twice.  Where nothing is cut the converse holds as well.
-/

namespace ConstraintRouting.Fabric

open Verified.SortedLists

/-! ## Reasons of the gates -/

section Gates

variable {context : EvaluationContext} {candidate : CandidatePath}

/-- The reasons of the gates are of the classes of their codes. -/
def Classed (reasons : List Reason) : Prop :=
  ∀ reason ∈ reasons, reason.reasonClass = reasonClassOf reason.code

theorem Classed.gate {earlier later : List Reason} (hearlier : Classed earlier)
    (hlater : Classed later) : Classed (gate earlier later) := by
  unfold Fabric.gate
  split
  · exact hlater
  · exact hearlier

theorem Apart.gate {earlier later : List Reason} (hearlier : Apart earlier)
    (hlater : Apart later) : Apart (gate earlier later) := by
  unfold Fabric.gate
  split
  · exact hlater
  · exact hearlier

/-- One reason of its class, or none. -/
def OneClassed (reasons : List Reason) : Prop :=
  reasons = [] ∨ ∃ reason, reasons = [reason] ∧
    reason.reasonClass = reasonClassOf reason.code

theorem OneClassed.classed {reasons : List Reason} (h : OneClassed reasons) :
    Classed reasons := by
  intro reason hmem
  rcases h with hnone | ⟨only, honly, hclass⟩
  · rw [hnone] at hmem
    cases hmem
  · rw [honly] at hmem
    rwa [List.mem_singleton.mp hmem]

theorem OneClassed.apart {reasons : List Reason} (h : OneClassed reasons) : Apart reasons := by
  apply Apart.of_length_le_one
  rcases h with hnone | ⟨only, honly, -⟩
  · simp [hnone]
  · simp [honly]

theorem resourceAdmissionReasons_oneClassed : OneClassed (resourceAdmissionReasons context) := by
  unfold resourceAdmissionReasons
  split
  · exact .inr ⟨_, rfl, rfl⟩
  · exact .inl rfl

theorem authorityContextReasons_oneClassed : OneClassed (authorityContextReasons context) := by
  dsimp only [authorityContextReasons]
  split
  · exact .inr ⟨_, rfl, rfl⟩
  · exact .inl rfl

theorem lifecycleReasons_oneClassed : OneClassed (lifecycleReasons context) := by
  dsimp only [lifecycleReasons]
  split
  · exact .inr ⟨_, rfl, rfl⟩
  · split
    · exact .inr ⟨_, rfl, rfl⟩
    · exact .inl rfl

theorem pathAuthorityReasons_oneClassed :
    OneClassed (pathAuthorityReasons context candidate) := by
  dsimp only [pathAuthorityReasons]
  split
  · exact .inr ⟨_, rfl, rfl⟩
  · split
    · exact .inr ⟨_, rfl, rfl⟩
    · split
      · exact .inr ⟨_, rfl, rfl⟩
      · split
        · exact .inr ⟨_, rfl, rfl⟩
        · exact .inr ⟨_, rfl, rfl⟩
        · exact .inl rfl

theorem familyReasons_oneClassed {family : EvidenceFamily} :
    OneClassed (familyReasons context candidate family) := by
  dsimp only [familyReasons]
  split
  · exact .inl rfl
  · split
    · exact .inr ⟨_, rfl, rfl⟩
    · split
      · exact .inr ⟨_, rfl, rfl⟩
      · exact .inl rfl

/-- The stage of structure has nothing against a canonical set and a valid candidate. -/
theorem wireDecodeReasons_eq_nil
    (hset : verifyCanonicalConstraintSet context.set context.limits = .ok ())
    (hcandidate : validateCandidate candidate context.limits = .ok ()) :
    wireDecodeReasons context candidate = [] := by
  unfold wireDecodeReasons
  rw [hset, hcandidate]
  rfl

theorem ageReasons_oneClassed : OneClassed (ageReasons context candidate) := by
  dsimp only [ageReasons]
  split
  · exact .inr ⟨_, rfl, rfl⟩
  · exact .inl rfl

theorem costModelReasons_oneClassed : OneClassed (costModelReasons context candidate) := by
  dsimp only [costModelReasons]
  split
  · exact .inr ⟨_, rfl, rfl⟩
  · exact .inl rfl

/-- What tells the reasons of the currentness stage apart: the family, or the code. -/
theorem family_of_familyReasons {family : EvidenceFamily} {reason : Reason}
    (h : reason ∈ familyReasons context candidate family) :
    reason.family = family ∧
      (reason.code = .evidenceNotBound ∨ reason.code = stalenessCode family) := by
  dsimp only [familyReasons] at h
  split at h
  · cases h
  · split at h
    · rw [List.mem_singleton.mp h]
      exact ⟨rfl, .inl rfl⟩
    · split at h
      · rw [List.mem_singleton.mp h]
        exact ⟨rfl, .inr rfl⟩
      · cases h

theorem family_of_ageReasons {reason : Reason} (h : reason ∈ ageReasons context candidate) :
    reason.family = .constraintSet := by
  dsimp only [ageReasons] at h
  split at h
  · rw [List.mem_singleton.mp h]
    rfl
  · cases h

theorem mismatch_of_costModelReasons {reason : Reason}
    (h : reason ∈ costModelReasons context candidate) :
    reason.family = .planner ∧ reason.code = .plannerCostModelMismatch := by
  dsimp only [costModelReasons] at h
  split at h
  · rw [List.mem_singleton.mp h]
    exact ⟨rfl, rfl⟩
  · cases h

theorem currentnessReasons_classed : Classed (currentnessReasons context candidate) := by
  intro reason hmem
  simp only [currentnessReasons, List.mem_append, List.mem_flatMap] at hmem
  rcases hmem with (⟨family, -, hfamily⟩ | hage) | hcost
  · exact familyReasons_oneClassed.classed reason hfamily
  · exact ageReasons_oneClassed.classed reason hage
  · exact costModelReasons_oneClassed.classed reason hcost

theorem currentnessReasons_apart : Apart (currentnessReasons context candidate) := by
  have hdiffers : ∀ {a b : Reason}, a ∈ currentnessReasons context candidate →
      b ∈ currentnessReasons context candidate → a.family ≠ b.family ∨ a.code ≠ b.code →
      compareReason a b ≠ .eq := by
    intro a b ha hb hother hequal
    have hsame := (compareReason_eq_iff (currentnessReasons_classed a ha)
      (currentnessReasons_classed b hb)).mp hequal
    rcases hother with hfamily | hcode
    · exact hfamily hsame.2.2.2.1
    · exact hcode hsame.2.1
  have hfamilies : ∀ a ∈ currentnessFamilies.flatMap (familyReasons context candidate),
      ∃ family ∈ currentnessFamilies, a.family = family ∧
        (a.code = .evidenceNotBound ∨ a.code = stalenessCode family) := by
    intro a hmem
    obtain ⟨family, hfamily, hreason⟩ := List.mem_flatMap.mp hmem
    exact ⟨family, hfamily, family_of_familyReasons hreason⟩
  have hcodes : ∀ family ∈ currentnessFamilies, family ≠ .constraintSet ∧
      stalenessCode family ≠ .plannerCostModelMismatch := by decide
  have hall : ∀ a, a ∈ currentnessReasons context candidate ↔
      (a ∈ currentnessFamilies.flatMap (familyReasons context candidate) ∨
        a ∈ ageReasons context candidate) ∨ a ∈ costModelReasons context candidate := by
    intro a
    simp only [currentnessReasons, List.mem_append]
  show List.Pairwise _ (_ ++ _ ++ _)
  rw [List.pairwise_append, List.pairwise_append]
  refine ⟨⟨?_, ageReasons_oneClassed.apart, ?_⟩, costModelReasons_oneClassed.apart, ?_⟩
  · rw [List.pairwise_flatMap]
    refine ⟨fun _ _ => familyReasons_oneClassed.apart, ?_⟩
    have hdistinct : currentnessFamilies.Nodup := by decide
    apply hdistinct.imp_of_mem
    intro one other hone hother hne a ha b hb
    apply hdiffers
    · exact (hall a).mpr (.inl (.inl (List.mem_flatMap.mpr ⟨one, hone, ha⟩)))
    · exact (hall b).mpr (.inl (.inl (List.mem_flatMap.mpr ⟨other, hother, hb⟩)))
    · left
      rw [(family_of_familyReasons ha).1, (family_of_familyReasons hb).1]
      exact hne
  · intro a ha b hb
    apply hdiffers ((hall a).mpr (.inl (.inl ha))) ((hall b).mpr (.inl (.inr hb)))
    left
    obtain ⟨family, hfamily, hsame, -⟩ := hfamilies a ha
    rw [hsame, family_of_ageReasons hb]
    exact (hcodes family hfamily).1
  · intro a ha b hb
    have hearlier := List.mem_append.mp ha
    apply hdiffers ((hall a).mpr (.inl hearlier)) ((hall b).mpr (.inr hb))
    obtain ⟨hplanner, hmismatch⟩ := mismatch_of_costModelReasons hb
    rcases hearlier with hfamily | hage
    · right
      obtain ⟨family, hknown, -, hcode⟩ := hfamilies a hfamily
      rw [hmismatch]
      rcases hcode with hunbound | hstale
      · rw [hunbound]
        decide
      · rw [hstale]
        exact (hcodes family hknown).2
    · left
      rw [family_of_ageReasons hage, hplanner]
      decide

/-- The reasons of the gates are apart. -/
theorem admissionReasons_apart
    (hset : verifyCanonicalConstraintSet context.set context.limits = .ok ())
    (hcandidate : validateCandidate candidate context.limits = .ok ()) :
    Classed (admissionReasons context candidate) ∧
      Apart (admissionReasons context candidate) := by
  unfold admissionReasons
  rw [wireDecodeReasons_eq_nil hset hcandidate]
  have hnone : OneClassed [] := .inl rfl
  constructor
  · exact resourceAdmissionReasons_oneClassed.classed.gate <| hnone.classed.gate <|
      authorityContextReasons_oneClassed.classed.gate <|
      lifecycleReasons_oneClassed.classed.gate <|
      pathAuthorityReasons_oneClassed.classed.gate currentnessReasons_classed
  · exact resourceAdmissionReasons_oneClassed.apart.gate <| hnone.apart.gate <|
      authorityContextReasons_oneClassed.apart.gate <|
      lifecycleReasons_oneClassed.apart.gate <|
      pathAuthorityReasons_oneClassed.apart.gate currentnessReasons_apart

end Gates

/-! ## Reasons of a record -/

theorem length_keepReasons_le {limits : Limits} {kept : Nat} {represented : List ConstraintId}
    {reasons : List Reason} :
    (keepReasons limits kept represented reasons).length ≤
      limits.maxExplanationReasons.toNat - kept := by
  induction reasons generalizing kept represented with
  | nil => simp [keepReasons]
  | cons reason rest ih =>
      rw [keepReasons]
      split
      · simp
      · next hroom =>
          have hfirst := @ih (kept + 1) (reason.constraint :: represented)
          have hagain := @ih (kept + 1) represented
          split
          · split
            · exact ih
            · rw [List.length_cons]
              omega
          · rw [List.length_cons]
            omega

/-- Reasons that are apart are kept in strictly ascending order. -/
theorem Apart.ascending {reasons : List Reason} {limits : Limits} (h : Apart reasons) :
    strictlyAscending compareReason (canonicalizeReasons reasons limits) = true := by
  rw [strictlyAscending_iff_pairwise]
  have hsorted : (sortBy compareReason reasons).Pairwise fun a b => compareReason a b = .lt :=
    sortBy_pairwise_lt_iff.mpr h
  exact hsorted.sublist keepReasons_sublist

/-- The reasons that are kept ascend strictly exactly when they are apart. -/
theorem canonicalizeReasons_ascending_iff {reasons : List Reason} {limits : Limits} :
    strictlyAscending compareReason (canonicalizeReasons reasons limits) = true ↔
      Apart (canonicalizeReasons reasons limits) := by
  rw [strictlyAscending_iff_pairwise]
  have hsorted : (sortBy compareReason reasons).Pairwise (NotAfter compareReason) :=
    List.pairwise_insertionSort _ reasons
  exact pairwise_lt_iff_of_sorted (hsorted.sublist keepReasons_sublist)

/-- Where every reason is kept, they ascend strictly only if they are apart. -/
theorem Apart.of_ascending {reasons : List Reason} {limits : Limits}
    (hkept : (canonicalizeReasons reasons limits).length = reasons.length)
    (h : strictlyAscending compareReason (canonicalizeReasons reasons limits) = true) :
    Apart reasons := by
  have hall : canonicalizeReasons reasons limits = sortBy compareReason reasons := by
    apply keepReasons_sublist.eq_of_length
    rw [length_sortBy]
    exact hkept
  rw [strictlyAscending_iff_pairwise, hall] at h
  exact sortBy_pairwise_lt_iff.mp h

/-- Ascending reasons are led by the primary one. -/
theorem primaryReasonOf_ascending {reasons : List Reason}
    (h : strictlyAscending compareReason reasons = true) :
    primaryReasonOf reasons = headReason reasons := by
  cases reasons with
  | nil => rfl
  | cons first rest =>
      have hafter := (List.pairwise_cons.mp (strictlyAscending_iff_pairwise.mp h)).1
      apply primaryReasonOf_eq List.mem_cons_self
      intro other hmem
      rcases List.mem_cons.mp hmem with rfl | hrest
      · exact notAfter_refl _
      · simp [NotAfter, Std.OrientedCmp.gt_of_lt (hafter other hrest)]

/-- Nothing that is pushed is lost unless the state says so. -/
theorem foldl_pushReason_complete {reasons : List Reason} {state : ReasonState}
    (hclass : Classed reasons) (h : (reasons.foldl pushReason state).truncated = false) :
    state.truncated = false ∧
      (reasons.foldl pushReason state).reasons = state.reasons ++ reasons := by
  induction reasons generalizing state with
  | nil => exact ⟨h, (List.append_nil _).symm⟩
  | cons reason rest ih =>
      rw [List.foldl_cons] at h ⊢
      obtain ⟨hfirst, hrest⟩ := ih (fun other hmem => hclass other (List.mem_cons_of_mem _ hmem)) h
      rw [hrest, pushReason_reasons (hclass reason List.mem_cons_self)]
      unfold pushReason at hfirst
      dsimp only at hfirst
      split at hfirst
      · cases hfirst
      · next hroom =>
          rw [if_neg hroom, List.append_assoc]
          exact ⟨hfirst, rfl⟩

section Records

variable {context : EvaluationContext} {candidate : CandidatePath}

/-- Some mandatory constraint gives a candidate that the gates admit one reason twice. -/
def RepeatsReason (context : EvaluationContext) (candidate : CandidatePath) : Prop :=
  GateConditions context candidate ∧ ∃ constraint ∈ context.set.constraints,
    constraint.scope = .mandatory ∧ constraint.Repeats candidate context.current

/-- What tells the reasons of one constraint apart: its identities are in order, the nodes of
the path are distinct, and the evidence of its places is at generations that are set. -/
theorem reasonsAt_apart_iff {constraint : Constraint} {ordinal : UInt32}
    (hset : verifyCanonicalConstraintSet context.set context.limits = .ok ())
    (hcandidate : validateCandidate candidate context.limits = .ok ())
    (hstorable : candidate.Storable context.limits)
    (hmem : constraint ∈ context.set.constraints) :
    Apart (reasonsAt context candidate (constraint, ordinal)) ↔
      ¬ constraint.Repeats candidate context.current := by
  have hcanonical := (verifyCanonicalConstraintSet_eq_ok_iff.mp hset).1
  have hvalid := validateCandidate_eq_ok_iff.mp hcandidate
  have hset : ∀ {domain : GenerationDomain} {generation : Generation domain},
      Generation.isRepresentable generation.value = true → generation.value ≠ 0 := by
    intro domain generation hrepresentable
    have hreal := (representable_iff.mp hrepresentable).1
    simpa [Generation.isValid] using hreal
  have hplace : ∀ entity : EntityView, entity.Storable context.limits → entity.Evidenced := by
    intro entity hstored
    constructor
    · intro ref href
      exact hset (hstored.capabilities ref href).2
    · intro ref href
      exact hset (hstored.isolation ref href).2
  apply evaluateMandatory_apart_iff (hcanonical.constraints.entities constraint hmem)
    hvalid.distinct
  intro entity hentity
  unfold entitiesOf at hentity
  rcases List.mem_append.mp hentity with hnode | hlink
  · obtain ⟨node, hpresent, rfl⟩ := List.mem_map.mp hnode
    exact hplace _ (hstorable.nodes node hpresent)
  · obtain ⟨link, hpresent, rfl⟩ := List.mem_map.mp hlink
    exact hplace _ (hstorable.links link hpresent).1

/-- Every mandatory constraint of the set is at some ordinal, and only those are. -/
theorem apart_of_scoped_iff
    (hset : verifyCanonicalConstraintSet context.set context.limits = .ok ())
    (hcandidate : validateCandidate candidate context.limits = .ok ())
    (hstorable : candidate.Storable context.limits) :
    (∀ entry ∈ scopedConstraints context.set .mandatory,
        Apart (reasonsAt context candidate entry)) ↔
      ∀ constraint ∈ context.set.constraints, constraint.scope = .mandatory →
        ¬ constraint.Repeats candidate context.current := by
  constructor
  · intro h constraint hmem hscope
    obtain ⟨ordinal, hentry⟩ := mem_scopedConstraints_iff.mpr ⟨hmem, hscope⟩
    exact (reasonsAt_apart_iff hset hcandidate hstorable hmem).mp (h _ hentry)
  · intro h entry hentry
    obtain ⟨hmem, hscope⟩ := mem_scopedConstraints_iff.mp ⟨entry.2, hentry⟩
    exact (reasonsAt_apart_iff hset hcandidate hstorable hmem).mpr (h _ hmem hscope)

/-- No mandatory constraint gives a candidate that the gates admit one reason twice. -/
def ChecksApart (context : EvaluationContext) (candidate : CandidatePath) : Prop :=
  GateConditions context candidate → ∀ entry ∈ scopedConstraints context.set .mandatory,
    Apart (reasonsAt context candidate entry)

theorem checksApart_of_not_repeatsReason
    (hset : verifyCanonicalConstraintSet context.set context.limits = .ok ())
    (hcandidate : validateCandidate candidate context.limits = .ok ())
    (hstorable : candidate.Storable context.limits) (h : ¬ RepeatsReason context candidate) :
    ChecksApart context candidate := by
  intro hgates
  apply (apart_of_scoped_iff hset hcandidate hstorable).mpr
  intro constraint hmem hscope hrepeats
  exact h ⟨hgates, constraint, hmem, hscope, hrepeats⟩

/-- Reasons of different constraints never compare equal. -/
theorem collectReasons_apart
    (hset : verifyCanonicalConstraintSet context.set context.limits = .ok ())
    (hcandidate : validateCandidate candidate context.limits = .ok ())
    (h : ChecksApart context candidate) : Apart (collectReasons context candidate).reasons := by
  by_cases hadmitted : admissionReasons context candidate = []
  · have hgates := admissionReasons_eq_nil_iff.mp hadmitted
    have hlimit := hgates.withinLimits
    have hbound := context.limits.maxConstraintsPerSet.toNat_lt
    have heach := h hgates
    rw [collectReasons_of_admitted hadmitted]
    unfold Apart
    rw [List.pairwise_flatMap]
    constructor
    · intro entry hentry
      exact (heach entry hentry).sublist (List.take_sublist _ _)
    · apply (scopedConstraints_ordinals (by omega)).imp
      intro a b hless first hfirst second hsecond hequal
      have hbefore := compareReason_of_ordinal_lt
        (reasonsAt_attributed a first (List.mem_of_mem_take hfirst))
        (reasonsAt_attributed b second (List.mem_of_mem_take hsecond)) hless
      rw [hbefore] at hequal
      cases hequal
  · have hcollected : (collectReasons context candidate).reasons =
        admissionReasons context candidate := by
      dsimp only [collectReasons]
      rw [if_neg (by simpa using hadmitted)]
    rw [hcollected]
    exact (admissionReasons_apart hset hcandidate).2

/-- Every collected reason is of the class of its code. -/
theorem collectReasons_classed
    (hset : verifyCanonicalConstraintSet context.set context.limits = .ok ())
    (hcandidate : validateCandidate candidate context.limits = .ok ()) :
    Classed (collectReasons context candidate).reasons := by
  by_cases hadmitted : admissionReasons context candidate = []
  · rw [collectReasons_of_admitted hadmitted]
    intro reason hmem
    obtain ⟨entry, -, hreason⟩ := List.mem_flatMap.mp hmem
    exact (reasonsAt_attributed entry reason (List.mem_of_mem_take hreason)).reasonClass
  · have hcollected : (collectReasons context candidate).reasons =
        admissionReasons context candidate := by
      dsimp only [collectReasons]
      rw [if_neg (by simpa using hadmitted)]
    rw [hcollected]
    exact (admissionReasons_apart hset hcandidate).1

/-- The reasons that the record of the candidate keeps are apart. -/
def KeepsApart (context : EvaluationContext) (candidate : CandidatePath) : Prop :=
  Apart (canonicalizeReasons (collectReasons context candidate).reasons context.limits)

/-- The reasons of a record are canonical exactly when those that it keeps are apart. -/
theorem evaluationRecord_canonicalReasons_iff
    (hset : verifyCanonicalConstraintSet context.set context.limits = .ok ())
    (hcandidate : validateCandidate candidate context.limits = .ok ()) :
    (evaluationRecord context candidate).CanonicalReasons context.limits ↔
      KeepsApart context candidate := by
  constructor
  · intro h
    exact canonicalizeReasons_ascending_iff.mp h.ordered
  · intro h
    have hascending := canonicalizeReasons_ascending_iff.mpr h
    constructor
    · intro reason hmem
      exact (collectReasons_classed hset hcandidate reason
        (mem_of_mem_canonicalizeReasons hmem)).symm
    · exact hascending
    · exact primaryReasonOf_ascending hascending
    · exact length_keepReasons_le

/-- The reasons of a record are canonical unless a constraint gives one twice. -/
theorem evaluationRecord_canonicalReasons
    (hset : verifyCanonicalConstraintSet context.set context.limits = .ok ())
    (hcandidate : validateCandidate candidate context.limits = .ok ())
    (h : ChecksApart context candidate) :
    (evaluationRecord context candidate).CanonicalReasons context.limits := by
  have hascending := @Apart.ascending _ context.limits (collectReasons_apart hset hcandidate h)
  exact (evaluationRecord_canonicalReasons_iff hset hcandidate).mpr
    (canonicalizeReasons_ascending_iff.mp hascending)

/-- A record that tells everything has canonical reasons only if no constraint gives one
twice. -/
theorem not_repeatsReason_of_canonical
    (hset : verifyCanonicalConstraintSet context.set context.limits = .ok ())
    (hcandidate : validateCandidate candidate context.limits = .ok ())
    (hstorable : candidate.Storable context.limits)
    (hcomplete : (evaluationRecord context candidate).reasonsTruncated = false)
    (h : (evaluationRecord context candidate).CanonicalReasons context.limits) :
    ¬ RepeatsReason context candidate := by
  rintro ⟨hgates, constraint, hmem, hscope, hrepeats⟩
  have hadmitted := admissionReasons_eq_nil_iff.mpr hgates
  have hwhole : (collectReasons context candidate).truncated = false ∧
      ¬ (canonicalizeReasons (collectReasons context candidate).reasons context.limits).length <
        (collectReasons context candidate).reasons.length := by
    have hflags : ((collectReasons context candidate).truncated ||
        decide ((canonicalizeReasons (collectReasons context candidate).reasons
          context.limits).length < (collectReasons context candidate).reasons.length)) =
        false := hcomplete
    simpa only [Bool.or_eq_false_iff, decide_eq_false_iff_not] using hflags
  have hlength : (canonicalizeReasons (collectReasons context candidate).reasons
      context.limits).length = (collectReasons context candidate).reasons.length := by
    have hshorter := (@keepReasons_sublist context.limits 0 []
      (sortBy compareReason (collectReasons context candidate).reasons)).length_le
    rw [length_sortBy] at hshorter
    have hnone := hwhole.2
    unfold canonicalizeReasons at hnone ⊢
    omega
  have hapart := Apart.of_ascending hlength h.ordered
  have hpushed : collectReasons context candidate =
      (mandatoryReasons context candidate).foldl pushReason {} := by
    unfold collectReasons
    rw [hadmitted]
    rfl
  have hclassed : Classed (mandatoryReasons context candidate) := by
    intro reason hreason
    obtain ⟨entry, -, hin⟩ := List.mem_flatMap.mp hreason
    exact (reasonsAt_attributed entry reason hin).reasonClass
  have htruncated := hwhole.1
  rw [hpushed] at htruncated hapart
  rw [(foldl_pushReason_complete hclassed htruncated).2] at hapart
  have heach := (List.pairwise_flatMap.mp hapart).1
  exact (apart_of_scoped_iff hset hcandidate hstorable).mp heach constraint hmem hscope hrepeats

end Records

end ConstraintRouting.Fabric
