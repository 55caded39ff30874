import ConstraintRouting.Fabric.ArrivalOrder
import ConstraintRouting.Fabric.DecodeSpec

/-!
# What truncation does to an explanation

Of each constraint the first eight reasons are kept, in the order in which they are pushed;
then the reasons are sorted and bounded twice more.  The primary reason is the least one.
The two later bounds keep it; the first may drop it.
-/

namespace ConstraintRouting.Fabric

open Verified.SortedLists

/-! ## Least elements -/

section Least

variable {α : Type} {cmp : α → α → Ordering} [Std.TransCmp cmp]

theorem notAfter_refl (a : α) : NotAfter cmp a a := by
  have hself : cmp a a = .eq := Std.ReflCmp.compare_self
  simp [NotAfter, hself]

theorem notAfter_trans {a b c : α} (hab : NotAfter cmp a b) (hbc : NotAfter cmp b c) :
    NotAfter cmp a c :=
  Trans.trans (r := NotAfter cmp) hab hbc

/-- The scan that keeps the lesser element ends with a least one. -/
theorem foldl_least (first : α) (rest : List α) :
    let least := rest.foldl (fun best x => if cmp x best = .lt then x else best) first
    least ∈ first :: rest ∧ ∀ x ∈ first :: rest, NotAfter cmp least x := by
  induction rest generalizing first with
  | nil =>
      constructor
      · exact List.mem_singleton_self _
      · intro x hmem
        rw [List.mem_singleton.mp hmem]
        exact notAfter_refl first
  | cons second rest ih =>
      rw [List.foldl_cons]
      by_cases hless : cmp second first = .lt
      · rw [if_pos hless]
        obtain ⟨hmem, hleast⟩ := ih second
        constructor
        · exact List.mem_cons_of_mem _ hmem
        · intro x hx
          rcases List.mem_cons.mp hx with rfl | hrest
          · have hfirst : NotAfter cmp second x := by
              simp [NotAfter, Std.OrientedCmp.gt_of_lt hless]
            exact notAfter_trans (hleast second List.mem_cons_self) hfirst
          · exact hleast x hrest
      · rw [if_neg hless]
        obtain ⟨hmem, hleast⟩ := ih first
        constructor
        · rcases List.mem_cons.mp hmem with hfirst | hrest
          · rw [hfirst]
            exact List.mem_cons_self
          · exact List.mem_cons_of_mem _ (List.mem_cons_of_mem _ hrest)
        · intro x hx
          rcases List.mem_cons.mp hx with rfl | hlater
          · exact hleast x List.mem_cons_self
          · rcases List.mem_cons.mp hlater with rfl | hrest
            · exact notAfter_trans (hleast first List.mem_cons_self) hless
            · exact hleast x (List.mem_cons_of_mem _ hrest)

end Least

/-! ## The primary reason -/

theorem ReasonCode.code_injective : Function.Injective ReasonCode.code := by
  intro a b hsame
  have hread (code : ReasonCode) : ReasonCode.read (ByteWriter.putU16 code.code) =
      some (code, []) := by
    have hbind := @ReasonCode.read_bind _ [] code pure
    rw [List.append_nil, bind_pure] at hbind
    exact hbind
  have hb := hread b
  rw [← hsame, hread a] at hb
  exact (Prod.mk.inj (Option.some.inj hb)).1

/-- Reasons that the canonical order does not tell apart have one code. -/
theorem code_eq_of_compareReason {a b : Reason} (h : compareReason a b = .eq) :
    a.code = b.code := by
  apply ReasonCode.code_injective
  simp only [compareReason, compareLex, compareOn, Ordering.then_eq_eq] at h
  exact Std.LawfulEqOrd.eq_of_compare h.2.2.1

/-- The primary reason is the code of any least one. -/
theorem primaryReasonOf_eq {reasons : List Reason} {least : Reason} (hmem : least ∈ reasons)
    (hleast : ∀ other ∈ reasons, NotAfter compareReason least other) :
    primaryReasonOf reasons = least.code := by
  cases reasons with
  | nil => cases hmem
  | cons first rest =>
      have hscan := @foldl_least _ compareReason _ first rest
      have hprimary : primaryReasonOf (first :: rest) =
          (rest.foldl (fun best reason => if compareReason reason best = .lt then reason
            else best) first).code := by
        simp only [primaryReasonOf, reasonLess, decide_eq_true_eq]
      rw [hprimary]
      apply code_eq_of_compareReason
      have hbelow := hscan.2 least hmem
      have habove := hleast _ hscan.1
      generalize rest.foldl _ first = scanned at hbelow habove ⊢
      cases hcompare : compareReason scanned least with
      | eq => rfl
      | lt => exact absurd hcompare habove
      | gt => exact absurd (Std.OrientedCmp.lt_of_gt hcompare) hbelow

/-- A list of reasons has a least one, whose code is the primary reason. -/
theorem exists_primary {reasons : List Reason} (hne : reasons ≠ []) :
    ∃ least ∈ reasons, (∀ other ∈ reasons, NotAfter compareReason least other) ∧
      primaryReasonOf reasons = least.code := by
  cases reasons with
  | nil => exact absurd rfl hne
  | cons first rest =>
      obtain ⟨hmem, hleast⟩ := @foldl_least _ compareReason _ first rest
      exact ⟨_, hmem, hleast, primaryReasonOf_eq hmem hleast⟩

/-- Reasons that come after all the others leave the primary reason as it is. -/
theorem primaryReasonOf_append {first rest : List Reason} (hne : first ≠ [])
    (hlater : ∀ a ∈ first, ∀ b ∈ rest, compareReason a b = .lt) :
    primaryReasonOf (first ++ rest) = primaryReasonOf first := by
  obtain ⟨least, hmem, hleast, hprimary⟩ := exists_primary hne
  rw [hprimary]
  apply primaryReasonOf_eq (List.mem_append_left _ hmem)
  intro other hother
  rcases List.mem_append.mp hother with hfirst | hrest
  · exact hleast other hfirst
  · simp [NotAfter, Std.OrientedCmp.gt_of_lt (hlater least hmem other hrest)]

/-- Sorting and the two bounds on an explanation keep the primary reason. -/
theorem primaryReasonOf_canonicalizeReasons {limits : Limits}
    (hlimits : validateLimits limits = .ok ()) (reasons : List Reason) :
    primaryReasonOf (canonicalizeReasons reasons limits) = primaryReasonOf reasons := by
  cases hsorted : sortBy compareReason reasons with
  | nil =>
      have hnil : reasons = [] := by
        have hlength := length_sortBy compareReason reasons
        rw [hsorted, List.length_nil] at hlength
        exact List.eq_nil_of_length_eq_zero hlength.symm
      rw [hnil]
      rfl
  | cons least rest =>
      have hordered : (least :: rest).Pairwise (NotAfter compareReason) := by
        rw [← hsorted]
        exact List.pairwise_insertionSort _ _
      have hleast : ∀ other ∈ reasons, NotAfter compareReason least other := by
        intro other hmem
        rw [← @mem_sortBy _ compareReason, hsorted] at hmem
        rcases List.mem_cons.mp hmem with rfl | hrest
        · exact notAfter_refl other
        · exact (List.pairwise_cons.mp hordered).1 other hrest
      obtain ⟨later, hkept⟩ := canonicalizeReasons_cons hlimits hsorted
      have hmem : least ∈ canonicalizeReasons reasons limits := by
        rw [hkept]
        exact List.mem_cons_self
      have hcanonical : ∀ other ∈ canonicalizeReasons reasons limits,
          NotAfter compareReason least other :=
        fun other hother => hleast other (mem_of_mem_canonicalizeReasons hother)
      rw [primaryReasonOf_eq hmem hcanonical,
        primaryReasonOf_eq (mem_of_mem_canonicalizeReasons hmem) hleast]

/-! ## Eight reasons for each constraint -/

theorem pushReason_reasons {reason : Reason} {state : ReasonState}
    (hclass : reason.reasonClass = reasonClassOf reason.code) :
    (pushReason state reason).reasons =
      if kMaxReasonsPerConstraint ≤
          state.reasons.countP (·.constraintOrdinal == reason.constraintOrdinal) then
        state.reasons
      else state.reasons ++ [reason] := by
  unfold pushReason
  dsimp only
  rw [← hclass]
  split <;> rfl

/-- The reasons of one constraint, pushed where some of its ordinal were kept before. -/
theorem foldl_pushReason_block {block : List Reason} {ordinal : UInt32} {state : ReasonState}
    (hordinal : ∀ reason ∈ block, reason.constraintOrdinal = ordinal)
    (hclass : ∀ reason ∈ block, reason.reasonClass = reasonClassOf reason.code) :
    (block.foldl pushReason state).reasons = state.reasons ++
      block.take (kMaxReasonsPerConstraint -
        state.reasons.countP (·.constraintOrdinal == ordinal)) := by
  induction block generalizing state with
  | nil => simp
  | cons reason rest ih =>
      have hfirst := hordinal reason List.mem_cons_self
      rw [List.foldl_cons, ih (fun other hmem => hordinal other (List.mem_cons_of_mem _ hmem))
        (fun other hmem => hclass other (List.mem_cons_of_mem _ hmem))]
      rw [pushReason_reasons (hclass reason List.mem_cons_self), hfirst]
      by_cases hfull : kMaxReasonsPerConstraint ≤
          state.reasons.countP (·.constraintOrdinal == ordinal)
      · rw [if_pos hfull, Nat.sub_eq_zero_of_le hfull, List.take_zero, List.take_zero]
      · obtain ⟨room, hroom⟩ : ∃ room, kMaxReasonsPerConstraint -
            state.reasons.countP (·.constraintOrdinal == ordinal) = room + 1 :=
          ⟨_, (Nat.succ_pred_eq_of_pos (by omega)).symm⟩
        have hcount : (state.reasons ++ [reason]).countP (·.constraintOrdinal == ordinal) =
            state.reasons.countP (·.constraintOrdinal == ordinal) + 1 := by
          simp [List.countP_append, hfirst]
        have hleft : kMaxReasonsPerConstraint -
            (state.reasons.countP (·.constraintOrdinal == ordinal) + 1) = room := by omega
        rw [if_neg hfull, hroom, hcount, hleft, List.take_succ_cons, List.append_assoc]
        rfl

/-- The reasons of constraints at distinct ordinals: the first eight of each. -/
theorem foldl_pushReason_blocks {constraints : List (Constraint × UInt32)}
    {reasonsOf : Constraint → UInt32 → List Reason} {state : ReasonState}
    (howned : ∀ constraint ordinal, ∀ reason ∈ reasonsOf constraint ordinal,
      reason.Attributed constraint ordinal)
    (hdistinct : (constraints.map Prod.snd).Nodup)
    (hnew : ∀ reason ∈ state.reasons, reason.constraintOrdinal ∉ constraints.map Prod.snd) :
    ((constraints.flatMap fun entry => reasonsOf entry.1 entry.2).foldl pushReason
        state).reasons =
      state.reasons ++ constraints.flatMap fun entry =>
        (reasonsOf entry.1 entry.2).take kMaxReasonsPerConstraint := by
  induction constraints generalizing state with
  | nil => simp
  | cons entry rest ih =>
      rw [List.map_cons, List.nodup_cons] at hdistinct
      have hblock : ((reasonsOf entry.1 entry.2).foldl pushReason state).reasons =
          state.reasons ++ (reasonsOf entry.1 entry.2).take kMaxReasonsPerConstraint := by
        have hnone : state.reasons.countP (·.constraintOrdinal == entry.2) = 0 := by
          rw [List.countP_eq_zero]
          intro reason hmem hsame
          apply hnew reason hmem
          rw [beq_iff_eq.mp hsame]
          simp
        rw [foldl_pushReason_block (fun reason hmem => (howned _ _ reason hmem).ordinal)
          (fun reason hmem => (howned _ _ reason hmem).reasonClass), hnone, Nat.sub_zero]
      rw [List.flatMap_cons, List.foldl_append, ih hdistinct.2, hblock, List.flatMap_cons,
        List.append_assoc]
      -- The ordinals that follow are others.
      intro reason hmem hlater
      rw [hblock] at hmem
      rcases List.mem_append.mp hmem with hbefore | hadded
      · exact hnew reason hbefore (List.mem_cons_of_mem _ hlater)
      · have hordinal := (howned _ _ reason (List.mem_of_mem_take hadded)).ordinal
        rw [hordinal] at hlater
        exact hdistinct.1 hlater

/-! ## Complete explanations -/

/-- Every reason that the stages give, without any bound. -/
def completeReasons (context : EvaluationContext) (candidate : CandidatePath) : List Reason :=
  gate (admissionReasons context candidate) (mandatoryReasons context candidate)

/-- The reasons of a constraint of the set. -/
def reasonsAt (context : EvaluationContext) (candidate : CandidatePath)
    (entry : Constraint × UInt32) : List Reason :=
  evaluateMandatory entry.1 entry.2 candidate context.current

/-- The first mandatory constraint that gives a reason. -/
def firstFailing (context : EvaluationContext) (candidate : CandidatePath) :
    Option (Constraint × UInt32) :=
  (scopedConstraints context.set .mandatory).find? fun entry =>
    !(reasonsAt context candidate entry).isEmpty

/-- The ordinals of the constraints of one scope ascend. -/
theorem scopedConstraints_ordinals {set : ConstraintSet} {scope : ConstraintScope}
    (hbound : set.constraints.length < 2 ^ 32) :
    (scopedConstraints set scope).Pairwise fun a b => a.2 < b.2 := by
  have hpositions : set.constraints.zipIdx.Pairwise fun a b => a.2 < b.2 := by
    have hrange : (set.constraints.zipIdx.map Prod.snd).Pairwise (· < ·) := by
      rw [List.zipIdx_map_snd]
      exact List.pairwise_lt_range'
    exact List.pairwise_map.mp hrange
  unfold scopedConstraints
  rw [List.pairwise_map]
  apply (hpositions.filter _).imp_of_mem
  intro a b ha hb hless
  have hlast : b.2 < set.constraints.length := by
    have hmem := List.mem_filter.mp hb
    simpa using List.snd_lt_of_mem_zipIdx hmem.1
  have hsize : UInt32.size = 2 ^ 32 := rfl
  show UInt32.ofNat a.2 < UInt32.ofNat b.2
  rw [UInt32.lt_iff_toNat_lt, UInt32.toNat_ofNat_of_lt' (by omega),
    UInt32.toNat_ofNat_of_lt' (by omega)]
  exact hless

section Attribution

variable {constraint other : Constraint} {ordinal later : UInt32} {reason next : Reason}

theorem Reason.Attributed.mandatory (h : reason.Attributed constraint ordinal) :
    reason.reasonClass = .mandatoryConstraint := by
  have hcodes := reasonCodes_ordered constraint.kind
  rw [h.reasonClass]
  rcases h.code with hcode | hcode
  · rw [hcode]
    exact hcodes.1
  · rw [hcode]
    exact hcodes.2.1

/-- The reasons of an earlier constraint come first. -/
theorem compareReason_of_ordinal_lt (h : reason.Attributed constraint ordinal)
    (hnext : next.Attributed other later) (hless : ordinal < later) :
    compareReason reason next = .lt := by
  have hcompare : compare ordinal later = .lt := Std.compare_eq_lt.mpr hless
  simp [compareReason, compareLex, compareOn, h.mandatory, hnext.mandatory, h.ordinal,
    hnext.ordinal, hcompare]

/-- Of one constraint, the reasons of the lesser code come first. -/
theorem compareReason_of_code_lt (h : reason.Attributed constraint ordinal)
    (hnext : next.Attributed constraint ordinal) (hless : reason.code.code < next.code.code) :
    compareReason reason next = .lt := by
  have hcompare : compare reason.code.code next.code.code = .lt := Std.compare_eq_lt.mpr hless
  simp [compareReason, compareLex, compareOn, h.mandatory, hnext.mandatory, h.ordinal,
    hnext.ordinal, hcompare]

/-- The primary reason of a constraint is a violation, if it has one. -/
theorem primaryReasonOf_attributed {reasons : List Reason} (hne : reasons ≠ [])
    (howned : ∀ reason ∈ reasons, reason.Attributed constraint ordinal) :
    FindsViolation reasons ∧ primaryReasonOf reasons = (reasonCodes constraint.kind).1 ∨
      ¬ FindsViolation reasons ∧ primaryReasonOf reasons = (reasonCodes constraint.kind).2 := by
  obtain ⟨least, hmem, hleast, hprimary⟩ := exists_primary hne
  obtain ⟨-, -, hhard, hunknown, hless⟩ := reasonCodes_ordered constraint.kind
  rw [hprimary]
  rcases (howned least hmem).code with hfirst | hsecond
  · refine .inl ⟨⟨least, hmem, ?_⟩, hfirst⟩
    rw [hfirst]
    exact hhard
  · refine .inr ⟨?_, hsecond⟩
    rintro ⟨reason, hreason, hviolation⟩
    rcases (howned reason hreason).code with hcode | hcode
    · apply hleast reason hreason
      apply compareReason_of_code_lt (howned reason hreason) (howned least hmem)
      rw [hcode, hsecond]
      exact hless
    · rw [hcode, hunknown] at hviolation
      cases hviolation

/-- Eight reasons of a constraint have the primary reason of all of them exactly when they
show a violation if there is one. -/
theorem primaryReasonOf_take_iff {reasons : List Reason} (hne : reasons ≠ [])
    (howned : ∀ reason ∈ reasons, reason.Attributed constraint ordinal) :
    primaryReasonOf (reasons.take kMaxReasonsPerConstraint) = primaryReasonOf reasons ↔
      (FindsViolation reasons →
        FindsViolation (reasons.take kMaxReasonsPerConstraint)) := by
  have hkept : reasons.take kMaxReasonsPerConstraint ≠ [] := by
    intro hnil
    rcases List.take_eq_nil_iff.mp hnil with hzero | hempty
    · cases hzero
    · exact hne hempty
  have hdistinct : (reasonCodes constraint.kind).1 ≠ (reasonCodes constraint.kind).2 := by
    have hless := (reasonCodes_ordered constraint.kind).2.2.2.2
    intro hsame
    rw [hsame] at hless
    exact absurd hless (UInt16.lt_irrefl _)
  have hshown : FindsViolation (reasons.take kMaxReasonsPerConstraint) →
      FindsViolation reasons := by
    rintro ⟨reason, hmem, hviolation⟩
    exact ⟨reason, List.mem_of_mem_take hmem, hviolation⟩
  have hall := primaryReasonOf_attributed hne howned
  have htaken := primaryReasonOf_attributed hkept
    fun reason hmem => howned reason (List.mem_of_mem_take hmem)
  rcases hall with ⟨hfinds, hprimary⟩ | ⟨hfinds, hprimary⟩
  · rcases htaken with ⟨hshows, hleft⟩ | ⟨hshows, hleft⟩
    · simp [hprimary, hleft, hfinds, hshows]
    · simp [hprimary, hleft, hfinds, hshows, hdistinct.symm]
  · rcases htaken with ⟨hshows, hleft⟩ | ⟨hshows, hleft⟩
    · exact absurd (hshown hshows) hfinds
    · simp [hprimary, hleft, hfinds]

end Attribution

section Truncation

variable {context : EvaluationContext} {candidate : CandidatePath}

theorem reasonsAt_attributed (entry : Constraint × UInt32) :
    ∀ reason ∈ reasonsAt context candidate entry, reason.Attributed entry.1 entry.2 :=
  evaluateMandatory_attributed

/-- What a candidate that the gates admit collects: eight reasons of each constraint. -/
theorem collectReasons_of_admitted (hadmitted : admissionReasons context candidate = []) :
    (collectReasons context candidate).reasons =
      (scopedConstraints context.set .mandatory).flatMap fun entry =>
        (reasonsAt context candidate entry).take kMaxReasonsPerConstraint := by
  have hlimit := (admissionReasons_eq_nil_iff.mp hadmitted).withinLimits
  have hbound := context.limits.maxConstraintsPerSet.toNat_lt
  have hordinals : ((scopedConstraints context.set .mandatory).map Prod.snd).Nodup := by
    rw [List.Nodup, List.pairwise_map]
    apply (scopedConstraints_ordinals (by omega)).imp
    intro a b hless hsame
    rw [hsame] at hless
    exact absurd hless (UInt32.lt_irrefl _)
  have hblocks := @foldl_pushReason_blocks (scopedConstraints context.set .mandatory)
    (fun constraint ordinal => evaluateMandatory constraint ordinal candidate context.current)
    {} (fun _ _ => evaluateMandatory_attributed) hordinals
    fun _ hmem => absurd hmem List.not_mem_nil
  unfold collectReasons mandatoryReasons
  rw [hadmitted]
  exact hblocks

/-- The constraints before the first that fails give no reasons, and those after it give
reasons that come later. -/
theorem mandatory_split {entry : Constraint × UInt32}
    (hbound : context.set.constraints.length < 2 ^ 32)
    (hfirst : firstFailing context candidate = some entry) :
    reasonsAt context candidate entry ≠ [] ∧ ∃ before after,
      scopedConstraints context.set .mandatory = before ++ entry :: after ∧
      (∀ earlier ∈ before, reasonsAt context candidate earlier = []) ∧
      ∀ next ∈ after, entry.2 < next.2 := by
  obtain ⟨hfails, before, after, hsplit, hnone⟩ := List.find?_eq_some_iff_append.mp hfirst
  have hordered := @scopedConstraints_ordinals context.set .mandatory hbound
  rw [hsplit] at hordered
  refine ⟨by simpa using hfails, before, after, hsplit, ?_, ?_⟩
  · intro earlier hmem
    simpa using hnone earlier hmem
  · have hrest := (List.pairwise_append.mp hordered).2.1
    exact (List.pairwise_cons.mp hrest).1

/-- The primary reason of a bounded part of each constraint's reasons is that of the first
constraint that fails. -/
theorem primaryReasonOf_blocks {before after : List (Constraint × UInt32)}
    {entry : Constraint × UInt32} {bounded : List Reason → List Reason}
    (hnil : bounded [] = []) (hpart : ∀ reasons, ∀ reason ∈ bounded reasons, reason ∈ reasons)
    (hkept : bounded (reasonsAt context candidate entry) ≠ [])
    (hbefore : ∀ earlier ∈ before, reasonsAt context candidate earlier = [])
    (hafter : ∀ next ∈ after, entry.2 < next.2) :
    primaryReasonOf ((before ++ entry :: after).flatMap fun entry =>
        bounded (reasonsAt context candidate entry)) =
      primaryReasonOf (bounded (reasonsAt context candidate entry)) := by
  have hempty : (before.flatMap fun entry => bounded (reasonsAt context candidate entry)) =
      [] := by
    rw [List.flatMap_eq_nil_iff]
    intro earlier hmem
    rw [hbefore earlier hmem, hnil]
  rw [List.flatMap_append, hempty, List.nil_append, List.flatMap_cons]
  apply primaryReasonOf_append hkept
  intro reason hreason later hlater
  obtain ⟨next, hnext, hmem⟩ := List.mem_flatMap.mp hlater
  exact compareReason_of_ordinal_lt (reasonsAt_attributed entry reason (hpart _ _ hreason))
    (reasonsAt_attributed next later (hpart _ _ hmem)) (hafter next hnext)

/-- The collected reasons have the primary reason of the complete ones exactly when the
eight of the first constraint that fails show a violation if it has one. -/
theorem primaryReasonOf_collected_iff :
    primaryReasonOf (collectReasons context candidate).reasons =
        primaryReasonOf (completeReasons context candidate) ↔
      (admissionReasons context candidate = [] →
        ∀ entry ∈ firstFailing context candidate,
          FindsViolation (reasonsAt context candidate entry) →
          FindsViolation
            ((reasonsAt context candidate entry).take kMaxReasonsPerConstraint)) := by
  by_cases hadmitted : admissionReasons context candidate = []
  · have hlimit := (admissionReasons_eq_nil_iff.mp hadmitted).withinLimits
    have hsize := context.limits.maxConstraintsPerSet.toNat_lt
    have hcomplete : completeReasons context candidate =
        (scopedConstraints context.set .mandatory).flatMap
          (reasonsAt context candidate) := by
      unfold completeReasons gate
      rw [hadmitted]
      rfl
    rw [collectReasons_of_admitted hadmitted, hcomplete]
    cases hfirst : firstFailing context candidate with
    | none =>
        have hnone : ∀ entry ∈ scopedConstraints context.set .mandatory,
            reasonsAt context candidate entry = [] := by
          intro entry hmem
          simpa using List.find?_eq_none.mp hfirst entry hmem
        have htaken : ((scopedConstraints context.set .mandatory).flatMap fun entry =>
            (reasonsAt context candidate entry).take kMaxReasonsPerConstraint) = [] := by
          rw [List.flatMap_eq_nil_iff]
          intro entry hmem
          rw [hnone entry hmem, List.take_nil]
        rw [htaken, List.flatMap_eq_nil_iff.mpr hnone]
        simp
    | some entry =>
        obtain ⟨hfails, before, after, hsplit, hbefore, hafter⟩ :=
          mandatory_split (by omega) hfirst
        have hkept : (reasonsAt context candidate entry).take kMaxReasonsPerConstraint ≠ [] := by
          intro hnil
          rcases List.take_eq_nil_iff.mp hnil with hzero | hempty
          · cases hzero
          · exact hfails hempty
        have hall : primaryReasonOf ((before ++ entry :: after).flatMap
            (reasonsAt context candidate)) = primaryReasonOf (reasonsAt context candidate entry) :=
          @primaryReasonOf_blocks _ _ _ _ _ id rfl (fun _ _ => id) hfails hbefore hafter
        rw [hsplit, hall, primaryReasonOf_blocks List.take_nil
          (fun _ _ => List.mem_of_mem_take) hkept hbefore hafter,
          primaryReasonOf_take_iff hfails (reasonsAt_attributed entry)]
        simp [hadmitted]
  · have hsame : (collectReasons context candidate).reasons =
        completeReasons context candidate := by
      unfold collectReasons completeReasons gate
      dsimp only
      split
      · next hempty => exact absurd (List.isEmpty_iff.mp hempty) hadmitted
      · rfl
    simp [hsame, hadmitted]

/-- The record reports the primary reason and the outcome of the complete explanation. -/
structure ReportsComplete (context : EvaluationContext) (candidate : CandidatePath)
    (record : EvaluationRecord) : Prop where
  primary : record.primaryReason = primaryReasonOf (completeReasons context candidate)
  outcome : record.outcome = outcomeFromReasons (completeReasons context candidate)
    (!(collectPreferences context candidate).isEmpty)

/-- The primary reason decides the outcome of lists that are empty together. -/
theorem outcomeFromReasons_congr {reasons others : List Reason} {preferred offered : Bool}
    (hempty : reasons = [] ↔ others = []) (hpreferred : reasons = [] → preferred = offered)
    (hprimary : primaryReasonOf reasons = primaryReasonOf others) :
    outcomeFromReasons reasons preferred = outcomeFromReasons others offered := by
  unfold outcomeFromReasons
  by_cases hnil : reasons = []
  · simp [hnil, hempty.mp hnil, hpreferred hnil]
  · have hother : others ≠ [] := fun h => hnil (hempty.mpr h)
    rw [if_neg (by simpa using hnil), if_neg (by simpa using hother), hprimary]

/-- The bounds on an explanation leave its primary reason and its outcome as they are
exactly when the first mandatory constraint that fails shows a violation among its first
eight reasons, if it has one. -/
theorem reportsComplete_iff {record : EvaluationRecord}
    (h : evaluateCandidate context candidate = .ok record) :
    ReportsComplete context candidate record ↔
      (admissionReasons context candidate = [] →
        ∀ entry ∈ firstFailing context candidate,
          FindsViolation (reasonsAt context candidate entry) →
          FindsViolation
            ((reasonsAt context candidate entry).take kMaxReasonsPerConstraint)) := by
  rw [← primaryReasonOf_collected_iff]
  unfold evaluateCandidate at h
  cases hlimits : validateLimits context.limits with
  | error why =>
      rw [hlimits] at h
      cases h
  | ok passed =>
      rw [hlimits] at h
      have hrecord : evaluationRecord context candidate = record := Except.ok.inj h
      have hprimary : record.primaryReason =
          primaryReasonOf (collectReasons context candidate).reasons := by
        rw [← hrecord]
        exact primaryReasonOf_canonicalizeReasons hlimits _
      constructor
      · intro hreports
        rw [← hprimary]
        exact hreports.primary
      · intro hsame
        refine ⟨hprimary.trans hsame, ?_⟩
        have hempty : (collectReasons context candidate).reasons = [] ↔
            completeReasons context candidate = [] := by
          rw [collectReasons_eq_nil_iff, completeReasons, gate_eq_nil_iff]
        rw [← hrecord]
        apply outcomeFromReasons_congr
        · rw [canonicalizeReasons_eq_nil_iff hlimits, hempty]
        · intro hnil
          rw [canonicalizeReasons_eq_nil_iff hlimits] at hnil
          simp [hnil]
        · exact (primaryReasonOf_canonicalizeReasons hlimits _).trans hsame

end Truncation

/-- A set that requires one tier. -/
def sampleTiers : ConstraintSet :=
  { sampleSet 5 with
    constraints := [{ id := ⟨7⟩, generation := ⟨1⟩, kind := .requiredTier, tiers := [⟨5⟩] }] }

def sampleTiered : EvaluationContext where
  set := { sampleTiers with state := .active, digest := constraintSetDigest sampleTiers }
  current := sampleEvidence
  authorityVerified := true

/-- A path of nine nodes: eight without a tier, and one with another tier. -/
def sampleLong : CandidatePath :=
  { samplePath 31 with
    hopCount := 8
    nodes := ([40, 41, 42, 43, 44, 45, 46, 47].map fun id => { node := ⟨id⟩ }) ++
      [{ node := ⟨48⟩, tier := ⟨6⟩ }]
    links := [40, 41, 42, 43, 44, 45, 46, 47].map fun id =>
      { link := ⟨id⟩, endpoints := (⟨id⟩, ⟨id + 1⟩) } }

private theorem sampleLong_masks :
    (evaluationRecord sampleTiered sampleLong).primaryReason = .tierEvidenceUnavailable ∧
      (evaluationRecord sampleTiered sampleLong).outcome = .unknownRequiredEvidence ∧
      primaryReasonOf (completeReasons sampleTiered sampleLong) = .requiredTierNotMet := by
  decide +kernel

/-- The eight nodes without a tier hide the node with the wrong one. -/
theorem eight_reasons_hide_violation :
    ∃ record, evaluateCandidate sampleTiered sampleLong = .ok record ∧
      record.primaryReason = .tierEvidenceUnavailable ∧
      record.outcome = .unknownRequiredEvidence ∧
      primaryReasonOf (completeReasons sampleTiered sampleLong) = .requiredTierNotMet ∧
      ¬ ReportsComplete sampleTiered sampleLong record := by
  obtain ⟨hprimary, houtcome, hcomplete⟩ := sampleLong_masks
  refine ⟨evaluationRecord sampleTiered sampleLong, rfl, hprimary, houtcome, hcomplete, ?_⟩
  intro hreports
  have hsame := hreports.primary
  rw [hprimary, hcomplete] at hsame
  cases hsame

theorem reportsComplete_iff_sample :
    ∃ record, evaluateCandidate sampleTiered (samplePath 31) = .ok record ∧
      (ReportsComplete sampleTiered (samplePath 31) record ↔
        (admissionReasons sampleTiered (samplePath 31) = [] →
          ∀ entry ∈ firstFailing sampleTiered (samplePath 31),
            FindsViolation (reasonsAt sampleTiered (samplePath 31) entry) →
            FindsViolation ((reasonsAt sampleTiered (samplePath 31) entry).take
              kMaxReasonsPerConstraint))) :=
  ⟨evaluationRecord sampleTiered (samplePath 31), rfl, reportsComplete_iff rfl⟩

end ConstraintRouting.Fabric
