import ConstraintRouting.Fabric.Ordering

/-!
# The order of the admissible records

`compareRanked` is a total order on records with their candidates, and it separates
distinct paths.  `orderAdmissible` sorts by it the positions of the admissible records.
-/

namespace ConstraintRouting.Fabric

open Verified.SortedLists

/-! ## The comparison -/

/-- A satisfied slot first, then the larger margin, then the larger weight. -/
def PreferenceSlot.cmp : PreferenceSlot → PreferenceSlot → Ordering :=
  compareLex (fun a b => compareOn (·.satisfied) b a) <|
    compareLex (fun a b => compareOn (·.margin) b a) fun a b => compareOn (·.weight) b a

instance : Std.TransCmp PreferenceSlot.cmp := by
  unfold PreferenceSlot.cmp
  have hsatisfied : Std.TransCmp fun a b : PreferenceSlot => compareOn (·.satisfied) b a :=
    Std.TransCmp.opposite
  have hmargin : Std.TransCmp fun a b : PreferenceSlot => compareOn (·.margin) b a :=
    Std.TransCmp.opposite
  have hweight : Std.TransCmp fun a b : PreferenceSlot => compareOn (·.weight) b a :=
    Std.TransCmp.opposite
  infer_instance

/-- Two values that differ, the larger one first, and otherwise what comes next. -/
private theorem larger_first {κ : Type} [Ord κ] [LT κ] [DecidableLT κ] [DecidableEq κ]
    [Std.TransOrd κ] [Std.LawfulEqOrd κ] (hless : ∀ x y : κ, compare x y = .lt ↔ x < y)
    (x y : κ) (next : Ordering) :
    (if x != y then if y < x then .lt else .gt else next) = (compare y x).then next := by
  by_cases hsame : x = y
  · subst hsame
    simp
  · rw [if_pos (bne_iff_ne.mpr hsame)]
    by_cases hlarger : y < x
    · rw [if_pos hlarger, (hless y x).mpr hlarger]
      rfl
    · rw [if_neg hlarger]
      cases hcompare : compare y x with
      | lt => exact absurd ((hless y x).mp hcompare) hlarger
      | eq => exact absurd (Std.LawfulEqOrd.eq_of_compare hcompare).symm hsame
      | gt => rfl

theorem comparePreferences_eq (as bs : List PreferenceSlot) :
    comparePreferences as bs = List.compareLex PreferenceSlot.cmp as bs := by
  induction as generalizing bs with
  | nil => cases bs <;> rfl
  | cons a as ih =>
      cases bs with
      | nil => rfl
      | cons b bs =>
          have hstep : List.compareLex PreferenceSlot.cmp (a :: as) (b :: bs) =
              (PreferenceSlot.cmp a b).then (List.compareLex PreferenceSlot.cmp as bs) := by
            rw [List.compareLex_cons_cons]
          have hslot : comparePreferences (a :: as) (b :: bs) =
              (PreferenceSlot.cmp a b).then (comparePreferences as bs) := by
            rw [comparePreferences,
              larger_first (fun _ _ => Std.compare_eq_lt) a.weight b.weight,
              larger_first (fun _ _ => Std.compare_eq_lt) a.margin b.margin]
            simp only [PreferenceSlot.cmp, compareLex, compareOn, Ordering.then_assoc]
            cases a.satisfied <;> cases b.satisfied <;> rfl
          rw [hslot, hstep, ih]

/-- A record with its candidate. -/
structure Contender where
  record : EvaluationRecord := {}
  candidate : CandidatePath := {}

/-- The ranking of two contenders. -/
def Contender.cmp (policy : RankingPolicy) (a b : Contender) : Ordering :=
  compareRanked a.record a.candidate b.record b.candidate policy

section Rank

variable {policy : RankingPolicy}

private theorem compare_true_false : compare true false = .gt := rfl

private theorem compare_false_true : compare false true = .lt := rfl

/-- Candidates with a rank first, then the smaller rank. -/
private theorem comparePlannerRank_eq (a b : CandidatePath) :
    comparePlannerRank a b policy =
      if policy.consumePlannerRank then
        compareLex (fun a b => compareOn CandidatePath.hasPlannerRank b a)
          (compareOn fun candidate =>
            if candidate.hasPlannerRank then candidate.plannerRank else 0) a b
      else .eq := by
  simp only [comparePlannerRank, compareLex, compareOn]
  cases policy.consumePlannerRank with
  | false => rfl
  | true =>
      cases a.hasPlannerRank <;> cases b.hasPlannerRank
      case true.true => rfl
      all_goals simp [compare_true_false, compare_false_true]

/-- Two figures, the preferred one first. -/
private theorem cost_first (preferLower : Bool) (x y : Int64) :
    (if x != y then
      if (if preferLower then decide (x < y) else !decide (x < y)) then .lt else .gt
    else .eq) = if preferLower then compare x y else compare y x := by
  have hlower := larger_first (fun _ _ => Std.compare_eq_lt) y x .eq
  rw [Ordering.then_eq, bne_comm] at hlower
  cases preferLower with
  | true => simpa using hlower
  | false =>
      have hswap : compare y x = (compare x y).swap := Std.OrientedOrd.eq_swap
      simp only [Bool.false_eq_true, if_false, hswap, ← hlower]
      by_cases hsame : x = y
      · simp [hsame]
      · by_cases hless : x < y <;> simp [hsame, hless]

/-- The figure of a candidate with a cost. -/
private def costOf (candidate : CandidatePath) : Int64 :=
  if candidate.hasPlannerCost then candidate.plannerCost else 0

/-- Candidates with a cost first, then the preferred cost. -/
private theorem comparePlannerCost_eq (a b : CandidatePath) :
    comparePlannerCost a b policy =
      if policy.consumePlannerCost then
        compareLex (fun a b => compareOn CandidatePath.hasPlannerCost b a)
          (fun a b => if policy.preferLowerCost then compareOn costOf a b
            else compareOn costOf b a) a b
      else .eq := by
  simp only [comparePlannerCost, compareLex, compareOn, costOf]
  cases policy.consumePlannerCost with
  | false => rfl
  | true =>
      cases a.hasPlannerCost <;> cases b.hasPlannerCost
      case true.true => exact cost_first policy.preferLowerCost a.plannerCost b.plannerCost
      all_goals cases policy.preferLowerCost <;> simp [compare_true_false, compare_false_true]

private theorem transCmp_comparePlannerRank :
    Std.TransCmp fun a b => comparePlannerRank a b policy := by
  have hranked : Std.TransCmp fun a b : CandidatePath => compareOn (·.hasPlannerRank) b a :=
    Std.TransCmp.opposite
  simp only [comparePlannerRank_eq]
  cases policy.consumePlannerRank with
  | false => exact transCmp_eq
  | true => exact inferInstanceAs (Std.TransCmp (compareLex _ _))

private theorem transCmp_comparePlannerCost :
    Std.TransCmp fun a b => comparePlannerCost a b policy := by
  have hcosted : Std.TransCmp fun a b : CandidatePath => compareOn (·.hasPlannerCost) b a :=
    Std.TransCmp.opposite
  have hhigher : Std.TransCmp fun a b : CandidatePath => compareOn costOf b a :=
    Std.TransCmp.opposite
  simp only [comparePlannerCost_eq]
  cases policy.consumePlannerCost with
  | false => exact transCmp_eq
  | true =>
      cases policy.preferLowerCost with
      | false => exact inferInstanceAs (Std.TransCmp (compareLex _ fun a b => compareOn costOf b a))
      | true => exact inferInstanceAs (Std.TransCmp (compareLex _ (compareOn costOf)))

/-- The final tie-break of two candidates. -/
def compareTiebreak (a b : CandidatePath) (policy : RankingPolicy) : Ordering :=
  (if policy.tiebreak = .nodeSequenceLexicographic then compareNodeSequences a b else .eq).then
    (compare a.path b.path)

private theorem transCmp_compareTiebreak :
    Std.TransCmp fun a b => compareTiebreak a b policy := by
  have hnodes : Std.TransCmp fun a b =>
      if policy.tiebreak = .nodeSequenceLexicographic then compareNodeSequences a b else .eq := by
    by_cases hlexicographic : policy.tiebreak = .nodeSequenceLexicographic
    · simp only [hlexicographic, if_true]
      exact transCmp_image (fun candidate : CandidatePath => candidate.nodes.map (·.node)) compare
    · simp only [hlexicographic, if_false]
      exact transCmp_eq
  exact inferInstanceAs (Std.TransCmp (compareLex _ (compareOn CandidatePath.path)))

/-- The ranking is a total order on contenders. -/
instance : Std.TransCmp (Contender.cmp policy) := by
  have hpreferences : Std.TransCmp fun a b : Contender =>
      comparePreferences a.record.preferences b.record.preferences := by
    simp only [comparePreferences_eq]
    exact transCmp_image (fun contender : Contender => contender.record.preferences)
      (List.compareLex PreferenceSlot.cmp)
  have hrank : Std.TransCmp fun a b : Contender =>
      comparePlannerRank a.candidate b.candidate policy :=
    @transCmp_image _ _ Contender.candidate _ transCmp_comparePlannerRank
  have hcost : Std.TransCmp fun a b : Contender =>
      comparePlannerCost a.candidate b.candidate policy :=
    @transCmp_image _ _ Contender.candidate _ transCmp_comparePlannerCost
  have htiebreak : Std.TransCmp fun a b : Contender =>
      compareTiebreak a.candidate b.candidate policy :=
    @transCmp_image _ _ Contender.candidate _ transCmp_compareTiebreak
  exact inferInstanceAs (Std.TransCmp (compareLex _ <| compareLex _ <| compareLex _
    fun a b : Contender => compareTiebreak a.candidate b.candidate policy))

/-- It separates distinct paths. -/
theorem Contender.path_eq_of_cmp_eq {a b : Contender} (h : Contender.cmp policy a b = .eq) :
    a.candidate.path = b.candidate.path := by
  unfold Contender.cmp compareRanked at h
  simp only [Ordering.then_eq_eq] at h
  exact Std.LawfulEqOrd.eq_of_compare h.2.2.2.2

end Rank

/-! ## The admissible order -/

/-- The positions of the admissible records, in the order of the records. -/
def admissibleEntries (records : List EvaluationRecord) : List RankedCandidate :=
  records.zipIdx.filterMap fun (record, index) =>
    if record.isAdmissible then some ⟨record.path, UInt32.ofNat index⟩ else none

/-- The contender that an entry stands for. -/
def contenderAt (records : List EvaluationRecord) (candidates : List CandidatePath)
    (entry : RankedCandidate) : Contender :=
  ⟨records.getD entry.recordIndex.toNat {}, candidates.getD entry.recordIndex.toNat {}⟩

/-- The ranking of two entries. -/
def RankedCandidate.cmp (records : List EvaluationRecord) (candidates : List CandidatePath)
    (policy : RankingPolicy) (a b : RankedCandidate) : Ordering :=
  Contender.cmp policy (contenderAt records candidates a) (contenderAt records candidates b)

section Order

variable {records : List EvaluationRecord} {candidates : List CandidatePath}
  {policy : RankingPolicy}

instance : Std.TransCmp (RankedCandidate.cmp records candidates policy) :=
  transCmp_image (contenderAt records candidates) (Contender.cmp policy)

theorem orderAdmissible_eq (hlength : records.length = candidates.length) :
    orderAdmissible records candidates policy =
      sortBy (RankedCandidate.cmp records candidates policy) (admissibleEntries records) := by
  unfold orderAdmissible
  rw [if_neg (by simp [hlength])]
  rfl

/-- The entry of one record. -/
private theorem entry_eq_some_iff {record : EvaluationRecord} {index : Nat}
    {entry : RankedCandidate} :
    (if record.isAdmissible then some (⟨record.path, UInt32.ofNat index⟩ : RankedCandidate)
      else none) = some entry ↔
      record.isAdmissible = true ∧ entry = ⟨record.path, UInt32.ofNat index⟩ := by
  by_cases hadmissible : record.isAdmissible = true
  · simp [hadmissible, eq_comm]
  · simp [hadmissible]

theorem mem_admissibleEntries {entry : RankedCandidate} :
    entry ∈ admissibleEntries records ↔ ∃ index, ∃ h : index < records.length,
      records[index].isAdmissible = true ∧
        entry = ⟨records[index].path, UInt32.ofNat index⟩ := by
  simp only [admissibleEntries, List.mem_filterMap, Prod.exists, List.mem_zipIdx_iff_getElem?,
    entry_eq_some_iff]
  constructor
  · intro ⟨record, index, hrecord, hentry⟩
    obtain ⟨hindex, hget⟩ := List.getElem?_eq_some_iff.mp hrecord
    refine ⟨index, hindex, ?_⟩
    rw [hget]
    exact hentry
  · intro ⟨index, hindex, hentry⟩
    exact ⟨_, index, List.getElem?_eq_getElem hindex, hentry⟩

/-- Within the range of the index no two entries are alike. -/
theorem nodup_admissibleEntries (hlength : records.length ≤ UInt32.size) :
    (admissibleEntries records).Nodup := by
  have hindices : records.zipIdx.Pairwise fun a b => a.2 ≠ b.2 := by
    apply List.pairwise_map.mp
    rw [List.zipIdx_map_snd]
    exact List.nodup_range'
  unfold admissibleEntries
  rw [List.Nodup, List.pairwise_filterMap]
  refine hindices.imp_of_mem ?_
  intro a b ha hb hdistinct first hfirst second hsecond hsame
  have hboundA : a.2 < records.length := List.snd_lt_of_mem_zipIdx ha
  have hboundB : b.2 < records.length := List.snd_lt_of_mem_zipIdx hb
  have hone := (entry_eq_some_iff.mp hfirst).2
  have htwo := (entry_eq_some_iff.mp hsecond).2
  rw [hone, htwo, RankedCandidate.mk.injEq] at hsame
  have hindex := congrArg UInt32.toNat hsame.2
  rw [UInt32.toNat_ofNat_of_lt' (by omega), UInt32.toNat_ofNat_of_lt' (by omega)] at hindex
  exact hdistinct hindex

/-- The contender of an entry. -/
theorem contenderAt_of_lt {path : PathId} {index : Nat} (hrecord : index < records.length)
    (hcandidate : index < candidates.length) (hrange : index < UInt32.size) :
    contenderAt records candidates ⟨path, UInt32.ofNat index⟩ =
      ⟨records[index], candidates[index]⟩ := by
  unfold contenderAt
  have hindex : (UInt32.ofNat index).toNat = index := UInt32.toNat_ofNat_of_lt' hrange
  rw [Contender.mk.injEq]
  simp only [hindex]
  exact ⟨(List.getElem_eq_getD _).symm, (List.getElem_eq_getD _).symm⟩

/-- The ranking tells the admissible records of distinct paths apart. -/
theorem eq_of_cmp_eq (hlength : records.length = candidates.length)
    (hrange : records.length ≤ UInt32.size) (hpaths : (candidates.map (·.path)).Nodup) :
    ∀ a ∈ admissibleEntries records, ∀ b ∈ admissibleEntries records,
      RankedCandidate.cmp records candidates policy a b = .eq → a = b := by
  intro a ha b hb hsame
  obtain ⟨i, hi, -, rfl⟩ := mem_admissibleEntries.mp ha
  obtain ⟨j, hj, -, rfl⟩ := mem_admissibleEntries.mp hb
  unfold RankedCandidate.cmp at hsame
  rw [contenderAt_of_lt hi (by omega) (by omega),
    contenderAt_of_lt hj (by omega) (by omega)] at hsame
  have hpath : candidates[i].path = candidates[j].path := Contender.path_eq_of_cmp_eq hsame
  have hindex : i = j := by
    have hfirst : i < (candidates.map (·.path)).length := by
      rw [List.length_map]
      omega
    have hsecond : j < (candidates.map (·.path)).length := by
      rw [List.length_map]
      omega
    have hmapped : (candidates.map (·.path))[i] = (candidates.map (·.path))[j] := by
      rw [List.getElem_map, List.getElem_map, hpath]
    exact hpaths.getElem_inj_iff.mp hmapped
  subst hindex
  rfl

end Order

end ConstraintRouting.Fabric
