import ConstraintRouting.Fabric.OrderingSpec

/-!
# The admissible order as a sorted selection

The ranking is a strict total order on contenders of distinct paths, and the admissible
order is the selection of the admissible indices sorted by it: every index once, and the
same contenders in the same sequence however the parallel arrays are arranged.
-/

namespace ConstraintRouting.Fabric

open Verified.SortedLists

/-! ## The ranking -/

/-- The first contender goes before the second. -/
def RanksBefore (policy : RankingPolicy) (a b : Contender) : Prop :=
  compareRanked a.record a.candidate b.record b.candidate policy = .lt

section Strict

variable {policy : RankingPolicy}

private theorem ranksBefore_irrefl (a : Contender) : ¬ RanksBefore policy a a := by
  intro hless
  have hself : Contender.cmp policy a a = .eq := Std.ReflCmp.compare_self
  have hlt : Contender.cmp policy a a = .lt := hless
  rw [hself] at hlt
  cases hlt

private theorem RanksBefore.trans {a b c : Contender} (hab : RanksBefore policy a b)
    (hbc : RanksBefore policy b c) : RanksBefore policy a c := by
  show Contender.cmp policy a c = .lt
  exact Std.TransCmp.lt_trans hab hbc

/-- Contenders of which neither goes before the other have one path. -/
private theorem path_eq_of_not_ranksBefore {a b : Contender} (hab : ¬ RanksBefore policy a b)
    (hba : ¬ RanksBefore policy b a) : a.candidate.path = b.candidate.path := by
  have hequal : Contender.cmp policy a b = .eq := eq_of_notAfter hba hab
  exact Contender.path_eq_of_cmp_eq hequal

theorem isStrictTotalOrder_ranksBefore {pairs : Set Contender}
    (hdistinct : pairs.InjOn fun pair => pair.candidate.path) :
    IsStrictTotalOrder pairs fun a b => RanksBefore policy a.1 b.1 where
  irrefl a := ranksBefore_irrefl a.1
  trans _ _ _ hab hbc := hab.trans hbc
  trichotomous a b hab hba :=
    Subtype.ext (hdistinct a.2 b.2 (path_eq_of_not_ranksBefore hab hba))

end Strict

/-! ## The selection -/

/-- The records beside their candidates. -/
def contenders (records : List EvaluationRecord) (candidates : List CandidatePath) :
    List Contender :=
  List.zipWith Contender.mk records candidates

/-- The indices of the admissible records. -/
def admissibleIndices (records : List EvaluationRecord) : List Nat :=
  (List.range records.length).filter fun index => (records.getD index {}).isAdmissible

section Selection

variable {records : List EvaluationRecord} {candidates : List CandidatePath}

private theorem zipIdx_eq_map_range :
    records.zipIdx = (List.range records.length).map fun index =>
      (records.getD index {}, index) := by
  apply List.ext_getElem
  · simp
  · intro i hi _
    rw [List.length_zipIdx] at hi
    rw [List.getElem_zipIdx, List.getElem_map, List.getElem_range]
    simp [hi]

/-- Selecting and mapping in one pass. -/
private theorem filterMap_ite {α β : Type} (keep : α → Bool) (f : α → β) (xs : List α) :
    xs.filterMap (fun x => if keep x then some (f x) else none) = (xs.filter keep).map f := by
  induction xs with
  | nil => rfl
  | cons x xs ih =>
      rw [List.filterMap_cons, List.filter_cons]
      by_cases hkeep : keep x = true
      · rw [if_pos hkeep, if_pos hkeep, List.map_cons, ih]
      · rw [if_neg hkeep, if_neg hkeep, ih]

/-- The entries are the admissible indices with their paths. -/
theorem admissibleEntries_eq_map :
    admissibleEntries records = (admissibleIndices records).map fun index =>
      ⟨(records.getD index {}).path, UInt32.ofNat index⟩ := by
  unfold admissibleEntries admissibleIndices
  rw [zipIdx_eq_map_range, List.filterMap_map]
  exact filterMap_ite _ _ _

private theorem lt_of_mem_admissibleIndices {index : Nat}
    (h : index ∈ admissibleIndices records) : index < records.length :=
  List.mem_range.mp (List.mem_filter.mp h).1

/-- Within the range of the index the entries point at the admissible indices. -/
theorem map_recordIndex_admissibleEntries (hrange : records.length < UInt32.size) :
    (admissibleEntries records).map (·.recordIndex.toNat) = admissibleIndices records := by
  rw [admissibleEntries_eq_map, List.map_map]
  have hsame : ∀ index ∈ admissibleIndices records,
      (UInt32.ofNat index).toNat = index := by
    intro index hindex
    have hbound := lt_of_mem_admissibleIndices hindex
    exact UInt32.toNat_ofNat_of_lt' (by omega)
  exact (List.map_congr_left hsame).trans (List.map_id' _)

theorem path_of_mem_admissibleEntries (hrange : records.length < UInt32.size)
    {entry : RankedCandidate} (h : entry ∈ admissibleEntries records) :
    entry.path = (records.getD entry.recordIndex.toNat {}).path := by
  obtain ⟨index, hindex, -, rfl⟩ := mem_admissibleEntries.mp h
  show records[index].path = (records.getD (UInt32.ofNat index).toNat {}).path
  rw [UInt32.toNat_ofNat_of_lt' (by omega), ← List.getElem_eq_getD]

private theorem contenders_eq_map_range (hlength : records.length = candidates.length) :
    contenders records candidates = (List.range records.length).map fun index =>
      ⟨records.getD index {}, candidates.getD index {}⟩ := by
  apply List.ext_getElem
  · simp [contenders, hlength]
  · intro i hi hrange
    have hrecord : i < records.length := by simpa using hrange
    rw [List.getElem_map, List.getElem_range]
    simp [contenders, hrecord, hlength ▸ hrecord]

/-- The entries stand for the admissible contenders. -/
theorem map_contenderAt_admissibleEntries (hlength : records.length = candidates.length)
    (hrange : records.length < UInt32.size) :
    (admissibleEntries records).map (contenderAt records candidates) =
      (contenders records candidates).filter (·.record.isAdmissible) := by
  rw [contenders_eq_map_range hlength, List.filter_map, admissibleEntries_eq_map, List.map_map]
  apply List.map_congr_left
  intro index hindex
  have hbound := lt_of_mem_admissibleIndices hindex
  show contenderAt records candidates ⟨_, UInt32.ofNat index⟩ = _
  unfold contenderAt
  rw [UInt32.toNat_ofNat_of_lt' (by omega)]

theorem map_path_contenders (hlength : records.length = candidates.length) :
    (contenders records candidates).map (·.candidate.path) = candidates.map (·.path) := by
  apply List.ext_getElem
  · simp [contenders, hlength]
  · intro i _ _
    simp [contenders]

variable {policy : RankingPolicy}

/-- In the admissible order the contenders are sorted by the ranking. -/
theorem map_contenderAt_orderAdmissible (hlength : records.length = candidates.length)
    (hrange : records.length < UInt32.size) :
    (orderAdmissible records candidates policy).map (contenderAt records candidates) =
      sortBy (Contender.cmp policy)
        ((contenders records candidates).filter (·.record.isAdmissible)) := by
  have hcarried : ∀ a b, Contender.cmp policy (contenderAt records candidates a)
      (contenderAt records candidates b) = RankedCandidate.cmp records candidates policy a b :=
    fun _ _ => rfl
  rw [orderAdmissible_eq hlength, map_sortBy hcarried,
    map_contenderAt_admissibleEntries hlength hrange]

end Selection

/-! ## The admissible order -/

section Sorted

variable {records others : List EvaluationRecord} {candidates rest : List CandidatePath}
  {policy : RankingPolicy}

theorem orderAdmissible_perm_admissibleIndices (hlength : records.length = candidates.length)
    (hrange : records.length < UInt32.size) :
    ((orderAdmissible records candidates policy).map (·.recordIndex.toNat)).Perm
      (admissibleIndices records) := by
  rw [orderAdmissible_eq hlength, ← map_recordIndex_admissibleEntries hrange]
  exact (sortBy_perm _ _).map _

theorem orderAdmissible_pairwise (hlength : records.length = candidates.length)
    (hrange : records.length < UInt32.size) (hpaths : (candidates.map (·.path)).Nodup) :
    (orderAdmissible records candidates policy).Pairwise fun a b =>
      RanksBefore policy (contenderAt records candidates a) (contenderAt records candidates b) := by
  have hseparates : ∀ a ∈ admissibleEntries records, ∀ b ∈ admissibleEntries records,
      RankedCandidate.cmp records candidates policy a b = .eq → a = b :=
    eq_of_cmp_eq hlength hrange.le hpaths
  have hsorted := sortBy_pairwise_lt (nodup_admissibleEntries hrange.le) hseparates
  rw [orderAdmissible_eq hlength]
  exact hsorted

/-- The parallel arrays may be arranged in any way. -/
theorem map_contenderAt_orderAdmissible_of_perm (hlength : records.length = candidates.length)
    (hother : others.length = rest.length) (hrange : records.length < UInt32.size)
    (hpaths : (candidates.map (·.path)).Nodup)
    (hperm : (contenders records candidates).Perm (contenders others rest)) :
    (orderAdmissible others rest policy).map (contenderAt others rest) =
      (orderAdmissible records candidates policy).map (contenderAt records candidates) := by
  have hsize : others.length = records.length := by
    have hsame := hperm.length_eq
    unfold contenders at hsame
    rw [List.length_zipWith, List.length_zipWith] at hsame
    omega
  rw [map_contenderAt_orderAdmissible hlength hrange,
    map_contenderAt_orderAdmissible hother (by omega)]
  have hdistinct : ((contenders records candidates).map (·.candidate.path)).Nodup := by
    rw [map_path_contenders hlength]
    exact hpaths
  have hselected := hperm.filter (·.record.isAdmissible)
  have hnodup := (hdistinct.of_map _).filter (·.record.isAdmissible)
  have hseparates : ∀ a ∈ (contenders records candidates).filter (·.record.isAdmissible),
      ∀ b ∈ (contenders records candidates).filter (·.record.isAdmissible),
        Contender.cmp policy a b = .eq → a = b := by
    intro a ha b hb hequal
    exact List.inj_on_of_nodup_map hdistinct (List.mem_of_mem_filter ha)
      (List.mem_of_mem_filter hb) (Contender.path_eq_of_cmp_eq hequal)
  have hothers : ∀ a ∈ (contenders others rest).filter (·.record.isAdmissible),
      ∀ b ∈ (contenders others rest).filter (·.record.isAdmissible),
        Contender.cmp policy a b = .eq → a = b := by
    intro a ha b hb
    exact hseparates a (hselected.mem_iff.mpr ha) b (hselected.mem_iff.mpr hb)
  have hsorts := (sortBy_eq_sortBy_iff hnodup (hselected.nodup_iff.mp hnodup) hseparates
    hothers).mpr ⟨hselected, fun _ _ _ _ => rfl⟩
  exact hsorts.symm

end Sorted

/-- The ranking is a strict total order on contenders of distinct paths, and the admissible
order holds every admissible index once and no other, ascends strictly, and names the same
contenders in one sequence however the parallel arrays are arranged. -/
theorem ranking_orders_the_admissible_records (policy : RankingPolicy) :
    (∀ pairs : Set Contender, (pairs.InjOn fun pair => pair.candidate.path) →
      IsStrictTotalOrder pairs fun a b => RanksBefore policy a.1 b.1) ∧
    ∀ (records : List EvaluationRecord) (candidates : List CandidatePath),
      records.length = candidates.length → records.length < UInt32.size →
      (candidates.map (·.path)).Nodup →
      ((orderAdmissible records candidates policy).map (·.recordIndex.toNat)).Perm
        (admissibleIndices records) ∧
      (∀ entry ∈ orderAdmissible records candidates policy,
        entry.path = (records.getD entry.recordIndex.toNat {}).path) ∧
      ((orderAdmissible records candidates policy).Pairwise fun a b =>
        RanksBefore policy (contenderAt records candidates a)
          (contenderAt records candidates b)) ∧
      ∀ (others : List EvaluationRecord) (rest : List CandidatePath),
        others.length = rest.length →
        (contenders records candidates).Perm (contenders others rest) →
        (orderAdmissible others rest policy).map (contenderAt others rest) =
          (orderAdmissible records candidates policy).map (contenderAt records candidates) := by
  constructor
  · intro pairs hdistinct
    exact isStrictTotalOrder_ranksBefore hdistinct
  · intro records candidates hlength hrange hpaths
    refine ⟨orderAdmissible_perm_admissibleIndices hlength hrange, ?_,
      orderAdmissible_pairwise hlength hrange hpaths, ?_⟩
    · intro entry hentry
      rw [orderAdmissible_eq hlength, mem_sortBy] at hentry
      exact path_of_mem_admissibleEntries hrange hentry
    · intro others rest hother hperm
      exact map_contenderAt_orderAdmissible_of_perm hlength hother hrange hpaths hperm

/-- Two admissible records around a rejected one, the later one with the better rank. -/
private def rankedRecords : List EvaluationRecord :=
  [{ path := ⟨1⟩, outcome := .admissible }, { path := ⟨2⟩, outcome := .malformed },
    { path := ⟨3⟩, outcome := .admissible }]

private def rankedPaths : List CandidatePath :=
  [{ path := ⟨1⟩, hasPlannerRank := true, plannerRank := 2 }, { path := ⟨2⟩ },
    { path := ⟨3⟩, hasPlannerRank := true, plannerRank := 1 }]

theorem ranking_orders_the_admissible_records_sample :
    ((orderAdmissible rankedRecords rankedPaths
      { consumePlannerRank := true }).map (·.recordIndex.toNat)).Perm
        (admissibleIndices rankedRecords) ∧
      admissibleIndices rankedRecords = [0, 2] ∧
      (orderAdmissible rankedRecords rankedPaths
        { consumePlannerRank := true }).map (·.recordIndex) = [2, 0] :=
  ⟨((ranking_orders_the_admissible_records { consumePlannerRank := true }).2 rankedRecords
    rankedPaths (by decide) (by decide) (by decide)).1, by decide +kernel, by decide +kernel⟩

end ConstraintRouting.Fabric
