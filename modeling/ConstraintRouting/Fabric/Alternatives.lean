import ConstraintRouting.Fabric.ArrivalOrder
import ConstraintRouting.Fabric.RankingOrder

/-!
# Independence of the alternatives

A batch evaluates every candidate by itself and ranks the admissible ones by a total order.
So what is added to a population neither changes the record of a candidate nor the order of
those that were there, and what is taken out of it takes only its own records along.
-/

namespace ConstraintRouting.Fabric

open Verified.SortedLists

/-! ## One candidate for each path -/

/-- Each path of the population stands for one candidate. -/
def OnePerPath (candidates : List CandidatePath) : Prop :=
  ∀ a ∈ candidates, ∀ b ∈ candidates, a.path = b.path → a = b

/-- The path is one of the population. -/
def offersPath (candidates : List CandidatePath) (path : PathId) : Bool :=
  decide (path ∈ candidates.map (·.path))

section Populations

variable {fewer candidates : List CandidatePath} {candidate : CandidatePath}

/-- A population with one candidate for each path is evaluated whole. -/
theorem mem_canonicalCandidates (hone : OnePerPath candidates) :
    candidate ∈ canonicalCandidates candidates ↔ candidate ∈ candidates := by
  constructor
  · exact mem_of_mem_firstOfEach
  · intro hmem
    have hsome : (candidates.find? (·.path == candidate.path)).isSome = true :=
      List.find?_isSome.mpr ⟨candidate, hmem, beq_self_eq_true _⟩
    rw [← find?_firstOfEach] at hsome
    obtain ⟨found, hfound⟩ := Option.isSome_iff_exists.mp hsome
    have hpath : found.path = candidate.path := by
      have hkey := List.find?_some hfound
      exact beq_iff_eq.mp hkey
    have hkept := List.mem_of_find?_eq_some hfound
    rw [← hone found (mem_of_mem_firstOfEach hkept) candidate hmem hpath]
    exact hkept

theorem canonicalCandidates_ascending (candidates : List CandidatePath) :
    (canonicalCandidates candidates).Pairwise fun a b =>
      compareOn (·.path) a b = .lt :=
  firstOfEach_ascending

/-- The part of a population that is evaluated is a part of what is evaluated. -/
theorem canonicalCandidates_of_subset (hone : OnePerPath candidates)
    (hsubset : fewer ⊆ candidates) :
    canonicalCandidates fewer =
      (canonicalCandidates candidates).filter fun candidate =>
        offersPath fewer candidate.path := by
  have hfewer : OnePerPath fewer := fun a ha b hb => hone a (hsubset ha) b (hsubset hb)
  apply @ascending_eq_of_mem_iff _ (compareOn CandidatePath.path) _
  · exact canonicalCandidates_ascending fewer
  · exact (canonicalCandidates_ascending candidates).filter _
  · intro candidate
    rw [mem_canonicalCandidates hfewer, List.mem_filter, mem_canonicalCandidates hone]
    unfold offersPath
    rw [decide_eq_true_eq]
    constructor
    · intro hmem
      exact ⟨hsubset hmem, List.mem_map_of_mem hmem⟩
    · intro h
      obtain ⟨hmem, hpath⟩ := h
      obtain ⟨other, hother, hsame⟩ := List.mem_map.mp hpath
      rw [← hone other (hsubset hother) candidate hmem hsame]
      exact hother

end Populations

/-! ## The admissible order of a batch -/

/-- A candidate beside its record. -/
def contenderOf (context : EvaluationContext) (candidate : CandidatePath) : Contender :=
  ⟨evaluationRecord context candidate, candidate⟩

section Orders

variable {context : EvaluationContext} {canonical : List CandidatePath}

theorem contenders_eq_map :
    contenders (canonical.map (evaluationRecord context)) canonical =
      canonical.map (contenderOf context) := by
  unfold contenders
  rw [List.zipWith_map_left, List.zipWith_self]
  rfl

/-- The paths of the admissible order are those of the admissible contenders, sorted by the
ranking. -/
theorem map_path_admissibleOrder (hrange : canonical.length < UInt32.size) :
    (acceptedBatch context canonical).admissibleOrder.map (·.path) =
      (sortBy (Contender.cmp context.set.ranking)
        ((canonical.map (contenderOf context)).filter (·.record.isAdmissible))).map
          (·.record.path) := by
  have hlength : (canonical.map (evaluationRecord context)).length = canonical.length :=
    List.length_map _
  have hpaths : ∀ entry ∈ orderAdmissible (canonical.map (evaluationRecord context)) canonical
      context.set.ranking, entry.path =
        (contenderAt (canonical.map (evaluationRecord context)) canonical entry).record.path := by
    intro entry hentry
    rw [orderAdmissible_eq hlength, mem_sortBy] at hentry
    exact path_of_mem_admissibleEntries (by rw [hlength]; exact hrange) hentry
  rw [← contenders_eq_map, ← map_contenderAt_orderAdmissible hlength
    (by rw [hlength]; exact hrange), List.map_map]
  exact List.map_congr_left hpaths

theorem nodup_contenders (hpaths : (canonical.map (·.path)).Nodup) :
    (canonical.map (contenderOf context)).Nodup ∧
      ∀ a ∈ canonical.map (contenderOf context), ∀ b ∈ canonical.map (contenderOf context),
        Contender.cmp context.set.ranking a b = .eq → a = b := by
  have hnodup : ((canonical.map (contenderOf context)).map (·.candidate.path)).Nodup := by
    rw [List.map_map]
    exact hpaths
  refine ⟨hnodup.of_map _, ?_⟩
  intro a ha b hb hequal
  exact List.inj_on_of_nodup_map hnodup ha hb (Contender.path_eq_of_cmp_eq hequal)

/-- Selecting some paths before a batch is ranked is selecting them from its order. -/
theorem admissibleOrder_filter (hrange : canonical.length < UInt32.size)
    (hpaths : (canonical.map (·.path)).Nodup) (selected : PathId → Bool) :
    (acceptedBatch context
        (canonical.filter fun candidate => selected candidate.path)).admissibleOrder.map
          (·.path) =
      ((acceptedBatch context canonical).admissibleOrder.map (·.path)).filter selected := by
  have hkept : (canonical.filter fun candidate => selected candidate.path).length <
      UInt32.size :=
    Nat.lt_of_le_of_lt (List.length_filter_le _ _) hrange
  obtain ⟨hnodup, hseparates⟩ := @nodup_contenders context canonical hpaths
  have hmap : (canonical.filter fun candidate => selected candidate.path).map
      (contenderOf context) =
        (canonical.map (contenderOf context)).filter (selected ·.record.path) := by
    rw [List.filter_map]
    rfl
  have hadmissible := hnodup.filter fun contender => contender.record.isAdmissible
  rw [map_path_admissibleOrder hkept, map_path_admissibleOrder hrange, hmap, List.filter_comm,
    sortBy_filter hadmissible]
  · exact List.filter_map.symm
  · intro a ha b hb
    exact hseparates a (List.mem_of_mem_filter ha) b (List.mem_of_mem_filter hb)

end Orders

end ConstraintRouting.Fabric
