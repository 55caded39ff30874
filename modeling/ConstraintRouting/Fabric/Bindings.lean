import Mathlib.Data.Set.Finite.List
import Mathlib.Data.Set.Finite.Basic
import ConstraintRouting.Fabric.IndexSpec

/-!
# The index as a relation

Whatever the calls, the two maps of the invalidation index hold one relation between keys
and evaluations: the pairs that were bound and not unbound since.
-/

namespace ConstraintRouting.Fabric

open Verified.Checks (forM_eq_ok seq_eq_ok)
open Verified.RelationTables

/-- A call that changes the index. -/
inductive IndexCall where
  | bind (key : InvalidationKey) (evaluation : ConstraintEvaluationId)
  | unbind (evaluation : ConstraintEvaluationId)
  | clear

def InvalidationIndex.serve (index : InvalidationIndex) : IndexCall → InvalidationIndex
  | .bind key evaluation => index.bind key evaluation
  | .unbind evaluation => index.unbind evaluation
  | .clear => index.clear

/-- The pairs that are bound. -/
abbrev Bindings := Set (InvalidationKey × ConstraintEvaluationId)

/-- What a call means for the pairs. -/
def Bindings.serve (pairs : Bindings) : IndexCall → Bindings
  | .bind key evaluation =>
      {pair | pair ∈ pairs ∨ evaluation.isValid = true ∧ pair = (key, evaluation)}
  | .unbind evaluation => {pair | pair ∈ pairs ∧ pair.2 ≠ evaluation}
  | .clear => ∅

/-- A call bound the evaluation, which is valid, to the key, and no later call unbound it. -/
def BoundSince (calls : List IndexCall) (key : InvalidationKey)
    (evaluation : ConstraintEvaluationId) : Prop :=
  ∃ earlier later, calls = earlier ++ .bind key evaluation :: later ∧
    evaluation.isValid = true ∧ .unbind evaluation ∉ later ∧ .clear ∉ later

/-- Both maps hold the pairs, and no entry of either is empty. -/
structure InvalidationIndex.Represents (index : InvalidationIndex) (pairs : Bindings) :
    Prop where
  forward : ∀ key evaluation, Related index.forward key evaluation ↔ (key, evaluation) ∈ pairs
  reverse : ∀ key evaluation, Related index.reverse evaluation key ↔ (key, evaluation) ∈ pairs
  forwardTrim : Trim index.forward
  reverseTrim : Trim index.reverse

namespace InvalidationIndex.Represents

variable {index : InvalidationIndex} {pairs : Bindings}

theorem empty : Represents {} ∅ where
  forward _ _ := iff_of_false not_related_empty (Set.notMem_empty _)
  reverse _ _ := iff_of_false not_related_empty (Set.notMem_empty _)
  forwardTrim := trim_empty
  reverseTrim := trim_empty

theorem bind (h : index.Represents pairs) (key : InvalidationKey)
    (evaluation : ConstraintEvaluationId) :
    (index.bind key evaluation).Represents (pairs.serve (.bind key evaluation)) := by
  cases hvalid : evaluation.isValid with
  | false =>
      have hindex : index.bind key evaluation = index := by
        rw [InvalidationIndex.bind, hvalid]
        rfl
      have hpairs : pairs.serve (.bind key evaluation) = pairs := by
        simp [Bindings.serve, hvalid]
      rw [hindex, hpairs]
      exact h
  | true =>
      have hindex : index.bind key evaluation =
          { forward := link index.forward key evaluation
            reverse := link index.reverse evaluation key } := by
        rw [InvalidationIndex.bind, hvalid]
        rfl
      rw [hindex]
      constructor
      · intro key' evaluation'
        rw [related_link, h.forward]
        simp only [Bindings.serve, hvalid, true_and, Set.mem_ofPred_eq, Prod.mk.injEq]
        tauto
      · intro key' evaluation'
        rw [related_link, h.reverse]
        simp only [Bindings.serve, hvalid, true_and, Set.mem_ofPred_eq, Prod.mk.injEq]
        tauto
      · exact h.forwardTrim.link
      · exact h.reverseTrim.link

theorem unbind (h : index.Represents pairs) (evaluation : ConstraintEvaluationId) :
    (index.unbind evaluation).Represents (pairs.serve (.unbind evaluation)) := by
  unfold InvalidationIndex.unbind
  split
  · next hnone =>
      have hunbound (key : InvalidationKey) : (key, evaluation) ∉ pairs := by
        intro hpair
        obtain ⟨keys, hkeys, -⟩ := (h.reverse key evaluation).mpr hpair
        rw [hnone] at hkeys
        cases hkeys
      have hpairs : pairs.serve (.unbind evaluation) = pairs := by
        ext ⟨key, bound⟩
        constructor
        · exact fun hpair => hpair.1
        · intro hpair
          refine ⟨hpair, ?_⟩
          rintro rfl
          exact hunbound key hpair
      rw [hpairs]
      exact h
  · next keys hkeys =>
      have hmem (key : InvalidationKey) : key ∈ keys.toList ↔ (key, evaluation) ∈ pairs := by
        rw [Std.ExtTreeSet.mem_toList, ← h.reverse]
        simp [Related, hkeys]
      constructor
      · intro key bound
        rw [related_foldl_unlink, h.forward, hmem]
        show _ ↔ (key, bound) ∈ pairs ∧ bound ≠ evaluation
        constructor
        · rintro ⟨hpair, hother⟩
          refine ⟨hpair, ?_⟩
          rintro rfl
          exact hother ⟨hpair, rfl⟩
        · rintro ⟨hpair, hother⟩
          exact ⟨hpair, fun hsame => hother hsame.2.symm⟩
      · intro key bound
        rw [related_erase, h.reverse]
        exact and_congr_right fun _ => ne_comm
      · exact h.forwardTrim.foldl_unlink
      · exact h.reverseTrim.erase

theorem serve (h : index.Represents pairs) (call : IndexCall) :
    (index.serve call).Represents (pairs.serve call) := by
  cases call with
  | bind key evaluation => exact h.bind key evaluation
  | unbind evaluation => exact h.unbind evaluation
  | clear => exact empty

theorem foldl_serve (h : index.Represents pairs) (calls : List IndexCall) :
    (calls.foldl InvalidationIndex.serve index).Represents (calls.foldl Bindings.serve pairs) := by
  induction calls generalizing index pairs with
  | nil => exact h
  | cons call rest ih => exact ih (h.serve call)

end InvalidationIndex.Represents

/-! ## Bound and not unbound since -/

/-- The last call of a run. -/
private theorem boundSince_append {calls : List IndexCall} {call : IndexCall}
    {key : InvalidationKey} {evaluation : ConstraintEvaluationId} :
    BoundSince (calls ++ [call]) key evaluation ↔
      call = .bind key evaluation ∧ evaluation.isValid = true ∨
        BoundSince calls key evaluation ∧ call ≠ .unbind evaluation ∧ call ≠ .clear := by
  constructor
  · rintro ⟨earlier, later, hcalls, hvalid, hunbind, hclear⟩
    rcases List.eq_nil_or_concat' later with rfl | ⟨rest, last, rfl⟩
    · obtain ⟨-, hlast⟩ := List.append_inj' hcalls rfl
      exact .inl ⟨List.singleton_inj.mp hlast, hvalid⟩
    · rw [← List.cons_append, ← List.append_assoc] at hcalls
      obtain ⟨hrest, hlast⟩ := List.append_inj' hcalls rfl
      obtain rfl := List.singleton_inj.mp hlast
      simp only [List.mem_append, List.mem_singleton, not_or] at hunbind hclear
      exact .inr ⟨⟨earlier, rest, hrest, hvalid, hunbind.1, hclear.1⟩, Ne.symm hunbind.2,
        Ne.symm hclear.2⟩
  · rintro (⟨rfl, hvalid⟩ | ⟨⟨earlier, later, rfl, hvalid, hunbind, hclear⟩, hother, hkept⟩)
    · exact ⟨calls, [], rfl, hvalid, List.not_mem_nil, List.not_mem_nil⟩
    · refine ⟨earlier, later ++ [call], by simp, hvalid, ?_, ?_⟩
      · simp [hunbind, Ne.symm hother]
      · simp [hclear, Ne.symm hkept]

/-- The pairs that are bound after the calls. -/
theorem mem_foldl_serve {calls : List IndexCall} {key : InvalidationKey}
    {evaluation : ConstraintEvaluationId} :
    (key, evaluation) ∈ calls.foldl Bindings.serve ∅ ↔ BoundSince calls key evaluation := by
  induction calls using List.reverseRecOn with
  | nil =>
      refine iff_of_false (Set.notMem_empty _) ?_
      rintro ⟨earlier, later, hcalls, -⟩
      exact absurd hcalls (by simp)
  | append_singleton calls call ih =>
      rw [List.foldl_append, boundSince_append, ← ih]
      cases call with
      | bind key' evaluation' =>
          simp only [List.foldl_cons, List.foldl_nil, Bindings.serve, Set.mem_ofPred_eq,
            Prod.mk.injEq, IndexCall.bind.injEq, ne_eq, reduceCtorEq, not_false_eq_true, and_true]
          constructor
          · rintro (hpair | ⟨hvalid, rfl, rfl⟩)
            · exact .inr hpair
            · exact .inl ⟨⟨rfl, rfl⟩, hvalid⟩
          · rintro (⟨⟨rfl, rfl⟩, hvalid⟩ | hpair)
            · exact .inr ⟨hvalid, rfl, rfl⟩
            · exact .inl hpair
      | unbind evaluation' =>
          simp only [List.foldl_cons, List.foldl_nil, Bindings.serve, Set.mem_ofPred_eq,
            IndexCall.unbind.injEq, ne_eq, reduceCtorEq, not_false_eq_true, and_true, false_and,
            false_or]
          exact and_congr_right fun _ => ne_comm
      | clear => simp [Bindings.serve]

/-! ## What the calls read -/

namespace InvalidationIndex.Represents

variable {index : InvalidationIndex} {pairs : Bindings}

/-- Only finitely many pairs are held. -/
theorem finite (h : index.Represents pairs) : pairs.Finite := by
  apply ((List.finite_toSet index.forward.keys).prod
    (List.finite_toSet index.reverse.keys)).subset
  rintro ⟨key, evaluation⟩ hpair
  have hkey := h.forwardTrim.mem_iff.mpr ⟨evaluation, (h.forward key evaluation).mpr hpair⟩
  have hevaluation := h.reverseTrim.mem_iff.mpr ⟨key, (h.reverse key evaluation).mpr hpair⟩
  exact ⟨Std.ExtTreeMap.mem_keys.mpr hkey, Std.ExtTreeMap.mem_keys.mpr hevaluation⟩

/-- The consistency check finds the counterpart of every entry. -/
theorem validate (h : index.Represents pairs) : index.validate = .ok () := by
  unfold InvalidationIndex.validate
  rw [seq_eq_ok, forM_eq_ok, forM_eq_ok]
  constructor
  · rintro ⟨key, bound⟩ hentry
    have hfound := Std.ExtTreeMap.mem_toList_iff_getElem?_eq_some.mp hentry
    rw [forM_eq_ok]
    intro evaluation hmem
    rw [failIf_eq_ok]
    have hpair := (h.forward key evaluation).mp
      ⟨bound, hfound, Std.ExtTreeSet.mem_toList.mp hmem⟩
    obtain ⟨keys, hkeys, hkey⟩ := (h.reverse key evaluation).mpr hpair
    rw [hkeys]
    simpa using hkey
  · rintro ⟨evaluation, keys⟩ hentry
    have hfound := Std.ExtTreeMap.mem_toList_iff_getElem?_eq_some.mp hentry
    rw [seq_eq_ok, failIf_eq_ok, forM_eq_ok]
    constructor
    · obtain ⟨key, hkey⟩ := h.reverseTrim evaluation keys hfound
      rw [Std.ExtTreeSet.isEmpty_eq_false_iff]
      exact Std.ExtTreeSet.ne_empty_of_mem hkey
    · intro key hmem
      rw [failIf_eq_ok]
      have hpair := (h.reverse key evaluation).mp
        ⟨keys, hfound, Std.ExtTreeSet.mem_toList.mp hmem⟩
      obtain ⟨bound, hbound, hevaluation⟩ := (h.forward key evaluation).mpr hpair
      rw [hbound]
      simpa using hevaluation

theorem mem_dependents (h : index.Represents pairs) (key : InvalidationKey)
    (evaluation : ConstraintEvaluationId) :
    evaluation ∈ index.dependents key ↔ (key, evaluation) ∈ pairs := by
  rw [mem_dependents_iff, ← h.forward]
  unfold Related
  cases index.forward[key]? with
  | none => simp
  | some bound => simp

theorem mem_keysOfKinds (h : index.Represents pairs) (kinds : List InvalidationKeyKind)
    (key : InvalidationKey) :
    key ∈ index.keysOfKinds kinds ↔
      key.kind ∈ kinds ∧ ∃ evaluation, (key, evaluation) ∈ pairs := by
  rw [InvalidationIndex.keysOfKinds, List.mem_filter, Std.ExtTreeMap.mem_keys,
    h.forwardTrim.mem_iff, decide_eq_true_eq, and_comm]
  simp only [h.forward]

end InvalidationIndex.Represents

theorem InvalidationIndex.nodup_dependents (index : InvalidationIndex) (key : InvalidationKey) :
    (index.dependents key).Nodup := by
  unfold dependents
  apply List.Pairwise.imp _ Std.ExtTreeSet.distinct_toList
  rintro a b hdiffer rfl
  exact hdiffer Std.ReflCmp.compare_self

theorem InvalidationIndex.nodup_keysOfKinds (index : InvalidationIndex)
    (kinds : List InvalidationKeyKind) : (index.keysOfKinds kinds).Nodup := by
  unfold keysOfKinds
  apply List.Nodup.filter
  apply List.Pairwise.imp _ Std.ExtTreeMap.distinct_keys
  rintro a b hdiffer rfl
  exact hdiffer Std.ReflCmp.compare_self

/-- Whatever the calls, the two maps hold the pairs that were bound and not unbound since,
without empty entries, and the index reads these pairs back, each once. -/
theorem index_holds_bindings (calls : List IndexCall) :
    let index : InvalidationIndex := calls.foldl InvalidationIndex.serve {}
    let pairs : Bindings := {pair | BoundSince calls pair.1 pair.2}
    index.Represents pairs ∧ pairs.Finite ∧ index.validate = .ok () ∧
      (∀ key, (index.dependents key).Nodup ∧
        ∀ evaluation, evaluation ∈ index.dependents key ↔ BoundSince calls key evaluation) ∧
      ∀ kinds, (index.keysOfKinds kinds).Nodup ∧
        ∀ key, key ∈ index.keysOfKinds kinds ↔
          key.kind ∈ kinds ∧ ∃ evaluation, BoundSince calls key evaluation := by
  intro index pairs
  have hpairs : calls.foldl Bindings.serve ∅ = pairs := by
    ext ⟨key, evaluation⟩
    exact mem_foldl_serve
  have hrun : index.Represents pairs := by
    rw [← hpairs]
    exact InvalidationIndex.Represents.empty.foldl_serve calls
  refine ⟨hrun, hrun.finite, hrun.validate, ?_, ?_⟩
  · intro key
    exact ⟨index.nodup_dependents key, hrun.mem_dependents key⟩
  · intro kinds
    exact ⟨index.nodup_keysOfKinds kinds, hrun.mem_keysOfKinds kinds⟩

end ConstraintRouting.Fabric
