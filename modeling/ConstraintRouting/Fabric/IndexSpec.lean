import ConstraintRouting.Fabric.CoordinatorSpec

/-!
# What the invalidation index holds

The rebuilt index binds exactly the keys of the current records whose set and
candidate are known, and a family reaches a record through one of its keys.
-/

namespace ConstraintRouting.Fabric

namespace InvalidationIndex

theorem mem_dependents_iff {index : InvalidationIndex} {key : InvalidationKey}
    {evaluation : ConstraintEvaluationId} :
    evaluation ∈ index.dependents key ↔ evaluation ∈ index.forward[key]?.getD ∅ := by
  rw [dependents, Std.ExtTreeSet.mem_toList, Std.ExtTreeMap.getD_eq_getD_getElem?]

theorem not_mem_dependents_empty {key : InvalidationKey}
    {evaluation : ConstraintEvaluationId} :
    evaluation ∉ ({} : InvalidationIndex).dependents key := by
  simp [mem_dependents_iff]

/-- Binding adds one evaluation under one key. -/
theorem mem_dependents_bind {index : InvalidationIndex} {key bound : InvalidationKey}
    {evaluation added : ConstraintEvaluationId} :
    evaluation ∈ (index.bind bound added).dependents key ↔
      evaluation ∈ index.dependents key ∨
        added.isValid = true ∧ bound = key ∧ added = evaluation := by
  unfold bind
  split
  · next hinvalid =>
      have hnot : added.isValid = false := by simpa using hinvalid
      simp [hnot]
  · next hvalid =>
      have hadded : added.isValid = true := by simpa using hvalid
      rw [mem_dependents_iff, mem_dependents_iff, Std.ExtTreeMap.getElem?_alter]
      split
      · next heq =>
          obtain rfl := Std.LawfulEqCmp.eq_of_compare heq
          simp [hadded, or_comm]
      · next hne =>
          have hother : bound ≠ key := by
            rintro rfl
            exact hne Std.ReflCmp.compare_self
          simp [hother]

/-- Binding one evaluation to several keys. -/
theorem mem_dependents_foldl_bind {keys : List InvalidationKey} {index : InvalidationIndex}
    {key : InvalidationKey} {evaluation added : ConstraintEvaluationId} :
    evaluation ∈ (keys.foldl (fun index bound => index.bind bound added) index).dependents
        key ↔
      evaluation ∈ index.dependents key ∨
        added.isValid = true ∧ key ∈ keys ∧ added = evaluation := by
  induction keys generalizing index with
  | nil => simp
  | cons first rest ih =>
      rw [List.foldl_cons, ih, mem_dependents_bind, List.mem_cons]
      grind

/-- A key of a kind that has a dependent is among the keys of that kind. -/
theorem mem_keysOfKinds {index : InvalidationIndex} {kinds : List InvalidationKeyKind}
    {key : InvalidationKey} {evaluation : ConstraintEvaluationId} (hkind : key.kind ∈ kinds)
    (h : evaluation ∈ index.dependents key) : key ∈ index.keysOfKinds kinds := by
  refine List.mem_filter.mpr ⟨?_, by simpa using hkind⟩
  rw [Std.ExtTreeMap.mem_keys, Std.ExtTreeMap.mem_iff_isSome_getElem?]
  rw [mem_dependents_iff] at h
  cases hfound : index.forward[key]? with
  | some bound => rfl
  | none => simp [hfound] at h

end InvalidationIndex

open InvalidationIndex

/-- The index holds exactly the keys to which the current records are bound. -/
theorem mem_dependents_rebuildIndex {sets : List ConstraintSet}
    {populations : List CandidatePopulation} {evaluations : List EvaluationRecord}
    {key : InvalidationKey} {evaluation : ConstraintEvaluationId} :
    evaluation ∈ (Impl.rebuildIndex sets populations evaluations).dependents key ↔
      ∃ record ∈ evaluations, record.state = .current ∧ record.id.isValid = true ∧
        key ∈ Impl.boundKeys sets populations record ∧ record.id = evaluation := by
  have hfold (records : List EvaluationRecord) (index : InvalidationIndex) :
      evaluation ∈ (records.foldl (fun index record =>
          (Impl.boundKeys sets populations record).foldl
            (fun index key => index.bind key record.id) index) index).dependents key ↔
        evaluation ∈ index.dependents key ∨
          ∃ record ∈ records, record.id.isValid = true ∧
            key ∈ Impl.boundKeys sets populations record ∧ record.id = evaluation := by
    induction records generalizing index with
    | nil => simp
    | cons first rest ih =>
        rw [List.foldl_cons, ih, mem_dependents_foldl_bind]
        simp only [List.exists_mem_cons_iff, or_assoc]
  unfold Impl.rebuildIndex
  rw [hfold]
  simp only [not_mem_dependents_empty, false_or, Impl.currentRecords, List.mem_filter,
    decide_eq_true_eq, and_assoc]

/-! ## Dependency keys -/

theorem mem_dependencyKeys {record : EvaluationRecord} {set : ConstraintSet}
    {candidate : CandidatePath} {key : InvalidationKey} :
    key ∈ dependencyKeys record set candidate ↔ key ∈ collectedKeys record set candidate := by
  rw [dependencyKeys, Std.ExtTreeSet.mem_toList, Std.ExtTreeSet.mem_ofList]
  simp

/-- A record that consulted a family is bound to a key through which the family
reaches its dependents. -/
theorem exists_familyKey {record : EvaluationRecord} {family : EvidenceFamily}
    (set : ConstraintSet) (candidate : CandidatePath) (hknown : family ∈ kFamilies)
    (hconsults : consults record.consulted family = true) :
    ∃ key ∈ dependencyKeys record set candidate, key.kind ∈ familyKinds family := by
  simp only [mem_dependencyKeys]
  cases family with
  | constraintSet | none => exact absurd hknown (by decide)
  | topology =>
      exact ⟨⟨.topology, 0⟩, by simp [collectedKeys, familyKeys, topologyKeys, hconsults],
        by decide⟩
  | linkState =>
      exact ⟨⟨.linkState, 0⟩, by simp [collectedKeys, familyKeys, hconsults], by decide⟩
  | capability =>
      exact ⟨⟨.capability, 0⟩,
        by simp [collectedKeys, familyKeys, capabilityKeys, hconsults], by decide⟩
  | failureDomain =>
      exact ⟨⟨.failureDomain, 0⟩,
        by simp [collectedKeys, familyKeys, failureDomainKeys, hconsults], by decide⟩
  | policy =>
      exact ⟨⟨.policy, 0⟩, by simp [collectedKeys, familyKeys, policyKeys, hconsults],
        by decide⟩
  | planner =>
      exact ⟨⟨.planner, 0⟩, by simp [collectedKeys, familyKeys, hconsults], by decide⟩
  | pathAuthority =>
      exact ⟨⟨.pathAuthority, 0⟩, by simp [collectedKeys, familyKeys, hconsults], by decide⟩

/-- A family reaches the current records that are bound to a key of one of its kinds. -/
theorem mem_dependentsOfFamily_iff {standing : Standing} {family : EvidenceFamily}
    {evaluation : ConstraintEvaluationId} :
    evaluation ∈ dependentsOfFamily standing.index family ↔
      ∃ record ∈ standing.evaluations, record.state = .current ∧ record.id.isValid = true ∧
        record.id = evaluation ∧
        ∃ key ∈ Impl.boundKeys standing.sets standing.populations record,
          key.kind ∈ familyKinds family := by
  unfold dependentsOfFamily
  rw [List.mem_flatMap]
  constructor
  · rintro ⟨key, hkey, hdependent⟩
    have hkind : key.kind ∈ familyKinds family := by
      simpa using (List.mem_filter.mp hkey).2
    obtain ⟨record, hmem, hcurrent, hvalid, hbound, hid⟩ :=
      mem_dependents_rebuildIndex.mp hdependent
    exact ⟨record, hmem, hcurrent, hvalid, hid, key, hbound, hkind⟩
  · rintro ⟨record, hmem, hcurrent, hvalid, hid, key, hbound, hkind⟩
    have hdependent : evaluation ∈ standing.index.dependents key :=
      mem_dependents_rebuildIndex.mpr ⟨record, hmem, hcurrent, hvalid, hbound, hid⟩
    exact ⟨key, mem_keysOfKinds hkind hdependent, hdependent⟩

/-- A family reaches each current record that consulted it and whose set and candidate
are known. -/
theorem mem_dependentsOfFamily (standing : Standing) {record : EvaluationRecord}
    {set : ConstraintSet} {candidate : CandidatePath} {family : EvidenceFamily}
    (hmem : record ∈ standing.evaluations) (hcurrent : record.state = .current)
    (hvalid : record.id.isValid = true)
    (hset : findSet standing.sets record.setId = some set)
    (hcandidate :
      findCandidate standing.populations record.setId record.path = some candidate)
    (hknown : family ∈ kFamilies) (hconsults : consults record.consulted family = true) :
    record.id ∈ dependentsOfFamily standing.index family := by
  obtain ⟨key, hkey, hkind⟩ := exists_familyKey set candidate hknown hconsults
  have hbound : key ∈ Impl.boundKeys standing.sets standing.populations record := by
    simp only [Impl.boundKeys, hset, hcandidate]
    exact hkey
  exact mem_dependentsOfFamily_iff.mpr ⟨record, hmem, hcurrent, hvalid, rfl, key, hbound, hkind⟩

end ConstraintRouting.Fabric
