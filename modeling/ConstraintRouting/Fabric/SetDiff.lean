import ConstraintRouting.Fabric.Canonicalization
import ConstraintRouting.Fabric.DecodeSpec
import ConstraintRouting.Fabric.Diffs
import ConstraintRouting.Fabric.Feeds

/-!
# The diff of two definitions against their digests

The diff and the digest enumerate the fields of a definition separately.  On canonical sets
of one identity and generation the diff reports nothing exactly when the digests are fed the
same bytes: the fields are the same, and the canonical order recovers the list of
constraints from their identities.
-/

namespace ConstraintRouting.Fabric

open SemanticHasher
open Verified.KeyedDiffs
open Verified.KeyedTables (find?_of_mem)
open Verified.SortedLists

/-! ## Fields -/

theorem semanticallyEqual_iff {a b : Constraint} : semanticallyEqual a b = true ↔ a = b := by
  constructor
  · intro h
    cases a
    cases b
    simp_all [semanticallyEqual, equivalentPayload]
  · rintro rfl
    simp [semanticallyEqual, equivalentPayload]

theorem evidenceRequirementsDiffer_eq_false_iff {before after : EvidenceRequirements} :
    evidenceRequirementsDiffer before after = false ↔ before = after := by
  constructor
  · intro h
    cases before
    cases after
    simp_all [evidenceRequirementsDiffer]
  · rintro rfl
    simp [evidenceRequirementsDiffer]

/-! ## Constraints by identity -/

/-- The constraint of an identity; the first listed of several. -/
def constraintOf (constraints : List Constraint) (id : ConstraintId) : Option Constraint :=
  constraints.find? (·.id == id)

/-- A constraint is kept where none was known. -/
private def keepFirst (known : Option Constraint) (constraint : Constraint) :
    Option Constraint :=
  some (known.getD constraint)

private theorem getElem?_insertFirst (known : Std.ExtTreeMap ConstraintId Constraint)
    (constraint : Constraint) (id : ConstraintId) :
    (known.insertIfNew constraint.id constraint)[id]? =
      if constraint.id = id then keepFirst known[id]? constraint else known[id]? := by
  rw [Std.ExtTreeMap.getElem?_insertIfNew]
  simp only [Std.compare_eq_iff_eq, Std.ExtTreeMap.mem_iff_isSome_getElem?]
  by_cases hid : constraint.id = id
  · subst hid
    cases known[constraint.id]? <;> simp [keepFirst]
  · simp [hid]

private theorem foldl_keepFirst (constraints : List Constraint) :
    constraints.foldl keepFirst none = constraints.head? := by
  cases constraints with
  | nil => rfl
  | cons first rest =>
      have hkept : ∀ rest : List Constraint, rest.foldl keepFirst (some first) = some first := by
        intro rest
        induction rest with
        | nil => rfl
        | cons next rest ih => exact ih
      exact hkept rest

theorem getElem?_constraintsById (constraints : List Constraint) (id : ConstraintId) :
    (constraintsById constraints)[id]? = constraintOf constraints id := by
  unfold constraintsById constraintOf
  rw [getElem?_foldl getElem?_insertFirst, Std.ExtTreeMap.getElem?_empty, foldl_keepFirst,
    List.head?_filter]
  rfl

theorem constraintOf_eq_none_iff {constraints : List Constraint} {id : ConstraintId} :
    constraintOf constraints id = none ↔ id ∉ constraints.map (·.id) := by
  simp [constraintOf]

theorem constraintOf_eq_some_iff {constraints : List Constraint} {id : ConstraintId}
    {constraint : Constraint} (hids : (constraints.map (·.id)).Nodup) :
    constraintOf constraints id = some constraint ↔
      constraint ∈ constraints ∧ constraint.id = id := by
  constructor
  · intro h
    have hmatches := List.find?_some h
    exact ⟨List.mem_of_find?_eq_some h, beq_iff_eq.mp hmatches⟩
  · rintro ⟨hmem, rfl⟩
    exact find?_of_mem hids hmem

/-- Lists in canonical form that have the same constraint under every identity are equal. -/
theorem eq_of_constraintOf_eq {xs ys : List Constraint} (hxs : InCanonicalForm xs)
    (hys : InCanonicalForm ys) (h : ∀ id, constraintOf xs id = constraintOf ys id) : xs = ys := by
  apply ascending_eq_of_mem_iff hxs.ordered hys.ordered
  intro constraint
  have hsame := h constraint.id
  constructor
  · intro hmem
    rw [(constraintOf_eq_some_iff hxs.ids).mpr ⟨hmem, rfl⟩] at hsame
    exact ((constraintOf_eq_some_iff hys.ids).mp hsame.symm).1
  · intro hmem
    rw [(constraintOf_eq_some_iff hys.ids).mpr ⟨hmem, rfl⟩] at hsame
    exact ((constraintOf_eq_some_iff hxs.ids).mp hsame).1

/-! ## Changes -/

/-- What becomes of an identity. -/
def constraintChangeAt : ConstraintId → Option Constraint → Option Constraint →
    Option ConstraintChange :=
  changeAt constraintRemoved constraintChanged constraintAdded

theorem constraintChangeAt_eq_none_iff {id : ConstraintId} {before after : Option Constraint} :
    constraintChangeAt id before after = none ↔ before = after := by
  cases before with
  | none => cases after <;> simp [constraintChangeAt, changeAt]
  | some before =>
      cases after with
      | none => simp [constraintChangeAt, changeAt]
      | some after =>
          show constraintChanged id before after = none ↔ some before = some after
          rw [Option.some.injEq, ← semanticallyEqual_iff]
          cases hequal : semanticallyEqual before after <;> simp [constraintChanged, hequal]

theorem constraint_of_constraintChangeAt {id : ConstraintId} {before after : Option Constraint}
    {change : ConstraintChange} (h : constraintChangeAt id before after = some change) :
    change.constraint = id := by
  cases before with
  | none =>
      cases after with
      | none => cases h
      | some after =>
          obtain rfl := Option.some.inj h
          rfl
  | some before =>
      cases after with
      | none =>
          obtain rfl := Option.some.inj h
          rfl
      | some after =>
          have hchanged : constraintChanged id before after = some change := h
          unfold constraintChanged at hchanged
          split at hchanged
          · obtain rfl := Option.some.inj hchanged
            rfl
          · cases hchanged

/-! ## The diff -/

/-- An identity is added, removed, or names constraints that differ. -/
inductive Altered (earlier later : List Constraint) (id : ConstraintId) : Prop where
  | added (habsent : id ∉ earlier.map (·.id)) (hpresent : id ∈ later.map (·.id))
  | removed (hpresent : id ∈ earlier.map (·.id)) (habsent : id ∉ later.map (·.id))
  | changed {before after : Constraint} (hbefore : before ∈ earlier) (hafter : after ∈ later)
      (hid : before.id = id) (hsame : after.id = id) (hdiffer : before ≠ after)

theorem altered_iff {earlier later : List Constraint} (hearlier : (earlier.map (·.id)).Nodup)
    (hlater : (later.map (·.id)).Nodup) {id : ConstraintId} :
    Altered earlier later id ↔ constraintOf earlier id ≠ constraintOf later id := by
  constructor
  · intro h hsame
    cases h with
    | added habsent hpresent =>
        rw [constraintOf_eq_none_iff.mpr habsent] at hsame
        exact constraintOf_eq_none_iff.mp hsame.symm hpresent
    | removed hpresent habsent =>
        rw [constraintOf_eq_none_iff.mpr habsent] at hsame
        exact constraintOf_eq_none_iff.mp hsame hpresent
    | changed hbefore hafter hid hother hdiffer =>
        rw [(constraintOf_eq_some_iff hearlier).mpr ⟨hbefore, hid⟩,
          (constraintOf_eq_some_iff hlater).mpr ⟨hafter, hother⟩] at hsame
        exact hdiffer (Option.some.inj hsame)
  · intro hdiffer
    cases hbefore : constraintOf earlier id with
    | none =>
        have hpresent : id ∈ later.map (·.id) := by
          by_contra hmissing
          exact hdiffer (hbefore.trans (constraintOf_eq_none_iff.mpr hmissing).symm)
        exact .added (constraintOf_eq_none_iff.mp hbefore) hpresent
    | some before =>
        obtain ⟨hmem, hid⟩ := (constraintOf_eq_some_iff hearlier).mp hbefore
        cases hafter : constraintOf later id with
        | none =>
            exact .removed (hid ▸ List.mem_map_of_mem hmem) (constraintOf_eq_none_iff.mp hafter)
        | some after =>
            obtain ⟨hother, hsame⟩ := (constraintOf_eq_some_iff hlater).mp hafter
            rw [hbefore, hafter] at hdiffer
            exact .changed hmem hother hid hsame fun hequal => hdiffer (congrArg some hequal)

/-- An identity is reported once or not at all. -/
theorem count_diffConstraintSets {earlier later : ConstraintSet} (id : ConstraintId) :
    ((diffConstraintSets earlier later).changes.map (·.constraint)).count id =
      if (constraintChangeAt id (constraintOf earlier.constraints id)
        (constraintOf later.constraints id)).isSome then 1 else 0 := by
  have hsorted := (sortBy_perm compareConstraintChange
    (leftPass constraintRemoved constraintChanged (constraintsById earlier.constraints)
        (constraintsById later.constraints) ++
      rightPass constraintAdded (constraintsById earlier.constraints)
        (constraintsById later.constraints))).map (·.constraint)
  have hcount := hsorted.count_eq id
  rw [count_passes (fun id change => constraint_of_constraintChangeAt)] at hcount
  rw [← getElem?_constraintsById, ← getElem?_constraintsById]
  exact hcount

theorem count_diffConstraintSets_of_eq {earlier later : ConstraintSet} {id : ConstraintId}
    (h : constraintOf earlier.constraints id = constraintOf later.constraints id) :
    ((diffConstraintSets earlier later).changes.map (·.constraint)).count id = 0 := by
  rw [count_diffConstraintSets, constraintChangeAt_eq_none_iff.mpr h]
  rfl

theorem count_diffConstraintSets_of_ne {earlier later : ConstraintSet} {id : ConstraintId}
    (h : constraintOf earlier.constraints id ≠ constraintOf later.constraints id) :
    ((diffConstraintSets earlier later).changes.map (·.constraint)).count id = 1 := by
  have hchanged := Option.isSome_iff_ne_none.mpr (mt (@constraintChangeAt_eq_none_iff id _ _).mp h)
  rw [count_diffConstraintSets, if_pos hchanged]

/-- Nothing is reported exactly when every identity names the same constraint. -/
theorem changes_diffConstraintSets_eq_nil_iff {earlier later : ConstraintSet} :
    (diffConstraintSets earlier later).changes = [] ↔
      ∀ id, constraintOf earlier.constraints id = constraintOf later.constraints id := by
  constructor
  · intro hnone id
    by_contra hdiffer
    have hcount := count_diffConstraintSets_of_ne hdiffer
    rw [hnone] at hcount
    cases hcount
  · intro hsame
    rw [List.eq_nil_iff_forall_not_mem]
    intro change hchange
    have hcount := count_diffConstraintSets_of_eq (hsame change.constraint)
    exact List.count_eq_zero.mp hcount (List.mem_map_of_mem hchange)

/-! ## The digest -/

/-- What canonicalization yields, and leaves unchanged. -/
def CanonicalSet (set : ConstraintSet) : Prop :=
  ∃ limits defects, canonicalizeConstraintSet set limits = .ok (set, defects)

theorem CanonicalSet.form {set : ConstraintSet} (h : CanonicalSet set) :
    InCanonicalForm set.constraints := by
  obtain ⟨limits, hfixed⟩ := h
  exact (canonicalizeConstraintSet_eq_self_iff.mp hfixed).2.1

/-- A list within a limit fits its count. -/
private theorem fits_of_length_le {α : Type} {items : List α} {limit : UInt32}
    (h : items.length ≤ limit.toNat) : Fits items := by
  have hlimit := limit.toNat_lt
  exact ⟨by omega, fun _ _ => trivial⟩

private theorem fits_of_validateConstraint {constraint : Constraint} {limits : Limits}
    (h : validateConstraint constraint limits = .ok ()) : constraint.Fits := by
  obtain ⟨-, ⟨hnodes, hlinks, htiers, hsites, hcapabilities, hpolicies⟩, -⟩ :=
    readable_of_validateConstraint h
  exact ⟨fits_of_length_le hnodes, fits_of_length_le hlinks, fits_of_length_le htiers,
    fits_of_length_le hsites, fits_of_length_le hcapabilities, fits_of_length_le hpolicies⟩

/-- A canonical set fits its counts. -/
theorem CanonicalSet.counted {set : ConstraintSet} (h : CanonicalSet set) :
    Counted Constraint.Fits set.constraints := by
  obtain ⟨limits, hfixed⟩ := h
  have hbounded := (canonicalizeConstraintSet_eq_self_iff.mp hfixed).1
  have hsize := listWithin_eq_true.mp hbounded.size
  have hlimit := limits.maxConstraintsPerSet.toNat_lt
  exact ⟨by omega, fun constraint hmem =>
    fits_of_validateConstraint (hbounded.constraints constraint hmem)⟩

/-- The digest is fed with the definition, and with nothing else. -/
theorem feedConstraintSet_eq_iff {earlier later : ConstraintSet}
    (hearlier : Counted Constraint.Fits earlier.constraints)
    (hlater : Counted Constraint.Fits later.constraints) :
    feedConstraintSet earlier = feedConstraintSet later ↔
      earlier.id = later.id ∧ earlier.generation = later.generation ∧
        earlier.constraints = later.constraints ∧ earlier.evidence = later.evidence ∧
        earlier.ranking = later.ranking := by
  simp only [feedConstraintSet, List.append_assoc, putId_prefixCode.append_inj,
    putGeneration_prefixCode.append_inj, putAll_append_inj feedDigest_prefixCode hearlier hlater,
    feedEvidenceRequirements_prefixCode.append_inj,
    feedRankingPolicy_prefixCode.injective.eq_iff]

/-- On canonical sets of one identity and generation, the diff reports no change of a
constraint, of the evidence requirements or of the ranking exactly when the digests are fed
the same bytes, and it reports an identity once if it is added, removed or changed, and not
at all otherwise. -/
theorem set_diff_agrees_with_digest_feed {earlier later : ConstraintSet}
    (hearlier : CanonicalSet earlier) (hlater : CanonicalSet later)
    (hid : earlier.id = later.id) (hgeneration : earlier.generation = later.generation) :
    ((diffConstraintSets earlier later).changes = [] ∧
        (diffConstraintSets earlier later).evidenceRequirementsChanged = false ∧
        (diffConstraintSets earlier later).rankingPolicyChanged = false ↔
      feedConstraintSet earlier = feedConstraintSet later) ∧
    ∀ id,
      (Altered earlier.constraints later.constraints id →
        ((diffConstraintSets earlier later).changes.map (·.constraint)).count id = 1) ∧
      (¬ Altered earlier.constraints later.constraints id →
        id ∉ (diffConstraintSets earlier later).changes.map (·.constraint)) := by
  have hids := hearlier.form.ids
  have hothers := hlater.form.ids
  constructor
  · have hconstraints : (∀ id, constraintOf earlier.constraints id =
        constraintOf later.constraints id) ↔ earlier.constraints = later.constraints := by
      constructor
      · exact eq_of_constraintOf_eq hearlier.form hlater.form
      · intro hsame id
        rw [hsame]
    have hranking : (diffConstraintSets earlier later).rankingPolicyChanged = false ↔
        earlier.ranking = later.ranking :=
      bne_eq_false_iff_eq
    have hevidence : (diffConstraintSets earlier later).evidenceRequirementsChanged = false ↔
        earlier.evidence = later.evidence :=
      evidenceRequirementsDiffer_eq_false_iff
    rw [feedConstraintSet_eq_iff hearlier.counted hlater.counted,
      changes_diffConstraintSets_eq_nil_iff, hconstraints, hevidence, hranking]
    simp only [hid, hgeneration, true_and]
  · intro id
    constructor
    · intro haltered
      exact count_diffConstraintSets_of_ne ((altered_iff hids hothers).mp haltered)
    · intro hunaltered
      have hsame := not_not.mp (mt (altered_iff hids hothers).mpr hunaltered)
      exact List.count_eq_zero.mp (count_diffConstraintSets_of_eq hsame)

/-- The second constraint forbids another node. -/
def sampleRevised : List Constraint :=
  [{ id := ⟨2⟩, generation := ⟨1⟩, kind := .requiredNode, nodes := [⟨4⟩, ⟨7⟩] },
   { id := ⟨3⟩, generation := ⟨1⟩, kind := .forbiddenNode, nodes := [⟨8⟩] }]

private theorem canonicalSet_of_sealed {constraints : List Constraint}
    (hvalid : ∀ constraint ∈ constraints, validateConstraint constraint {} = .ok ())
    (hsize : listWithin constraints ({} : Limits).maxConstraintsPerSet = true)
    (hform : InCanonicalForm constraints) : CanonicalSet (sampleSealed constraints) := by
  have hbounded : WellBounded (sampleSealed constraints) {} :=
    ⟨by decide, rfl, rfl, hsize, rfl, hvalid⟩
  exact ⟨{}, canonicalizeConstraintSet_eq_self_iff.mpr ⟨hbounded, hform, rfl⟩⟩

theorem set_diff_agrees_with_digest_feed_of_revised :
    ((diffConstraintSets (sampleSealed sampleTidy) (sampleSealed sampleRevised)).changes.map
      (·.constraint)).count ⟨3⟩ = 1 := by
  have hentities : ∀ constraint ∈ sampleTidy ++ sampleRevised, constraint.EntitiesAscending := by
    simp only [sampleTidy, sampleRevised, List.cons_append, List.nil_append, List.forall_mem_cons]
    refine ⟨?_, ?_, ?_, ?_, by simp⟩ <;> constructor <;> decide
  have hearlier : CanonicalSet (sampleSealed sampleTidy) :=
    canonicalSet_of_sealed (by decide) (by decide)
      ⟨fun constraint h => hentities constraint (List.mem_append_left _ h), by decide, by decide,
        by decide⟩
  have hlater : CanonicalSet (sampleSealed sampleRevised) :=
    canonicalSet_of_sealed (by decide) (by decide)
      ⟨fun constraint h => hentities constraint (List.mem_append_right _ h), by decide,
        by decide, by decide⟩
  have haltered : Altered sampleTidy sampleRevised ⟨3⟩ := by
    rw [altered_iff (by decide) (by decide)]
    decide
  exact ((set_diff_agrees_with_digest_feed hearlier hlater rfl rfl).2 ⟨3⟩).1 haltered

end ConstraintRouting.Fabric
