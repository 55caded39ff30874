import ConstraintRouting.Fabric.CanonicalForm

/-!
# Canonicalization as a normal form

Canonicalization computes a normal form: it depends neither on the order of the
constraints nor on the arrangement of their entity lists, and it fixes its results.
-/

namespace ConstraintRouting.Fabric

open Verified.Checks (seq_eq_ok forM_eq_ok)
open Verified.SortedLists

/-! ## Arrangements -/

/-- The same entries in any order and any number, within the limit. -/
def Relists {domain : IdentityDomain} (limits : Limits)
    (relisted original : List (StrongId domain)) : Prop :=
  (∀ id, id ∈ relisted ↔ id ∈ original) ∧
    listWithin relisted limits.maxEntityRefsPerConstraint = true

/-- The constraints differ in the arrangement of their entity lists only. -/
structure Constraint.Relisted (limits : Limits) (relisted original : Constraint) : Prop where
  rest : relisted = { original with
    nodes := relisted.nodes, links := relisted.links, tiers := relisted.tiers,
    sites := relisted.sites, capabilities := relisted.capabilities,
    policies := relisted.policies }
  nodes : Relists limits relisted.nodes original.nodes
  links : Relists limits relisted.links original.links
  tiers : Relists limits relisted.tiers original.tiers
  sites : Relists limits relisted.sites original.sites
  capabilities : Relists limits relisted.capabilities original.capabilities
  policies : Relists limits relisted.policies original.policies

/-- The sets differ in the order of their constraints and in the arrangement of the entity
lists only. -/
structure ConstraintSet.Rearranged (limits : Limits) (rearranged original : ConstraintSet) :
    Prop where
  rest : rearranged = { original with constraints := rearranged.constraints }
  constraints : ∃ relisted, relisted.Forall₂ (Constraint.Relisted limits) original.constraints ∧
    rearranged.constraints.Perm relisted

theorem Relists.sortUnique_eq {domain : IdentityDomain} {limits : Limits}
    {relisted original : List (StrongId domain)} (h : Relists limits relisted original) :
    sortUnique compare relisted = sortUnique compare original :=
  sortUnique_eq_of_mem_iff h.1

theorem Relists.allValid_eq {domain : IdentityDomain} {limits : Limits}
    {relisted original : List (StrongId domain)} (h : Relists limits relisted original) :
    allValid relisted = allValid original := by
  unfold allValid
  rw [Bool.eq_iff_iff, List.all_eq_true, List.all_eq_true]
  constructor
  · intro hall id hid
    exact hall id ((h.1 id).mpr hid)
  · intro hall id hid
    exact hall id ((h.1 id).mp hid)

/-- The canonical form of a constraint does not depend on the arrangement. -/
theorem Constraint.Relisted.canonicalizeEntities_eq {limits : Limits}
    {relisted original : Constraint} (h : relisted.Relisted limits original) :
    (canonicalizeEntities relisted).1 = (canonicalizeEntities original).1 := by
  simp only [canonicalizeEntities, canonicalizeEntityList]
  rw [h.nodes.sortUnique_eq, h.links.sortUnique_eq, h.tiers.sortUnique_eq,
    h.sites.sortUnique_eq, h.capabilities.sortUnique_eq, h.policies.sortUnique_eq, h.rest]

/-- An arrangement of a valid constraint is valid. -/
theorem Constraint.Relisted.validateConstraint {limits : Limits}
    {relisted original : Constraint} (h : relisted.Relisted limits original)
    (hvalid : validateConstraint original limits = .ok ()) :
    validateConstraint relisted limits = .ok () := by
  unfold Fabric.validateConstraint at *
  rw [seq_eq_ok] at *
  obtain ⟨hcommon, hpayload⟩ := hvalid
  constructor
  · simp only [validateConstraintCommon, seq_eq_ok, failIf_eq_ok, Bool.or_eq_false_iff,
      Bool.not_eq_false'] at hcommon ⊢
    obtain ⟨hid, hgeneration, hkind, hunknown, -, hentities, hscope⟩ := hcommon
    rw [h.nodes.allValid_eq, h.links.allValid_eq, h.tiers.allValid_eq, h.sites.allValid_eq,
      h.capabilities.allValid_eq, h.policies.allValid_eq]
    have hwithin := And.intro (And.intro (And.intro (And.intro (And.intro h.nodes.2 h.links.2)
      h.tiers.2) h.sites.2) h.capabilities.2) h.policies.2
    rw [h.rest]
    rw [h.rest] at hwithin
    exact ⟨hid, hgeneration, hkind, hunknown, hwithin, hentities, hscope⟩
  · rw [← validateConstraintPayload_canonicalizeEntities, h.canonicalizeEntities_eq,
      validateConstraintPayload_canonicalizeEntities]
    exact hpayload

private theorem map_canonicalizeEntities_of_relisted {limits : Limits}
    {relisted originals : List Constraint}
    (h : relisted.Forall₂ (Constraint.Relisted limits) originals) :
    relisted.map (canonicalizeEntities · |>.1) = originals.map (canonicalizeEntities · |>.1) := by
  induction h with
  | nil => rfl
  | cons hfirst hrest ih =>
      rw [List.map_cons, List.map_cons, hfirst.canonicalizeEntities_eq, ih]

private theorem validateConstraint_of_relisted {limits : Limits}
    {relisted originals : List Constraint}
    (h : relisted.Forall₂ (Constraint.Relisted limits) originals)
    (hvalid : ∀ constraint ∈ originals, validateConstraint constraint limits = .ok ()) :
    ∀ constraint ∈ relisted, validateConstraint constraint limits = .ok () := by
  induction h with
  | nil => exact fun constraint hmem => absurd hmem List.not_mem_nil
  | cons hfirst hrest ih =>
      rw [List.forall_mem_cons] at *
      exact ⟨hfirst.validateConstraint hvalid.1, ih hvalid.2⟩

/-- Arrangements of a set have the same constraints in canonical form. -/
theorem ConstraintSet.Rearranged.map_perm {limits : Limits} {rearranged original : ConstraintSet}
    (h : rearranged.Rearranged limits original) :
    (rearranged.constraints.map (canonicalizeEntities · |>.1)).Perm
      (original.constraints.map (canonicalizeEntities · |>.1)) := by
  obtain ⟨relisted, hrelisted, hperm⟩ := h.constraints
  rw [← map_canonicalizeEntities_of_relisted hrelisted]
  exact hperm.map _

theorem identityReused_of_perm {xs ys : List Constraint} (h : xs.Perm ys)
    (hunused : identityReused ∅ ys = false) : identityReused ∅ xs = false := by
  rw [identityReused_eq_false_iff] at *
  constructor
  · intro a _ first hfirst
    rw [Std.ExtTreeMap.getElem?_empty] at hfirst
    cases hfirst
  · intro a ha b hb
    exact hunused.2 a (h.mem_iff.mp ha) b (h.mem_iff.mp hb)

theorem ConstraintSet.Rearranged.canonicalForm_eq {limits : Limits}
    {rearranged original : ConstraintSet} (h : rearranged.Rearranged limits original) :
    canonicalForm rearranged = canonicalForm original := by
  have hsorted : canonicalConstraints rearranged = canonicalConstraints original := by
    unfold canonicalConstraints
    rw [sortBy_eq_of_perm (fun _ _ _ _ heq => canonicalCompare_eq_iff.mp heq) h.map_perm]
  unfold canonicalForm
  rw [hsorted, h.rest]

/-- An arrangement of an accepted set is accepted with the same result. -/
theorem canonicalizeConstraintSet_rearranged {limits : Limits}
    {rearranged original canonical : ConstraintSet} (h : rearranged.Rearranged limits original)
    (haccepted : ∃ defects, canonicalizeConstraintSet original limits = .ok (canonical, defects)) :
    ∃ defects, canonicalizeConstraintSet rearranged limits = .ok (canonical, defects) := by
  rw [canonicalizeConstraintSet_eq_ok_iff] at *
  obtain ⟨hlimits, hid, hgeneration, hsize, hname, hvalid, hunused, hcanonical⟩ := haccepted
  have hunusedHere := identityReused_of_perm h.map_perm hunused
  have hvalidHere : ∀ constraint ∈ rearranged.constraints,
      validateConstraint constraint limits = .ok () := by
    obtain ⟨relisted, hrelisted, hperm⟩ := h.constraints
    intro constraint hmem
    exact validateConstraint_of_relisted hrelisted hvalid constraint (hperm.mem_iff.mp hmem)
  have hsizeHere : listWithin rearranged.constraints limits.maxConstraintsPerSet = true := by
    have hlength := h.map_perm.length_eq
    rw [List.length_map, List.length_map] at hlength
    unfold listWithin at *
    rw [hlength]
    exact hsize
  rw [h.canonicalForm_eq]
  rw [h.rest]
  exact ⟨hlimits, hid, hgeneration, h.rest ▸ hsizeHere, hname, h.rest ▸ hvalidHere,
    h.rest ▸ hunusedHere, hcanonical⟩

/-! ## What canonicalization fixes -/

theorem canonicalizeEntityList_of_ascending {domain : IdentityDomain} (id : ConstraintId)
    {list : List (StrongId domain)} (h : strictlyAscending compare list = true) :
    canonicalizeEntityList id list = (list, []) := by
  unfold canonicalizeEntityList
  rw [sortUnique_eq_self h]
  simp

/-- Canonicalization of the entity lists leaves ascending lists alone, without defects. -/
theorem canonicalizeEntities_of_ascending {constraint : Constraint}
    (h : constraint.EntitiesAscending) : canonicalizeEntities constraint = (constraint, []) := by
  unfold canonicalizeEntities
  simp only [canonicalizeEntityList_of_ascending _ h.nodes,
    canonicalizeEntityList_of_ascending _ h.links, canonicalizeEntityList_of_ascending _ h.tiers,
    canonicalizeEntityList_of_ascending _ h.sites,
    canonicalizeEntityList_of_ascending _ h.capabilities,
    canonicalizeEntityList_of_ascending _ h.policies, List.append_nil]

theorem collapseFrom_of_apart {kept : Constraint} {constraints : List Constraint}
    (h : (kept :: constraints).IsChain StaysApart) :
    collapseFrom kept constraints = (kept :: constraints, []) := by
  induction constraints generalizing kept with
  | nil => rfl
  | cons constraint rest ih =>
      obtain ⟨hfirst, hrest⟩ := List.isChain_cons_cons.mp h
      have hdiffer : equivalentPayload kept constraint = false := hfirst
      simp only [collapseFrom, hdiffer, ih hrest, Bool.false_eq_true, if_false]

/-- Nothing collapses where neighbours have different payloads. -/
theorem collapse_of_apart {constraints : List Constraint}
    (h : constraints.IsChain StaysApart) : collapse constraints = (constraints, []) := by
  cases constraints with
  | nil => rfl
  | cons constraint rest => exact collapseFrom_of_apart h

theorem InCanonicalForm.map_canonicalizeEntities {constraints : List Constraint}
    (h : InCanonicalForm constraints) :
    constraints.map (canonicalizeEntities · |>.1) = constraints := by
  have hself : ∀ constraint ∈ constraints, (canonicalizeEntities constraint).1 = constraint := by
    intro constraint hmem
    rw [canonicalizeEntities_of_ascending (h.entities constraint hmem)]
  rw [List.map_congr_left hself, List.map_id']

theorem InCanonicalForm.not_reused {constraints : List Constraint}
    (h : InCanonicalForm constraints) : identityReused ∅ constraints = false := by
  rw [identityReused_eq_false_iff]
  constructor
  · intro a _ first hfirst
    rw [Std.ExtTreeMap.getElem?_empty] at hfirst
    cases hfirst
  · intro a ha b hb hid
    rw [List.inj_on_of_nodup_map h.ids ha hb hid]

theorem InCanonicalForm.collapse_sorted {constraints : List Constraint}
    (h : InCanonicalForm constraints) :
    collapse (sortBy canonicalCompare constraints) = (constraints, []) := by
  rw [sortBy_eq_self h.ordered]
  exact collapse_of_apart h.payloads.isChain

/-- A set with constraints in canonical form is its own canonical form. -/
theorem InCanonicalForm.canonicalForm_eq {set : ConstraintSet}
    (h : InCanonicalForm set.constraints) : canonicalForm set = set := by
  unfold canonicalForm canonicalConstraints
  rw [h.map_canonicalizeEntities, h.collapse_sorted]

/-- What canonicalization demands of a set besides its constraints' identities. -/
structure WellBounded (set : ConstraintSet) (limits : Limits) : Prop where
  limitsValid : validateLimits limits = .ok ()
  id : set.id.isValid = true
  generation : set.generation.isValid = true
  size : listWithin set.constraints limits.maxConstraintsPerSet = true
  name : listWithin set.name limits.maxNameBytes = true
  constraints : ∀ constraint ∈ set.constraints, validateConstraint constraint limits = .ok ()

/-- Canonicalization of a set in canonical form reports nothing. -/
theorem canonicalizeConstraintSet_of_inCanonicalForm {set : ConstraintSet} {limits : Limits}
    (hbounded : WellBounded set limits) (hform : InCanonicalForm set.constraints)
    (hdigest : constraintSetDigest set = set.digest) :
    canonicalizeConstraintSet set limits = .ok (set, []) := by
  have hdefects : set.constraints.flatMap (canonicalizeEntities · |>.2) = [] := by
    rw [List.flatMap_eq_nil_iff]
    intro constraint hmem
    rw [canonicalizeEntities_of_ascending (hform.entities constraint hmem)]
  unfold canonicalizeConstraintSet
  simp only [hbounded.limitsValid, hform.map_canonicalizeEntities, hform.collapse_sorted,
    hdefects, hdigest, hform.not_reused, seq_eq_ok, failIf_eq_ok, Bool.not_eq_false',
    forM_eq_ok, bne_self_eq_false, Bool.or_false, Bool.false_eq_true, if_false,
    List.append_nil, pure, Except.pure, and_true]
  exact ⟨hbounded.id, hbounded.generation, hbounded.size, hbounded.name, hbounded.constraints⟩

/-- A set is fixed by canonicalization exactly when it is in canonical form under its own
digest. -/
theorem canonicalizeConstraintSet_eq_self_iff {set : ConstraintSet} {limits : Limits} :
    (∃ defects, canonicalizeConstraintSet set limits = .ok (set, defects)) ↔
      WellBounded set limits ∧ InCanonicalForm set.constraints ∧
        constraintSetDigest set = set.digest := by
  constructor
  · intro hfixed
    obtain ⟨hlimits, hid, hgeneration, hsize, hname, hvalid, hunused, hcanonical⟩ :=
      canonicalizeConstraintSet_eq_ok_iff.mp hfixed
    have hconstraints : canonicalConstraints set = set.constraints :=
      congrArg ConstraintSet.constraints hcanonical
    have hform := inCanonicalForm_canonicalConstraints hvalid hunused
    rw [hconstraints] at hform
    have hdigest := congrArg ConstraintSet.digest hcanonical
    rw [hform.canonicalForm_eq] at hdigest
    exact ⟨⟨hlimits, hid, hgeneration, hsize, hname, hvalid⟩, hform, hdigest⟩
  · rintro ⟨hbounded, hform, hdigest⟩
    exact ⟨[], canonicalizeConstraintSet_of_inCanonicalForm hbounded hform hdigest⟩

/-- What canonicalization yields is well bounded, in canonical form and under its digest. -/
theorem canonicalizeConstraintSet_yields {set canonical : ConstraintSet} {limits : Limits}
    (h : ∃ defects, canonicalizeConstraintSet set limits = .ok (canonical, defects)) :
    WellBounded canonical limits ∧ InCanonicalForm canonical.constraints ∧
      constraintSetDigest canonical = canonical.digest := by
  obtain ⟨hlimits, hid, hgeneration, hsize, hname, hvalid, hunused, rfl⟩ :=
    canonicalizeConstraintSet_eq_ok_iff.mp h
  refine ⟨⟨hlimits, hid, hgeneration, ?_, hname, ?_⟩,
    inCanonicalForm_canonicalConstraints hvalid hunused, rfl⟩
  · have hshorter := length_canonicalConstraints_le set
    exact decide_eq_true (hshorter.trans (of_decide_eq_true hsize))
  · intro constraint hmem
    obtain ⟨original, horiginal, rfl⟩ := exists_of_mem_canonicalConstraints hmem
    exact validateConstraint_canonicalizeEntities (hvalid original horiginal)

/-- Canonicalization is a normal form: arrangements of an accepted set have one result; its
entity lists and its constraints are strictly ascending, without a repeated identity and
without equivalent payloads; and it is fixed without a defect. -/
theorem canonicalization_is_a_normal_form {set canonical : ConstraintSet} {limits : Limits}
    {defects : List SetDefect}
    (h : canonicalizeConstraintSet set limits = .ok (canonical, defects)) :
    (∀ rearranged : ConstraintSet, rearranged.Rearranged limits set →
      ∃ reported, canonicalizeConstraintSet rearranged limits = .ok (canonical, reported)) ∧
    InCanonicalForm canonical.constraints ∧
    canonicalizeConstraintSet canonical limits = .ok (canonical, []) := by
  obtain ⟨hbounded, hform, hdigest⟩ := canonicalizeConstraintSet_yields ⟨defects, h⟩
  refine ⟨?_, hform, canonicalizeConstraintSet_of_inCanonicalForm hbounded hform hdigest⟩
  intro rearranged hrearranged
  exact canonicalizeConstraintSet_rearranged hrearranged ⟨defects, h⟩

/-- Constraints out of order, one of them twice, with a repeated entry. -/
def sampleUntidy : ConstraintSet where
  id := ⟨5⟩
  generation := ⟨1⟩
  constraints :=
    [{ id := ⟨3⟩, generation := ⟨1⟩, kind := .forbiddenNode, nodes := [⟨9⟩] },
     { id := ⟨2⟩, generation := ⟨1⟩, kind := .requiredNode, nodes := [⟨7⟩, ⟨4⟩, ⟨7⟩] },
     { id := ⟨1⟩, generation := ⟨1⟩, kind := .requiredNode, nodes := [⟨4⟩, ⟨7⟩] }]

theorem canonicalization_is_a_normal_form_of_untidy : ∃ canonical defects,
    canonicalizeConstraintSet sampleUntidy {} = .ok (canonical, defects) ∧
      InCanonicalForm canonical.constraints ∧
      canonicalizeConstraintSet canonical {} = .ok (canonical, []) := by
  have haccepted : ∃ defects, canonicalizeConstraintSet sampleUntidy {} =
      .ok ({ canonicalForm sampleUntidy with
        digest := constraintSetDigest (canonicalForm sampleUntidy) }, defects) :=
    canonicalizeConstraintSet_eq_ok_iff.mpr ⟨by decide, by decide, by decide, by decide,
      by decide, by decide +kernel, by decide +kernel, rfl⟩
  obtain ⟨defects, h⟩ := haccepted
  exact ⟨_, defects, h, (canonicalization_is_a_normal_form h).2⟩

/-! ## Verification against canonicalization -/

/-- Verification accepts a set exactly when canonicalization leaves it unchanged and finds
it free of contradictions. -/
def VerifiesFixedPoints (set : ConstraintSet) (limits : Limits) : Prop :=
  verifyCanonicalConstraintSet set limits = .ok () ↔
    (∃ defects, canonicalizeConstraintSet set limits = .ok (set, defects)) ∧
      detectContradictions set limits = .ok ()

/-- What a look at neighbours does not show: no identity occurs twice, and no two payloads
are equivalent. -/
structure Unrepeated (constraints : List Constraint) : Prop where
  ids : (constraints.map (·.id)).Nodup
  payloads : constraints.Pairwise fun a b => equivalentPayload a b = false

/-- Canonical form is canonical order without repetitions. -/
theorem inCanonicalForm_iff {constraints : List Constraint} :
    InCanonicalForm constraints ↔
      (∀ constraint ∈ constraints, constraint.EntitiesAscending) ∧
      (constraints.IsChain fun a b => canonicalCompare a b = .lt ∧ a.id ≠ b.id) ∧
      Unrepeated constraints := by
  constructor
  · intro h
    have hids := List.pairwise_map.mp h.ids
    exact ⟨h.entities, (h.ordered.and hids).isChain, h.ids, h.payloads⟩
  · rintro ⟨hentities, hordered, hunrepeated⟩
    refine ⟨hentities, ?_, hunrepeated.ids, hunrepeated.payloads⟩
    have hascending := hordered.imp fun _ _ h => h.1
    exact List.isChain_iff_pairwise.mp hascending

/-- Verification accepts exactly the fixed points of canonicalization unless a set whose
neighbours are in canonical order repeats something, or the limits are not valid. -/
theorem verification_accepts_fixed_points_iff (set : ConstraintSet) (limits : Limits)
    (hname : listWithin set.name limits.maxNameBytes = true) :
    VerifiesFixedPoints set limits ↔
      (CanonicalContent set limits → set.generation.isValid = true →
        constraintSetDigest set = set.digest →
        validateLimits limits = .ok () ∧ Unrepeated set.constraints) := by
  unfold VerifiesFixedPoints
  rw [verifyCanonicalConstraintSet_eq_ok_iff, canonicalizeConstraintSet_eq_self_iff,
    inCanonicalForm_iff]
  constructor
  · intro hagree hcontent hgeneration hdigest
    obtain ⟨⟨hbounded, ⟨-, -, hunrepeated⟩, -⟩, -⟩ :=
      hagree.mp ⟨hcontent, hgeneration, hdigest⟩
    exact ⟨hbounded.limitsValid, hunrepeated⟩
  · intro hcondition
    constructor
    · rintro ⟨hcontent, hgeneration, hdigest⟩
      obtain ⟨hlimits, hunrepeated⟩ := hcondition hcontent hgeneration hdigest
      have hconstraints := hcontent.constraints
      exact ⟨⟨⟨hlimits, hcontent.id, hgeneration, hcontent.size, hname, hconstraints.valid⟩,
        ⟨hconstraints.entities, hconstraints.ordered, hunrepeated⟩, hdigest⟩,
        hcontent.consistent⟩
    · rintro ⟨⟨hbounded, ⟨hentities, hordered, -⟩, hdigest⟩, hconsistent⟩
      exact ⟨⟨hbounded.id, hbounded.size, ⟨hbounded.constraints, hentities, hordered⟩,
        hconsistent⟩, hbounded.generation, hdigest⟩

/-- One identity for two constraints that are no neighbours; one payload under two
identities. -/
def sampleOverlooked : List (List Constraint) :=
  [[{ id := ⟨1⟩, generation := ⟨1⟩, kind := .requiredNode, nodes := [⟨4⟩] },
    { id := ⟨2⟩, generation := ⟨1⟩, kind := .requiredNode, nodes := [⟨7⟩] },
    { id := ⟨1⟩, generation := ⟨1⟩, kind := .forbiddenNode, nodes := [⟨9⟩] }],
   [{ id := ⟨1⟩, generation := ⟨1⟩, kind := .requiredNode, nodes := [⟨4⟩] },
    { id := ⟨2⟩, generation := ⟨1⟩, kind := .requiredNode, nodes := [⟨4⟩] }]]

/-- The constraints as a set under its digest. -/
def sampleSealed (constraints : List Constraint) : ConstraintSet :=
  let set : ConstraintSet := { id := ⟨5⟩, generation := ⟨1⟩, constraints }
  { set with digest := constraintSetDigest set }

/-- The canonical order of two constraints. -/
def sampleTidy : List Constraint :=
  [{ id := ⟨2⟩, generation := ⟨1⟩, kind := .requiredNode, nodes := [⟨4⟩, ⟨7⟩] },
   { id := ⟨3⟩, generation := ⟨1⟩, kind := .forbiddenNode, nodes := [⟨9⟩] }]

theorem verification_accepts_fixed_points_of_tidy :
    VerifiesFixedPoints (sampleSealed sampleTidy) {} := by
  have hname : listWithin (sampleSealed sampleTidy).name ({} : Limits).maxNameBytes = true := by
    decide
  have hunrepeated : Unrepeated (sampleSealed sampleTidy).constraints :=
    ⟨by decide, by decide⟩
  apply (verification_accepts_fixed_points_iff _ _ hname).mpr
  intro _ _ _
  exact ⟨by decide, hunrepeated⟩

/-- Verification accepts sets that canonicalization does not leave unchanged. -/
theorem verification_overlooks_repetitions :
    sampleOverlooked.length = 2 ∧ ∀ constraints ∈ sampleOverlooked,
      listWithin (sampleSealed constraints).name ({} : Limits).maxNameBytes = true ∧
      verifyCanonicalConstraintSet (sampleSealed constraints) {} = .ok () ∧
      (¬ ∃ defects, canonicalizeConstraintSet (sampleSealed constraints) {} =
        .ok (sampleSealed constraints, defects)) ∧
      ¬ VerifiesFixedPoints (sampleSealed constraints) {} := by
  refine ⟨rfl, ?_⟩
  intro constraints hmem
  have hchecks : ∀ constraints ∈ sampleOverlooked,
      listWithin constraints ({} : Limits).maxConstraintsPerSet = true ∧
      verifyConstraints {} none constraints = .ok () ∧
      detectContradictions { constraints } {} = .ok () ∧
      ¬ ((constraints.map (·.id)).Nodup ∧
        constraints.Pairwise fun a b => equivalentPayload a b = false) := by
    decide +kernel
  obtain ⟨hsize, hconstraints, hconsistent, hrepeated⟩ := hchecks constraints hmem
  have hverified : verifyCanonicalConstraintSet (sampleSealed constraints) {} = .ok () := by
    simp only [verifyCanonicalConstraintSet, seq_eq_ok, failIf_eq_ok, Bool.not_eq_false',
      bne_eq_false_iff_eq]
    exact ⟨rfl, hsize, hconstraints, rfl, hconsistent⟩
  have hchanged : ¬ ∃ defects, canonicalizeConstraintSet (sampleSealed constraints) {} =
      .ok (sampleSealed constraints, defects) := by
    intro hfixed
    obtain ⟨-, hform, -⟩ := canonicalizeConstraintSet_eq_self_iff.mp hfixed
    exact hrepeated ⟨hform.ids, hform.payloads⟩
  exact ⟨rfl, hverified, hchanged, fun hagree => hchanged (hagree.mp hverified).1⟩

end ConstraintRouting.Fabric
