import ConstraintRouting.Fabric.CodecSpec
import ConstraintRouting.Fabric.ConstraintSet

/-!
# Canonicalization yields canonical sets

Verification checks that a set is in canonical form; canonicalization computes that
form.  `CanonicalContent` is what verification demands of a set apart from its
generation and its digest.  A set that was accepted and canonicalized has it, so a
stored set passes verification exactly when its digest is the one of its definition.
-/

namespace ConstraintRouting.Fabric

open Verified.Checks (bind_eq_ok seq_eq_ok forM_eq_ok)
open Verified.SortedLists

/-! ## Single constraints -/

/-- The entity lists are strictly ascending. -/
structure Constraint.EntitiesAscending (constraint : Constraint) : Prop where
  nodes : strictlyAscending compare constraint.nodes = true
  links : strictlyAscending compare constraint.links = true
  tiers : strictlyAscending compare constraint.tiers = true
  sites : strictlyAscending compare constraint.sites = true
  capabilities : strictlyAscending compare constraint.capabilities = true
  policies : strictlyAscending compare constraint.policies = true

theorem canonicalizeEntities_ascending (constraint : Constraint) :
    (canonicalizeEntities constraint).1.EntitiesAscending :=
  ⟨strictlyAscending_sortUnique _, strictlyAscending_sortUnique _,
   strictlyAscending_sortUnique _, strictlyAscending_sortUnique _,
   strictlyAscending_sortUnique _, strictlyAscending_sortUnique _⟩

private theorem listWithin_sortUnique {domain : IdentityDomain}
    {list : List (StrongId domain)} {limit : UInt32} (h : listWithin list limit = true) :
    listWithin (sortUnique compare list) limit = true := by
  unfold listWithin at *
  have hshorter := length_sortUnique_le compare list
  simp only [decide_eq_true_eq] at *
  omega

private theorem allValid_sortUnique {domain : IdentityDomain}
    {list : List (StrongId domain)} (h : allValid list = true) :
    allValid (sortUnique compare list) = true := by
  unfold allValid at *
  rw [List.all_eq_true] at *
  intro id hid
  exact h id (mem_sortUnique.mp hid)

/-- A payload check looks only at whether an entity list is empty. -/
theorem validateConstraintPayload_canonicalizeEntities (constraint : Constraint) :
    validateConstraintPayload (canonicalizeEntities constraint).1 =
      validateConstraintPayload constraint := by
  simp only [validateConstraintPayload, canonicalizeEntities, canonicalizeEntityList,
    anyEntityList, isEmpty_sortUnique]
  rfl

/-- A valid constraint stays valid in canonical form. -/
theorem validateConstraint_canonicalizeEntities {constraint : Constraint} {limits : Limits}
    (h : validateConstraint constraint limits = .ok ()) :
    validateConstraint (canonicalizeEntities constraint).1 limits = .ok () := by
  unfold validateConstraint at *
  rw [seq_eq_ok] at *
  refine ⟨?_, (validateConstraintPayload_canonicalizeEntities constraint).trans h.2⟩
  simp only [validateConstraintCommon, seq_eq_ok, failIf_eq_ok, Bool.or_eq_false_iff,
    Bool.not_eq_false'] at h ⊢
  obtain ⟨⟨hid, hgeneration, hkind, hunknown, hwithin, hvalid, hscope⟩, -⟩ := h
  obtain ⟨⟨⟨⟨⟨hnodes, hlinks⟩, htiers⟩, hsites⟩, hcapabilities⟩, hpolicies⟩ := hwithin
  obtain ⟨⟨⟨⟨⟨vnodes, vlinks⟩, vtiers⟩, vsites⟩, vcapabilities⟩, vpolicies⟩ := hvalid
  exact ⟨hid, hgeneration, hkind, hunknown,
    ⟨⟨⟨⟨⟨listWithin_sortUnique hnodes, listWithin_sortUnique hlinks⟩,
      listWithin_sortUnique htiers⟩, listWithin_sortUnique hsites⟩,
      listWithin_sortUnique hcapabilities⟩, listWithin_sortUnique hpolicies⟩,
    ⟨⟨⟨⟨⟨allValid_sortUnique vnodes, allValid_sortUnique vlinks⟩,
      allValid_sortUnique vtiers⟩, allValid_sortUnique vsites⟩,
      allValid_sortUnique vcapabilities⟩, allValid_sortUnique vpolicies⟩, hscope⟩

/-! ## Payload codes -/

section Payloads

open ByteWriter

theorem length_lt_of_listWithin {α : Type} {list : List α} {limit : UInt32}
    (h : listWithin list limit = true) : list.length < 2 ^ 32 := by
  unfold listWithin at h
  have hlimit := limit.toNat_lt
  simp only [decide_eq_true_eq] at h
  omega

/-- The code of a valid constraint's payload determines the payload. -/
theorem equivalentPayload_of_encode {a b : Constraint} {limits : Limits}
    (ha : validateConstraint a limits = .ok ()) (hb : validateConstraint b limits = .ok ())
    (h : encodeConstraintPayload a = encodeConstraintPayload b) :
    equivalentPayload a b = true := by
  simp only [validateConstraint, validateConstraintCommon, seq_eq_ok, failIf_eq_ok,
    Bool.or_eq_false_iff, Bool.not_eq_false'] at ha hb
  obtain ⟨⟨-, -, -, -, hwithinA, -⟩, -⟩ := ha
  obtain ⟨⟨-, -, -, -, hwithinB, -⟩, -⟩ := hb
  obtain ⟨⟨⟨⟨⟨hnodesA, hlinksA⟩, htiersA⟩, hsitesA⟩, hcapabilitiesA⟩, hpoliciesA⟩ := hwithinA
  obtain ⟨⟨⟨⟨⟨hnodesB, hlinksB⟩, htiersB⟩, hsitesB⟩, hcapabilitiesB⟩, hpoliciesB⟩ := hwithinB
  have hids {domain : IdentityDomain} {xs ys : List (StrongId domain)}
      {rest rest' : List UInt8} (hxs : listWithin xs limits.maxEntityRefsPerConstraint = true)
      (hys : listWithin ys limits.maxEntityRefsPerConstraint = true) :
      putAll putId xs ++ rest = putAll putId ys ++ rest' ↔ xs = ys ∧ rest = rest' :=
    putAll_append_inj putId_prefixCode (length_lt_of_listWithin hxs)
      (length_lt_of_listWithin hys)
  have hcode : encodeConstraintPayload a ++ [] = encodeConstraintPayload b ++ [] := by rw [h]
  unfold encodeConstraintPayload at hcode
  simp only [List.append_assoc, putU8_prefixCode.append_inj,
    putU16_prefixCode.append_inj, putU32_prefixCode.append_inj, putI64_prefixCode.append_inj,
    putId_prefixCode.append_inj, hids hnodesA hnodesB, hids hlinksA hlinksB,
    hids htiersA htiersB, hids hsitesA hsitesB, hids hcapabilitiesA hcapabilitiesB,
    hids hpoliciesA hpoliciesB, ConstraintKind.code_injective.eq_iff,
    ConstraintScope.code_injective.eq_iff, UnknownPolicy.code_injective.eq_iff,
    LatencySource.code_injective.eq_iff, DomainKind.code_injective.eq_iff,
    DomainRelation.code_injective.eq_iff] at hcode
  simp [equivalentPayload, hcode]

end Payloads

/-! ## Whole sets -/

/-- Neighbours that stay apart: their payloads are not equivalent. -/
def StaysApart (a b : Constraint) : Prop := equivalentPayload a b = false

instance : DecidableRel StaysApart :=
  fun a b => inferInstanceAs (Decidable (equivalentPayload a b = false))

private theorem collapseFrom_fst (kept : Constraint) (constraints : List Constraint) :
    (collapseFrom kept constraints).1 = constraints.destutter' StaysApart kept := by
  induction constraints generalizing kept with
  | nil => rfl
  | cons constraint rest ih =>
      by_cases hequivalent : equivalentPayload kept constraint = true
      · have hdropped : ¬ StaysApart kept constraint := by
          unfold StaysApart
          rw [hequivalent]
          decide
        rw [List.destutter'_cons_neg _ hdropped, ← ih kept]
        simp only [collapseFrom, hequivalent, if_true]
      · have hapart : StaysApart kept constraint := by
          unfold StaysApart
          simpa using hequivalent
        rw [List.destutter'_cons_pos _ hapart, ← ih constraint]
        simp only [collapseFrom, hequivalent, Bool.false_eq_true, if_false]

private theorem collapse_fst (constraints : List Constraint) :
    (collapse constraints).1 = constraints.destutter StaysApart := by
  cases constraints with
  | nil => rfl
  | cons constraint rest => exact collapseFrom_fst constraint rest

/-- Without reuse, constraints of one identity have one payload code. -/
private theorem encode_eq_of_not_reused
    {payloads : Std.ExtTreeMap ConstraintId (List UInt8)} {constraints : List Constraint}
    (h : identityReused payloads constraints = false) :
    (∀ a ∈ constraints, ∀ first, payloads[a.id]? = some first →
      encodeConstraintPayload a = first) ∧
    ∀ a ∈ constraints, ∀ b ∈ constraints, a.id = b.id →
      encodeConstraintPayload a = encodeConstraintPayload b := by
  induction constraints generalizing payloads with
  | nil => simp
  | cons constraint rest ih =>
      simp only [identityReused] at h
      cases hfound : payloads[constraint.id]? with
      | none =>
          simp only [hfound] at h
          obtain ⟨hknown, hrest⟩ := ih h
          have hhead : ∀ a ∈ rest, a.id = constraint.id →
              encodeConstraintPayload a = encodeConstraintPayload constraint := by
            intro a ha hid
            exact hknown a ha _ (by rw [hid, Std.ExtTreeMap.getElem?_insert_self])
          constructor
          · intro a ha first hfirst
            rcases List.mem_cons.mp ha with rfl | hlater
            · rw [hfound] at hfirst
              cases hfirst
            · have hne : compare constraint.id a.id ≠ .eq := by
                intro heq
                rw [← Std.LawfulEqOrd.eq_of_compare heq, hfound] at hfirst
                cases hfirst
              refine hknown a hlater first ?_
              rw [Std.ExtTreeMap.getElem?_insert, if_neg hne, hfirst]
          · intro a ha b hb hid
            rcases List.mem_cons.mp ha with rfl | hlaterA
            · rcases List.mem_cons.mp hb with rfl | hlaterB
              · rfl
              · exact (hhead b hlaterB hid.symm).symm
            · rcases List.mem_cons.mp hb with rfl | hlaterB
              · exact hhead a hlaterA hid
              · exact hrest a hlaterA b hlaterB hid
      | some first =>
          simp only [hfound, Bool.or_eq_false_iff, bne_eq_false_iff_eq] at h
          obtain ⟨hknown, hrest⟩ := ih h.2
          have hhead : ∀ a ∈ rest, a.id = constraint.id →
              encodeConstraintPayload a = first := by
            intro a ha hid
            exact hknown a ha first (by rw [hid, hfound])
          constructor
          · intro a ha found hfirst
            rcases List.mem_cons.mp ha with rfl | hlater
            · rw [hfound] at hfirst
              cases hfirst
              exact h.1.symm
            · exact hknown a hlater found hfirst
          · intro a ha b hb hid
            rcases List.mem_cons.mp ha with rfl | hlaterA
            · rcases List.mem_cons.mp hb with rfl | hlaterB
              · rfl
              · exact h.1.symm.trans (hhead b hlaterB hid.symm).symm
            · rcases List.mem_cons.mp hb with rfl | hlaterB
              · exact (hhead a hlaterA hid).trans h.1
              · exact hrest a hlaterA b hlaterB hid

/-- Identities are not reused exactly when each has one payload code, the one of the
payloads already seen included. -/
theorem identityReused_eq_false_iff
    {payloads : Std.ExtTreeMap ConstraintId (List UInt8)} {constraints : List Constraint} :
    identityReused payloads constraints = false ↔
      (∀ a ∈ constraints, ∀ first, payloads[a.id]? = some first →
        encodeConstraintPayload a = first) ∧
      ∀ a ∈ constraints, ∀ b ∈ constraints, a.id = b.id →
        encodeConstraintPayload a = encodeConstraintPayload b := by
  constructor
  · exact encode_eq_of_not_reused
  · intro h
    induction constraints generalizing payloads with
    | nil => rfl
    | cons constraint rest ih =>
        obtain ⟨hknown, hsame⟩ := h
        have hrest : ∀ a ∈ rest, ∀ b ∈ rest, a.id = b.id →
            encodeConstraintPayload a = encodeConstraintPayload b := by
          intro a ha b hb
          exact hsame a (List.mem_cons_of_mem _ ha) b (List.mem_cons_of_mem _ hb)
        simp only [identityReused]
        cases hfound : payloads[constraint.id]? with
        | none =>
            apply ih
            refine ⟨?_, hrest⟩
            intro a ha first hfirst
            rw [Std.ExtTreeMap.getElem?_insert] at hfirst
            by_cases hid : compare constraint.id a.id = .eq
            · rw [if_pos hid, Option.some.injEq] at hfirst
              rw [← hfirst]
              have hids := (Std.LawfulEqOrd.eq_of_compare hid).symm
              exact hsame a (List.mem_cons_of_mem _ ha) constraint List.mem_cons_self hids
            · rw [if_neg hid] at hfirst
              exact hknown a (List.mem_cons_of_mem _ ha) first hfirst
        | some first =>
            have hfirst := hknown constraint List.mem_cons_self first hfound
            simp only [hfirst, bne_self_eq_false, Bool.false_or]
            apply ih
            exact ⟨fun a ha => hknown a (List.mem_cons_of_mem _ ha), hrest⟩

/-- What verification demands of the constraints of a set. -/
structure CanonicalConstraints (constraints : List Constraint) (limits : Limits) : Prop where
  valid : ∀ constraint ∈ constraints, validateConstraint constraint limits = .ok ()
  entities : ∀ constraint ∈ constraints, constraint.EntitiesAscending
  ordered : constraints.IsChain fun a b => canonicalCompare a b = .lt ∧ a.id ≠ b.id

private theorem verifyConstraint_eq_ok_iff {limits : Limits} {previous : Option Constraint}
    {constraint : Constraint} :
    verifyConstraint limits previous constraint = .ok () ↔
      validateConstraint constraint limits = .ok () ∧ constraint.EntitiesAscending ∧
        ∀ last, previous = some last →
          canonicalCompare last constraint = .lt ∧ last.id ≠ constraint.id := by
  simp only [verifyConstraint, seq_eq_ok, failIf_eq_ok, Bool.or_eq_false_iff,
    Bool.not_eq_false']
  have hentities : ((((strictlyAscending compare constraint.nodes = true ∧
      strictlyAscending compare constraint.links = true) ∧
      strictlyAscending compare constraint.tiers = true) ∧
      strictlyAscending compare constraint.sites = true) ∧
      strictlyAscending compare constraint.capabilities = true) ∧
      strictlyAscending compare constraint.policies = true ↔ constraint.EntitiesAscending :=
    ⟨fun ⟨⟨⟨⟨⟨hn, hl⟩, ht⟩, hs⟩, hc⟩, hp⟩ => ⟨hn, hl, ht, hs, hc, hp⟩,
     fun h => ⟨⟨⟨⟨⟨h.nodes, h.links⟩, h.tiers⟩, h.sites⟩, h.capabilities⟩, h.policies⟩⟩
  rw [hentities]
  cases previous with
  | none => simp
  | some last => simp [canonicalLess]

private theorem verifyConstraints_eq_ok_iff {limits : Limits} {previous : Option Constraint}
    {constraints : List Constraint} :
    verifyConstraints limits previous constraints = .ok () ↔
      (∀ constraint ∈ constraints, validateConstraint constraint limits = .ok ()) ∧
      (∀ constraint ∈ constraints, constraint.EntitiesAscending) ∧
      (previous.toList ++ constraints).IsChain fun a b =>
        canonicalCompare a b = .lt ∧ a.id ≠ b.id := by
  induction constraints generalizing previous with
  | nil => cases previous <;> simp [verifyConstraints]
  | cons constraint rest ih =>
      have hchain : (previous.toList ++ constraint :: rest).IsChain
            (fun a b => canonicalCompare a b = .lt ∧ a.id ≠ b.id) ↔
          (∀ last, previous = some last →
            canonicalCompare last constraint = .lt ∧ last.id ≠ constraint.id) ∧
          (constraint :: rest).IsChain fun a b =>
            canonicalCompare a b = .lt ∧ a.id ≠ b.id := by
        cases previous <;> simp
      simp only [verifyConstraints, seq_eq_ok, verifyConstraint_eq_ok_iff, ih, hchain,
        List.forall_mem_cons, Option.toList_some, List.singleton_append]
      tauto

/-- What verification demands of a set apart from its generation and its digest. -/
structure CanonicalContent (set : ConstraintSet) (limits : Limits) : Prop where
  id : set.id.isValid = true
  size : listWithin set.constraints limits.maxConstraintsPerSet = true
  constraints : CanonicalConstraints set.constraints limits
  consistent : detectContradictions set limits = .ok ()

/-- Verification accepts canonical content of a set generation whose digest is the one
of the definition. -/
theorem verifyCanonicalConstraintSet_eq_ok_iff {set : ConstraintSet} {limits : Limits} :
    verifyCanonicalConstraintSet set limits = .ok () ↔
      CanonicalContent set limits ∧ set.generation.isValid = true ∧
        constraintSetDigest set = set.digest := by
  simp only [verifyCanonicalConstraintSet, seq_eq_ok, failIf_eq_ok, Bool.or_eq_false_iff,
    Bool.not_eq_false', verifyConstraints_eq_ok_iff, Option.toList_none, List.nil_append,
    bne_eq_false_iff_eq]
  constructor
  · rintro ⟨⟨hid, hgeneration⟩, hsize, ⟨hvalid, hentities, hordered⟩, hdigest, hconsistent⟩
    exact ⟨⟨hid, hsize, ⟨hvalid, hentities, hordered⟩, hconsistent⟩, hgeneration, hdigest⟩
  · rintro ⟨⟨hid, hsize, ⟨hvalid, hentities, hordered⟩, hconsistent⟩, hgeneration, hdigest⟩
    exact ⟨⟨hid, hgeneration⟩, hsize, ⟨hvalid, hentities, hordered⟩, hdigest, hconsistent⟩

/-- The content of a set does not depend on its generation and its state. -/
theorem CanonicalContent.restated {set : ConstraintSet} {limits : Limits}
    (h : CanonicalContent set limits) (generation : ConstraintSetGeneration)
    (state : ConstraintSetState) :
    CanonicalContent { set with generation, state } limits :=
  ⟨h.id, h.size, h.constraints, h.consistent⟩

/-- The constraints of a set in canonical form. -/
def canonicalConstraints (set : ConstraintSet) : List Constraint :=
  (collapse (sortBy canonicalCompare
    (set.constraints.map (canonicalizeEntities · |>.1)))).1

/-- The set with its constraints in canonical form. -/
def canonicalForm (set : ConstraintSet) : ConstraintSet :=
  { set with constraints := canonicalConstraints set }

/-- What canonicalization and the detection of contradictions demand of a set. -/
structure Acceptable (set : ConstraintSet) (limits : Limits) : Prop where
  limitsValid : validateLimits limits = .ok ()
  id : set.id.isValid = true
  generation : set.generation.isValid = true
  size : listWithin set.constraints limits.maxConstraintsPerSet = true
  name : listWithin set.name limits.maxNameBytes = true
  constraints : ∀ constraint ∈ set.constraints, validateConstraint constraint limits = .ok ()
  identities : identityReused ∅ (set.constraints.map (canonicalizeEntities · |>.1)) = false
  consistent : detectContradictions (canonicalForm set) limits = .ok ()

/-- Canonicalization accepts a set for its limits, its identities and its constraints, and
yields its canonical form with the digest of that form. -/
theorem canonicalizeConstraintSet_eq_ok_iff {set canonical : ConstraintSet}
    {limits : Limits} :
    (∃ defects, canonicalizeConstraintSet set limits = .ok (canonical, defects)) ↔
      validateLimits limits = .ok () ∧ set.id.isValid = true ∧
      set.generation.isValid = true ∧
      listWithin set.constraints limits.maxConstraintsPerSet = true ∧
      listWithin set.name limits.maxNameBytes = true ∧
      (∀ constraint ∈ set.constraints, validateConstraint constraint limits = .ok ()) ∧
      identityReused ∅ (set.constraints.map (canonicalizeEntities · |>.1)) = false ∧
      { canonicalForm set with digest := constraintSetDigest (canonicalForm set) } =
        canonical := by
  unfold canonicalizeConstraintSet
  cases hlimits : validateLimits limits with
  | error why =>
      simp only [reduceCtorEq, false_and, iff_false, not_exists]
      intro defects h
      cases h
  | ok _ =>
      simp only [seq_eq_ok, failIf_eq_ok, Bool.not_eq_false', forM_eq_ok, pure, Except.pure,
        Except.ok.injEq, Prod.mk.injEq, exists_and_left, exists_eq',
        and_true, true_and]
      rfl

/-- A set is finalized exactly when it is acceptable, and then to its canonical form
with the digest of that form. -/
theorem validateAndFinalizeConstraintSet_eq_ok_iff {set finalized : ConstraintSet}
    {limits : Limits} :
    (∃ defects, validateAndFinalizeConstraintSet set limits = .ok (finalized, defects)) ↔
      Acceptable set limits ∧
        finalized =
          { canonicalForm set with digest := constraintSetDigest (canonicalForm set) } := by
  have hsteps : (∃ defects,
        validateAndFinalizeConstraintSet set limits = .ok (finalized, defects)) ↔
      (∃ defects, canonicalizeConstraintSet set limits = .ok (finalized, defects)) ∧
        detectContradictions finalized limits = .ok () := by
    simp only [validateAndFinalizeConstraintSet, bind_eq_ok, pure, Except.pure,
      Except.ok.injEq, Prod.mk.injEq, Prod.exists]
    constructor
    · rintro ⟨_, working, defects, hworking, _, hconsistent, rfl, rfl⟩
      exact ⟨⟨_, hworking⟩, hconsistent⟩
    · rintro ⟨⟨defects, hworking⟩, hconsistent⟩
      exact ⟨defects, finalized, defects, hworking, (), hconsistent, rfl, rfl⟩
  rw [hsteps, canonicalizeConstraintSet_eq_ok_iff]
  constructor
  · rintro ⟨⟨hlimits, hid, hgeneration, hsize, hname, hvalid, hunused, rfl⟩, hconsistent⟩
    exact ⟨⟨hlimits, hid, hgeneration, hsize, hname, hvalid, hunused, hconsistent⟩, rfl⟩
  · rintro ⟨h, rfl⟩
    exact ⟨⟨h.limitsValid, h.id, h.generation, h.size, h.name, h.constraints, h.identities, rfl⟩,
      h.consistent⟩

private theorem canonicalConstraints_eq (set : ConstraintSet) :
    canonicalConstraints set = (sortBy canonicalCompare
      (set.constraints.map (canonicalizeEntities · |>.1))).destutter StaysApart :=
  collapse_fst _

/-- The constraints of the canonical form are the set's, with their entity lists in order. -/
theorem exists_of_mem_canonicalConstraints {set : ConstraintSet}
    {constraint : Constraint} (h : constraint ∈ canonicalConstraints set) :
    ∃ original ∈ set.constraints, (canonicalizeEntities original).1 = constraint := by
  rw [canonicalConstraints_eq] at h
  have hsorted := (List.destutter_sublist StaysApart _).subset h
  exact List.mem_map.mp (mem_sortBy.mp hsorted)

/-- A list of constraints in canonical form. -/
structure InCanonicalForm (constraints : List Constraint) : Prop where
  entities : ∀ constraint ∈ constraints, constraint.EntitiesAscending
  ordered : constraints.Pairwise fun a b => canonicalCompare a b = .lt
  ids : (constraints.map (·.id)).Nodup
  payloads : constraints.Pairwise fun a b => equivalentPayload a b = false

/-- The payloads of the canonical form are strictly ascending. -/
private theorem canonicalConstraints_payloads_ascending (set : ConstraintSet) :
    (canonicalConstraints set).Pairwise fun a b => comparePayload a b = .lt := by
  have hkeep : ∀ a b, StaysApart a b → canonicalCompare a b ≠ .eq := by
    intro a b hapart heq
    obtain rfl := canonicalCompare_eq_iff.mp heq
    simp [StaysApart, equivalentPayload] at hapart
  have hascending : (canonicalConstraints set).IsChain
      fun a b => canonicalCompare a b = .lt := by
    rw [canonicalConstraints_eq]
    exact of_decide_eq_true (strictlyAscending_destutter hkeep _)
  have hapart : (canonicalConstraints set).IsChain StaysApart := by
    rw [canonicalConstraints_eq]
    exact List.isChain_destutter _ _
  apply List.isChain_iff_pairwise.mp
  rw [List.isChain_iff_getElem] at *
  intro i hi
  have hless := hascending i hi
  have hdiffer : equivalentPayload _ _ = false := hapart i hi
  -- Neighbours of different payloads are in the order of their payloads.
  rcases hpayload : comparePayload _ _ with _ | _ | _
  · rfl
  · rw [comparePayload_eq_iff, hdiffer] at hpayload
    cases hpayload
  · simp only [canonicalCompare, compareLex, hpayload, Ordering.then] at hless
    cases hless

/-- Constraints of one identity would have collapsed. -/
theorem inCanonicalForm_canonicalConstraints {set : ConstraintSet} {limits : Limits}
    (hvalid : ∀ constraint ∈ set.constraints, validateConstraint constraint limits = .ok ())
    (hunused : identityReused ∅ (set.constraints.map (canonicalizeEntities · |>.1)) = false) :
    InCanonicalForm (canonicalConstraints set) := by
  have hpayloads := canonicalConstraints_payloads_ascending set
  have hapart : (canonicalConstraints set).Pairwise
      fun a b => equivalentPayload a b = false := by
    apply hpayloads.imp
    intro a b hless
    rw [Bool.eq_false_iff, ne_eq, ← comparePayload_eq_iff, hless]
    decide
  refine ⟨?_, ?_, ?_, hapart⟩
  · intro constraint hmem
    obtain ⟨original, -, rfl⟩ := exists_of_mem_canonicalConstraints hmem
    exact canonicalizeEntities_ascending original
  · apply hpayloads.imp
    intro a b hless
    simp [canonicalCompare, compareLex, hless]
  · obtain ⟨-, hcodes⟩ := identityReused_eq_false_iff.mp hunused
    rw [List.Nodup, List.pairwise_map]
    apply hapart.imp_of_mem
    intro a b hmemA hmemB hdiffer hid
    obtain ⟨first, hfirst, rfl⟩ := exists_of_mem_canonicalConstraints hmemA
    obtain ⟨second, hsecond, rfl⟩ := exists_of_mem_canonicalConstraints hmemB
    have hcode := hcodes _ (List.mem_map_of_mem hfirst) _ (List.mem_map_of_mem hsecond) hid
    have hequivalent := equivalentPayload_of_encode
      (validateConstraint_canonicalizeEntities (hvalid first hfirst))
      (validateConstraint_canonicalizeEntities (hvalid second hsecond)) hcode
    rw [hequivalent] at hdiffer
    cases hdiffer

/-- Canonicalization of an acceptable set yields canonical constraints. -/
theorem Acceptable.canonicalConstraints {set : ConstraintSet} {limits : Limits}
    (h : Acceptable set limits) :
    CanonicalConstraints (canonicalConstraints set) limits := by
  have hform := inCanonicalForm_canonicalConstraints h.constraints h.identities
  refine ⟨?_, hform.entities, ?_⟩
  · intro constraint hmem
    obtain ⟨original, horiginal, rfl⟩ := exists_of_mem_canonicalConstraints hmem
    exact validateConstraint_canonicalizeEntities (h.constraints original horiginal)
  · have hids := List.pairwise_map.mp hform.ids
    exact (hform.ordered.and hids).isChain

theorem length_canonicalConstraints_le (set : ConstraintSet) :
    (canonicalConstraints set).length ≤ set.constraints.length := by
  rw [canonicalConstraints_eq]
  have hlength := (List.destutter_sublist StaysApart (sortBy canonicalCompare
    (set.constraints.map (canonicalizeEntities · |>.1)))).length_le
  rwa [length_sortBy, List.length_map] at hlength

/-- Canonicalization of an acceptable set yields canonical content. -/
theorem Acceptable.canonicalContent {set : ConstraintSet} {limits : Limits}
    (h : Acceptable set limits) : CanonicalContent (canonicalForm set) limits := by
  refine ⟨h.id, ?_, h.canonicalConstraints, h.consistent⟩
  have hshorter := length_canonicalConstraints_le set
  exact decide_eq_true (hshorter.trans (of_decide_eq_true h.size))

end ConstraintRouting.Fabric
