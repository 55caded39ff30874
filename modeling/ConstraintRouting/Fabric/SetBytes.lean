import ConstraintRouting.Fabric.CanonicalForm
import ConstraintRouting.Fabric.DecodeSpec

/-!
# The bytes of a constraint set

Every byte string that `decodeConstraintSet` accepts is the encoding of the canonical set
that it gives back.  A set that was finalized is canonical, so it is read back as soon as
its generations fit the format.
-/

namespace ConstraintRouting.Fabric

open ByteWriter ByteReader
open Verified.Readers (Parses)
open Verified.Readers.Reader (bind_eq_some accept_eq_some pure_eq_some)

/-! ## Constraints -/

theorem readList_parses {domain : IdentityDomain} (maxSize : UInt32) :
    Parses (readList maxSize) (putAll (@putId domain)) fun ids =>
      ids.length ≤ maxSize.toNat ∧ ∀ id ∈ ids, id.isValid = true := by
  refine all_parses ?_ maxSize
  intro input value rest
  simp only [bind_eq_some, accept_eq_some, pure_eq_some, id_eq_some]
  constructor
  · intro h
    obtain ⟨_, _, hinput, _, _, ⟨hvalid, h1⟩, hout⟩ := h
    cases h1
    cases hout
    exact ⟨hinput, hvalid⟩
  · intro h
    exact ⟨_, _, h.1, (), _, ⟨h.2, rfl⟩, rfl⟩

theorem decodeConstraint_parses (limits : Limits) :
    Parses (decodeConstraint limits) encodeConstraint fun constraint =>
      constraint.generation.Storable ∧ constraint.EntitiesAscending ∧
        validateConstraint constraint limits = .ok () := by
  intro input constraint rest
  unfold decodeConstraint encodeConstraint
  simp only [bind_eq_some, accept_eq_some, pure_eq_some, id_eq_some, generation_eq_some,
    ConstraintKind.read_eq_some, ConstraintScope.read_eq_some, UnknownPolicy.read_eq_some,
    i64_eq_some, LatencySource.read_eq_some, DomainKind.read_eq_some,
    DomainRelation.read_eq_some, padding8_eq_some, u32_eq_some, readList_parses _ _ _ _,
    representable_iff, isOk_eq_true, Bool.and_eq_true, bne_iff_ne, List.append_assoc]
  constructor
  · intro h
    obtain ⟨id, _, hinput, generation, _, h1, kind, _, h2, scope, _, h3, unknown, _, h4, h⟩ := h
    obtain ⟨bound, _, h5, source, _, h6, domain, _, h7, relation, _, h8, _, _, h9, h⟩ := h
    obtain ⟨locality, _, h10, isolation, _, h11, rank, _, h12, weight, _, h13, h⟩ := h
    obtain ⟨_, _, ⟨⟨⟨-, -, hgeneration⟩, -⟩, h14⟩, nodes, _, ⟨h15, -⟩, h⟩ := h
    obtain ⟨links, _, ⟨h16, -⟩, tiers, _, ⟨h17, -⟩, sites, _, ⟨h18, -⟩, h⟩ := h
    obtain ⟨capabilities, _, ⟨h19, -⟩, policies, _, ⟨h20, -⟩, h⟩ := h
    obtain ⟨_, _, ⟨⟨⟨⟨⟨⟨hn, hl⟩, ht⟩, hs⟩, hc⟩, hp⟩, h21⟩, _, _, ⟨hvalid, h22⟩, hout⟩ := h
    cases h14
    cases h21
    cases h22
    cases hout
    refine ⟨?_, hgeneration, ⟨hn, hl, ht, hs, hc, hp⟩, hvalid⟩
    rw [hinput, h1, h2, h3, h4, h5, h6, h7, h8, h9, h10, h11, h12, h13, h15, h16, h17, h18,
      h19, h20]
  · intro h
    obtain ⟨hinput, hgeneration, hentities, hvalid⟩ := h
    obtain ⟨⟨hid, hset, hkind⟩, ⟨hn, hl, ht, hs, hc, hp⟩, vn, vl, vt, vs, vc, vp⟩ :=
      readable_of_validateConstraint hvalid
    exact ⟨_, _, hinput, _, _, rfl, _, _, rfl, _, _, rfl, _, _, rfl, _, _, rfl, _, _, rfl,
      _, _, rfl, _, _, rfl, (), _, rfl, _, _, rfl, _, _, rfl, _, _, rfl, _, _, rfl, (), _,
      ⟨⟨⟨hid, hset, hgeneration⟩, hkind⟩, rfl⟩, _, _, ⟨rfl, hn, vn⟩, _, _, ⟨rfl, hl, vl⟩,
      _, _, ⟨rfl, ht, vt⟩, _, _, ⟨rfl, hs, vs⟩, _, _, ⟨rfl, hc, vc⟩, _, _, ⟨rfl, hp, vp⟩,
      (), _, ⟨⟨⟨⟨⟨⟨hentities.nodes, hentities.links⟩, hentities.tiers⟩, hentities.sites⟩,
        hentities.capabilities⟩, hentities.policies⟩, rfl⟩, (), _, ⟨hvalid, rfl⟩, rfl⟩

/-! ## Constraint sets -/

theorem decodeEvidenceRequirements_parses :
    Parses decodeEvidenceRequirements encodeEvidenceRequirements
      EvidenceRequirements.Storable := by
  intro input evidence rest
  simp only [decodeEvidenceRequirements, encodeEvidenceRequirements, bind_eq_some,
    pure_eq_some, u64_eq_some, generationField_eq_some, List.append_assoc]
  constructor
  · intro h
    obtain ⟨topology, _, ⟨hinput, htopology⟩, linkState, _, ⟨h1, hlinkState⟩, capability, _,
      ⟨h2, hcapability⟩, failureDomain, _, ⟨h3, hfailureDomain⟩, policy, _, ⟨h4, hpolicy⟩,
      planner, _, ⟨h5, hplanner⟩, pathAuthority, _, ⟨h6, hpathAuthority⟩, age, _, h7,
      hout⟩ := h
    cases hout
    exact ⟨by rw [hinput, h1, h2, h3, h4, h5, h6, h7], htopology, hlinkState, hcapability,
      hfailureDomain, hpolicy, hplanner, hpathAuthority⟩
  · intro h
    obtain ⟨hinput, htopology, hlinkState, hcapability, hfailureDomain, hpolicy, hplanner,
      hpathAuthority⟩ := h
    exact ⟨_, _, ⟨hinput, htopology⟩, _, _, ⟨rfl, hlinkState⟩, _, _, ⟨rfl, hcapability⟩,
      _, _, ⟨rfl, hfailureDomain⟩, _, _, ⟨rfl, hpolicy⟩, _, _, ⟨rfl, hplanner⟩, _, _,
      ⟨rfl, hpathAuthority⟩, _, _, rfl, rfl⟩

theorem decodeRankingPolicy_parses :
    Parses decodeRankingPolicy encodeRankingPolicy fun _ => True := by
  intro input policy rest
  simp only [decodeRankingPolicy, encodeRankingPolicy, bind_eq_some, pure_eq_some,
    boolean_eq_some, PlannerCostModel.read_eq_some, CandidateTiebreak.read_eq_some,
    padding16_eq_some, List.append_assoc, and_true]
  constructor
  · intro h
    obtain ⟨rank, _, hinput, cost, _, h1, lower, _, h2, model, _, h3, tiebreak, _, h4, _, _, h5,
      hout⟩ := h
    cases hout
    rw [hinput, h1, h2, h3, h4, h5]
  · intro h
    exact ⟨_, _, h, _, _, rfl, _, _, rfl, _, _, rfl, _, _, rfl, (), _, rfl, rfl⟩

/-- The bytes that `decodeConstraintSet` accepts are the encodings of the canonical sets
that fit the format. -/
theorem decodeConstraintSet_parses (limits : Limits) :
    Parses (decodeConstraintSet limits) encodeConstraintSet fun set =>
      set.Storable limits ∧ verifyCanonicalConstraintSet set limits = .ok () := by
  intro input set rest
  unfold decodeConstraintSet encodeConstraintSet
  simp only [bind_eq_some, accept_eq_some, pure_eq_some, id_eq_some, generation_eq_some,
    ConstraintSetState.read_eq_some, padding8_eq_some, padding16_eq_some, padding32_eq_some,
    string_eq_some, u64_eq_some, decodeEvidenceRequirements_parses _ _ _,
    decodeRankingPolicy_parses _ _ _, all_parses (decodeConstraint_parses limits) _ _ _ _,
    digest_eq_some, representable_iff, isOk_eq_true, listWithin_eq_true, Bool.and_eq_true,
    and_true, List.append_assoc]
  constructor
  · intro h
    obtain ⟨id, _, hinput, generation, _, h1, state, _, h2, _, _, h3, _, _, h4, h⟩ := h
    obtain ⟨_, _, h5, _, _, ⟨⟨-, -, hgeneration⟩, h6⟩, name, _, ⟨h7, -⟩, h⟩ := h
    obtain ⟨_, _, ⟨hname, h8⟩, tick, _, h9, evidence, _, ⟨h10, hevidence⟩, h⟩ := h
    obtain ⟨ranking, _, h11, constraints, _, ⟨h12, -, hconstraints⟩, digest, _, h13, h⟩ := h
    obtain ⟨_, _, ⟨hvalid, h14⟩, hout⟩ := h
    cases h6
    cases h8
    cases h14
    cases hout
    refine ⟨?_, ⟨hgeneration, hname, hevidence, fun constraint hmem =>
      (hconstraints constraint hmem).1⟩, hvalid⟩
    rw [hinput, h1, h2, h3, h4, h5, h7, h9, h10, h11, h12, h13]
  · intro h
    obtain ⟨hinput, hstorable, hvalid⟩ := h
    obtain ⟨hcontent, hset, -⟩ := verifyCanonicalConstraintSet_eq_ok_iff.mp hvalid
    have hconstraints : ∀ constraint ∈ set.constraints, constraint.generation.Storable ∧
        constraint.EntitiesAscending ∧ validateConstraint constraint limits = .ok () :=
      fun constraint hmem => ⟨hstorable.constraints constraint hmem,
        hcontent.constraints.entities constraint hmem,
        hcontent.constraints.valid constraint hmem⟩
    have hnamed : set.name.length < 2 ^ 32 :=
      Nat.lt_of_le_of_lt hstorable.name limits.maxNameBytes.toNat_lt
    exact ⟨_, _, hinput, _, _, rfl, _, _, rfl, (), _, rfl, (), _, rfl, (), _, rfl, (), _,
      ⟨⟨hcontent.id, hset, hstorable.generation⟩, rfl⟩, _, _, ⟨rfl, hnamed⟩, (), _,
      ⟨hstorable.name, rfl⟩, _, _, rfl, _, _, ⟨rfl, hstorable.evidence⟩, _, _, rfl, _, _,
      ⟨rfl, listWithin_eq_true.mp hcontent.size, hconstraints⟩, _, _, rfl, (), _,
      ⟨hvalid, rfl⟩, rfl⟩

/-- A finalized set whose generations fit the format is what its encoding is read back as,
with exactly its bytes taken; and what is accepted is the encoding of what is given back. -/
theorem finalized_set_roundTrip (limits : Limits) :
    (∀ set finalized defects rest,
      validateAndFinalizeConstraintSet set limits = .ok (finalized, defects) →
      finalized.generation.Storable → finalized.evidence.Storable →
      (∀ constraint ∈ finalized.constraints, constraint.generation.Storable) →
      decodeConstraintSet limits (encodeConstraintSet finalized ++ rest) =
        some (finalized, rest)) ∧
    ∀ input set rest, decodeConstraintSet limits input = some (set, rest) →
      encodeConstraintSet set ++ rest = input := by
  constructor
  · intro set finalized defects rest hfinalized hgeneration hevidence hconstraints
    obtain ⟨hacceptable, hform⟩ := validateAndFinalizeConstraintSet_eq_ok_iff.mp
      ⟨defects, hfinalized⟩
    have hname : finalized.name.length ≤ limits.maxNameBytes.toNat := by
      rw [hform]
      exact listWithin_eq_true.mp hacceptable.name
    have hcontent := hacceptable.canonicalContent
    have hvalid : verifyCanonicalConstraintSet finalized limits = .ok () := by
      rw [hform]
      exact verifyCanonicalConstraintSet_eq_ok_iff.mpr
        ⟨⟨hcontent.id, hcontent.size, hcontent.constraints, hcontent.consistent⟩,
          hacceptable.generation, rfl⟩
    exact (decodeConstraintSet_parses limits _ _ _).mpr
      ⟨rfl, ⟨hgeneration, hname, hevidence, hconstraints⟩, hvalid⟩
  · intro input set rest hread
    exact ((decodeConstraintSet_parses limits input set rest).mp hread).1.symm

/-- A set with a bound on the hops. -/
def sampleHops : ConstraintSet :=
  { id := ⟨5⟩, generation := ⟨1⟩
    constraints := [{ id := ⟨7⟩, generation := ⟨2⟩, kind := .maxHopCount, bound := 4 }] }

theorem finalized_set_roundTrip_sample :
    ∃ finalized defects, validateAndFinalizeConstraintSet sampleHops {} =
        .ok (finalized, defects) ∧
      decodeConstraintSet {} (encodeConstraintSet finalized ++ [7]) = some (finalized, [7]) := by
  have haccepted : Verified.Checks.isOk (validateAndFinalizeConstraintSet sampleHops {}) = true := by
    decide +kernel
  obtain ⟨⟨finalized, defects⟩, hfinalized⟩ := Verified.Checks.isOk_iff.mp haccepted
  have hform := (validateAndFinalizeConstraintSet_eq_ok_iff.mp ⟨defects, hfinalized⟩).2
  have hset : sampleHops.generation.value ≤ Generation.kMaxGeneration := by decide
  have hevidence : sampleHops.evidence.Storable := by
    constructor
    all_goals exact UInt64.zero_le
  have hconstraints : ∀ constraint ∈ canonicalConstraints sampleHops,
      constraint.generation.value ≤ Generation.kMaxGeneration := by decide +kernel
  refine ⟨finalized, defects, hfinalized,
    (finalized_set_roundTrip {}).1 sampleHops finalized defects [7] hfinalized ?_ ?_ ?_⟩
  · rw [hform]
    exact hset
  · rw [hform]
    exact hevidence
  · rw [hform]
    exact hconstraints

end ConstraintRouting.Fabric
