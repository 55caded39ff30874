import ConstraintRouting.Fabric.CodecSpec
import ConstraintRouting.Fabric.ConstraintSet

/-!
# What a digest is fed with

The bytes that a semantic digest is fed with determine what they were taken from, as long
as every collection fits its 32-bit count.  Of a candidate they leave out the ticks of its
evidence.
-/

namespace ConstraintRouting.Fabric

open Verified.PrefixCodes

/-! ## Fields -/

namespace SemanticHasher

theorem putBool_prefixCode : PrefixCode putBool := by
  apply PrefixCode.of_length (n := 1) (fun _ => rfl)
  intro a b h
  cases a <;> cases b <;> first | rfl | exact absurd h (by decide)

theorem putU8_prefixCode : PrefixCode putU8 := ByteWriter.putU8_prefixCode

theorem putU16_prefixCode : PrefixCode putU16 := ByteWriter.putU16_prefixCode

theorem putU32_prefixCode : PrefixCode putU32 := ByteWriter.putU32_prefixCode

theorem putU64_prefixCode : PrefixCode putU64 := ByteWriter.putU64_prefixCode

theorem putI64_prefixCode : PrefixCode putI64 := ByteWriter.putI64_prefixCode

theorem putId_prefixCode {domain : IdentityDomain} : PrefixCode (@putId domain) :=
  ByteWriter.putId_prefixCode

theorem putGeneration_prefixCode {domain : GenerationDomain} :
    PrefixCode (@putGeneration domain) :=
  ByteWriter.putGeneration_prefixCode

theorem putDigest_prefixCode : PrefixCode putDigest := ByteWriter.putDigest_prefixCode

theorem putAll_append_inj {α : Type} {valid : α → Prop} {put : α → List UInt8}
    (hput : PrefixCodeOn valid put) {xs ys : List α} {rest rest' : List UInt8}
    (hxs : xs.length < 2 ^ 32 ∧ ∀ x ∈ xs, valid x)
    (hys : ys.length < 2 ^ 32 ∧ ∀ y ∈ ys, valid y) :
    putAll put xs ++ rest = putAll put ys ++ rest' ↔ xs = ys ∧ rest = rest' :=
  ByteWriter.putAll_append_inj_on hput hxs hys

end SemanticHasher

/-- The list fits its count. -/
def Counted {α : Type} (valid : α → Prop) (items : List α) : Prop :=
  items.length < 2 ^ 32 ∧ ∀ item ∈ items, valid item

/-- The list fits its count, whatever it holds. -/
abbrev Fits {α : Type} (items : List α) : Prop := Counted (fun _ => True) items

open SemanticHasher

/-! ## Constraints -/

/-- The lists of a constraint fit their counts. -/
structure Constraint.Fits (constraint : Constraint) : Prop where
  nodes : Fabric.Fits constraint.nodes
  links : Fabric.Fits constraint.links
  tiers : Fabric.Fits constraint.tiers
  sites : Fabric.Fits constraint.sites
  capabilities : Fabric.Fits constraint.capabilities
  policies : Fabric.Fits constraint.policies

theorem feedDigest_prefixCode : PrefixCodeOn Constraint.Fits feedDigest := by
  intro a b rest rest' ha hb h
  unfold feedDigest at h
  simp only [List.append_assoc, putU8_prefixCode.append_inj,
    putU16_prefixCode.append_inj, putU32_prefixCode.append_inj, putI64_prefixCode.append_inj,
    putId_prefixCode.append_inj, putGeneration_prefixCode.append_inj,
    putAll_append_inj putId_prefixCode.on ha.nodes hb.nodes,
    putAll_append_inj putId_prefixCode.on ha.links hb.links,
    putAll_append_inj putId_prefixCode.on ha.tiers hb.tiers,
    putAll_append_inj putId_prefixCode.on ha.sites hb.sites,
    putAll_append_inj putId_prefixCode.on ha.capabilities hb.capabilities,
    putAll_append_inj putId_prefixCode.on ha.policies hb.policies,
    ConstraintKind.code_injective.eq_iff, ConstraintScope.code_injective.eq_iff,
    UnknownPolicy.code_injective.eq_iff, LatencySource.code_injective.eq_iff,
    DomainKind.code_injective.eq_iff, DomainRelation.code_injective.eq_iff] at h
  cases a
  cases b
  simp_all

theorem feedEvidenceRequirements_prefixCode : PrefixCode feedEvidenceRequirements := by
  intro a b rest rest' h
  simp only [feedEvidenceRequirements, List.append_assoc, putGeneration_prefixCode.append_inj,
    putU64_prefixCode.append_inj] at h
  cases a
  cases b
  simp_all

/-! ## Ranking -/

theorem PlannerCostModel.code_injective : Function.Injective PlannerCostModel.code := by
  intro a b h
  cases a <;> cases b <;> first | rfl | exact absurd h (by decide)

theorem CandidateTiebreak.code_injective : Function.Injective CandidateTiebreak.code := by
  intro a b h
  cases a <;> cases b <;> first | rfl | exact absurd h (by decide)

theorem feedRankingPolicy_prefixCode : PrefixCode feedRankingPolicy := by
  intro a b rest rest' h
  simp only [feedRankingPolicy, List.append_assoc, putBool_prefixCode.append_inj,
    putU8_prefixCode.append_inj, PlannerCostModel.code_injective.eq_iff,
    CandidateTiebreak.code_injective.eq_iff] at h
  cases a
  cases b
  simp_all

/-! ## Candidates -/

theorem PathAuthorityVerdict.code_injective : Function.Injective PathAuthorityVerdict.code := by
  intro a b h
  cases a <;> cases b <;> first | rfl | exact absurd h (by decide)

theorem CapabilityModel.code_injective : Function.Injective CapabilityModel.code := by
  intro a b h
  cases a <;> cases b <;> first | rfl | exact absurd h (by decide)

theorem EvidenceProvenance.code_injective : Function.Injective EvidenceProvenance.code := by
  intro a b h
  cases a <;> cases b <;> first | rfl | exact absurd h (by decide)

theorem feedLocality_prefixCode : PrefixCode feedLocality := by
  intro a b rest rest' h
  simp only [feedLocality, List.append_assoc, putU8_prefixCode.append_inj,
    putId_prefixCode.append_inj, DomainKind.code_injective.eq_iff] at h
  cases a
  cases b
  simp_all

theorem feedDomain_prefixCode : PrefixCode feedDomain := by
  intro a b rest rest' h
  simp only [feedDomain, List.append_assoc, putU8_prefixCode.append_inj,
    putId_prefixCode.append_inj, DomainKind.code_injective.eq_iff] at h
  cases a
  cases b
  simp_all

theorem feedCapability_prefixCode : PrefixCode feedCapability := by
  intro a b rest rest' h
  simp only [feedCapability, List.append_assoc, putGeneration_prefixCode.append_inj,
    putId_prefixCode.append_inj] at h
  cases a
  cases b
  simp_all

theorem feedIsolation_prefixCode : PrefixCode feedIsolation := by
  intro a b rest rest' h
  simp only [feedIsolation, List.append_assoc, putGeneration_prefixCode.append_inj,
    putId_prefixCode.append_inj] at h
  cases a
  cases b
  simp_all

theorem feedPolicy_prefixCode : PrefixCode feedPolicy := by
  intro a b rest rest' h
  simp only [feedPolicy, List.append_assoc, putGeneration_prefixCode.append_inj,
    putId_prefixCode.append_inj] at h
  cases a
  cases b
  simp_all

structure NodeFact.Fits (node : NodeFact) : Prop where
  localities : Fabric.Fits node.localities
  domains : Fabric.Fits node.domains
  capabilities : Fabric.Fits node.capabilities
  isolation : Fabric.Fits node.isolation

theorem feedNode_prefixCode : PrefixCodeOn NodeFact.Fits feedNode := by
  intro a b rest rest' ha hb h
  simp only [feedNode, List.append_assoc, putId_prefixCode.append_inj,
    putAll_append_inj feedLocality_prefixCode.on ha.localities hb.localities,
    putAll_append_inj feedDomain_prefixCode.on ha.domains hb.domains,
    putAll_append_inj feedCapability_prefixCode.on ha.capabilities hb.capabilities,
    putAll_append_inj feedIsolation_prefixCode.on ha.isolation hb.isolation] at h
  cases a
  cases b
  simp_all

/-- The link without the tick of its evidence. -/
def LinkFact.untimed (link : LinkFact) : LinkFact :=
  { link with bandwidth := { link.bandwidth with observedTick := 0 } }

/-- The lists of a link fit their counts, and its evidence carries no tick. -/
structure LinkFact.Fits (link : LinkFact) : Prop where
  domains : Fabric.Fits link.domains
  capabilities : Fabric.Fits link.capabilities
  isolation : Fabric.Fits link.isolation
  untimed : link.bandwidth.observedTick = 0

theorem feedLink_prefixCode : PrefixCodeOn LinkFact.Fits feedLink := by
  intro a b rest rest' ha hb h
  simp only [feedLink, List.append_assoc, putId_prefixCode.append_inj,
    putU8_prefixCode.append_inj, putI64_prefixCode.append_inj,
    putGeneration_prefixCode.append_inj, CapabilityModel.code_injective.eq_iff,
    EvidenceProvenance.code_injective.eq_iff,
    putAll_append_inj feedDomain_prefixCode.on ha.domains hb.domains,
    putAll_append_inj feedCapability_prefixCode.on ha.capabilities hb.capabilities,
    putAll_append_inj feedIsolation_prefixCode.on ha.isolation hb.isolation] at h
  have hfirst := ha.untimed
  have hsecond := hb.untimed
  obtain ⟨_, ⟨_, _⟩, ⟨_, _, _, _, _⟩, _, _, _⟩ := a
  obtain ⟨_, ⟨_, _⟩, ⟨_, _, _, _, _⟩, _, _, _⟩ := b
  simp_all

/-- The candidate without the ticks of its evidence. -/
def CandidatePath.untimed (candidate : CandidatePath) : CandidatePath :=
  { candidate with
    links := candidate.links.map LinkFact.untimed
    latency := { candidate.latency with observedTick := 0 }
    evidence := { candidate.evidence with capturedTick := 0 } }

/-- The lists of a candidate fit their counts, and its evidence carries no tick. -/
structure CandidatePath.Fits (candidate : CandidatePath) : Prop where
  nodes : Counted NodeFact.Fits candidate.nodes
  links : Counted LinkFact.Fits candidate.links
  policies : Fabric.Fits candidate.policies
  observed : candidate.latency.observedTick = 0
  captured : candidate.evidence.capturedTick = 0

/-- The ticks of a candidate are not fed. -/
theorem feedCandidate_untimed (candidate : CandidatePath) :
    feedCandidate candidate.untimed = feedCandidate candidate := by
  have hlinks : SemanticHasher.putAll feedLink (candidate.links.map LinkFact.untimed) =
      SemanticHasher.putAll feedLink candidate.links := by
    unfold SemanticHasher.putAll SemanticHasher.putCount
    rw [List.length_map, List.flatMap_map]
    rfl
  unfold feedCandidate
  simp only [CandidatePath.untimed, hlinks]
  rfl

theorem feedCandidate_prefixCode : PrefixCodeOn CandidatePath.Fits feedCandidate := by
  intro a b rest rest' ha hb h
  unfold feedCandidate at h
  simp only [feedEvidence, List.append_assoc, putId_prefixCode.append_inj,
    putU8_prefixCode.append_inj, putU32_prefixCode.append_inj, putI64_prefixCode.append_inj,
    putBool_prefixCode.append_inj, putGeneration_prefixCode.append_inj,
    PathAuthorityVerdict.code_injective.eq_iff, PlannerCostModel.code_injective.eq_iff,
    LatencySource.code_injective.eq_iff, EvidenceProvenance.code_injective.eq_iff,
    putAll_append_inj feedNode_prefixCode ha.nodes hb.nodes,
    putAll_append_inj feedLink_prefixCode ha.links hb.links,
    putAll_append_inj feedPolicy_prefixCode.on ha.policies hb.policies] at h
  have hobserved := ha.observed.trans hb.observed.symm
  have hcaptured := ha.captured.trans hb.captured.symm
  obtain ⟨_, _, _, _, _, _, _, _, _, _, _, _, ⟨_, _, _, _, _, _⟩, _,
    ⟨_, _, _, _, _, _, _, _, _⟩⟩ := a
  obtain ⟨_, _, _, _, _, _, _, _, _, _, _, _, ⟨_, _, _, _, _, _⟩, _,
    ⟨_, _, _, _, _, _, _, _, _⟩⟩ := b
  dsimp only at h hobserved hcaptured
  obtain ⟨rfl, rfl, rfl, rfl, rfl, rfl, rfl, rfl, rfl, rfl, rfl, rfl, rfl, rfl, rfl, rfl,
    rfl, rfl, rfl, rfl, rfl, rfl, rfl, rfl, rfl, rfl, rfl⟩ := h
  subst hobserved hcaptured
  exact ⟨rfl, rfl⟩

end ConstraintRouting.Fabric
