import Mathlib.Algebra.Ring.Nat
import ConstraintRouting.Fabric.Evaluator

/-!
# What a valid candidate guarantees

`validateCandidate` walks nodes and links with their predecessors in hand.  The
evaluator only uses what it establishes of every node and every link alone:
ascending evidence lists, well-formed bandwidth evidence and a non-empty path.
-/

namespace ConstraintRouting.Fabric

open Verified.Checks (seq_eq_ok)
open Verified.SortedLists

instance : Std.TransCmp LocalityRef.cmp := by
  unfold LocalityRef.cmp
  infer_instance

instance : Std.TransCmp FailureDomainRef.cmp := by
  unfold FailureDomainRef.cmp
  infer_instance

instance : Std.TransCmp CapabilityRef.cmp := by
  unfold CapabilityRef.cmp
  infer_instance

instance : Std.TransCmp PolicyAttestation.cmp := by
  unfold PolicyAttestation.cmp
  infer_instance

instance : Std.TransCmp IsolationAttestation.cmp := by
  unfold IsolationAttestation.cmp
  infer_instance

/-- The evidence lists of a node or a link are in canonical order. -/
structure EntityView.Ascending (entity : EntityView) : Prop where
  domains : strictlyAscending FailureDomainRef.cmp entity.domains = true
  capabilities : strictlyAscending CapabilityRef.cmp entity.capabilities = true
  isolation : strictlyAscending IsolationAttestation.cmp entity.isolation = true

/-- No evidence list of the entity names one identity twice. -/
structure EntityView.Distinct (entity : EntityView) : Prop where
  domains : (entity.domains.map (·.kind)).Nodup
  capabilities : (entity.capabilities.map (·.capability)).Nodup
  isolation : (entity.isolation.map (·.isolationClass)).Nodup

/-- No evidence list of the candidate names one domain kind, capability,
isolation class or policy twice. -/
structure CandidatePath.NoRepeatedEvidence (candidate : CandidatePath) : Prop where
  localities : ∀ node ∈ candidate.nodes, (node.localities.map (·.kind)).Nodup
  entities : ∀ entity ∈ entitiesOf candidate, entity.Distinct
  policies : (candidate.policies.map (·.policy)).Nodup

/-- What the evaluator relies on in a valid candidate. -/
structure CandidatePath.WellFormed (candidate : CandidatePath) : Prop where
  authorityBound : candidate.authorityGeneration.isValid = true
  authorityBinding : candidate.evidence.pathAuthority = candidate.authorityGeneration
  linked : candidate.links ≠ []
  entityCount : (entitiesOf candidate).length < 2 ^ 63
  localities : ∀ node ∈ candidate.nodes,
    strictlyAscending LocalityRef.cmp node.localities = true
  entities : ∀ entity ∈ entitiesOf candidate, entity.Ascending
  bandwidth : ∀ link ∈ candidate.links, link.bandwidth.model ≠ .none →
    0 ≤ link.bandwidth.bitsPerSecond ∧ link.bandwidth.generation.isValid = true
  policies : strictlyAscending PolicyAttestation.cmp candidate.policies = true

/-! ## Nodes -/

private theorem validateNode_ascending {limits : Limits} {previous : List NodeFact}
    {node : NodeFact} (h : validateNode limits previous node = .ok ()) :
    strictlyAscending LocalityRef.cmp node.localities = true ∧ node.view.Ascending := by
  simp only [validateNode, seq_eq_ok, failIf_eq_ok, Bool.or_eq_false_iff,
    Bool.not_eq_false'] at h
  obtain ⟨-, -, -, ⟨⟨⟨hlocalities, hdomains⟩, hcapabilities⟩, hisolation⟩, -⟩ := h
  exact ⟨hlocalities, hdomains, hcapabilities, hisolation⟩

private theorem validateNodes_ascending {limits : Limits} {nodes previous : List NodeFact}
    (h : validateNodes limits previous nodes = .ok ()) :
    ∀ node ∈ nodes,
      strictlyAscending LocalityRef.cmp node.localities = true ∧ node.view.Ascending := by
  induction nodes generalizing previous with
  | nil => simp
  | cons first rest ih =>
      rw [validateNodes, seq_eq_ok] at h
      intro node hmem
      cases List.mem_cons.mp hmem with
      | inl heq => exact heq ▸ validateNode_ascending h.1
      | inr hrest => exact ih h.2 node hrest

/-- Validation accepts no node identity twice. -/
theorem validateNodes_nodup {limits : Limits} {nodes previous : List NodeFact}
    (h : validateNodes limits previous nodes = .ok ()) :
    (nodes.map (·.node)).Nodup ∧
      ∀ node ∈ nodes, ∀ earlier ∈ previous, earlier.node ≠ node.node := by
  induction nodes generalizing previous with
  | nil => exact ⟨List.nodup_nil, by simp⟩
  | cons first rest ih =>
      rw [validateNodes, seq_eq_ok] at h
      obtain ⟨hdistinct, hlater⟩ := ih h.2
      have hfirst : ∀ earlier ∈ previous, earlier.node ≠ first.node := by
        have hchecked := h.1
        simp only [validateNode, seq_eq_ok, failIf_eq_ok] at hchecked
        simpa using hchecked.2.1
      constructor
      · rw [List.map_cons, List.nodup_cons]
        refine ⟨?_, hdistinct⟩
        intro hrepeated
        obtain ⟨node, hmem, hsame⟩ := List.mem_map.mp hrepeated
        exact hlater node hmem first (by simp) hsame.symm
      · intro node hmem earlier hearlier
        rcases List.mem_cons.mp hmem with rfl | hrest
        · exact hfirst earlier hearlier
        · exact hlater node hrest earlier (List.mem_append_left _ hearlier)

/-! ## Links -/

/-- What a valid link guarantees. -/
private def LinkWellFormed (link : LinkFact) : Prop :=
  link.view.Ascending ∧ (link.bandwidth.model ≠ .none →
    0 ≤ link.bandwidth.bitsPerSecond ∧ link.bandwidth.generation.isValid = true)

private theorem validateLink_wellFormed {limits : Limits} {link : LinkFact} {a b : NodeId}
    (h : validateLink limits link a b = .ok ()) : LinkWellFormed link := by
  simp only [validateLink, seq_eq_ok, failIf_eq_ok, Bool.or_eq_false_iff,
    Bool.not_eq_false', Bool.and_eq_false_iff, decide_eq_false_iff_not, Int64.not_lt] at h
  obtain ⟨-, -, -, ⟨⟨hdomains, hcapabilities⟩, hisolation⟩, hbandwidth⟩ := h
  refine ⟨⟨hdomains, hcapabilities, hisolation⟩, fun hmodel => ?_⟩
  cases hbandwidth with
  | inl hnone => exact absurd (by simpa using hnone) hmodel
  | inr hformed => exact hformed

/-- Each link stands between two nodes, so the walk reaches every link. -/
private theorem validateLinks_wellFormed {limits : Limits} {links : List LinkFact}
    {nodes : List NodeFact} (hcount : links.length < nodes.length)
    (h : validateLinks limits links nodes = .ok ()) :
    ∀ link ∈ links, LinkWellFormed link := by
  induction links generalizing nodes with
  | nil => simp
  | cons first rest ih =>
      match nodes, hcount, h with
      | [_], hcount, _ => simp at hcount
      | a :: b :: later, hcount, h =>
          rw [validateLinks, seq_eq_ok] at h
          intro link hmem
          cases List.mem_cons.mp hmem with
          | inl heq => exact heq ▸ validateLink_wellFormed h.1
          | inr hrest =>
              exact ih (by simpa using hcount) h.2 link hrest

/-! ## Candidates -/

theorem listWithin_eq_true {α : Type} {values : List α} {maxSize : UInt32} :
    listWithin values maxSize = true ↔ values.length ≤ maxSize.toNat := by
  simp [listWithin]

/-- A candidate that passes validation has nodes, and one hop less. -/
theorem validateCandidate_hops {candidate : CandidatePath} {limits : Limits}
    (h : validateCandidate candidate limits = .ok ()) :
    candidate.nodes ≠ [] ∧ candidate.nodes.length = candidate.hopCount.toNat + 1 := by
  simp only [validateCandidate, seq_eq_ok, failIf_eq_ok, Bool.not_eq_false',
    decide_eq_false_iff_not, bne_eq_false_iff_eq, listWithin_eq_true] at h
  obtain ⟨-, -, -, htwo, -, hlinks, -, hhops, -⟩ := h
  refine ⟨fun hnone => ?_, by omega⟩
  rw [hnone, List.length_nil] at htwo
  omega

theorem validateCandidate_nodup {candidate : CandidatePath} {limits : Limits}
    (h : validateCandidate candidate limits = .ok ()) :
    (candidate.nodes.map (·.node)).Nodup := by
  simp only [validateCandidate, seq_eq_ok] at h
  obtain ⟨-, -, -, -, -, -, -, -, -, hnodes, -⟩ := h
  exact (validateNodes_nodup hnodes).1

/-- A candidate that passes validation is well formed. -/
theorem validateCandidate_wellFormed {candidate : CandidatePath} {limits : Limits}
    (h : validateCandidate candidate limits = .ok ()) : candidate.WellFormed := by
  simp only [validateCandidate, seq_eq_ok, failIf_eq_ok, Bool.not_eq_false',
    decide_eq_false_iff_not, bne_eq_false_iff_eq, listWithin_eq_true] at h
  obtain ⟨-, hbound, hbinding, htwo, hnodes, hlinks, hlinkLimit, -, -, hnodeFacts,
    hlinkFacts, -, -, -, hpolicies⟩ := h
  have hnodeAscending := validateNodes_ascending hnodeFacts
  have hlinkFormed := validateLinks_wellFormed (by omega) hlinkFacts
  have hnodeMax := (limits.maxNodesPerCandidate).toNat_lt
  have hlinkMax := (limits.maxLinksPerCandidate).toNat_lt
  refine ⟨hbound, hbinding, ?_, ?_, fun node hmem => (hnodeAscending node hmem).1, ?_,
    fun link hmem => (hlinkFormed link hmem).2, hpolicies⟩
  · intro hempty
    rw [hempty, List.length_nil] at hlinks
    omega
  · simp only [entitiesOf, List.length_append, List.length_map]
    omega
  · intro entity hmem
    simp only [entitiesOf, List.mem_append, List.mem_map] at hmem
    rcases hmem with ⟨node, hnode, rfl⟩ | ⟨link, hlink, rfl⟩
    · exact (hnodeAscending node hnode).2
    · exact (hlinkFormed link hlink).1

end ConstraintRouting.Fabric
