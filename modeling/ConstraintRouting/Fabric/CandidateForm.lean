import ConstraintRouting.Fabric.CandidateSpec

/-!
# Validation of candidates against their canonicalization

Validation checks the canonical form of a candidate, and canonicalization computes it.
They agree except where evidence names one capability or policy at two generations, which
canonicalization refuses and validation lets pass.
-/

namespace ConstraintRouting.Fabric

open Verified.Checks (bind_eq_ok seq_eq_ok mapM_eq_ok_self)
open Verified.SortedLists

/-! ## What validation accepts -/

structure NodeFact.Valid (limits : Limits) (node : NodeFact) : Prop where
  identity : node.node.isValid = true
  localitiesWithin : listWithin node.localities limits.maxLocalitiesPerEntity = true
  domainsWithin : listWithin node.domains limits.maxDomainsPerEntity = true
  capabilitiesWithin : listWithin node.capabilities limits.maxCapabilitiesPerEntity = true
  localitiesAscending : strictlyAscending LocalityRef.cmp node.localities = true
  ascending : node.view.Ascending
  localities : ∀ ref ∈ node.localities, ref.kind ≠ .unset ∧ ref.domain.isValid = true
  domains : ∀ ref ∈ node.domains, ref.kind ≠ .unset ∧ ref.domain.isValid = true

structure LinkFact.Valid (limits : Limits) (link : LinkFact) : Prop where
  identity : link.link.isValid = true
  domainsWithin : listWithin link.domains limits.maxDomainsPerEntity = true
  capabilitiesWithin : listWithin link.capabilities limits.maxCapabilitiesPerEntity = true
  ascending : link.view.Ascending
  bandwidth : link.bandwidth.model ≠ .none →
    0 ≤ link.bandwidth.bitsPerSecond ∧ link.bandwidth.generation.isValid = true

/-- The latency figure is in range and binds the generation of its source. -/
structure LatencyEvidence.Valid (evidence : EvidenceGenerationSet) (latency : LatencyEvidence) :
    Prop where
  range : latency.source ≠ .unset →
    0 ≤ latency.micros ∧ latency.micros ≤ kMaxFixedPointBound
  modelled : latency.source = .plannerCost →
    latency.plannerGeneration.isValid = true ∧ latency.plannerGeneration = evidence.planner
  observed : latency.source = .observedLatency →
    latency.observedGeneration.isValid = true ∧ latency.observedGeneration = evidence.linkState

/-- The rules of a candidate, one for each check. -/
structure CandidatePath.Valid (limits : Limits) (candidate : CandidatePath) : Prop where
  path : candidate.path.isValid = true
  authority : candidate.authorityGeneration.isValid = true
  binding : candidate.evidence.pathAuthority = candidate.authorityGeneration
  twoNodes : 2 ≤ candidate.nodes.length
  nodesWithin : listWithin candidate.nodes limits.maxNodesPerCandidate = true
  linkCount : candidate.links.length + 1 = candidate.nodes.length
  linksWithin : listWithin candidate.links limits.maxLinksPerCandidate = true
  hops : candidate.hopCount.toNat = candidate.links.length
  policiesWithin : listWithin candidate.policies limits.maxPoliciesPerCandidate = true
  nodes : ∀ node ∈ candidate.nodes, node.Valid limits
  distinct : (candidate.nodes.map (·.node)).Nodup
  links : ∀ link ∈ candidate.links, link.Valid limits
  connected : ∀ i link a b, candidate.links[i]? = some link → candidate.nodes[i]? = some a →
    candidate.nodes[i + 1]? = some b → sameEndpoints link a.node b.node = true
  latency : candidate.latency.Valid candidate.evidence
  cost : candidate.hasPlannerCost = true ↔ candidate.costModel ≠ .none
  policies : strictlyAscending PolicyAttestation.cmp candidate.policies = true

theorem validateNode_eq_ok_iff {limits : Limits} {previous : List NodeFact} {node : NodeFact} :
    validateNode limits previous node = .ok () ↔
      node.Valid limits ∧ ∀ earlier ∈ previous, earlier.node ≠ node.node := by
  simp only [validateNode, seq_eq_ok, failIf_eq_ok, Bool.or_eq_false_iff, Bool.not_eq_false',
    List.any_eq_false, beq_iff_eq, decide_eq_true_eq, Bool.or_eq_true, Bool.not_eq_true',
    not_or, Bool.not_eq_false]
  constructor
  · rintro ⟨hid, hfresh, ⟨⟨hlocalities, hdomains⟩, hcapabilities⟩, hascending, hplaces, hfailures⟩
    obtain ⟨⟨⟨hone, htwo⟩, hthree⟩, hfour⟩ := hascending
    exact ⟨⟨hid, hlocalities, hdomains, hcapabilities, hone, ⟨htwo, hthree, hfour⟩, hplaces,
      hfailures⟩, hfresh⟩
  · rintro ⟨h, hfresh⟩
    exact ⟨h.identity, hfresh, ⟨⟨h.localitiesWithin, h.domainsWithin⟩, h.capabilitiesWithin⟩,
      ⟨⟨⟨h.localitiesAscending, h.ascending.domains⟩, h.ascending.capabilities⟩,
        h.ascending.isolation⟩, h.localities, h.domains⟩

/-- The traversal is valid when its nodes are and none is met twice. -/
theorem validateNodes_eq_ok_iff {limits : Limits} {previous nodes : List NodeFact} :
    validateNodes limits previous nodes = .ok () ↔
      (∀ node ∈ nodes, node.Valid limits) ∧ (nodes.map (·.node)).Nodup ∧
        ∀ node ∈ nodes, ∀ earlier ∈ previous, earlier.node ≠ node.node := by
  constructor
  · intro h
    refine ⟨?_, validateNodes_nodup h⟩
    induction nodes generalizing previous with
    | nil => exact fun node hmem => absurd hmem List.not_mem_nil
    | cons first rest ih =>
        rw [validateNodes, seq_eq_ok, validateNode_eq_ok_iff] at h
        rw [List.forall_mem_cons]
        exact ⟨h.1.1, ih h.2⟩
  · rintro ⟨hvalid, hdistinct, hfresh⟩
    induction nodes generalizing previous with
    | nil => rfl
    | cons first rest ih =>
        rw [List.forall_mem_cons] at hvalid hfresh
        rw [List.map_cons, List.nodup_cons] at hdistinct
        rw [validateNodes, seq_eq_ok, validateNode_eq_ok_iff]
        refine ⟨⟨hvalid.1, hfresh.1⟩, ih hvalid.2 hdistinct.2 ?_⟩
        intro node hmem earlier hearlier
        rcases List.mem_append.mp hearlier with hbefore | hhere
        · exact hfresh.2 node hmem earlier hbefore
        · rw [List.mem_singleton] at hhere
          rintro hsame
          apply hdistinct.1
          rw [← hhere, hsame]
          exact List.mem_map_of_mem hmem

theorem validateLink_eq_ok_iff {limits : Limits} {link : LinkFact} {a b : NodeId} :
    validateLink limits link a b = .ok () ↔
      link.Valid limits ∧ sameEndpoints link a b = true := by
  have hbandwidth : (link.bandwidth.model != .none &&
        (link.bandwidth.bitsPerSecond < 0 || !link.bandwidth.generation.isValid)) = false ↔
      (link.bandwidth.model ≠ .none →
        0 ≤ link.bandwidth.bitsPerSecond ∧ link.bandwidth.generation.isValid = true) := by
    by_cases hmodel : link.bandwidth.model = .none
    · simp [hmodel]
    · simp [hmodel, Int64.not_lt]
  simp only [validateLink, seq_eq_ok, failIf_eq_ok, hbandwidth, Bool.or_eq_false_iff,
    Bool.not_eq_false']
  constructor
  · rintro ⟨hid, hends, ⟨hdomains, hcapabilities⟩, ⟨⟨hone, htwo⟩, hthree⟩, hfigure⟩
    exact ⟨⟨hid, hdomains, hcapabilities, ⟨hone, htwo, hthree⟩, hfigure⟩, hends⟩
  · rintro ⟨h, hends⟩
    exact ⟨h.identity, hends, ⟨h.domainsWithin, h.capabilitiesWithin⟩,
      ⟨⟨h.ascending.domains, h.ascending.capabilities⟩, h.ascending.isolation⟩, h.bandwidth⟩

/-- Each link is valid and stands between its two nodes. -/
theorem validateLinks_eq_ok_iff {limits : Limits} {links : List LinkFact} {nodes : List NodeFact}
    (hcount : links.length + 1 = nodes.length) :
    validateLinks limits links nodes = .ok () ↔
      (∀ link ∈ links, link.Valid limits) ∧
        ∀ i link a b, links[i]? = some link → nodes[i]? = some a → nodes[i + 1]? = some b →
          sameEndpoints link a.node b.node = true := by
  induction links generalizing nodes with
  | nil =>
      have hnothing : validateLinks limits [] nodes = .ok () := by
        unfold validateLinks
        rfl
      simp [hnothing]
  | cons first rest ih =>
      cases nodes with
      | nil => simp at hcount
      | cons a tail =>
          cases tail with
          | nil => simp at hcount
          | cons b later =>
              have hrest : rest.length + 1 = (b :: later).length := by
                simpa using hcount
              rw [validateLinks, seq_eq_ok, validateLink_eq_ok_iff, ih hrest, List.forall_mem_cons]
              constructor
              · rintro ⟨⟨hfirst, hends⟩, hvalid, hconnected⟩
                refine ⟨⟨hfirst, hvalid⟩, ?_⟩
                intro i link c d hlink hc hd
                cases i with
                | zero =>
                    simp only [List.getElem?_cons_zero, List.getElem?_cons_succ,
                      Option.some.injEq] at hlink hc hd
                    rw [← hlink, ← hc, ← hd]
                    exact hends
                | succ i => exact hconnected i link c d hlink hc hd
              · rintro ⟨⟨hfirst, hvalid⟩, hconnected⟩
                refine ⟨⟨hfirst, hconnected 0 first a b rfl rfl rfl⟩, hvalid, ?_⟩
                intro i link c d hlink hc hd
                exact hconnected (i + 1) link c d hlink hc hd

theorem validateLatency_eq_ok_iff {latency : LatencyEvidence} {evidence : EvidenceGenerationSet} :
    validateLatency latency evidence = .ok () ↔ latency.Valid evidence := by
  have hfields : latency.Valid evidence ↔
      (latency.source ≠ .unset → 0 ≤ latency.micros ∧ latency.micros ≤ kMaxFixedPointBound) ∧
      (latency.source = .plannerCost → latency.plannerGeneration.isValid = true ∧
        latency.plannerGeneration = evidence.planner) ∧
      (latency.source = .observedLatency → latency.observedGeneration.isValid = true ∧
        latency.observedGeneration = evidence.linkState) :=
    ⟨fun h => ⟨h.range, h.modelled, h.observed⟩, fun ⟨hone, htwo, hthree⟩ => ⟨hone, htwo, hthree⟩⟩
  rw [hfields]
  unfold validateLatency
  cases hsource : latency.source with
  | unset => simp
  | plannerCost => simp [seq_eq_ok, failIf_eq_ok, Int64.not_lt, and_assoc]
  | observedLatency => simp [seq_eq_ok, failIf_eq_ok, Int64.not_lt, and_assoc]

/-- A candidate is accepted exactly when it satisfies every rule. -/
theorem validateCandidate_eq_ok_iff {candidate : CandidatePath} {limits : Limits} :
    validateCandidate candidate limits = .ok () ↔ candidate.Valid limits := by
  have hcost : (candidate.hasPlannerCost && decide (candidate.costModel = .none)) = false ∧
        (!candidate.hasPlannerCost && candidate.costModel != .none) = false ↔
      (candidate.hasPlannerCost = true ↔ candidate.costModel ≠ .none) := by
    cases candidate.hasPlannerCost <;> simp
  simp only [validateCandidate, seq_eq_ok, failIf_eq_ok, Bool.not_eq_false',
    decide_eq_false_iff_not, bne_eq_false_iff_eq, Nat.not_lt, validateNodes_eq_ok_iff,
    validateLatency_eq_ok_iff]
  constructor
  · rintro ⟨hpath, hauthority, hbinding, htwo, hnodes, hcount, hlinks, hhops, hpolicies,
      ⟨hvalid, hdistinct, -⟩, hwalk, hlatency, hpriced, hmodelled, hascending⟩
    have hlinked : candidate.links.length + 1 = candidate.nodes.length := by omega
    rw [validateLinks_eq_ok_iff hlinked] at hwalk
    exact ⟨hpath, hauthority, hbinding, htwo, hnodes, hlinked, hlinks, hhops, hpolicies, hvalid,
      hdistinct, hwalk.1, hwalk.2, hlatency, hcost.mp ⟨hpriced, hmodelled⟩, hascending⟩
  · intro h
    have hcount : candidate.links.length = candidate.nodes.length - 1 := by
      have hlinked := h.linkCount
      omega
    obtain ⟨hpriced, hmodelled⟩ := hcost.mpr h.cost
    exact ⟨h.path, h.authority, h.binding, h.twoNodes, h.nodesWithin, hcount, h.linksWithin,
      h.hops, h.policiesWithin, ⟨h.nodes, h.distinct, by simp⟩,
      (validateLinks_eq_ok_iff h.linkCount).mpr ⟨h.links, h.connected⟩, h.latency, hpriced,
      hmodelled, h.policies⟩

/-! ## What canonicalization leaves alone -/

/-- No node or link names a capability, and the candidate names no policy, at two
generations. -/
structure CandidatePath.OneGeneration (candidate : CandidatePath) : Prop where
  nodes : ∀ node ∈ candidate.nodes, (node.capabilities.map (·.capability)).Nodup
  links : ∀ link ∈ candidate.links, (link.capabilities.map (·.capability)).Nodup
  policies : (candidate.policies.map (·.policy)).Nodup

/-- An ascending list is left alone exactly when it repeats no identity. -/
theorem canonicalizeRefs_eq_self_iff {ρ κ : Type} [DecidableEq ρ] [DecidableEq κ] [Ord κ]
    [Std.TransOrd κ] [Std.LawfulEqOrd κ] {key : ρ → κ} {rest : ρ → ρ → Ordering}
    [Std.TransCmp (compareLex (compareOn key) rest)] {what : String} {values : List ρ}
    (hascending : strictlyAscending (compareLex (compareOn key) rest) values = true) :
    canonicalizeRefs (compareLex (compareOn key) rest) key what values = .ok values ↔
      (values.map key).Nodup := by
  unfold canonicalizeRefs
  rw [sortUnique_eq_self hascending, ← adjacentSameKey_eq_false_iff hascending]
  simp only [seq_eq_ok, failIf_eq_ok, pure, Except.pure, and_true]

theorem canonicalizeCapabilities_eq_self_iff {refs : List CapabilityRef}
    (h : strictlyAscending CapabilityRef.cmp refs = true) :
    canonicalizeRefs CapabilityRef.cmp (·.capability) "capability" refs = .ok refs ↔
      (refs.map (·.capability)).Nodup := by
  unfold CapabilityRef.cmp at *
  exact canonicalizeRefs_eq_self_iff h

theorem canonicalizePolicies_eq_self_iff {refs : List PolicyAttestation}
    (h : strictlyAscending PolicyAttestation.cmp refs = true) :
    canonicalizeRefs PolicyAttestation.cmp (·.policy) "policy" refs = .ok refs ↔
      (refs.map (·.policy)).Nodup := by
  unfold PolicyAttestation.cmp at *
  exact canonicalizeRefs_eq_self_iff h

theorem canonicalizeNode_eq_self_iff {limits : Limits} {node : NodeFact}
    (h : node.Valid limits) :
    canonicalizeNode limits node = .ok node ↔ (node.capabilities.map (·.capability)).Nodup := by
  have hdomains : sortUnique FailureDomainRef.cmp node.domains = node.domains :=
    sortUnique_eq_self h.ascending.domains
  have hisolation : sortUnique IsolationAttestation.cmp node.isolation = node.isolation :=
    sortUnique_eq_self h.ascending.isolation
  have hlocalities := sortUnique_eq_self h.localitiesAscending
  have hrefs : strictlyAscending CapabilityRef.cmp node.capabilities = true :=
    h.ascending.capabilities
  rw [← canonicalizeCapabilities_eq_self_iff hrefs]
  simp only [canonicalizeNode, seq_eq_ok, failIf_eq_ok, h.localitiesWithin, h.domainsWithin,
    h.capabilitiesWithin, hdomains, hisolation, hlocalities, Bool.not_true, true_and]
  simp only [bind_eq_ok, pure, Except.pure, Except.ok.injEq]
  constructor
  · rintro ⟨capabilities, hcanonical, hsame⟩
    have hcapabilities : capabilities = node.capabilities := congrArg NodeFact.capabilities hsame
    rw [hcapabilities] at hcanonical
    exact hcanonical
  · intro hcanonical
    exact ⟨node.capabilities, hcanonical, rfl⟩

theorem canonicalizeLink_eq_self_iff {limits : Limits} {link : LinkFact}
    (h : link.Valid limits) :
    canonicalizeLink limits link = .ok link ↔ (link.capabilities.map (·.capability)).Nodup := by
  have hdomains : sortUnique FailureDomainRef.cmp link.domains = link.domains :=
    sortUnique_eq_self h.ascending.domains
  have hisolation : sortUnique IsolationAttestation.cmp link.isolation = link.isolation :=
    sortUnique_eq_self h.ascending.isolation
  have hrefs : strictlyAscending CapabilityRef.cmp link.capabilities = true :=
    h.ascending.capabilities
  rw [← canonicalizeCapabilities_eq_self_iff hrefs]
  simp only [canonicalizeLink, seq_eq_ok, failIf_eq_ok, h.domainsWithin,
    h.capabilitiesWithin, hdomains, hisolation, Bool.not_true, true_and]
  simp only [bind_eq_ok, pure, Except.pure, Except.ok.injEq]
  constructor
  · rintro ⟨capabilities, hcanonical, hsame⟩
    have hcapabilities : capabilities = link.capabilities := congrArg LinkFact.capabilities hsame
    rw [hcapabilities] at hcanonical
    exact hcanonical
  · intro hcanonical
    exact ⟨link.capabilities, hcanonical, rfl⟩

/-- Canonicalization validates what it returns. -/
theorem valid_of_canonicalizeCandidate {candidate canonical : CandidatePath} {limits : Limits}
    (h : canonicalizeCandidate candidate limits = .ok canonical) : canonical.Valid limits := by
  simp only [canonicalizeCandidate, bind_eq_ok, pure, Except.pure, Except.ok.injEq] at h
  obtain ⟨_, -, _, -, _, -, nodes, -, links, -, policies, -, _, hvalid, rfl⟩ := h
  exact validateCandidate_eq_ok_iff.mp hvalid

/-- Canonicalization leaves a valid candidate alone exactly when no list of it names an
identity at two generations. -/
theorem canonicalizeCandidate_eq_self_iff {candidate : CandidatePath} {limits : Limits}
    (h : candidate.Valid limits) :
    canonicalizeCandidate candidate limits = .ok candidate ↔ candidate.OneGeneration := by
  have hhops : UInt32.ofNat candidate.links.length = candidate.hopCount := by
    rw [← h.hops, UInt32.ofNat_toNat]
  have hnodes : candidate.nodes.mapM (canonicalizeNode limits) = .ok candidate.nodes ↔
      ∀ node ∈ candidate.nodes, (node.capabilities.map (·.capability)).Nodup := by
    rw [mapM_eq_ok_self]
    exact forall₂_congr fun node hmem => canonicalizeNode_eq_self_iff (h.nodes node hmem)
  have hlinks : candidate.links.mapM (canonicalizeLink limits) = .ok candidate.links ↔
      ∀ link ∈ candidate.links, (link.capabilities.map (·.capability)).Nodup := by
    rw [mapM_eq_ok_self]
    exact forall₂_congr fun link hmem => canonicalizeLink_eq_self_iff (h.links link hmem)
  have hpolicies := canonicalizePolicies_eq_self_iff h.policies
  simp only [canonicalizeCandidate, seq_eq_ok, failIf_eq_ok, hhops, Bool.or_eq_false_iff,
    Bool.not_eq_false', decide_eq_false_iff_not, bne_eq_false_iff_eq, Nat.not_lt]
  simp only [bind_eq_ok, pure, Except.pure, Except.ok.injEq]
  constructor
  · rintro ⟨-, -, -, nodes, hone, links, htwo, policies, hthree, _, -, hsame⟩
    have hnodesSame : nodes = candidate.nodes := congrArg CandidatePath.nodes hsame
    have hlinksSame : links = candidate.links := congrArg CandidatePath.links hsame
    have hpoliciesSame : policies = candidate.policies := congrArg CandidatePath.policies hsame
    rw [hnodesSame] at hone
    rw [hlinksSame] at htwo
    rw [hpoliciesSame] at hthree
    exact ⟨hnodes.mp hone, hlinks.mp htwo, hpolicies.mp hthree⟩
  · intro hone
    have hvalid := validateCandidate_eq_ok_iff.mpr h
    exact ⟨⟨h.path, h.authority⟩, ⟨h.twoNodes, h.nodesWithin⟩, ⟨h.linkCount, h.linksWithin⟩,
      candidate.nodes, hnodes.mpr hone.nodes, candidate.links, hlinks.mpr hone.links,
      candidate.policies, hpolicies.mpr hone.policies, (), hvalid, rfl⟩

/-- Validation accepts a candidate exactly when canonicalization leaves it unchanged. -/
def CandidatePath.ValidatesFixedPoint (limits : Limits) (candidate : CandidatePath) : Prop :=
  validateCandidate candidate limits = .ok () ↔
    canonicalizeCandidate candidate limits = .ok candidate

/-- Validation and canonicalization disagree exactly on the candidates that satisfy every
rule of validation and name a capability or a policy at two generations. -/
theorem validation_accepts_fixed_points_iff (candidate : CandidatePath) (limits : Limits) :
    candidate.ValidatesFixedPoint limits ↔
      (candidate.Valid limits → candidate.OneGeneration) := by
  unfold CandidatePath.ValidatesFixedPoint
  rw [validateCandidate_eq_ok_iff]
  constructor
  · intro hagree hvalid
    exact (canonicalizeCandidate_eq_self_iff hvalid).mp (hagree.mp hvalid)
  · intro hcondition
    constructor
    · intro hvalid
      exact (canonicalizeCandidate_eq_self_iff hvalid).mpr (hcondition hvalid)
    · exact valid_of_canonicalizeCandidate

/-- Two nodes and a link; a node, the link or the candidate names an identity at two
generations. -/
def sampleTwoGenerations : List CandidatePath :=
  let twice : List CapabilityRef := [⟨⟨3⟩, ⟨1⟩⟩, ⟨⟨3⟩, ⟨2⟩⟩]
  let path : CandidatePath :=
    { path := ⟨31⟩, authorityGeneration := ⟨9⟩, authorityVerdict := .legal, hopCount := 1
      nodes := [{ node := ⟨40⟩ }, { node := ⟨41⟩ }]
      links := [{ link := ⟨50⟩, endpoints := (⟨40⟩, ⟨41⟩) }]
      evidence := { pathAuthority := ⟨9⟩ } }
  [{ path with nodes := [{ node := ⟨40⟩, capabilities := twice }, { node := ⟨41⟩ }] },
   { path with
      links := [{ link := ⟨50⟩, endpoints := (⟨40⟩, ⟨41⟩), capabilities := twice }] },
   { path with policies := [⟨⟨3⟩, ⟨1⟩⟩, ⟨⟨3⟩, ⟨2⟩⟩] }]

/-- Validation accepts candidates that canonicalization refuses. -/
theorem validation_accepts_two_generations :
    sampleTwoGenerations.length = 3 ∧ ∀ candidate ∈ sampleTwoGenerations,
      validateCandidate candidate {} = .ok () ∧
      (∃ detail, canonicalizeCandidate candidate {} = failure .malformed detail) ∧
      ¬ candidate.ValidatesFixedPoint {} := by
  have hruns : ∀ candidate ∈ sampleTwoGenerations,
      validateCandidate candidate {} = .ok () ∧
      (canonicalizeCandidate candidate {} = failure .malformed
          "contradictory capability evidence: same identity, different generation" ∨
        canonicalizeCandidate candidate {} = failure .malformed
          "contradictory policy evidence: same identity, different generation") := by
    decide +kernel
  refine ⟨rfl, ?_⟩
  intro candidate hmem
  obtain ⟨hvalid, hrefused⟩ := hruns candidate hmem
  have hrefusal : ∃ detail, canonicalizeCandidate candidate {} = failure .malformed detail :=
    hrefused.elim (fun h => ⟨_, h⟩) (fun h => ⟨_, h⟩)
  refine ⟨hvalid, hrefusal, ?_⟩
  intro hagree
  obtain ⟨detail, hdetail⟩ := hrefusal
  rw [hagree.mp hvalid] at hdetail
  cases hdetail

end ConstraintRouting.Fabric
