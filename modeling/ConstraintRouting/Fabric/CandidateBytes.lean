import ConstraintRouting.Fabric.DecodeSpec

/-!
# The bytes of a candidate

Every byte string that `decodeCandidate` accepts is the encoding of the candidate that it
gives back, and the candidates that it gives back are the valid ones that are `Storable`.
-/

namespace ConstraintRouting.Fabric

open ByteWriter ByteReader
open Verified.Readers (Parses)
open Verified.Readers.Reader (bind_eq_some accept_eq_some pure_eq_some)

/-! ## Evidence references -/

/-- A membership: a kind that is set and an identity. -/
private theorem readMembership_parses {α : Type} {domain : IdentityDomain}
    (make : DomainKind → StrongId domain → α) (kind : α → DomainKind)
    (member : α → StrongId domain) (hmake : ∀ a, make (kind a) (member a) = a)
    (hkind : ∀ k id, kind (make k id) = k) (hmember : ∀ k id, member (make k id) = id) :
    Parses (do
      let k ← DomainKind.read
      ByteReader.padding8
      ByteReader.padding16
      ByteReader.padding32
      let id : StrongId domain ← ByteReader.id
      Verified.Readers.Reader.accept (k != .unset && id.isValid)
      return make k id)
      (fun a => putU8 (kind a).code ++ putU8 0 ++ putU16 0 ++ putU32 0 ++ putId (member a))
      fun a => kind a ≠ .unset ∧ (member a).isValid = true := by
  intro input a rest
  simp only [DomainKind.read_eq_some, bind_eq_some, accept_eq_some, pure_eq_some,
    padding8_eq_some, padding16_eq_some, padding32_eq_some, id_eq_some, Bool.and_eq_true,
    bne_iff_ne, List.append_assoc]
  constructor
  · intro h
    obtain ⟨k, _, hinput, _, _, h1, _, _, h2, _, _, h3, id, _, h4, _, _, ⟨hset, h5⟩, hout⟩ := h
    cases h5
    cases hout
    rw [hkind, hmember]
    exact ⟨by rw [hinput, h1, h2, h3, h4], hset⟩
  · intro h
    obtain ⟨hinput, hset⟩ := h
    exact ⟨_, _, hinput, (), _, rfl, (), _, rfl, (), _, rfl, _, _, rfl, (), _, ⟨hset, rfl⟩,
      by rw [hmake]⟩

theorem readLocality_parses : Parses readLocality writeLocality LocalityRef.Storable :=
  readMembership_parses LocalityRef.mk (·.kind) (·.domain) (fun _ => rfl) (fun _ _ => rfl)
    fun _ _ => rfl

theorem readDomain_parses : Parses readDomain writeDomain FailureDomainRef.Storable :=
  readMembership_parses FailureDomainRef.mk (·.kind) (·.domain) (fun _ => rfl)
    (fun _ _ => rfl) fun _ _ => rfl

/-- Evidence about an identity at a generation, both of which must be set. -/
private theorem readEvidence_parses {α : Type} {domain : IdentityDomain}
    {series : GenerationDomain} (make : StrongId domain → Generation series → α)
    (subject : α → StrongId domain) (generation : α → Generation series)
    (hmake : ∀ a, make (subject a) (generation a) = a)
    (hsubject : ∀ id g, subject (make id g) = id)
    (hgeneration : ∀ id g, generation (make id g) = g) :
    Parses (do
      let id : StrongId domain ← ByteReader.id
      let g : Generation series ← ByteReader.generation
      Verified.Readers.Reader.accept (id.isValid && Generation.isRepresentable g.value)
      return make id g)
      (fun a => putId (subject a) ++ putGeneration (generation a)) fun a =>
        (subject a).isValid = true ∧
          Generation.isRepresentable (generation a).value = true := by
  intro input a rest
  simp only [bind_eq_some, accept_eq_some, pure_eq_some, id_eq_some, generation_eq_some,
    Bool.and_eq_true, List.append_assoc]
  constructor
  · intro h
    obtain ⟨id, _, hinput, g, _, h1, _, _, ⟨hset, h2⟩, hout⟩ := h
    cases h2
    cases hout
    rw [hsubject, hgeneration]
    exact ⟨by rw [hinput, h1], hset⟩
  · intro h
    obtain ⟨hinput, hset⟩ := h
    exact ⟨_, _, hinput, _, _, rfl, (), _, ⟨hset, rfl⟩, by rw [hmake]⟩

theorem readCapability_parses :
    Parses readCapability writeCapability CapabilityRef.Storable :=
  readEvidence_parses CapabilityRef.mk (·.capability) (·.generation) (fun _ => rfl)
    (fun _ _ => rfl) fun _ _ => rfl

theorem readIsolation_parses :
    Parses readIsolation writeIsolation IsolationAttestation.Storable :=
  readEvidence_parses IsolationAttestation.mk (·.isolationClass) (·.generation) (fun _ => rfl)
    (fun _ _ => rfl) fun _ _ => rfl

theorem readPolicy_parses : Parses readPolicy writePolicy PolicyAttestation.Storable :=
  readEvidence_parses PolicyAttestation.mk (·.policy) (·.generation) (fun _ => rfl)
    (fun _ _ => rfl) fun _ _ => rfl

/-! ## Facts of a path -/

theorem readNode_parses (limits : Limits) :
    Parses (readNode limits) writeNode (NodeFact.Readable limits) := by
  intro input node rest
  simp only [readNode, writeNode, bind_eq_some, accept_eq_some, pure_eq_some, id_eq_some,
    all_parses readLocality_parses _ _ _ _, all_parses readDomain_parses _ _ _ _,
    all_parses readCapability_parses _ _ _ _, all_parses readIsolation_parses _ _ _ _, List.append_assoc]
  constructor
  · intro h
    obtain ⟨id, _, hinput, tier, _, h1, site, _, h2, _, _, ⟨hid, h3⟩, localities, _,
      ⟨h4, hlocalities, hmemberships⟩, domains, _, ⟨h5, hdomains, hrefs⟩, capabilities, _,
      ⟨h6, hcapabilities, hheld⟩, isolation, _, ⟨h7, hisolation, hproofs⟩, hout⟩ := h
    cases h3
    cases hout
    exact ⟨by rw [hinput, h1, h2, h4, h5, h6, h7], hid, hlocalities, hdomains, hcapabilities,
      hmemberships, hrefs, hheld, hproofs, hisolation⟩
  · intro h
    obtain ⟨hinput, hid, hlocalities, hdomains, hcapabilities, hmemberships, hview⟩ := h
    exact ⟨_, _, hinput, _, _, rfl, _, _, rfl, (), _, ⟨hid, rfl⟩,
      _, _, ⟨rfl, hlocalities, hmemberships⟩, _, _, ⟨rfl, hdomains, hview.domains⟩,
      _, _, ⟨rfl, hcapabilities, hview.capabilities⟩,
      _, _, ⟨rfl, hview.attestations, hview.isolation⟩, rfl⟩

theorem readBandwidth_parses :
    Parses readBandwidth
      (fun bandwidth => putU8 bandwidth.model.code ++ putU8 bandwidth.provenance.code ++
        putU16 0 ++ putU32 0 ++ putI64 bandwidth.bitsPerSecond ++
        putGeneration bandwidth.generation ++ putU64 bandwidth.observedTick)
      fun bandwidth => bandwidth.generation.Storable := by
  intro input bandwidth rest
  simp only [readBandwidth, Generation.Storable, bind_eq_some, pure_eq_some,
    CapabilityModel.read_eq_some, EvidenceProvenance.read_eq_some, padding16_eq_some,
    padding32_eq_some, i64_eq_some, u64_eq_some, generationField_eq_some, List.append_assoc]
  constructor
  · intro h
    obtain ⟨model, _, hinput, provenance, _, h1, _, _, h2, _, _, h3, bits, _, h4, generation,
      _, ⟨h5, hgeneration⟩, tick, _, h6, hout⟩ := h
    cases hout
    exact ⟨by rw [hinput, h1, h2, h3, h4, h5, h6], hgeneration⟩
  · intro h
    obtain ⟨hinput, hgeneration⟩ := h
    exact ⟨_, _, hinput, _, _, rfl, (), _, rfl, (), _, rfl, _, _, rfl, _, _,
      ⟨rfl, hgeneration⟩, _, _, rfl, rfl⟩

theorem readLink_parses (limits : Limits) :
    Parses (readLink limits) writeLink (LinkFact.Readable limits) := by
  intro input link rest
  simp only [readLink, writeLink, bind_eq_some, accept_eq_some, pure_eq_some, id_eq_some,
    readBandwidth_parses _ _ _, all_parses readDomain_parses _ _ _ _,
    all_parses readCapability_parses _ _ _ _, all_parses readIsolation_parses _ _ _ _,
    Bool.and_eq_true, List.append_assoc]
  constructor
  · intro h
    obtain ⟨id, _, hinput, a, _, h1, b, _, h2, _, _, ⟨⟨⟨hid, ha⟩, hb⟩, h3⟩, bandwidth, _,
      ⟨h4, hbandwidth⟩, domains, _, ⟨h5, hdomains, hrefs⟩, capabilities, _,
      ⟨h6, hcapabilities, hheld⟩, isolation, _, ⟨h7, hisolation, hproofs⟩, hout⟩ := h
    cases h3
    cases hout
    exact ⟨by rw [hinput, h1, h2, h4, h5, h6, h7], hid, ha, hb, hdomains, hcapabilities,
      hbandwidth, hrefs, hheld, hproofs, hisolation⟩
  · intro h
    obtain ⟨hinput, hid, ha, hb, hdomains, hcapabilities, hbandwidth, hview⟩ := h
    exact ⟨_, _, hinput, _, _, rfl, _, _, rfl, (), _, ⟨⟨⟨hid, ha⟩, hb⟩, rfl⟩,
      _, _, ⟨rfl, hbandwidth⟩, _, _, ⟨rfl, hdomains, hview.domains⟩,
      _, _, ⟨rfl, hcapabilities, hview.capabilities⟩,
      _, _, ⟨rfl, hview.attestations, hview.isolation⟩, rfl⟩

theorem readLatency_parses :
    Parses readLatency
      (fun latency => putU8 latency.source.code ++ putU8 latency.provenance.code ++
        putU16 0 ++ putU32 0 ++ putI64 latency.micros ++
        putGeneration latency.plannerGeneration ++ putGeneration latency.observedGeneration ++
        putU64 latency.observedTick)
      fun latency => latency.plannerGeneration.Storable ∧
        latency.observedGeneration.Storable := by
  intro input latency rest
  simp only [readLatency, Generation.Storable, bind_eq_some, pure_eq_some,
    LatencySource.read_eq_some, EvidenceProvenance.read_eq_some, padding16_eq_some,
    padding32_eq_some, i64_eq_some, u64_eq_some, generationField_eq_some, List.append_assoc]
  constructor
  · intro h
    obtain ⟨source, _, hinput, provenance, _, h1, _, _, h2, _, _, h3, micros, _, h4, planner,
      _, ⟨h5, hplanner⟩, observed, _, ⟨h6, hobserved⟩, tick, _, h7, hout⟩ := h
    cases hout
    exact ⟨by rw [hinput, h1, h2, h3, h4, h5, h6, h7], hplanner, hobserved⟩
  · intro h
    obtain ⟨hinput, hplanner, hobserved⟩ := h
    exact ⟨_, _, hinput, _, _, rfl, (), _, rfl, (), _, rfl, _, _, rfl, _, _,
      ⟨rfl, hplanner⟩, _, _, ⟨rfl, hobserved⟩, _, _, rfl, rfl⟩

theorem readEvidenceSet_parses :
    Parses readEvidenceSet writeEvidenceSet EvidenceGenerationSet.Storable := by
  intro input evidence rest
  simp only [readEvidenceSet, writeEvidenceSet, bind_eq_some, pure_eq_some, u32_eq_some,
    u64_eq_some, generationField_eq_some, List.append_assoc]
  constructor
  · intro h
    obtain ⟨topology, _, ⟨hinput, htopology⟩, linkState, _, ⟨h1, hlinkState⟩, capability, _,
      ⟨h2, hcapability⟩, failureDomain, _, ⟨h3, hfailureDomain⟩, policy, _, ⟨h4, hpolicy⟩,
      planner, _, ⟨h5, hplanner⟩, pathAuthority, _, ⟨h6, hpathAuthority⟩, consulted, _, h7,
      tick, _, h8, hout⟩ := h
    cases hout
    exact ⟨by rw [hinput, h1, h2, h3, h4, h5, h6, h7, h8], htopology, hlinkState, hcapability,
      hfailureDomain, hpolicy, hplanner, hpathAuthority⟩
  · intro h
    obtain ⟨hinput, htopology, hlinkState, hcapability, hfailureDomain, hpolicy, hplanner,
      hpathAuthority⟩ := h
    exact ⟨_, _, ⟨hinput, htopology⟩, _, _, ⟨rfl, hlinkState⟩, _, _, ⟨rfl, hcapability⟩,
      _, _, ⟨rfl, hfailureDomain⟩, _, _, ⟨rfl, hpolicy⟩, _, _, ⟨rfl, hplanner⟩, _, _,
      ⟨rfl, hpathAuthority⟩, _, _, rfl, _, _, rfl, rfl⟩

/-! ## Candidates -/

/-- The bytes that `decodeCandidate` accepts are the encodings of the valid candidates that
fit the format. -/
theorem decodeCandidate_parses (limits : Limits) :
    Parses (decodeCandidate limits) encodeCandidate fun candidate =>
      candidate.Storable limits ∧ validateCandidate candidate limits = .ok () := by
  intro input candidate rest
  unfold decodeCandidate encodeCandidate
  simp only [bind_eq_some, accept_eq_some, pure_eq_some, id_eq_some, generation_eq_some, PathAuthorityVerdict.read_eq_some, padding8_eq_some,
    padding16_eq_some, padding32_eq_some, generationField_eq_some, boolean_eq_some,
    u32_eq_some, i64_eq_some, PlannerCostModel.read_eq_some,
    all_parses (readNode_parses limits) _ _ _ _, all_parses (readLink_parses limits) _ _ _ _,
    readLatency_parses _ _ _, all_parses readPolicy_parses _ _ _ _,
    readEvidenceSet_parses _ _ _, representable_iff, isOk_eq_true, Bool.and_eq_true,
    List.append_assoc]
  constructor
  · intro h
    obtain ⟨path, _, hinput, authority, _, h1, verdict, _, h2, _, _, h3, _, _, h4, h⟩ := h
    obtain ⟨_, _, h5, _, _, ⟨⟨hpath, hvalid, hauthority⟩, h6⟩, planner, _, ⟨h7, hplanner⟩, h⟩ := h
    obtain ⟨hasRank, _, h8, rank, _, h9, hasCost, _, h10, cost, _, h11, model, _, h12, h⟩ := h
    obtain ⟨_, _, h13, _, _, h14, hops, _, h15, nodes, _, ⟨h16, -, hnodes⟩, h⟩ := h
    obtain ⟨links, _, ⟨h17, -, hlinks⟩, latency, _, ⟨h18, hmodelled, hobserved⟩, h⟩ := h
    obtain ⟨policies, _, ⟨h19, -, hpolicies⟩, evidence, _, ⟨h20, hevidence⟩, h⟩ := h
    obtain ⟨_, _, ⟨hchecked, h21⟩, hout⟩ := h
    cases h6
    cases h21
    cases hout
    refine ⟨?_, ⟨hauthority, hplanner, fun node hmem => (hnodes node hmem).view,
      fun link hmem => ⟨(hlinks link hmem).view, (hlinks link hmem).bandwidth⟩, hmodelled,
      hobserved, hpolicies, hevidence⟩, hchecked⟩
    rw [hinput, h1, h2, h3, h4, h5, h7, h8, h9, h10, h11, h12, h13, h14, h15, h16, h17, h18,
      h19, h20]
  · intro h
    obtain ⟨hinput, hstorable, hchecked⟩ := h
    obtain ⟨hpath, hauthority, hnodes, hlinks, hpolicies, hnodeFacts, hlinkFacts⟩ :=
      readable_of_validateCandidate hchecked
    have hreadNodes : ∀ node ∈ candidate.nodes, node.Readable limits :=
      fun node hmem => hnodeFacts node hmem (hstorable.nodes node hmem)
    have hreadLinks : ∀ link ∈ candidate.links, link.Readable limits :=
      fun link hmem => hlinkFacts link hmem (hstorable.links link hmem).1
        (hstorable.links link hmem).2
    exact ⟨_, _, hinput, _, _, rfl, _, _, rfl, (), _, rfl, (), _, rfl, (), _, rfl, (), _,
      ⟨⟨hpath, hauthority, hstorable.authorityGeneration⟩, rfl⟩,
      _, _, ⟨rfl, hstorable.plannerGeneration⟩, _, _, rfl, _, _, rfl, _, _, rfl, _, _, rfl,
      _, _, rfl, (), _, rfl, (), _, rfl, _, _, rfl,
      _, _, ⟨rfl, hnodes, hreadNodes⟩, _, _, ⟨rfl, hlinks, hreadLinks⟩,
      candidate.latency, _, ⟨rfl, hstorable.modelled, hstorable.observed⟩,
      _, _, ⟨rfl, hpolicies, hstorable.policies⟩, _, _, ⟨rfl, hstorable.evidence⟩,
      (), _, ⟨hchecked, rfl⟩, rfl⟩

/-- A valid candidate is read back from its encoding, with exactly its bytes taken, if and
only if it is storable; and what is accepted is the encoding of what is given back. -/
theorem candidate_roundTrip_iff_storable (limits : Limits) :
    (∀ candidate rest, validateCandidate candidate limits = .ok () →
      (decodeCandidate limits (encodeCandidate candidate ++ rest) = some (candidate, rest) ↔
        candidate.Storable limits)) ∧
    ∀ input candidate rest, decodeCandidate limits input = some (candidate, rest) →
      encodeCandidate candidate ++ rest = input := by
  constructor
  · intro candidate rest hvalid
    rw [decodeCandidate_parses limits]
    constructor
    · intro hread
      exact hread.2.1
    · intro hstorable
      exact ⟨rfl, hstorable, hvalid⟩
  · intro input candidate rest hread
    exact ((decodeCandidate_parses limits input candidate rest).mp hread).1.symm

/-- A path of two nodes; the first holds the capability. -/
def sampleNamed (capability : UInt64) : CandidatePath :=
  { path := ⟨31⟩, authorityGeneration := ⟨9⟩, authorityVerdict := .legal, hopCount := 1
    nodes := [{ node := ⟨1⟩, capabilities := [⟨⟨capability⟩, ⟨5⟩⟩] }, { node := ⟨2⟩ }]
    links := [{ link := ⟨1⟩, endpoints := (⟨1⟩, ⟨2⟩) }]
    evidence := { pathAuthority := ⟨9⟩ } }

theorem candidate_roundTrip_iff_storable_sample :
    (decodeCandidate {} (encodeCandidate (sampleNamed 3) ++ [7]) =
      some (sampleNamed 3, [7]) ↔ (sampleNamed 3).Storable {}) ∧
    encodeCandidate (sampleNamed 3) ++ [7] = encodeCandidate (sampleNamed 3) ++ [7] :=
  ⟨(candidate_roundTrip_iff_storable {}).1 _ _ (by decide +kernel),
   (candidate_roundTrip_iff_storable {}).2 _ _ _ (by decide +kernel)⟩

/-- Evidence about capability zero is valid, but its encoding is refused. -/
theorem unnamed_capability_refused :
    validateCandidate (sampleNamed 0) {} = .ok () ∧
      decodeCandidate {} (encodeCandidate (sampleNamed 0)) = none := by
  constructor
  · decide +kernel
  · decide +kernel

end ConstraintRouting.Fabric
