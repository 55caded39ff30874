import ConstraintRouting.Fabric.CandidateSpec
import ConstraintRouting.Fabric.CanonicalForm
import ConstraintRouting.Fabric.PersistenceSpec

/-!
# Records are read back

Each decoder, on the bytes that the encoder of the same record wrote, gives back the
record exactly when the record passes the validation that the decoder ends with and
fits the format.  `Storable` is what the format asks for beyond validation: generations
below the ceiling, evidence that names an identity at a generation, and the bounds on
lists that no validation bounds.
-/

namespace ConstraintRouting.Fabric

open ByteWriter ByteReader
open Verified.Readers (Reads)
open Verified.Readers.Reader (bind_iff pure_eq_some accept_bind)
open Verified.Checks (isOk seq_eq_ok)
open Verified.SortedLists

/-! ## Enumerators -/

section Enumerators

variable {γ : Type} (rest : List UInt8)

theorem ConstraintKind.read_bind (kind : ConstraintKind) (next : ConstraintKind → Reader γ) :
    (ConstraintKind.read >>= next) (putU16 kind.code ++ rest) = next kind rest :=
  enum16_bind (by cases kind <;> rfl) rest next

theorem ConstraintScope.read_bind (scope : ConstraintScope) (next : ConstraintScope → Reader γ) :
    (ConstraintScope.read >>= next) (putU8 scope.code ++ rest) = next scope rest :=
  enum8_bind (by cases scope <;> rfl) rest next

theorem LatencySource.read_bind (source : LatencySource) (next : LatencySource → Reader γ) :
    (LatencySource.read >>= next) (putU8 source.code ++ rest) = next source rest :=
  enum8_bind (by cases source <;> rfl) rest next

theorem DomainKind.read_bind (kind : DomainKind) (next : DomainKind → Reader γ) :
    (DomainKind.read >>= next) (putU8 kind.code ++ rest) = next kind rest :=
  enum8_bind (by cases kind <;> rfl) rest next

theorem DomainRelation.read_bind (relation : DomainRelation) (next : DomainRelation → Reader γ) :
    (DomainRelation.read >>= next) (putU8 relation.code ++ rest) = next relation rest :=
  enum8_bind (by cases relation <;> rfl) rest next

theorem UnknownPolicy.read_bind (policy : UnknownPolicy) (next : UnknownPolicy → Reader γ) :
    (UnknownPolicy.read >>= next) (putU8 policy.code ++ rest) = next policy rest :=
  enum8_bind (by cases policy <;> rfl) rest next

theorem EvidenceProvenance.read_bind (provenance : EvidenceProvenance) (next : EvidenceProvenance → Reader γ) :
    (EvidenceProvenance.read >>= next) (putU8 provenance.code ++ rest) = next provenance rest :=
  enum8_bind (by cases provenance <;> rfl) rest next

theorem CapabilityModel.read_bind (model : CapabilityModel) (next : CapabilityModel → Reader γ) :
    (CapabilityModel.read >>= next) (putU8 model.code ++ rest) = next model rest :=
  enum8_bind (by cases model <;> rfl) rest next

theorem PlannerCostModel.read_bind (model : PlannerCostModel) (next : PlannerCostModel → Reader γ) :
    (PlannerCostModel.read >>= next) (putU8 model.code ++ rest) = next model rest :=
  enum8_bind (by cases model <;> rfl) rest next

theorem EvidenceFamily.read_bind (family : EvidenceFamily) (next : EvidenceFamily → Reader γ) :
    (EvidenceFamily.read >>= next) (putU8 family.code ++ rest) = next family rest :=
  enum8_bind (by cases family <;> rfl) rest next

theorem ConstraintSetState.read_bind (state : ConstraintSetState) (next : ConstraintSetState → Reader γ) :
    (ConstraintSetState.read >>= next) (putU8 state.code ++ rest) = next state rest :=
  enum8_bind (by cases state <;> rfl) rest next

theorem CandidateTiebreak.read_bind (tiebreak : CandidateTiebreak) (next : CandidateTiebreak → Reader γ) :
    (CandidateTiebreak.read >>= next) (putU8 tiebreak.code ++ rest) = next tiebreak rest :=
  enum8_bind (by cases tiebreak <;> rfl) rest next

theorem PathAuthorityVerdict.read_bind (verdict : PathAuthorityVerdict) (next : PathAuthorityVerdict → Reader γ) :
    (PathAuthorityVerdict.read >>= next) (putU8 verdict.code ++ rest) = next verdict rest :=
  enum8_bind (by cases verdict <;> rfl) rest next

theorem Outcome.read_bind (outcome : Outcome) (next : Outcome → Reader γ) :
    (Outcome.read >>= next) (putU16 outcome.code ++ rest) = next outcome rest :=
  enum16_bind (by cases outcome <;> rfl) rest next

theorem ReasonClass.read_bind (reasonClass : ReasonClass) (next : ReasonClass → Reader γ) :
    (ReasonClass.read >>= next) (putU8 reasonClass.code ++ rest) = next reasonClass rest :=
  enum8_bind (by cases reasonClass <;> rfl) rest next

theorem ReasonCode.read_bind (code : ReasonCode) (next : ReasonCode → Reader γ) :
    (ReasonCode.read >>= next) (putU16 code.code ++ rest) = next code rest :=
  enum16_bind (by cases code <;> rfl) rest next

theorem SubjectKind.read_bind (kind : SubjectKind) (next : SubjectKind → Reader γ) :
    (SubjectKind.read >>= next) (putU8 kind.code ++ rest) = next kind rest :=
  enum8_bind (by cases kind <;> rfl) rest next

theorem ResultState.read_bind (state : ResultState) (next : ResultState → Reader γ) :
    (ResultState.read >>= next) (putU8 state.code ++ rest) = next state rest :=
  enum8_bind (by cases state <;> rfl) rest next

theorem InvalidationKeyKind.read_bind (kind : InvalidationKeyKind) (next : InvalidationKeyKind → Reader γ) :
    (InvalidationKeyKind.read >>= next) (putU8 kind.code ++ rest) = next kind rest :=
  enum8_bind (by cases kind <;> rfl) rest next

end Enumerators

section ExactEnumerators

variable {input rest : List UInt8}

theorem ConstraintKind.read_eq_some {kind : ConstraintKind} :
    ConstraintKind.read input = some (kind, rest) ↔ input = putU16 kind.code ++ rest :=
  enum16_exact (by cases kind <;> rfl)

theorem ConstraintScope.read_eq_some {scope : ConstraintScope} :
    ConstraintScope.read input = some (scope, rest) ↔ input = putU8 scope.code ++ rest :=
  enum8_exact (by cases scope <;> rfl)

theorem LatencySource.read_eq_some {source : LatencySource} :
    LatencySource.read input = some (source, rest) ↔ input = putU8 source.code ++ rest :=
  enum8_exact (by cases source <;> rfl)

theorem DomainKind.read_eq_some {kind : DomainKind} :
    DomainKind.read input = some (kind, rest) ↔ input = putU8 kind.code ++ rest :=
  enum8_exact (by cases kind <;> rfl)

theorem DomainRelation.read_eq_some {relation : DomainRelation} :
    DomainRelation.read input = some (relation, rest) ↔ input = putU8 relation.code ++ rest :=
  enum8_exact (by cases relation <;> rfl)

theorem UnknownPolicy.read_eq_some {policy : UnknownPolicy} :
    UnknownPolicy.read input = some (policy, rest) ↔ input = putU8 policy.code ++ rest :=
  enum8_exact (by cases policy <;> rfl)

theorem EvidenceProvenance.read_eq_some {provenance : EvidenceProvenance} :
    EvidenceProvenance.read input = some (provenance, rest) ↔ input = putU8 provenance.code ++ rest :=
  enum8_exact (by cases provenance <;> rfl)

theorem CapabilityModel.read_eq_some {model : CapabilityModel} :
    CapabilityModel.read input = some (model, rest) ↔ input = putU8 model.code ++ rest :=
  enum8_exact (by cases model <;> rfl)

theorem PlannerCostModel.read_eq_some {model : PlannerCostModel} :
    PlannerCostModel.read input = some (model, rest) ↔ input = putU8 model.code ++ rest :=
  enum8_exact (by cases model <;> rfl)

theorem ConstraintSetState.read_eq_some {state : ConstraintSetState} :
    ConstraintSetState.read input = some (state, rest) ↔ input = putU8 state.code ++ rest :=
  enum8_exact (by cases state <;> rfl)

theorem CandidateTiebreak.read_eq_some {tiebreak : CandidateTiebreak} :
    CandidateTiebreak.read input = some (tiebreak, rest) ↔ input = putU8 tiebreak.code ++ rest :=
  enum8_exact (by cases tiebreak <;> rfl)

theorem PathAuthorityVerdict.read_eq_some {verdict : PathAuthorityVerdict} :
    PathAuthorityVerdict.read input = some (verdict, rest) ↔ input = putU8 verdict.code ++ rest :=
  enum8_exact (by cases verdict <;> rfl)

end ExactEnumerators

/-! ## Candidates -/

/-- The generation is at most the ceiling; it may be unset. -/
def Generation.Storable {domain : GenerationDomain} (generation : Generation domain) : Prop :=
  generation.value ≤ Generation.kMaxGeneration

/-- An authoritative membership: a kind and an identity. -/
def LocalityRef.Storable (ref : LocalityRef) : Prop :=
  ref.kind ≠ .unset ∧ ref.domain.isValid = true

def FailureDomainRef.Storable (ref : FailureDomainRef) : Prop :=
  ref.kind ≠ .unset ∧ ref.domain.isValid = true

/-- Evidence about an identity, at a generation. -/
def CapabilityRef.Storable (ref : CapabilityRef) : Prop :=
  ref.capability.isValid = true ∧ Generation.isRepresentable ref.generation.value = true

def IsolationAttestation.Storable (ref : IsolationAttestation) : Prop :=
  ref.isolationClass.isValid = true ∧ Generation.isRepresentable ref.generation.value = true

def PolicyAttestation.Storable (ref : PolicyAttestation) : Prop :=
  ref.policy.isValid = true ∧ Generation.isRepresentable ref.generation.value = true

theorem readLocality_reads :
    Reads (2 ^ 32) readLocality writeLocality LocalityRef.Storable := by
  intro ref rest out _
  simp only [readLocality, writeLocality, LocalityRef.Storable, List.append_assoc,
    id_bind, DomainKind.read_bind, padding8_bind, padding16_bind, padding32_bind,
    accept_bind, pure_eq_some, Bool.and_eq_true, bne_iff_ne]

theorem readDomain_reads :
    Reads (2 ^ 32) readDomain writeDomain FailureDomainRef.Storable := by
  intro ref rest out _
  simp only [readDomain, writeDomain, FailureDomainRef.Storable, List.append_assoc,
    id_bind, DomainKind.read_bind, padding8_bind, padding16_bind, padding32_bind,
    accept_bind, pure_eq_some, Bool.and_eq_true, bne_iff_ne]

theorem readCapability_reads :
    Reads (2 ^ 32) readCapability writeCapability CapabilityRef.Storable := by
  intro ref rest out _
  simp only [readCapability, writeCapability, CapabilityRef.Storable, List.append_assoc,
    id_bind, generation_bind, accept_bind, pure_eq_some, Bool.and_eq_true]

theorem readIsolation_reads :
    Reads (2 ^ 32) readIsolation writeIsolation IsolationAttestation.Storable := by
  intro ref rest out _
  simp only [readIsolation, writeIsolation, IsolationAttestation.Storable,
    List.append_assoc, id_bind, generation_bind, accept_bind, pure_eq_some,
    Bool.and_eq_true]

theorem readPolicy_reads :
    Reads (2 ^ 32) readPolicy writePolicy PolicyAttestation.Storable := by
  intro ref rest out _
  simp only [readPolicy, writePolicy, PolicyAttestation.Storable, List.append_assoc,
    id_bind, generation_bind, accept_bind, pure_eq_some, Bool.and_eq_true]

section Lists

variable {γ : Type} {maxSize : UInt32} {rest : List UInt8} {out : γ × List UInt8}

theorem all_readLocality_bind {refs : List LocalityRef}
    {next : List LocalityRef → Reader γ}
    (hsize : (putAll writeLocality refs).length < 2 ^ 32) :
    (all maxSize readLocality >>= next) (putAll writeLocality refs ++ rest) = some out ↔
      (refs.length ≤ maxSize.toNat ∧ ∀ ref ∈ refs, ref.Storable) ∧
        next refs rest = some out :=
  all_bind readLocality_reads (fun _ => List.cons_ne_nil _ _) hsize

theorem all_readDomain_bind {refs : List FailureDomainRef}
    {next : List FailureDomainRef → Reader γ}
    (hsize : (putAll writeDomain refs).length < 2 ^ 32) :
    (all maxSize readDomain >>= next) (putAll writeDomain refs ++ rest) = some out ↔
      (refs.length ≤ maxSize.toNat ∧ ∀ ref ∈ refs, ref.Storable) ∧
        next refs rest = some out :=
  all_bind readDomain_reads (fun _ => List.cons_ne_nil _ _) hsize

theorem all_readCapability_bind {refs : List CapabilityRef}
    {next : List CapabilityRef → Reader γ}
    (hsize : (putAll writeCapability refs).length < 2 ^ 32) :
    (all maxSize readCapability >>= next) (putAll writeCapability refs ++ rest) = some out ↔
      (refs.length ≤ maxSize.toNat ∧ ∀ ref ∈ refs, ref.Storable) ∧
        next refs rest = some out :=
  all_bind readCapability_reads (fun _ => List.cons_ne_nil _ _) hsize

theorem all_readIsolation_bind {refs : List IsolationAttestation}
    {next : List IsolationAttestation → Reader γ}
    (hsize : (putAll writeIsolation refs).length < 2 ^ 32) :
    (all maxSize readIsolation >>= next) (putAll writeIsolation refs ++ rest) = some out ↔
      (refs.length ≤ maxSize.toNat ∧ ∀ ref ∈ refs, ref.Storable) ∧
        next refs rest = some out :=
  all_bind readIsolation_reads (fun _ => List.cons_ne_nil _ _) hsize

theorem all_readPolicy_bind {refs : List PolicyAttestation}
    {next : List PolicyAttestation → Reader γ}
    (hsize : (putAll writePolicy refs).length < 2 ^ 32) :
    (all maxSize readPolicy >>= next) (putAll writePolicy refs ++ rest) = some out ↔
      (refs.length ≤ maxSize.toNat ∧ ∀ ref ∈ refs, ref.Storable) ∧
        next refs rest = some out :=
  all_bind readPolicy_reads (fun _ => List.cons_ne_nil _ _) hsize

end Lists

/-- The evidence of a node or a link fits the format. -/
structure EntityView.Storable (limits : Limits) (entity : EntityView) : Prop where
  domains : ∀ ref ∈ entity.domains, ref.Storable
  capabilities : ∀ ref ∈ entity.capabilities, ref.Storable
  isolation : ∀ ref ∈ entity.isolation, ref.Storable
  attestations : entity.isolation.length ≤ limits.maxCapabilitiesPerEntity.toNat

/-- What `readNode` asks of a node. -/
structure NodeFact.Readable (limits : Limits) (node : NodeFact) : Prop where
  valid : node.node.isValid = true
  localities : node.localities.length ≤ limits.maxLocalitiesPerEntity.toNat
  domains : node.domains.length ≤ limits.maxDomainsPerEntity.toNat
  capabilities : node.capabilities.length ≤ limits.maxCapabilitiesPerEntity.toNat
  memberships : ∀ ref ∈ node.localities, ref.Storable
  view : node.view.Storable limits

/-- What `readLink` asks of a link. -/
structure LinkFact.Readable (limits : Limits) (link : LinkFact) : Prop where
  valid : link.link.isValid = true
  first : link.endpoints.1.isValid = true
  second : link.endpoints.2.isValid = true
  domains : link.domains.length ≤ limits.maxDomainsPerEntity.toNat
  capabilities : link.capabilities.length ≤ limits.maxCapabilitiesPerEntity.toNat
  bandwidth : link.bandwidth.generation.Storable
  view : link.view.Storable limits

theorem readNode_reads (limits : Limits) :
    Reads (2 ^ 32) (readNode limits) writeNode (NodeFact.Readable limits) := by
  intro node rest out hsize
  simp only [writeNode, List.length_append] at hsize
  have hreadable : node.Readable limits ↔ node.node.isValid = true ∧
      (node.localities.length ≤ limits.maxLocalitiesPerEntity.toNat ∧
        ∀ ref ∈ node.localities, ref.Storable) ∧
      (node.domains.length ≤ limits.maxDomainsPerEntity.toNat ∧
        ∀ ref ∈ node.domains, ref.Storable) ∧
      (node.capabilities.length ≤ limits.maxCapabilitiesPerEntity.toNat ∧
        ∀ ref ∈ node.capabilities, ref.Storable) ∧
      node.isolation.length ≤ limits.maxCapabilitiesPerEntity.toNat ∧
        ∀ ref ∈ node.isolation, ref.Storable :=
    ⟨fun ⟨h1, h2, h3, h4, h5, h6, h7, h8, h9⟩ => ⟨h1, ⟨h2, h5⟩, ⟨h3, h6⟩, ⟨h4, h7⟩, h9, h8⟩,
     fun ⟨h1, ⟨h2, h5⟩, ⟨h3, h6⟩, ⟨h4, h7⟩, h9, h8⟩ => ⟨h1, h2, h3, h4, h5, h6, h7, h8, h9⟩⟩
  simp (disch := omega) only [readNode, writeNode, hreadable, List.append_assoc,
    id_bind, accept_bind, pure_eq_some, and_assoc, all_readLocality_bind,
    all_readDomain_bind, all_readCapability_bind, all_readIsolation_bind]

theorem readLink_reads (limits : Limits) :
    Reads (2 ^ 32) (readLink limits) writeLink (LinkFact.Readable limits) := by
  intro link rest out hsize
  simp only [writeLink, List.length_append] at hsize
  have hreadable : link.Readable limits ↔
      (link.link.isValid = true ∧ link.endpoints.1.isValid = true) ∧
      link.endpoints.2.isValid = true ∧ link.bandwidth.generation.Storable ∧
      (link.domains.length ≤ limits.maxDomainsPerEntity.toNat ∧
        ∀ ref ∈ link.domains, ref.Storable) ∧
      (link.capabilities.length ≤ limits.maxCapabilitiesPerEntity.toNat ∧
        ∀ ref ∈ link.capabilities, ref.Storable) ∧
      link.isolation.length ≤ limits.maxCapabilitiesPerEntity.toNat ∧
        ∀ ref ∈ link.isolation, ref.Storable :=
    ⟨fun ⟨h1, h2, h3, h4, h5, h6, h7, h8, h9, h10⟩ =>
      ⟨⟨h1, h2⟩, h3, h6, ⟨h4, h7⟩, ⟨h5, h8⟩, h10, h9⟩,
     fun ⟨⟨h1, h2⟩, h3, h6, ⟨h4, h7⟩, ⟨h5, h8⟩, h10, h9⟩ =>
      ⟨h1, h2, h3, h4, h5, h6, h7, h8, h9, h10⟩⟩
  simp (disch := omega) only [readLink, readBandwidth, writeLink, hreadable,
    Generation.Storable, List.append_assoc, bind_assoc, pure_bind, id_bind, i64_bind,
    u64_bind, generationField_bind, CapabilityModel.read_bind, EvidenceProvenance.read_bind,
    padding16_bind, padding32_bind, accept_bind, pure_eq_some, Bool.and_eq_true, and_assoc,
    all_readDomain_bind, all_readCapability_bind, all_readIsolation_bind]

/-- Every generation of the binding is at most the ceiling. -/
structure EvidenceGenerationSet.Storable (evidence : EvidenceGenerationSet) : Prop where
  topology : evidence.topology.Storable
  linkState : evidence.linkState.Storable
  capability : evidence.capability.Storable
  failureDomain : evidence.failureDomain.Storable
  policy : evidence.policy.Storable
  planner : evidence.planner.Storable
  pathAuthority : evidence.pathAuthority.Storable

theorem readEvidenceSet_reads {bound : Nat} :
    Reads bound readEvidenceSet writeEvidenceSet EvidenceGenerationSet.Storable := by
  intro evidence rest out _
  have hstorable : evidence.Storable ↔ evidence.topology.Storable ∧
      evidence.linkState.Storable ∧ evidence.capability.Storable ∧
      evidence.failureDomain.Storable ∧ evidence.policy.Storable ∧
      evidence.planner.Storable ∧ evidence.pathAuthority.Storable :=
    ⟨fun ⟨h1, h2, h3, h4, h5, h6, h7⟩ => ⟨h1, h2, h3, h4, h5, h6, h7⟩,
     fun ⟨h1, h2, h3, h4, h5, h6, h7⟩ => ⟨h1, h2, h3, h4, h5, h6, h7⟩⟩
  simp only [readEvidenceSet, writeEvidenceSet, hstorable, Generation.Storable,
    List.append_assoc, generationField_bind, u32_bind, u64_bind, pure_eq_some, and_assoc]

/-- What the format asks of a valid candidate. -/
structure CandidatePath.Storable (limits : Limits) (candidate : CandidatePath) : Prop where
  authorityGeneration : candidate.authorityGeneration.Storable
  plannerGeneration : candidate.plannerGeneration.Storable
  nodes : ∀ node ∈ candidate.nodes, node.view.Storable limits
  links : ∀ link ∈ candidate.links,
    link.view.Storable limits ∧ link.bandwidth.generation.Storable
  modelled : candidate.latency.plannerGeneration.Storable
  observed : candidate.latency.observedGeneration.Storable
  policies : ∀ ref ∈ candidate.policies, ref.Storable
  evidence : candidate.evidence.Storable

private theorem readable_of_validateNodes {limits : Limits} {nodes previous : List NodeFact}
    (h : validateNodes limits previous nodes = .ok ()) :
    ∀ node ∈ nodes, node.view.Storable limits → node.Readable limits := by
  induction nodes generalizing previous with
  | nil => simp
  | cons first rest ih =>
      rw [validateNodes, seq_eq_ok] at h
      intro node hmem hstorable
      by_cases heq : node = first
      · subst heq
        have hnode := h.1
        simp only [validateNode, seq_eq_ok, failIf_eq_ok, Bool.or_eq_false_iff,
          Bool.not_eq_false', listWithin_eq_true] at hnode
        obtain ⟨hvalid, -, ⟨⟨hlocalities, hdomains⟩, hcapabilities⟩, -, hmemberships, -⟩ :=
          hnode
        have hrefs : ∀ ref ∈ node.localities, ref.Storable := by
          intro ref href
          have hneither := List.any_eq_false.mp hmemberships ref href
          simpa [LocalityRef.Storable] using hneither
        exact ⟨hvalid, hlocalities, hdomains, hcapabilities, hrefs, hstorable⟩
      · exact ih h.2 node (List.mem_of_ne_of_mem heq hmem) hstorable

private theorem valid_of_validateNodes {limits : Limits} {nodes previous : List NodeFact}
    (h : validateNodes limits previous nodes = .ok ()) :
    ∀ node ∈ nodes, node.node.isValid = true := by
  induction nodes generalizing previous with
  | nil => simp
  | cons first rest ih =>
      rw [validateNodes, seq_eq_ok] at h
      intro node hmem
      by_cases heq : node = first
      · subst heq
        have hnode := h.1
        simp only [validateNode, seq_eq_ok, failIf_eq_ok, Bool.not_eq_false'] at hnode
        exact hnode.1
      · exact ih h.2 node (List.mem_of_ne_of_mem heq hmem)

/-- Each link stands between two valid nodes, so its endpoints are valid. -/
private theorem readable_of_validateLinks {limits : Limits} {links : List LinkFact}
    {nodes : List NodeFact} (hcount : links.length < nodes.length)
    (hnodes : ∀ node ∈ nodes, node.node.isValid = true)
    (h : validateLinks limits links nodes = .ok ()) :
    ∀ link ∈ links, link.view.Storable limits → link.bandwidth.generation.Storable →
      link.Readable limits := by
  induction links generalizing nodes with
  | nil => simp
  | cons first rest ih =>
      match nodes, hcount, h with
      | [_], hcount, _ => simp at hcount
      | a :: b :: later, hcount, h =>
          rw [validateLinks, seq_eq_ok] at h
          intro link hmem hview hbandwidth
          by_cases heq : link = first
          · subst heq
            have hlink := h.1
            simp only [validateLink, seq_eq_ok, failIf_eq_ok, Bool.or_eq_false_iff,
              Bool.not_eq_false', listWithin_eq_true] at hlink
            obtain ⟨hvalid, hends, ⟨hdomains, hcapabilities⟩, -⟩ := hlink
            have ha := hnodes a (by simp)
            have hb := hnodes b (by simp)
            simp only [sameEndpoints, Bool.or_eq_true, Bool.and_eq_true, beq_iff_eq] at hends
            have hfirst : link.endpoints.1.isValid = true := by
              rcases hends with hends | hends
              · rwa [hends.1]
              · rwa [hends.1]
            have hsecond : link.endpoints.2.isValid = true := by
              rcases hends with hends | hends
              · rwa [hends.2]
              · rwa [hends.2]
            exact ⟨hvalid, hfirst, hsecond, hdomains, hcapabilities, hbandwidth, hview⟩
          · exact ih (by simpa using hcount)
              (fun node hnode => hnodes node (List.mem_cons_of_mem _ hnode)) h.2 link
              (List.mem_of_ne_of_mem heq hmem) hview hbandwidth

theorem isOk_eq_true {ε : Type} {program : Except ε Unit} :
    isOk program = true ↔ program = .ok () := by
  cases program with
  | ok _ => simp
  | error error => simp

theorem representable_iff {domain : GenerationDomain} {generation : Generation domain} :
    Generation.isRepresentable generation.value = true ↔
      generation.isValid = true ∧ generation.Storable := by
  simp [Generation.isRepresentable, Generation.isValid, Generation.Storable]

/-- What validation shares with the decoder of a candidate. -/
theorem readable_of_validateCandidate {candidate : CandidatePath} {limits : Limits}
    (h : validateCandidate candidate limits = .ok ()) :
    candidate.path.isValid = true ∧ candidate.authorityGeneration.isValid = true ∧
      candidate.nodes.length ≤ limits.maxNodesPerCandidate.toNat ∧
      candidate.links.length ≤ limits.maxLinksPerCandidate.toNat ∧
      candidate.policies.length ≤ limits.maxPoliciesPerCandidate.toNat ∧
      (∀ node ∈ candidate.nodes, node.view.Storable limits → node.Readable limits) ∧
      ∀ link ∈ candidate.links, link.view.Storable limits →
        link.bandwidth.generation.Storable → link.Readable limits := by
  simp only [validateCandidate, seq_eq_ok, failIf_eq_ok, Bool.not_eq_false',
    decide_eq_false_iff_not, bne_eq_false_iff_eq, listWithin_eq_true] at h
  obtain ⟨hpath, hauthority, -, htwo, hnodes, hlinks, hlinkLimit, -, hpolicies, hnodeFacts,
    hlinkFacts, -⟩ := h
  exact ⟨hpath, hauthority, hnodes, hlinkLimit, hpolicies,
    readable_of_validateNodes hnodeFacts,
    readable_of_validateLinks (by omega) (valid_of_validateNodes hnodeFacts) hlinkFacts⟩

theorem decodeCandidate_reads (limits : Limits) :
    Reads (2 ^ 32) (decodeCandidate limits) encodeCandidate fun candidate =>
      candidate.Storable limits ∧ validateCandidate candidate limits = .ok () := by
  intro candidate rest out hsize
  unfold encodeCandidate at hsize
  simp only [List.length_append, length_putU8, length_putU16, length_putU32,
    length_putI64, length_putBool, length_putId, length_putGeneration] at hsize
  have hnodes := @all_bind _ CandidatePath _ _ _ (readNode_reads limits)
    (fun _ => List.cons_ne_nil _ _) limits.maxNodesPerCandidate candidate.nodes
  have hlinks := @all_bind _ CandidatePath _ _ _ (readLink_reads limits)
    (fun _ => List.cons_ne_nil _ _) limits.maxLinksPerCandidate candidate.links
  have hevidence := fun rest => @bind_iff _ _ CandidatePath _ _ _ _ _
    (fun out => readEvidenceSet_reads candidate.evidence rest out (Nat.lt_succ_self _))
  unfold decodeCandidate encodeCandidate
  simp (disch := omega) only [readLatency, List.append_assoc,
    bind_assoc, pure_bind, id_bind, i64_bind, u32_bind, u64_bind, boolean_bind, generation_bind,
    generationField_bind, PathAuthorityVerdict.read_bind, PlannerCostModel.read_bind,
    LatencySource.read_bind, EvidenceProvenance.read_bind, padding8_bind, padding16_bind,
    padding32_bind, accept_bind, pure_eq_some, representable_iff, isOk_eq_true,
    Bool.and_eq_true, and_assoc, hnodes, hlinks, all_readPolicy_bind, hevidence]
  constructor
  · intro h
    obtain ⟨-, -, hauthority, hplanner, -, hnodes, -, hlinks, hmodelled, hobserved, -,
      hpolicies, hbound, hvalid, hout⟩ := h
    have hnodeViews : ∀ node ∈ candidate.nodes, node.view.Storable limits :=
      fun node hmem => (hnodes node hmem).view
    have hlinkViews : ∀ link ∈ candidate.links,
        link.view.Storable limits ∧ link.bandwidth.generation.Storable :=
      fun link hmem => ⟨(hlinks link hmem).view, (hlinks link hmem).bandwidth⟩
    exact ⟨⟨hauthority, hplanner, hnodeViews, hlinkViews, hmodelled, hobserved, hpolicies,
      hbound⟩, hvalid, hout⟩
  · intro h
    obtain ⟨hstorable, hvalid, hout⟩ := h
    obtain ⟨hpath, hauthority, hnodes, hlinks, hpolicies, hnodeFacts, hlinkFacts⟩ :=
      readable_of_validateCandidate hvalid
    exact ⟨hpath, hauthority, hstorable.authorityGeneration, hstorable.plannerGeneration,
      hnodes, fun node hmem => hnodeFacts node hmem (hstorable.nodes node hmem),
      hlinks, fun link hmem => hlinkFacts link hmem (hstorable.links link hmem).1
        (hstorable.links link hmem).2,
      hstorable.modelled, hstorable.observed, hpolicies, hstorable.policies,
      hstorable.evidence, hvalid, hout⟩

theorem encodeCandidate_ne_nil (candidate : CandidatePath) : encodeCandidate candidate ≠ [] := by
  apply List.ne_nil_of_length_pos
  unfold encodeCandidate
  simp only [List.length_append, length_putId]
  omega

/-! ## Constraint sets -/

theorem readId_reads {domain : IdentityDomain} :
    Reads (2 ^ 32) (do
      let id : StrongId domain ← ByteReader.id
      Verified.Readers.Reader.accept id.isValid
      return id) putId fun id => id.isValid = true := by
  intro value rest out _
  simp only [id_bind, accept_bind, pure_eq_some]

theorem readList_bind {domain : IdentityDomain} {γ : Type} {maxSize : UInt32}
    {ids : List (StrongId domain)} {rest : List UInt8}
    {next : List (StrongId domain) → ByteReader.Reader γ} {out : γ × List UInt8}
    (hsize : (putAll putId ids).length < 2 ^ 32) :
    (readList maxSize >>= next) (putAll putId ids ++ rest) = some out ↔
      (ids.length ≤ maxSize.toNat ∧ ∀ id ∈ ids, id.isValid = true) ∧
        next ids rest = some out :=
  all_bind readId_reads (fun _ => List.cons_ne_nil _ _) hsize

/-- What validation shares with the decoder of a constraint. -/
theorem readable_of_validateConstraint {constraint : Constraint} {limits : Limits}
    (h : validateConstraint constraint limits = .ok ()) :
    (constraint.id.isValid = true ∧ constraint.generation.isValid = true ∧
      constraint.kind ≠ .unset) ∧
    (constraint.nodes.length ≤ limits.maxEntityRefsPerConstraint.toNat ∧
      constraint.links.length ≤ limits.maxEntityRefsPerConstraint.toNat ∧
      constraint.tiers.length ≤ limits.maxEntityRefsPerConstraint.toNat ∧
      constraint.sites.length ≤ limits.maxEntityRefsPerConstraint.toNat ∧
      constraint.capabilities.length ≤ limits.maxEntityRefsPerConstraint.toNat ∧
      constraint.policies.length ≤ limits.maxEntityRefsPerConstraint.toNat) ∧
    ((∀ id ∈ constraint.nodes, id.isValid = true) ∧
      (∀ id ∈ constraint.links, id.isValid = true) ∧
      (∀ id ∈ constraint.tiers, id.isValid = true) ∧
      (∀ id ∈ constraint.sites, id.isValid = true) ∧
      (∀ id ∈ constraint.capabilities, id.isValid = true) ∧
      ∀ id ∈ constraint.policies, id.isValid = true) := by
  have hcommon := (seq_eq_ok.mp h).1
  simp only [validateConstraintCommon, seq_eq_ok, failIf_eq_ok, Bool.or_eq_false_iff,
    Bool.not_eq_false', decide_eq_false_iff_not, listWithin_eq_true, allValid,
    List.all_eq_true, and_assoc] at hcommon
  obtain ⟨hid, hgeneration, hkind, -, hn, hl, ht, hs, hc, hp, vn, vl, vt, vs, vc, vp, -⟩ :=
    hcommon
  exact ⟨⟨hid, hgeneration, hkind⟩, ⟨hn, hl, ht, hs, hc, hp⟩, vn, vl, vt, vs, vc, vp⟩

theorem encodeConstraint_ne_nil (constraint : Constraint) :
    encodeConstraint constraint ≠ [] := by
  apply List.ne_nil_of_length_pos
  unfold encodeConstraint
  simp only [List.length_append, length_putId]
  omega

theorem decodeConstraint_reads (limits : Limits) :
    Reads (2 ^ 32) (decodeConstraint limits) encodeConstraint fun constraint =>
      constraint.generation.Storable ∧ constraint.EntitiesAscending ∧
        validateConstraint constraint limits = .ok () := by
  intro constraint rest out hsize
  unfold encodeConstraint at hsize
  simp only [List.length_append, length_putU8, length_putU16, length_putU32,
    length_putI64, length_putId, length_putGeneration] at hsize
  unfold decodeConstraint encodeConstraint
  simp (disch := omega) only [List.append_assoc, id_bind, i64_bind,
    u32_bind, generation_bind, ConstraintKind.read_bind, ConstraintScope.read_bind,
    UnknownPolicy.read_bind, LatencySource.read_bind, DomainKind.read_bind,
    DomainRelation.read_bind, padding8_bind, accept_bind, pure_eq_some, representable_iff,
    isOk_eq_true, Bool.and_eq_true, and_assoc, readList_bind, bne_iff_ne]
  constructor
  · intro h
    obtain ⟨-, -, hgeneration, -, -, -, -, -, -, -, -, -, -, -, -, -, hn, hl, ht, hs, hc, hp,
      hvalid, hout⟩ := h
    exact ⟨hgeneration, ⟨hn, hl, ht, hs, hc, hp⟩, hvalid, hout⟩
  · intro h
    obtain ⟨hstorable, hentities, hvalid, hout⟩ := h
    obtain ⟨⟨hid, hgeneration, hkind⟩, ⟨hn, hl, ht, hs, hc, hp⟩, vn, vl, vt, vs, vc, vp⟩ :=
      readable_of_validateConstraint hvalid
    exact ⟨hid, hgeneration, hstorable, hkind, hn, vn, hl, vl, ht, vt, hs, vs, hc, vc, hp, vp,
      hentities.nodes, hentities.links, hentities.tiers, hentities.sites,
      hentities.capabilities, hentities.policies, hvalid, hout⟩

/-- Every required generation is at most the ceiling. -/
structure EvidenceRequirements.Storable (evidence : EvidenceRequirements) : Prop where
  topology : evidence.topology.Storable
  linkState : evidence.linkState.Storable
  capability : evidence.capability.Storable
  failureDomain : evidence.failureDomain.Storable
  policy : evidence.policy.Storable
  planner : evidence.planner.Storable
  pathAuthority : evidence.pathAuthority.Storable

theorem decodeEvidenceRequirements_reads :
    Reads (2 ^ 32) decodeEvidenceRequirements encodeEvidenceRequirements
      EvidenceRequirements.Storable := by
  intro evidence rest out _
  have hstorable : evidence.Storable ↔ evidence.topology.Storable ∧
      evidence.linkState.Storable ∧ evidence.capability.Storable ∧
      evidence.failureDomain.Storable ∧ evidence.policy.Storable ∧
      evidence.planner.Storable ∧ evidence.pathAuthority.Storable :=
    ⟨fun ⟨h1, h2, h3, h4, h5, h6, h7⟩ => ⟨h1, h2, h3, h4, h5, h6, h7⟩,
     fun ⟨h1, h2, h3, h4, h5, h6, h7⟩ => ⟨h1, h2, h3, h4, h5, h6, h7⟩⟩
  simp only [decodeEvidenceRequirements, encodeEvidenceRequirements, hstorable,
    Generation.Storable, List.append_assoc, generationField_bind, u64_bind, pure_eq_some,
    and_assoc]

/-- What the format asks of a canonical set. -/
structure ConstraintSet.Storable (limits : Limits) (set : ConstraintSet) : Prop where
  generation : set.generation.Storable
  name : set.name.length ≤ limits.maxNameBytes.toNat
  evidence : set.evidence.Storable
  constraints : ∀ constraint ∈ set.constraints, constraint.generation.Storable

theorem decodeConstraintSet_reads (limits : Limits) :
    Reads (2 ^ 32) (decodeConstraintSet limits) encodeConstraintSet fun set =>
      set.Storable limits ∧ verifyCanonicalConstraintSet set limits = .ok () := by
  intro set rest out hsize
  unfold encodeConstraintSet at hsize
  simp only [List.length_append, length_putU8, length_putU16, length_putU32, length_putU64,
    length_putId, length_putGeneration] at hsize
  have hname : set.name.length < 2 ^ 32 := by
    have hstring : (putString set.name).length < 2 ^ 32 := by omega
    rw [putString, List.length_append] at hstring
    exact Nat.lt_of_le_of_lt (Nat.le_add_left _ _) hstring
  have hevidence := fun rest => @bind_iff _ _ ConstraintSet _ _ _ _ _
    (fun out => decodeEvidenceRequirements_reads set.evidence rest out (by omega))
  have hconstraints := @all_bind _ ConstraintSet _ _ _ (decodeConstraint_reads limits)
    encodeConstraint_ne_nil limits.maxConstraintsPerSet set.constraints
  unfold decodeConstraintSet encodeConstraintSet
  simp (disch := omega) only [decodeRankingPolicy, encodeRankingPolicy, List.append_assoc,
    bind_assoc, pure_bind, id_bind, u64_bind, boolean_bind, generation_bind,
    ConstraintSetState.read_bind, PlannerCostModel.read_bind, CandidateTiebreak.read_bind,
    padding8_bind, padding16_bind, padding32_bind, string_bind, digest_bind, accept_bind,
    pure_eq_some, representable_iff, isOk_eq_true, listWithin_eq_true, Bool.and_eq_true,
    and_assoc, hevidence, hconstraints]
  constructor
  · intro h
    obtain ⟨-, -, hgeneration, hname, hevidence, -, hconstraints, hvalid, hout⟩ := h
    exact ⟨⟨hgeneration, hname, hevidence, fun constraint hmem =>
      (hconstraints constraint hmem).1⟩, hvalid, hout⟩
  · intro h
    obtain ⟨hstorable, hvalid, hout⟩ := h
    obtain ⟨hcontent, hgeneration, -⟩ := verifyCanonicalConstraintSet_eq_ok_iff.mp hvalid
    have hconstraints : ∀ constraint ∈ set.constraints, constraint.generation.Storable ∧
        constraint.EntitiesAscending ∧ validateConstraint constraint limits = .ok () :=
      fun constraint hmem => ⟨hstorable.constraints constraint hmem,
        hcontent.constraints.entities constraint hmem,
        hcontent.constraints.valid constraint hmem⟩
    exact ⟨hcontent.id, hgeneration, hstorable.generation, hstorable.name,
      hstorable.evidence, listWithin_eq_true.mp hcontent.size, hconstraints, hvalid, hout⟩

theorem encodeConstraintSet_ne_nil (set : ConstraintSet) : encodeConstraintSet set ≠ [] := by
  apply List.ne_nil_of_length_pos
  unfold encodeConstraintSet
  simp only [List.length_append, length_putId]
  omega

/-! ## Records -/

theorem readReason_reads {bound : Nat} :
    Reads bound readReason writeReason fun reason =>
      reasonClassOf reason.code = reason.reasonClass := by
  intro reason rest out _
  unfold readReason writeReason
  simp only [List.append_assoc, id_bind, u32_bind, u64_bind, ReasonCode.read_bind,
    ReasonClass.read_bind, EvidenceFamily.read_bind, SubjectKind.read_bind,
    ConstraintKind.read_bind, padding8_bind, padding16_bind, accept_bind, pure_eq_some,
    decide_eq_true_eq]

theorem readPreference_reads {bound : Nat} :
    Reads bound readPreference writePreference fun _ => True := by
  intro slot rest out _
  unfold readPreference writePreference
  simp only [List.append_assoc, id_bind, u32_bind, i64_bind, boolean_bind,
    ConstraintKind.read_bind, padding16_bind, pure_eq_some, true_and]

/-- What the format asks of a valid record. -/
structure EvaluationRecord.Storable (limits : Limits) (record : EvaluationRecord) :
    Prop where
  id : record.id.isValid = true
  generation : record.generation.Storable
  setGeneration : Generation.isRepresentable record.setGeneration.value = true
  authorityGeneration : record.authorityGeneration.Storable
  epoch : record.provenance.epoch.Storable
  evidence : record.evidence.Storable
  preferences : record.preferences.length ≤ limits.maxConstraintsPerSet.toNat

/-- A record whose collections fit their counts is read back exactly when it is storable
and valid. -/
theorem decodeEvaluation_iff {limits : Limits} {record : EvaluationRecord}
    (hreasons : record.reasons.length < 2 ^ 32)
    (hpreferences : record.preferences.length < 2 ^ 32) (rest : List UInt8)
    (out : EvaluationRecord × List UInt8) :
    decodeEvaluation limits (encodeEvaluation record ++ rest) = some out ↔
      (record.Storable limits ∧ record.Valid limits) ∧ (record, rest) = out := by
  have hevidence := fun rest => @bind_iff _ _ EvaluationRecord _ _ _ _ _
    (fun out => readEvidenceSet_reads record.evidence rest out (Nat.lt_succ_self _))
  have hreason : ∀ reason ∈ record.reasons, ∀ rest out,
      readReason (writeReason reason ++ rest) = some out ↔
        reasonClassOf reason.code = reason.reasonClass ∧ (reason, rest) = out :=
    fun reason _ rest out => readReason_reads reason rest out (Nat.lt_succ_self _)
  have hslot : ∀ slot ∈ record.preferences, ∀ rest out,
      readPreference (writePreference slot ++ rest) = some out ↔ True ∧ (slot, rest) = out :=
    fun slot _ rest out => readPreference_reads slot rest out (Nat.lt_succ_self _)
  have hreasonList := fun rest next out => @all_bind_of_length _ EvaluationRecord _ _ _
    limits.maxExplanationReasons record.reasons rest next out hreason hreasons
  have hpreferenceList := fun rest next out => @all_bind_of_length _ EvaluationRecord _ _ _
    limits.maxConstraintsPerSet record.preferences rest next out hslot hpreferences
  unfold decodeEvaluation encodeEvaluation
  simp only [decodeProvenance, encodeProvenance, List.append_assoc,
    bind_assoc, pure_bind, id_bind, u32_bind, u64_bind, boolean_bind, generation_bind,
    generationField_bind, Outcome.read_bind, ReasonCode.read_bind, ResultState.read_bind,
    digest_bind, accept_bind, pure_eq_some, Bool.and_eq_true, decide_eq_true_eq, and_assoc,
    hevidence, hreasonList, hpreferenceList]
  constructor
  · intro h
    obtain ⟨hid, hgeneration, hset, hsetGeneration, hpath, hauthority, hepoch, hevidence,
      hsize, hclasses, hordered, hprimary, hpreferences, -, hout⟩ := h
    obtain ⟨vgeneration, sgeneration⟩ := representable_iff.mp hgeneration
    obtain ⟨vauthority, sauthority⟩ := representable_iff.mp hauthority
    exact ⟨⟨hid, sgeneration, hsetGeneration, sauthority, hepoch, hevidence, hpreferences⟩,
      ⟨hset, hpath, vauthority, vgeneration, hclasses, hordered, hprimary, hsize⟩, hout⟩
  · intro h
    obtain ⟨hstorable, hvalid, hout⟩ := h
    exact ⟨hstorable.id,
      representable_iff.mpr ⟨hvalid.generation, hstorable.generation⟩, hvalid.setId,
      hstorable.setGeneration, hvalid.path,
      representable_iff.mpr ⟨hvalid.authorityGeneration, hstorable.authorityGeneration⟩,
      hstorable.epoch, hstorable.evidence, hvalid.reasons.size, hvalid.reasons.classes,
      hvalid.reasons.ordered, hvalid.reasons.primary, hstorable.preferences,
      fun _ _ => trivial, hout⟩

theorem decodeEvaluation_reads (limits : Limits) :
    Reads (2 ^ 32) (decodeEvaluation limits) encodeEvaluation fun record =>
      record.Storable limits ∧ record.Valid limits := by
  intro record rest out hsize
  unfold encodeEvaluation at hsize
  simp only [List.length_append, putAll] at hsize
  have hreasons := @Reads.length_le_flatMap _ _ writeReason (fun _ => List.cons_ne_nil _ _)
    record.reasons
  have hpreferences := @Reads.length_le_flatMap _ _ writePreference
    (fun _ => List.cons_ne_nil _ _) record.preferences
  exact decodeEvaluation_iff (by omega) (by omega) rest out

theorem encodeEvaluation_ne_nil (record : EvaluationRecord) : encodeEvaluation record ≠ [] := by
  apply List.ne_nil_of_length_pos
  unfold encodeEvaluation
  simp only [List.length_append, length_putId]
  omega

end ConstraintRouting.Fabric
