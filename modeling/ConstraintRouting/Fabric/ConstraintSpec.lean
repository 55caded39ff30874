import Mathlib.Data.Finset.Card
import ConstraintRouting.Fabric.CandidateSpec

/-!
# The declarative meaning of a constraint

`Constraint.Holds` says what one constraint demands of a candidate; it mentions no
reason and no ordinal.  Each check of the evaluator is shown to push nothing
exactly when its constraint holds.
-/

namespace ConstraintRouting.Fabric

open Verified.SortedLists
open Verified.Checks (seq_eq_ok)

/-! ## Declarative constraints -/

/-- The distinct domains of a kind over the entities of a path. -/
def domainsOfKind (candidate : CandidatePath) (kind : DomainKind) : Finset FailureDomainId :=
  ((entitiesOf candidate).flatMap fun entity =>
    (entity.domains.filter (·.kind = kind)).map (·.domain)).toFinset

/-- Every entity of the path carries a domain of the kind. -/
def CoversDomainKind (candidate : CandidatePath) (kind : DomainKind) : Prop :=
  ∀ entity ∈ entitiesOf candidate, ∃ ref ∈ entity.domains, ref.kind = kind

/-- Every node carries the attribute, with a value of the list. -/
def AllNodesIn {domain : IdentityDomain} (fact : NodeFact → StrongId domain)
    (allowed : List (StrongId domain)) (candidate : CandidatePath) : Prop :=
  ∀ node ∈ candidate.nodes, (fact node).isValid = true ∧ fact node ∈ allowed

/-- No node carries an attribute of the list, and an unset one is permitted. -/
def NoNodeIn {domain : IdentityDomain} (fact : NodeFact → StrongId domain)
    (policy : UnknownPolicy) (forbidden : List (StrongId domain))
    (candidate : CandidatePath) : Prop :=
  ∀ node ∈ candidate.nodes,
    if (fact node).isValid then fact node ∉ forbidden
    else policy = .permitUnknownNegative

/-- What a constraint demands of a candidate under the required generations. -/
def Constraint.Holds (constraint : Constraint) (candidate : CandidatePath)
    (current : EvidenceRequirements) : Prop :=
  match constraint.kind with
  | .maxLatency =>
      candidate.latency.source ≠ .unset ∧
        candidate.latency.source = constraint.latencySource ∧
        candidate.latency.micros ≤ constraint.bound
  | .minBandwidthCapability =>
      ∀ link ∈ candidate.links, link.bandwidth.model ≠ .none ∧
        link.bandwidth.generation = current.capability ∧
        constraint.bound ≤ link.bandwidth.bitsPerSecond
  | .maxHopCount => (candidate.hopCount.toNat : Int) ≤ constraint.bound.toInt
  | .requiredNode => ∀ id ∈ constraint.nodes, id ∈ candidate.nodes.map (·.node)
  | .forbiddenNode => ∀ id ∈ constraint.nodes, id ∉ candidate.nodes.map (·.node)
  | .requiredLink => ∀ id ∈ constraint.links, id ∈ candidate.links.map (·.link)
  | .forbiddenLink => ∀ id ∈ constraint.links, id ∉ candidate.links.map (·.link)
  | .requiredTier => AllNodesIn (·.tier) constraint.tiers candidate
  | .forbiddenTier =>
      NoNodeIn (·.tier) constraint.unknownPolicy constraint.tiers candidate
  | .requiredSite => AllNodesIn (·.site) constraint.sites candidate
  | .forbiddenSite =>
      NoNodeIn (·.site) constraint.unknownPolicy constraint.sites candidate
  | .localityScope =>
      ∀ node ∈ candidate.nodes,
        ⟨constraint.domainKind, constraint.localityDomain⟩ ∈ node.localities
  | .isolationClass =>
      ∀ entity ∈ entitiesOf candidate,
        ⟨constraint.isolationClass, current.failureDomain⟩ ∈ entity.isolation
  | .requiredCapability =>
      ∀ wanted ∈ constraint.capabilities, ∀ entity ∈ entitiesOf candidate,
        ⟨wanted, current.capability⟩ ∈ entity.capabilities
  | .forbiddenCapability =>
      ∀ forbidden ∈ constraint.capabilities, ∀ entity ∈ entitiesOf candidate,
        constraint.unknownPolicy = .permitUnknownNegative ∧
          ∀ ref ∈ entity.capabilities, ref.capability ≠ forbidden
  | .requiredFailureDomainRelation =>
      CoversDomainKind candidate constraint.domainKind ∧
        constraint.bound.toInt ≤ (domainsOfKind candidate constraint.domainKind).card
  | .forbiddenFailureDomainRelation =>
      (CoversDomainKind candidate constraint.domainKind ∨
        constraint.unknownPolicy = .permitUnknownNegative) ∧
      if constraint.domainRelation = .shared then
        ¬ (CoversDomainKind candidate constraint.domainKind ∧
          (domainsOfKind candidate constraint.domainKind).card = 1)
      else (domainsOfKind candidate constraint.domainKind).card < constraint.bound.toInt
  | .administrativePolicy =>
      ∀ wanted ∈ constraint.policies, ⟨wanted, current.policy⟩ ∈ candidate.policies
  | .unset => True

/-! ## Checks of single facts -/

section Checks

variable {constraint : Constraint} {ordinal : UInt32} {candidate : CandidatePath}
  {current : EvidenceRequirements}

private theorem checkMaxLatency_eq_nil_iff :
    checkMaxLatency constraint ordinal candidate = [] ↔
      candidate.latency.source ≠ .unset ∧
        candidate.latency.source = constraint.latencySource ∧
        candidate.latency.micros ≤ constraint.bound := by
  simp only [checkMaxLatency]
  split
  · simp_all
  · split
    · simp_all
    · split
      · next hexceeded =>
          simp [Int64.not_le.mpr hexceeded]
      · next hwithin =>
          simp_all [Int64.not_lt.mp hwithin]

theorem checkMaxHopCount_eq_nil_iff :
    checkMaxHopCount constraint ordinal candidate = [] ↔
      (candidate.hopCount.toNat : Int) ≤ constraint.bound.toInt := by
  have hsmall : candidate.hopCount.toNat < 2 ^ 63 := by
    have := candidate.hopCount.toNat_lt
    omega
  simp only [checkMaxHopCount, CandidatePath.hops, Int64.lt_iff_toInt_lt,
    Int64.toInt_ofNat_of_lt hsmall]
  split
  · simp_all
  · simp_all

theorem checkRequiredEntity_eq_nil_iff {domain : IdentityDomain}
    {code : ReasonCode} {subjectKind : SubjectKind} {wanted present : List (StrongId domain)} :
    checkRequiredEntity constraint ordinal code subjectKind wanted present = [] ↔
      ∀ id ∈ wanted, id ∈ present := by
  simp [checkRequiredEntity]

theorem checkForbiddenEntity_eq_nil_iff {domain : IdentityDomain}
    {code : ReasonCode} {subjectKind : SubjectKind}
    {forbidden present : List (StrongId domain)} :
    checkForbiddenEntity constraint ordinal code subjectKind forbidden present = [] ↔
      ∀ id ∈ forbidden, id ∉ present := by
  simp only [checkForbiddenEntity, List.flatMap_eq_nil_iff, List.map_eq_nil_iff,
    List.filter_eq_nil_iff, beq_iff_eq]
  constructor
  · intro h id hid hpresent
    exact h id hid id hpresent rfl
  · rintro h id hid other hother rfl
    exact h other hid hother

theorem checkRequiredMembership_eq_nil_iff {domain : IdentityDomain}
    {unavailable notMet : ReasonCode} {fact : NodeFact → StrongId domain}
    {allowed : List (StrongId domain)} :
    checkRequiredMembership constraint ordinal unavailable notMet fact allowed candidate =
        [] ↔
      AllNodesIn fact allowed candidate := by
  simp only [checkRequiredMembership, List.flatMap_eq_nil_iff, AllNodesIn]
  refine forall₂_congr fun node _ => ?_
  split
  · simp_all
  · split <;> simp_all

theorem checkForbiddenMembership_eq_nil_iff {domain : IdentityDomain}
    {unavailable present : ReasonCode} {fact : NodeFact → StrongId domain}
    {forbidden : List (StrongId domain)} :
    checkForbiddenMembership constraint ordinal unavailable present fact forbidden
        candidate = [] ↔
      NoNodeIn fact constraint.unknownPolicy forbidden candidate := by
  simp only [checkForbiddenMembership, List.flatMap_eq_nil_iff, NoNodeIn]
  refine forall₂_congr fun node _ => ?_
  cases hvalid : (fact node).isValid with
  | true => by_cases hmem : fact node ∈ forbidden <;> simp [hmem]
  | false => cases constraint.unknownPolicy <;> simp

/-! ## Checks of looked-up evidence -/

/-- A check of evidence looked up by its key pushes nothing exactly when the list
attests it, provided that it refuses an absent and every other entry. -/
private theorem attested_iff {ρ : Type} {found : Option ρ} {values : List ρ}
    {wanted : ρ → Prop} {attested : ρ} {reasons : List Reason}
    (hfound : ∀ ref, found = some ref ↔ ref ∈ values ∧ wanted ref)
    (hwanted : wanted attested) (habsent : found = none → reasons ≠ [])
    (hpresent : ∀ ref, found = some ref → wanted ref → (reasons = [] ↔ ref = attested)) :
    reasons = [] ↔ attested ∈ values := by
  constructor
  · intro hnil
    cases hcase : found with
    | none => exact absurd hnil (habsent hcase)
    | some ref =>
        obtain ⟨hmem, hkey⟩ := (hfound ref).mp hcase
        exact (hpresent ref hcase hkey).mp hnil ▸ hmem
  · intro hmem
    have hcase := (hfound attested).mpr ⟨hmem, hwanted⟩
    exact (hpresent attested hcase hwanted).mpr rfl

private theorem findLocality_eq_some_iff {values : List LocalityRef} {kind : DomainKind}
    (hascending : strictlyAscending LocalityRef.cmp values = true)
    (hdistinct : (values.map (·.kind)).Nodup) (ref : LocalityRef) :
    findLocality values kind = some ref ↔ ref ∈ values ∧ ref.kind = kind := by
  have hcodes := hdistinct.map DomainKind.code_injective
  rw [List.map_map] at hcodes
  unfold findLocality
  rw [findByKey_eq_some_iff (keys_ascending hascending hcodes),
    DomainKind.code_injective.eq_iff]

private theorem findDomain_eq_some_iff {values : List FailureDomainRef} {kind : DomainKind}
    (hascending : strictlyAscending FailureDomainRef.cmp values = true)
    (hdistinct : (values.map (·.kind)).Nodup) (ref : FailureDomainRef) :
    findDomain values kind = some ref ↔ ref ∈ values ∧ ref.kind = kind := by
  have hcodes := hdistinct.map DomainKind.code_injective
  rw [List.map_map] at hcodes
  unfold findDomain
  rw [findByKey_eq_some_iff (keys_ascending hascending hcodes),
    DomainKind.code_injective.eq_iff]

private theorem findCapability_eq_some_iff {values : List CapabilityRef}
    {capability : CapabilityId}
    (hascending : strictlyAscending CapabilityRef.cmp values = true)
    (hdistinct : (values.map (·.capability)).Nodup) (ref : CapabilityRef) :
    findCapability values capability = some ref ↔
      ref ∈ values ∧ ref.capability = capability :=
  findByKey_eq_some_iff (keys_ascending hascending hdistinct)

private theorem findIsolation_eq_some_iff {values : List IsolationAttestation}
    {isolationClass : IsolationClassId}
    (hascending : strictlyAscending IsolationAttestation.cmp values = true)
    (hdistinct : (values.map (·.isolationClass)).Nodup) (ref : IsolationAttestation) :
    findIsolation values isolationClass = some ref ↔
      ref ∈ values ∧ ref.isolationClass = isolationClass :=
  findByKey_eq_some_iff (keys_ascending hascending hdistinct)

private theorem findPolicy_eq_some_iff {values : List PolicyAttestation} {policy : PolicyId}
    (hascending : strictlyAscending PolicyAttestation.cmp values = true)
    (hdistinct : (values.map (·.policy)).Nodup) (ref : PolicyAttestation) :
    findPolicy values policy = some ref ↔ ref ∈ values ∧ ref.policy = policy :=
  findByKey_eq_some_iff (keys_ascending hascending hdistinct)

theorem incompleteReasons_ne_nil {scan : DomainScan}
    (hincomplete : scan.complete = false) :
    incompleteReasons constraint ordinal scan ≠ [] := by
  unfold DomainScan.complete at hincomplete
  cases hscan : scan.incomplete with
  | nil => simp [hscan] at hincomplete
  | cons first rest => simp [incompleteReasons, hscan]

/-- The number of domains of a kind fits 64 bits. -/
theorem distinct_toInt {candidate : CandidatePath} (hformed : candidate.WellFormed)
    (kind : DomainKind) :
    (scanDomains candidate kind).distinct.toInt = (scanDomains candidate kind).domains.length := by
  have hdedup := (List.dedup_sublist ((entitiesOf candidate).filterMap fun entity =>
    (findDomain entity.domains kind).map (·.domain.value))).length_le
  have hfilter := List.length_filterMap_le (fun entity : EntityView =>
    (findDomain entity.domains kind).map (·.domain.value)) (entitiesOf candidate)
  have hcount := hformed.entityCount
  apply Int64.toInt_ofNat_of_lt
  unfold scanDomains
  dsimp only
  omega

section Evidence

variable (hformed : candidate.WellFormed) (hdistinct : candidate.NoRepeatedEvidence)
include hformed hdistinct

private theorem checkLocalityScope_eq_nil_iff :
    checkLocalityScope constraint ordinal candidate = [] ↔
      ∀ node ∈ candidate.nodes,
        ⟨constraint.domainKind, constraint.localityDomain⟩ ∈ node.localities := by
  simp only [checkLocalityScope, List.flatMap_eq_nil_iff]
  refine forall₂_congr fun node hnode => ?_
  refine attested_iff
    (findLocality_eq_some_iff (hformed.localities node hnode)
      (hdistinct.localities node hnode)) rfl ?_ ?_
  · intro hcase
    simp [hcase]
  · rintro ⟨kind, domain⟩ hcase rfl
    simp [hcase]

private theorem checkIsolationClass_eq_nil_iff :
    checkIsolationClass constraint ordinal candidate current = [] ↔
      ∀ entity ∈ entitiesOf candidate,
        ⟨constraint.isolationClass, current.failureDomain⟩ ∈ entity.isolation := by
  simp only [checkIsolationClass, List.flatMap_eq_nil_iff]
  refine forall₂_congr fun entity hentity => ?_
  refine attested_iff
    (findIsolation_eq_some_iff (hformed.entities entity hentity).isolation
      (hdistinct.entities entity hentity).isolation) rfl ?_ ?_
  · intro hcase
    dsimp only at hcase
    simp only [hcase]
    cases entity.isolation <;> simp
  · rintro ⟨isolationClass, generation⟩ hcase rfl
    simp [hcase]

private theorem checkRequiredCapability_eq_nil_iff :
    checkRequiredCapability constraint ordinal candidate current = [] ↔
      ∀ wanted ∈ constraint.capabilities, ∀ entity ∈ entitiesOf candidate,
        ⟨wanted, current.capability⟩ ∈ entity.capabilities := by
  simp only [checkRequiredCapability, List.flatMap_eq_nil_iff]
  refine forall₂_congr fun wanted _ => forall₂_congr fun entity hentity => ?_
  refine attested_iff
    (findCapability_eq_some_iff (hformed.entities entity hentity).capabilities
      (hdistinct.entities entity hentity).capabilities) rfl ?_ ?_
  · intro hcase
    simp [hcase]
  · rintro ⟨capability, generation⟩ hcase rfl
    simp [hcase]

private theorem checkAdministrativePolicy_eq_nil_iff :
    checkAdministrativePolicy constraint ordinal candidate current = [] ↔
      ∀ wanted ∈ constraint.policies, ⟨wanted, current.policy⟩ ∈ candidate.policies := by
  simp only [checkAdministrativePolicy, List.flatMap_eq_nil_iff]
  refine forall₂_congr fun wanted _ => ?_
  refine attested_iff (findPolicy_eq_some_iff hformed.policies hdistinct.policies) rfl ?_ ?_
  · intro hcase
    simp [hcase]
  · rintro ⟨policy, generation⟩ hcase rfl
    simp [hcase]

/-- A forbidden capability is refused when found, whatever its generation, and
when absent unless its absence is permitted. -/
private theorem checkForbiddenCapability_eq_nil_iff :
    checkForbiddenCapability constraint ordinal candidate current = [] ↔
      ∀ forbidden ∈ constraint.capabilities, ∀ entity ∈ entitiesOf candidate,
        constraint.unknownPolicy = .permitUnknownNegative ∧
          ∀ ref ∈ entity.capabilities, ref.capability ≠ forbidden := by
  simp only [checkForbiddenCapability, List.flatMap_eq_nil_iff]
  refine forall₂_congr fun forbidden _ => forall₂_congr fun entity hentity => ?_
  have hfound (ref : CapabilityRef) :
      findCapability entity.capabilities forbidden = some ref ↔
        ref ∈ entity.capabilities ∧ ref.capability = forbidden :=
    findCapability_eq_some_iff (hformed.entities entity hentity).capabilities
      (hdistinct.entities entity hentity).capabilities ref
  cases hcase : findCapability entity.capabilities forbidden with
  | none =>
      have habsent : ∀ ref ∈ entity.capabilities, ref.capability ≠ forbidden := by
        intro ref hmem hkey
        rw [(hfound ref).mpr ⟨hmem, hkey⟩] at hcase
        cases hcase
      cases constraint.unknownPolicy with
      | failClosed => simp
      | permitUnknownNegative => simpa using habsent
  | some ref =>
      obtain ⟨hmem, hkey⟩ := (hfound ref).mp hcase
      have hpresent : ¬ ∀ ref ∈ entity.capabilities, ref.capability ≠ forbidden :=
        fun h => h ref hmem hkey
      by_cases hstale : ref.generation ≠ current.capability <;> simp [hstale, hpresent]

/-! ### Failure domains -/

private theorem findDomain_isSome_iff {entity : EntityView} {kind : DomainKind}
    (hentity : entity ∈ entitiesOf candidate) :
    (findDomain entity.domains kind).isSome = true ↔
      ∃ ref ∈ entity.domains, ref.kind = kind := by
  simp only [Option.isSome_iff_exists,
    findDomain_eq_some_iff (hformed.entities entity hentity).domains
      (hdistinct.entities entity hentity).domains]

private theorem scan_complete_iff {kind : DomainKind} :
    (scanDomains candidate kind).complete = true ↔ CoversDomainKind candidate kind := by
  simp only [DomainScan.complete, scanDomains, List.isEmpty_iff, List.filter_eq_nil_iff,
    CoversDomainKind]
  refine forall₂_congr fun entity hentity => ?_
  rw [← findDomain_isSome_iff hformed hdistinct hentity]
  cases findDomain entity.domains kind <;> simp

private theorem mem_scan_domains_iff {kind : DomainKind} {value : UInt64} :
    value ∈ (scanDomains candidate kind).domains ↔
      ∃ domain ∈ domainsOfKind candidate kind, domain.value = value := by
  simp only [scanDomains, List.mem_dedup, List.mem_filterMap, Option.map_eq_some_iff,
    domainsOfKind, List.mem_toFinset, List.mem_flatMap, List.mem_map, List.mem_filter,
    decide_eq_true_eq]
  constructor
  · rintro ⟨entity, hentity, ref, hfound, hvalue⟩
    obtain ⟨hmem, hkind⟩ := (findDomain_eq_some_iff
      (hformed.entities entity hentity).domains
      (hdistinct.entities entity hentity).domains ref).mp hfound
    exact ⟨ref.domain, ⟨entity, hentity, ref, ⟨hmem, hkind⟩, rfl⟩, hvalue⟩
  · rintro ⟨domain, ⟨entity, hentity, ref, ⟨hmem, hkind⟩, hdomain⟩, hvalue⟩
    refine ⟨entity, hentity, ref, ?_, by rw [hdomain, hvalue]⟩
    exact (findDomain_eq_some_iff (hformed.entities entity hentity).domains
      (hdistinct.entities entity hentity).domains ref).mpr ⟨hmem, hkind⟩

private theorem scan_domains_length {kind : DomainKind} :
    (scanDomains candidate kind).domains.length = (domainsOfKind candidate kind).card := by
  have hnodup : (scanDomains candidate kind).domains.Nodup := List.nodup_dedup _
  have hinjective : Function.Injective (StrongId.value : FailureDomainId → UInt64) :=
    fun _ _ h => StrongId.ext h
  have himage : (scanDomains candidate kind).domains.toFinset =
      (domainsOfKind candidate kind).image StrongId.value := by
    ext value
    rw [List.mem_toFinset, Finset.mem_image, mem_scan_domains_iff hformed hdistinct]
  rw [← List.toFinset_card_of_nodup hnodup, himage,
    Finset.card_image_of_injective _ hinjective]

private theorem scan_distinct_toInt {kind : DomainKind} :
    (scanDomains candidate kind).distinct.toInt = (domainsOfKind candidate kind).card := by
  rw [distinct_toInt hformed, scan_domains_length hformed hdistinct]

private theorem checkRequiredDomainRelation_eq_nil_iff :
    checkRequiredDomainRelation constraint ordinal candidate = [] ↔
      CoversDomainKind candidate constraint.domainKind ∧
        constraint.bound.toInt ≤ (domainsOfKind candidate constraint.domainKind).card := by
  rw [← scan_complete_iff hformed hdistinct, ← scan_distinct_toInt hformed hdistinct,
    ← Int64.le_iff_toInt_le]
  simp only [checkRequiredDomainRelation]
  cases hcomplete : (scanDomains candidate constraint.domainKind).complete with
  | false => simp [incompleteReasons_ne_nil hcomplete]
  | true =>
      by_cases hbelow :
          (scanDomains candidate constraint.domainKind).distinct < constraint.bound
      · simp [hbelow]
      · simp [hbelow, Int64.not_lt.mp hbelow]

private theorem checkForbiddenDomainRelation_eq_nil_iff :
    checkForbiddenDomainRelation constraint ordinal candidate = [] ↔
      (CoversDomainKind candidate constraint.domainKind ∨
        constraint.unknownPolicy = .permitUnknownNegative) ∧
      if constraint.domainRelation = .shared then
        ¬ (CoversDomainKind candidate constraint.domainKind ∧
          (domainsOfKind candidate constraint.domainKind).card = 1)
      else
        (domainsOfKind candidate constraint.domainKind).card < constraint.bound.toInt := by
  rw [← scan_complete_iff hformed hdistinct, ← scan_distinct_toInt hformed hdistinct,
    ← scan_domains_length hformed hdistinct, ← Int64.lt_iff_toInt_lt]
  simp only [checkForbiddenDomainRelation]
  generalize hscan : scanDomains candidate constraint.domainKind = scan
  by_cases hrelation : constraint.domainRelation = .shared
  · simp only [hrelation, if_true]
    cases hcomplete : scan.complete with
    | false =>
        cases constraint.unknownPolicy with
        | failClosed => simp [incompleteReasons_ne_nil hcomplete]
        | permitUnknownNegative =>
            simp only [Bool.not_false, Bool.true_and, reduceCtorEq, decide_false,
              Bool.false_eq_true, if_false]
            split <;> simp
    | true =>
        match hdomains : scan.domains with
        | [] => simp
        | [_] => simp
        | _ :: _ :: _ => simp
  · simp only [hrelation, if_false]
    cases hcomplete : scan.complete with
    | false =>
        cases constraint.unknownPolicy with
        | failClosed => simp [incompleteReasons_ne_nil hcomplete]
        | permitUnknownNegative => simp
    | true => simp

end Evidence

/-! ### Bandwidth -/

/-- A link whose bandwidth the bottleneck may count. -/
private def Usable (required : CapabilityGeneration) (link : LinkFact) : Prop :=
  link.bandwidth.model ≠ .none ∧ link.bandwidth.generation = required ∧
    0 ≤ link.bandwidth.bitsPerSecond

private theorem not_usable_iff {required : CapabilityGeneration} {link : LinkFact} :
    (decide (link.bandwidth.model = .none) || link.bandwidth.generation != required ||
      decide (link.bandwidth.bitsPerSecond < 0)) = true ↔ ¬ Usable required link := by
  simp only [Usable, Bool.or_eq_true, decide_eq_true_eq, bne_iff_ne, ← Int64.not_le]
  tauto

/-- The folded minimum reaches the bound exactly when every link is usable and
reaches it. -/
private theorem bottleneckFrom_reaches_iff {required : CapabilityGeneration}
    {bound narrowest : Int64} {links : List LinkFact} :
    (∃ bottleneck, bottleneckFrom required (some narrowest) links = some bottleneck ∧
        bound ≤ bottleneck) ↔
      bound ≤ narrowest ∧ ∀ link ∈ links,
        Usable required link ∧ bound ≤ link.bandwidth.bitsPerSecond := by
  induction links generalizing narrowest with
  | nil => simp [bottleneckFrom]
  | cons link rest ih =>
      rw [bottleneckFrom, List.forall_mem_cons]
      split
      · next hguard =>
          have hunusable := not_usable_iff.mp hguard
          simp [hunusable]
      · next hguard =>
          have husable : Usable required link :=
            not_not.mp fun h => hguard (not_usable_iff.mpr h)
          rw [ih]
          split
          · next hbelow =>
              have hstep : bound ≤ link.bandwidth.bitsPerSecond → bound ≤ narrowest :=
                fun h => Int64.le_trans h (Int64.le_of_lt hbelow)
              tauto
          · next habove =>
              have hstep : bound ≤ narrowest → bound ≤ link.bandwidth.bitsPerSecond :=
                fun h => Int64.le_trans h (Int64.not_lt.mp habove)
              tauto

/-- The bound is checked against the bottleneck of the path. -/
private theorem checkMinBandwidth_reaches :
    checkMinBandwidth constraint ordinal candidate current = [] ↔
      ∃ bottleneck, pathBandwidthCapability candidate current.capability = some bottleneck ∧
        constraint.bound ≤ bottleneck := by
  unfold checkMinBandwidth
  cases pathBandwidthCapability candidate current.capability with
  | none => simp
  | some bottleneck =>
      by_cases hbelow : bottleneck < constraint.bound
      · simp [hbelow]
      · simp [hbelow, Int64.not_lt.mp hbelow]

private theorem checkMinBandwidth_eq_nil_iff (hformed : candidate.WellFormed) :
    checkMinBandwidth constraint ordinal candidate current = [] ↔
      ∀ link ∈ candidate.links, link.bandwidth.model ≠ .none ∧
        link.bandwidth.generation = current.capability ∧
        constraint.bound ≤ link.bandwidth.bitsPerSecond := by
  have husable : ∀ link ∈ candidate.links,
      (link.bandwidth.model ≠ .none ∧ link.bandwidth.generation = current.capability ∧
        constraint.bound ≤ link.bandwidth.bitsPerSecond ↔
      Usable current.capability link ∧
        constraint.bound ≤ link.bandwidth.bitsPerSecond) := by
    intro link hlink
    have hsign := hformed.bandwidth link hlink
    unfold Usable
    tauto
  rw [checkMinBandwidth_reaches, pathBandwidthCapability, forall₂_congr husable]
  cases hlinks : candidate.links with
  | nil => exact absurd hlinks hformed.linked
  | cons first rest =>
      have hfirst := hformed.bandwidth first (by simp [hlinks])
      rw [List.forall_mem_cons]
      cases hvalid : current.capability.isValid with
      | false =>
          have hunbound : ¬ Usable current.capability first := by
            rintro ⟨hmodel, hgeneration, -⟩
            have hbound := (hfirst hmodel).2
            rw [hgeneration, hvalid] at hbound
            cases hbound
          simp [hunbound]
      | true =>
          rw [if_neg (by simp), bottleneckFrom]
          split
          · next hguard =>
              have hunusable := not_usable_iff.mp hguard
              simp [hunusable]
          · next hguard =>
              have hcounted : Usable current.capability first :=
                not_not.mp fun h => hguard (not_usable_iff.mpr h)
              rw [bottleneckFrom_reaches_iff]
              tauto

/-- A constraint pushes no reason exactly when it holds. -/
theorem evaluateMandatory_eq_nil_iff (hformed : candidate.WellFormed)
    (hdistinct : candidate.NoRepeatedEvidence) :
    evaluateMandatory constraint ordinal candidate current = [] ↔
      constraint.Holds candidate current := by
  unfold evaluateMandatory Constraint.Holds
  cases constraint.kind with
  | unset => simp
  | maxLatency => exact checkMaxLatency_eq_nil_iff
  | minBandwidthCapability => exact checkMinBandwidth_eq_nil_iff hformed
  | requiredNode => exact checkRequiredEntity_eq_nil_iff
  | forbiddenNode => exact checkForbiddenEntity_eq_nil_iff
  | requiredLink => exact checkRequiredEntity_eq_nil_iff
  | forbiddenLink => exact checkForbiddenEntity_eq_nil_iff
  | requiredTier => exact checkRequiredMembership_eq_nil_iff
  | forbiddenTier => exact checkForbiddenMembership_eq_nil_iff
  | requiredSite => exact checkRequiredMembership_eq_nil_iff
  | forbiddenSite => exact checkForbiddenMembership_eq_nil_iff
  | localityScope => exact checkLocalityScope_eq_nil_iff hformed hdistinct
  | isolationClass => exact checkIsolationClass_eq_nil_iff hformed hdistinct
  | requiredCapability => exact checkRequiredCapability_eq_nil_iff hformed hdistinct
  | forbiddenCapability => exact checkForbiddenCapability_eq_nil_iff hformed hdistinct
  | requiredFailureDomainRelation =>
      exact checkRequiredDomainRelation_eq_nil_iff hformed hdistinct
  | forbiddenFailureDomainRelation =>
      exact checkForbiddenDomainRelation_eq_nil_iff hformed hdistinct
  | administrativePolicy => exact checkAdministrativePolicy_eq_nil_iff hformed hdistinct
  | maxHopCount => exact checkMaxHopCount_eq_nil_iff

/-! ## Preference slots -/

theorem latencySource_of_valid {limits : Limits} (hkind : constraint.kind = .maxLatency)
    (h : validateConstraint constraint limits = .ok ()) : constraint.latencySource ≠ .unset := by
  have hpayload := (seq_eq_ok.mp h).2
  unfold validateConstraintPayload at hpayload
  rw [hkind] at hpayload
  have hsource := (seq_eq_ok.mp hpayload).1
  exact of_decide_eq_false (failIf_eq_ok.mp hsource)

/-- A preference is satisfied exactly when the check of the same constraint pushes no
reason, for every kind of a valid constraint. -/
theorem preference_satisfied_iff (constraint : Constraint) (ordinal : UInt32)
    (candidate : CandidatePath) (current : EvidenceRequirements) (limits : Limits)
    (h : validateConstraint constraint limits = .ok ()) :
    (evaluatePreference constraint ordinal candidate current).satisfied = true ↔
      evaluateMandatory constraint ordinal candidate current = [] := by
  show (preferenceVerdict constraint ordinal candidate current).1 = true ↔ _
  unfold preferenceVerdict evaluateMandatory
  cases hkind : constraint.kind with
  | maxLatency =>
      have hsource := latencySource_of_valid hkind h
      show _ ↔ checkMaxLatency constraint ordinal candidate = []
      rw [checkMaxLatency_eq_nil_iff]
      by_cases hsame : candidate.latency.source = constraint.latencySource
      · simp [hsame, hsource]
      · simp [hsame]
  | minBandwidthCapability =>
      show _ ↔ checkMinBandwidth constraint ordinal candidate current = []
      rw [checkMinBandwidth_reaches]
      cases pathBandwidthCapability candidate current.capability with
      | none => simp
      | some bottleneck => simp
  | maxHopCount =>
      show decide (candidate.hops ≤ constraint.bound) = true ↔
        checkMaxHopCount constraint ordinal candidate = []
      unfold checkMaxHopCount
      by_cases hexceeded : constraint.bound < candidate.hops
      · simp [hexceeded, Int64.not_le.mpr hexceeded]
      · simp [hexceeded, Int64.not_lt.mp hexceeded]
  | requiredFailureDomainRelation =>
      show _ ↔ checkRequiredDomainRelation constraint ordinal candidate = []
      simp only [checkRequiredDomainRelation]
      cases hcomplete : (scanDomains candidate constraint.domainKind).complete with
      | false => simp [incompleteReasons_ne_nil hcomplete]
      | true =>
          by_cases hbelow :
              (scanDomains candidate constraint.domainKind).distinct < constraint.bound
          · simp [hbelow, Int64.not_le.mpr hbelow]
          · simp [hbelow, Int64.not_lt.mp hbelow]
  | _ =>
      -- the slot of every other kind is the check itself
      simp only [List.isEmpty_iff]

/-- A preferred bound of 10 us against an observed latency of 25 us. -/
theorem preference_satisfied_iff_sample :
    (evaluatePreference
      { id := ⟨1⟩, generation := ⟨1⟩, kind := .maxLatency, scope := .preference,
        latencySource := .observedLatency, bound := 10, preferenceWeight := 1 } 0
      { latency := { source := .observedLatency, micros := 25 } } {}).satisfied = true ↔
    evaluateMandatory
      { id := ⟨1⟩, generation := ⟨1⟩, kind := .maxLatency, scope := .preference,
        latencySource := .observedLatency, bound := 10, preferenceWeight := 1 } 0
      { latency := { source := .observedLatency, micros := 25 } } {} = [] :=
  preference_satisfied_iff _ _ _ _ {} (by decide +kernel)

end Checks

end ConstraintRouting.Fabric
