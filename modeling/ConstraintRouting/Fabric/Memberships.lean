import ConstraintRouting.Fabric.EvaluatorSpec
import ConstraintRouting.Fabric.System

/-!
# Several memberships of one kind

A valid candidate may list several localities, or several failure domains, of one kind for
one entity.  The evaluator looks one of them up by the kind alone: the one that is listed
first.
-/

namespace ConstraintRouting.Fabric

open Verified.SortedLists

/-! ## The entry that is listed first -/

theorem findLocality_eq_find? {values : List LocalityRef} {kind : DomainKind}
    (hascending : strictlyAscending LocalityRef.cmp values = true) :
    findLocality values kind = values.find? (·.kind = kind) := by
  unfold findLocality
  rw [findByKey_eq_find? (keys_ordered hascending)]
  simp only [DomainKind.code_injective.eq_iff]

theorem findDomain_eq_find? {values : List FailureDomainRef} {kind : DomainKind}
    (hascending : strictlyAscending FailureDomainRef.cmp values = true) :
    findDomain values kind = values.find? (·.kind = kind) := by
  unfold findDomain
  rw [findByKey_eq_find? (keys_ordered hascending)]
  simp only [DomainKind.code_injective.eq_iff]

/-- Two memberships of one kind are ordered by their domains. -/
theorem LocalityRef.domain_lt {first second : LocalityRef}
    (hless : LocalityRef.cmp first second = .lt) (hkind : first.kind = second.kind) :
    first.domain < second.domain := by
  have hself : compare second.kind.code second.kind.code = .eq := Std.ReflCmp.compare_self
  unfold LocalityRef.cmp compareLex compareOn at hless
  dsimp only at hless
  rw [hkind, hself] at hless
  exact hless

/-! ## Locality scopes -/

/-- The node carries the membership that the constraint asks for. -/
def NodeFact.InScope (node : NodeFact) (constraint : Constraint) : Prop :=
  ⟨constraint.domainKind, constraint.localityDomain⟩ ∈ node.localities

/-- The node carries no membership of the kind. -/
def NodeFact.Unlocated (node : NodeFact) (kind : DomainKind) : Prop :=
  ∀ ref ∈ node.localities, ref.kind ≠ kind

/-- No membership of the kind is of a lesser domain than the one asked for. -/
def NodeFact.NoneBelow (node : NodeFact) (constraint : Constraint) : Prop :=
  ∀ ref ∈ node.localities, ref.kind = constraint.domainKind →
    ¬ ref.domain < constraint.localityDomain

section Locality

variable {constraint : Constraint} {ordinal : UInt32} {candidate : CandidatePath}
  {node : NodeFact}

/-- The reasons of one node. -/
def localityReasons (constraint : Constraint) (ordinal : UInt32) (node : NodeFact) :
    List Reason :=
  match findLocality node.localities constraint.domainKind with
  | none =>
      [makeReason constraint ordinal .localityEvidenceUnavailable .topology .node
        node.node.value constraint.localityDomain.value]
  | some membership =>
      if membership.domain ≠ constraint.localityDomain then
        [makeReason constraint ordinal .localityScopeViolated .topology .node
          node.node.value constraint.localityDomain.value membership.domain.value]
      else []

theorem checkLocalityScope_eq_flatMap :
    checkLocalityScope constraint ordinal candidate =
      candidate.nodes.flatMap (localityReasons constraint ordinal) := rfl

/-- A node passes when it is in scope and lists no lesser domain of the kind. -/
theorem localityReasons_eq_nil_iff
    (hascending : strictlyAscending LocalityRef.cmp node.localities = true) :
    localityReasons constraint ordinal node = [] ↔
      node.InScope constraint ∧ node.NoneBelow constraint := by
  unfold localityReasons
  rw [findLocality_eq_find? hascending]
  cases hfound : node.localities.find? (·.kind = constraint.domainKind) with
  | none =>
      have hnone := List.find?_eq_none.mp hfound
      have hout : ¬ node.InScope constraint := by
        intro hin
        simpa using hnone _ hin
      simp [hout]
  | some membership =>
      have hkind : membership.kind = constraint.domainKind := by
        simpa using List.find?_some hfound
      have hmem := List.mem_of_find?_eq_some hfound
      have hbefore := before_of_find? (strictlyAscending_iff_pairwise.mp hascending) hfound
      by_cases hsame : membership.domain = constraint.localityDomain
      · have hin : node.InScope constraint := by
          unfold NodeFact.InScope
          rw [← hkind, ← hsame]
          exact hmem
        have hnone : node.NoneBelow constraint := by
          intro ref href hrefkind hbelow
          have hover : compare membership.domain ref.domain ≠ .gt := by
            rcases hbefore ref href (by simpa using hrefkind) with rfl | hless
            · simp
            · have hdomain : compare membership.domain ref.domain = .lt :=
                LocalityRef.domain_lt hless (hkind.trans hrefkind.symm)
              simp [hdomain]
          rw [hsame] at hover
          exact hover (Std.OrientedCmp.gt_of_lt hbelow)
        simp [hsame, hin, hnone]
      · have hout : ¬ (node.InScope constraint ∧ node.NoneBelow constraint) := by
          intro hpasses
          rcases hbefore _ hpasses.1 (by simp) with hfirst | hless
          · exact hsame (congrArg LocalityRef.domain hfirst.symm)
          · exact hpasses.2 membership hmem hkind (LocalityRef.domain_lt hless hkind)
        simp [hsame, hout]

/-- Evidence is unavailable for a node without a membership of the kind, and no other. -/
theorem unavailable_localityReasons_iff
    (hascending : strictlyAscending LocalityRef.cmp node.localities = true) :
    (∃ reason ∈ localityReasons constraint ordinal node,
      reason.code = .localityEvidenceUnavailable) ↔ node.Unlocated constraint.domainKind := by
  unfold localityReasons
  rw [findLocality_eq_find? hascending]
  cases hfound : node.localities.find? (·.kind = constraint.domainKind) with
  | none =>
      have hnone : node.Unlocated constraint.domainKind := by
        intro ref hmem hkind
        simpa [hkind] using List.find?_eq_none.mp hfound ref hmem
      simp [hnone]
  | some membership =>
      have hlocated : ¬ node.Unlocated constraint.domainKind := by
        intro hnone
        apply hnone membership (List.mem_of_find?_eq_some hfound)
        simpa using List.find?_some hfound
      by_cases hsame : membership.domain = constraint.localityDomain
      · simp [hsame, hlocated]
      · simp [hsame, hlocated]

/-- The check reports that the locality evidence of the node is unavailable. -/
def ReportsUnlocated (constraint : Constraint) (ordinal : UInt32) (candidate : CandidatePath)
    (node : NodeFact) : Prop :=
  ∃ reason ∈ checkLocalityScope constraint ordinal candidate,
    reason.code = .localityEvidenceUnavailable ∧ reason.subjectKind = .node ∧
      reason.subject = node.node.value

/-- The reasons of a node name it. -/
theorem subject_of_localityReasons {reason : Reason}
    (hmem : reason ∈ localityReasons constraint ordinal node) :
    reason.subjectKind = .node ∧ reason.subject = node.node.value := by
  unfold localityReasons at hmem
  split at hmem
  · rw [List.mem_singleton.mp hmem]
    exact ⟨rfl, rfl⟩
  · split at hmem
    · rw [List.mem_singleton.mp hmem]
      exact ⟨rfl, rfl⟩
    · cases hmem

end Locality

/-- The check passes exactly when every node is in scope, and reports unavailable evidence
for exactly the nodes that have none. -/
structure ScopeAnswered (constraint : Constraint) (ordinal : UInt32)
    (candidate : CandidatePath) : Prop where
  passes : checkLocalityScope constraint ordinal candidate = [] ↔
    ∀ node ∈ candidate.nodes, node.InScope constraint
  reports : ∀ node ∈ candidate.nodes,
    ReportsUnlocated constraint ordinal candidate node ↔ node.Unlocated constraint.domainKind

/-- Unavailable evidence is reported rightly for every valid candidate. -/
theorem reportsUnlocated_iff {constraint : Constraint} {ordinal : UInt32}
    {candidate : CandidatePath} {limits : Limits} {node : NodeFact}
    (hvalid : validateCandidate candidate limits = .ok ()) (hmem : node ∈ candidate.nodes) :
    ReportsUnlocated constraint ordinal candidate node ↔
      node.Unlocated constraint.domainKind := by
  have hformed := validateCandidate_wellFormed hvalid
  unfold ReportsUnlocated
  rw [checkLocalityScope_eq_flatMap]
  constructor
  · rintro ⟨reason, hreason, hcode, -, hsubject⟩
    obtain ⟨other, hother, hreasons⟩ := List.mem_flatMap.mp hreason
    have hnamed := (subject_of_localityReasons hreasons).2
    -- The reason names one node only, as no identity is repeated.
    have hsame : other = node := by
      have hids : other.node = node.node := StrongId.ext (hnamed.symm.trans hsubject)
      exact List.inj_on_of_nodup_map (validateCandidate_nodup hvalid) hother hmem hids
    rw [hsame] at hreasons
    exact (unavailable_localityReasons_iff (hformed.localities node hmem)).mp
      ⟨reason, hreasons, hcode⟩
  · intro hnone
    obtain ⟨reason, hreasons, hcode⟩ :=
      (unavailable_localityReasons_iff (hformed.localities node hmem)).mpr hnone
    have hnamed := subject_of_localityReasons hreasons
    exact ⟨reason, List.mem_flatMap.mpr ⟨node, hmem, hreasons⟩, hcode, hnamed.1, hnamed.2⟩

/-- The scope is answered as asked exactly when, if every node is in scope, none lists a
lesser domain of the kind. -/
theorem scopeAnswered_iff {constraint : Constraint} {ordinal : UInt32}
    {candidate : CandidatePath} {limits : Limits}
    (hvalid : validateCandidate candidate limits = .ok ()) :
    ScopeAnswered constraint ordinal candidate ↔
      ((∀ node ∈ candidate.nodes, node.InScope constraint) →
        ∀ node ∈ candidate.nodes, node.NoneBelow constraint) := by
  have hformed := validateCandidate_wellFormed hvalid
  have hpasses : checkLocalityScope constraint ordinal candidate = [] ↔
      ∀ node ∈ candidate.nodes, node.InScope constraint ∧ node.NoneBelow constraint := by
    rw [checkLocalityScope_eq_flatMap, List.flatMap_eq_nil_iff]
    apply forall₂_congr
    intro node hmem
    exact localityReasons_eq_nil_iff (hformed.localities node hmem)
  constructor
  · intro hanswered hall node hmem
    exact (hpasses.mp (hanswered.passes.mpr hall) node hmem).2
  · intro hleast
    constructor
    · rw [hpasses]
      constructor
      · intro h node hmem
        exact (h node hmem).1
      · intro hall node hmem
        exact ⟨hall node hmem, hleast hall node hmem⟩
    · intro node hmem
      exact reportsUnlocated_iff hvalid hmem

/-- A path whose nodes carry two sites each. -/
def sampleSites : CandidatePath :=
  { samplePath 31 with
    nodes := [{ node := ⟨31⟩, localities := [⟨.site, ⟨1⟩⟩, ⟨.site, ⟨2⟩⟩] },
      { node := ⟨32⟩, localities := [⟨.site, ⟨1⟩⟩, ⟨.site, ⟨2⟩⟩] }] }

/-- A scope of one site. -/
def sampleScope (site : UInt64) : Constraint :=
  { id := ⟨1⟩, generation := ⟨1⟩, kind := .localityScope, domainKind := .site,
    localityDomain := ⟨site⟩ }

private theorem sampleSites_valid : validateCandidate sampleSites {} = .ok () := by
  decide +kernel

/-- Every node of the path is in the scope of the site that it lists second, and the check
does not pass. -/
theorem site_listed_second_refused :
    validateCandidate sampleSites {} = .ok () ∧ validateConstraint (sampleScope 2) {} = .ok () ∧
      (∀ node ∈ sampleSites.nodes, node.InScope (sampleScope 2)) ∧
      checkLocalityScope (sampleScope 2) 0 sampleSites ≠ [] ∧
      ¬ ScopeAnswered (sampleScope 2) 0 sampleSites := by
  have hscoped : ∀ node ∈ sampleSites.nodes, node.InScope (sampleScope 2) := by
    simp [sampleSites, NodeFact.InScope, sampleScope]
  have hrefused : checkLocalityScope (sampleScope 2) 0 sampleSites ≠ [] := by
    decide +kernel
  refine ⟨sampleSites_valid, by decide +kernel, hscoped, hrefused, ?_⟩
  intro hanswered
  exact hrefused (hanswered.passes.mpr hscoped)

theorem scopeAnswered_iff_sample :
    validateCandidate sampleSites {} = .ok () ∧
      (ScopeAnswered (sampleScope 1) 0 sampleSites ↔
        ((∀ node ∈ sampleSites.nodes, node.InScope (sampleScope 1)) →
          ∀ node ∈ sampleSites.nodes, node.NoneBelow (sampleScope 1))) :=
  ⟨sampleSites_valid, scopeAnswered_iff sampleSites_valid⟩

/-! ## Failure-domain relations -/

/-- The domains of a kind that the entities of a path list first. -/
def firstDomains (candidate : CandidatePath) (kind : DomainKind) : Finset FailureDomainId :=
  ((entitiesOf candidate).filterMap fun entity =>
    (entity.domains.find? (·.kind = kind)).map (·.domain)).toFinset

/-- The domains listed first are among all the domains. -/
theorem firstDomains_subset (candidate : CandidatePath) (kind : DomainKind) :
    firstDomains candidate kind ⊆ domainsOfKind candidate kind := by
  intro domain hmem
  simp only [firstDomains, List.mem_toFinset, List.mem_filterMap, Option.map_eq_some_iff] at hmem
  obtain ⟨entity, hentity, ref, hfound, rfl⟩ := hmem
  have hlisted := List.mem_of_find?_eq_some hfound
  have hkind : decide (ref.kind = kind) = true := by
    simpa using List.find?_some hfound
  simp only [domainsOfKind, List.mem_toFinset, List.mem_flatMap, List.mem_map, List.mem_filter]
  exact ⟨entity, hentity, ref, ⟨hlisted, hkind⟩, rfl⟩

section Domains

variable {constraint : Constraint} {ordinal : UInt32} {candidate : CandidatePath}
  {kind : DomainKind} (hformed : candidate.WellFormed)
include hformed

/-- The scan is complete when every entity carries a domain of the kind. -/
theorem covers_iff_complete :
    (scanDomains candidate kind).complete = true ↔ CoversDomainKind candidate kind := by
  simp only [DomainScan.complete, scanDomains, List.isEmpty_iff, List.filter_eq_nil_iff,
    CoversDomainKind]
  apply forall₂_congr
  intro entity hentity
  rw [findDomain_eq_find? (hformed.entities entity hentity).domains, Option.isNone_iff_eq_none,
    List.find?_eq_none]
  simp

/-- The scan counts the domains that are listed first. -/
theorem length_scan_eq_card :
    (scanDomains candidate kind).domains.length = (firstDomains candidate kind).card := by
  have hinjective : Function.Injective (StrongId.value : FailureDomainId → UInt64) :=
    fun _ _ h => StrongId.ext h
  have hvalues : ((entitiesOf candidate).filterMap fun entity =>
      (findDomain entity.domains kind).map (·.domain.value)) =
      ((entitiesOf candidate).filterMap fun entity =>
        (entity.domains.find? (·.kind = kind)).map (·.domain)).map StrongId.value := by
    rw [List.map_filterMap]
    apply List.filterMap_congr
    intro entity hentity
    rw [findDomain_eq_find? (hformed.entities entity hentity).domains, Option.map_map]
    rfl
  unfold scanDomains firstDomains
  dsimp only
  rw [hvalues, ← List.card_toFinset, ← Finset.card_image_of_injective _ hinjective]
  congr 1
  ext value
  simp only [List.mem_toFinset, List.mem_map, Finset.mem_image]

theorem distinct_eq_card :
    (scanDomains candidate kind).distinct.toInt = (firstDomains candidate kind).card := by
  have hbound : (scanDomains candidate kind).domains.length < 2 ^ 63 := by
    have hdedup := (List.dedup_sublist ((entitiesOf candidate).filterMap fun entity =>
      (findDomain entity.domains kind).map (·.domain.value))).length_le
    have hfilter := List.length_filterMap_le (fun entity : EntityView =>
      (findDomain entity.domains kind).map (·.domain.value)) (entitiesOf candidate)
    have hcount := hformed.entityCount
    unfold scanDomains
    dsimp only
    omega
  unfold DomainScan.distinct
  rw [Int64.toInt_ofNat_of_lt hbound, length_scan_eq_card hformed]

/-! ### Answers over the union -/

omit hformed

/-- The check is about unavailable evidence, which is not known to violate anything. -/
def FailsUnknown (reasons : List Reason) : Prop :=
  reasons ≠ [] ∧ ∀ reason ∈ reasons, reason.code = .failureDomainEvidenceUnavailable

/-- What the relation checks answer, by the domains of the kind over all entities: a
required relation passes when membership is complete and there are enough domains, a
forbidden one fails when it is met, and it is unknown where membership is incomplete and
fails closed. -/
structure AnswersByUnion (constraint : Constraint) (ordinal : UInt32)
    (candidate : CandidatePath) (current : EvidenceRequirements) : Prop where
  required : constraint.kind = .requiredFailureDomainRelation →
    (evaluateMandatory constraint ordinal candidate current = [] ↔
      CoversDomainKind candidate constraint.domainKind ∧
        constraint.bound.toInt ≤ (domainsOfKind candidate constraint.domainKind).card)
  unknown : constraint.kind = .forbiddenFailureDomainRelation →
    ¬ CoversDomainKind candidate constraint.domainKind →
    constraint.unknownPolicy = .failClosed →
    FailsUnknown (evaluateMandatory constraint ordinal candidate current)
  distinct : constraint.kind = .forbiddenFailureDomainRelation →
    constraint.domainRelation = .distinct →
    CoversDomainKind candidate constraint.domainKind ∨
      constraint.unknownPolicy = .permitUnknownNegative →
    (FindsViolation (evaluateMandatory constraint ordinal candidate current) ↔
      constraint.bound.toInt ≤ (domainsOfKind candidate constraint.domainKind).card)
  shared : constraint.kind = .forbiddenFailureDomainRelation →
    constraint.domainRelation = .shared →
    (FindsViolation (evaluateMandatory constraint ordinal candidate current) ↔
      CoversDomainKind candidate constraint.domainKind ∧
        (domainsOfKind candidate constraint.domainKind).card = 1)

/-- The domains listed first decide the relation as all of them do. -/
structure FirstDecides (constraint : Constraint) (candidate : CandidatePath) : Prop where
  required : constraint.kind = .requiredFailureDomainRelation →
    CoversDomainKind candidate constraint.domainKind →
    constraint.bound.toInt ≤ (domainsOfKind candidate constraint.domainKind).card →
    constraint.bound.toInt ≤ (firstDomains candidate constraint.domainKind).card
  distinct : constraint.kind = .forbiddenFailureDomainRelation →
    constraint.domainRelation = .distinct →
    CoversDomainKind candidate constraint.domainKind ∨
      constraint.unknownPolicy = .permitUnknownNegative →
    constraint.bound.toInt ≤ (domainsOfKind candidate constraint.domainKind).card →
    constraint.bound.toInt ≤ (firstDomains candidate constraint.domainKind).card
  shared : constraint.kind = .forbiddenFailureDomainRelation →
    constraint.domainRelation = .shared →
    CoversDomainKind candidate constraint.domainKind →
    (firstDomains candidate constraint.domainKind).card = 1 →
    (domainsOfKind candidate constraint.domainKind).card = 1

/-- The required relation, by the domains listed first. -/
theorem requiredRelation_iff (hformed : candidate.WellFormed) :
    checkRequiredDomainRelation constraint ordinal candidate = [] ↔
      CoversDomainKind candidate constraint.domainKind ∧
        constraint.bound.toInt ≤ (firstDomains candidate constraint.domainKind).card := by
  rw [← covers_iff_complete hformed, ← distinct_eq_card hformed, ← Int64.le_iff_toInt_le]
  simp only [checkRequiredDomainRelation]
  cases hcomplete : (scanDomains candidate constraint.domainKind).complete with
  | false => simp [incompleteReasons_ne_nil hcomplete]
  | true =>
      by_cases hbelow :
          (scanDomains candidate constraint.domainKind).distinct < constraint.bound
      · simp [hbelow]
      · simp [hbelow, Int64.not_lt.mp hbelow]

theorem incompleteReasons_unknown {scan : DomainScan} (hincomplete : scan.complete = false) :
    FailsUnknown (incompleteReasons constraint ordinal scan) := by
  constructor
  · exact incompleteReasons_ne_nil hincomplete
  · intro reason hmem
    obtain ⟨entity, -, rfl⟩ := List.mem_map.mp hmem
    rfl

theorem no_violation_of_unknown {reasons : List Reason} (h : FailsUnknown reasons) :
    ¬ FindsViolation reasons := by
  rintro ⟨reason, hmem, hhard⟩
  rw [h.2 reason hmem] at hhard
  cases hhard

/-- Where a forbidden relation is unknown. -/
theorem forbiddenRelation_unknown (hformed : candidate.WellFormed)
    (hincomplete : ¬ CoversDomainKind candidate constraint.domainKind)
    (hclosed : constraint.unknownPolicy = .failClosed) :
    FailsUnknown (checkForbiddenDomainRelation constraint ordinal candidate) := by
  have hscan : (scanDomains candidate constraint.domainKind).complete = false := by
    rw [← covers_iff_complete hformed] at hincomplete
    exact eq_false_of_ne_true hincomplete
  unfold checkForbiddenDomainRelation
  dsimp only
  rw [if_pos (by simp [hscan, hclosed])]
  exact incompleteReasons_unknown hscan

/-- Where a forbidden relation of distinct domains fails, by those listed first. -/
theorem forbiddenDistinct_iff (hformed : candidate.WellFormed)
    (hrelation : constraint.domainRelation = .distinct)
    (hknown : CoversDomainKind candidate constraint.domainKind ∨
      constraint.unknownPolicy = .permitUnknownNegative) :
    FindsViolation (checkForbiddenDomainRelation constraint ordinal candidate) ↔
      constraint.bound.toInt ≤ (firstDomains candidate constraint.domainKind).card := by
  have hguard : ((!(scanDomains candidate constraint.domainKind).complete) &&
      decide (constraint.unknownPolicy = .failClosed)) = false := by
    rcases hknown with hcovers | hpermits
    · simp [(covers_iff_complete hformed).mpr hcovers]
    · simp [hpermits]
  rw [← distinct_eq_card hformed, ← Int64.le_iff_toInt_le]
  unfold checkForbiddenDomainRelation
  dsimp only
  rw [hguard, if_neg (by simp), if_neg (by simp [hrelation])]
  by_cases hmet : constraint.bound ≤ (scanDomains candidate constraint.domainKind).distinct
  · simp [hmet, FindsViolation, outcomeOf]
  · simp [hmet, FindsViolation]

/-- Where a forbidden shared domain fails, by those listed first. -/
theorem forbiddenShared_iff (hformed : candidate.WellFormed)
    (hrelation : constraint.domainRelation = .shared) :
    FindsViolation (checkForbiddenDomainRelation constraint ordinal candidate) ↔
      CoversDomainKind candidate constraint.domainKind ∧
        (firstDomains candidate constraint.domainKind).card = 1 := by
  rw [← covers_iff_complete hformed, ← length_scan_eq_card hformed]
  unfold checkForbiddenDomainRelation
  generalize scanDomains candidate constraint.domainKind = scan
  dsimp only
  cases hcomplete : scan.complete with
  | false =>
      have hunknown := no_violation_of_unknown
        (@incompleteReasons_unknown constraint ordinal scan hcomplete)
      by_cases hclosed : constraint.unknownPolicy = .failClosed
      · simp [hclosed, hunknown]
      · match hdomains : scan.domains with
        | [] => simp [hclosed, hrelation, FindsViolation]
        | [shared] => simp [hclosed, hrelation, FindsViolation]
        | first :: second :: rest => simp [hclosed, hrelation, FindsViolation]
  | true =>
      match hdomains : scan.domains with
      | [] => simp [hrelation, FindsViolation]
      | [shared] => simp [hrelation, FindsViolation, outcomeOf]
      | first :: second :: rest => simp [hrelation, FindsViolation]

/-- A path that is covered has a domain that is listed first. -/
theorem firstDomains_nonempty (hformed : candidate.WellFormed)
    (hcovers : CoversDomainKind candidate kind) : (firstDomains candidate kind).Nonempty := by
  obtain ⟨link, hlink⟩ := List.exists_mem_of_ne_nil _ hformed.linked
  have hentity : link.view ∈ entitiesOf candidate :=
    List.mem_append_right _ (List.mem_map_of_mem hlink)
  obtain ⟨ref, hmem, hkind⟩ := hcovers link.view hentity
  have hsome : (link.view.domains.find? (·.kind = kind)).isSome = true := by
    rw [List.find?_isSome]
    exact ⟨ref, hmem, by simpa using hkind⟩
  obtain ⟨found, hfound⟩ := Option.isSome_iff_exists.mp hsome
  refine ⟨found.domain, ?_⟩
  simp only [firstDomains, List.mem_toFinset, List.mem_filterMap, Option.map_eq_some_iff]
  exact ⟨link.view, hentity, found, hfound, rfl⟩

end Domains

/-- A path of racks: two for each node, and some for its link. -/
def sampleRacks (link : List FailureDomainRef) : CandidatePath :=
  { samplePath 31 with
    nodes := [{ node := ⟨31⟩, domains := [⟨.rack, ⟨1⟩⟩, ⟨.rack, ⟨2⟩⟩] },
      { node := ⟨32⟩, domains := [⟨.rack, ⟨1⟩⟩, ⟨.rack, ⟨2⟩⟩] }]
    links := [{ link := ⟨31⟩, endpoints := (⟨31⟩, ⟨32⟩), domains := link }] }

/-- A relation of two racks. -/
def sampleRelation (kind : ConstraintKind) : Constraint :=
  { id := ⟨1⟩, generation := ⟨1⟩, kind, domainKind := .rack, domainRelation := .distinct,
    bound := 2 }

private theorem sampleRacks_union (link : List FailureDomainRef)
    (hlink : link = [] ∨ link = [⟨.rack, ⟨1⟩⟩]) :
    2 ≤ (domainsOfKind (sampleRacks link) .rack).card := by
  rcases hlink with rfl | rfl <;> decide +kernel

private theorem sampleRacks_covers :
    CoversDomainKind (sampleRacks [⟨.rack, ⟨1⟩⟩]) .rack := by
  unfold CoversDomainKind
  decide +kernel

end ConstraintRouting.Fabric
