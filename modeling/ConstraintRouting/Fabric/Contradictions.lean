import ConstraintRouting.Fabric.ConstraintSpec

/-!
# Contradictions and satisfiability

A contradiction between mandatory constraints leaves no candidate that passes them, where
its rule excludes every value.  The rules that only overlap, and the constraints that are
preferences, are told apart here.
-/

namespace ConstraintRouting.Fabric

/-! ## Satisfiable sets -/

/-- Every mandatory constraint of the set passes the evaluator's check. -/
def PassesMandatory (set : ConstraintSet) (candidate : CandidatePath)
    (current : EvidenceRequirements) : Prop :=
  mandatoryReasons { set, current } candidate = []

/-- Some valid candidate passes the mandatory constraints under some evidence. -/
def Satisfiable (set : ConstraintSet) (limits : Limits) : Prop :=
  ∃ candidate current, validateCandidate candidate limits = .ok () ∧
    PassesMandatory set candidate current

section Rules

variable {set : ConstraintSet} {candidate : CandidatePath} {current : EvidenceRequirements}
  {constraint first second : Constraint}

/-- A mandatory constraint of the set pushes no reason. -/
theorem PassesMandatory.of_mem (h : PassesMandatory set candidate current)
    (hmem : constraint ∈ set.constraints) (hscope : constraint.scope = .mandatory) :
    ∃ ordinal, evaluateMandatory constraint ordinal candidate current = [] := by
  obtain ⟨position, hposition⟩ := List.mem_iff_getElem?.mp hmem
  have hindexed : (constraint, position) ∈ set.constraints.zipIdx :=
    List.mem_zipIdx_iff_getElem?.mpr hposition
  have hscoped : (constraint, UInt32.ofNat position) ∈ scopedConstraints set .mandatory :=
    List.mem_map.mpr ⟨(constraint, position),
      List.mem_filter.mpr ⟨hindexed, beq_iff_eq.mpr hscope⟩, rfl⟩
  have hnone := List.flatMap_eq_nil_iff.mp h _ hscoped
  exact ⟨UInt32.ofNat position, hnone⟩

/-- No path visits an entity and avoids it. -/
theorem excludes_entity {domain : IdentityDomain} {required forbidden : ReasonCode}
    {requiredKind forbiddenKind : SubjectKind} {i j : UInt32}
    {wanted unwanted present : List (StrongId domain)} {value : StrongId domain}
    (hwanted : value ∈ wanted) (hunwanted : value ∈ unwanted)
    (hrequired : checkRequiredEntity first i required requiredKind wanted present = []) :
    checkForbiddenEntity second j forbidden forbiddenKind unwanted present ≠ [] := by
  intro hforbidden
  have hpresent := checkRequiredEntity_eq_nil_iff.mp hrequired value hwanted
  exact checkForbiddenEntity_eq_nil_iff.mp hforbidden value hunwanted hpresent

/-- No node has a value that a list allows when each of these is forbidden. -/
theorem excludes_membership {domain : IdentityDomain} {fact : NodeFact → StrongId domain}
    {allowed : List (StrongId domain)} (hnodes : candidate.nodes ≠ [])
    (hrequired : AllNodesIn fact allowed candidate)
    (hexhausted : ∀ value ∈ allowed, ∃ forbidding policy, value ∈ forbidding ∧
      NoNodeIn fact policy forbidding candidate) : False := by
  obtain ⟨node, hnode⟩ := List.exists_mem_of_ne_nil _ hnodes
  obtain ⟨hvalid, hallowed⟩ := hrequired node hnode
  obtain ⟨forbidding, policy, hforbidden, hnone⟩ := hexhausted _ hallowed
  have hfree := hnone node hnode
  rw [if_pos hvalid] at hfree
  exact hfree hforbidden

/-- No entity proves a capability and its absence. -/
theorem excludes_capability {i j : UInt32} {capability : CapabilityId}
    (hnodes : candidate.nodes ≠ []) (hwanted : capability ∈ first.capabilities)
    (hunwanted : capability ∈ second.capabilities)
    (hrequired : checkRequiredCapability first i candidate current = []) :
    checkForbiddenCapability second j candidate current ≠ [] := by
  intro hforbidden
  obtain ⟨node, hnode⟩ := List.exists_mem_of_ne_nil _ hnodes
  have hentity : node.view ∈ entitiesOf candidate :=
    List.mem_append_left _ (List.mem_map_of_mem hnode)
  have hproven := List.flatMap_eq_nil_iff.mp
    (List.flatMap_eq_nil_iff.mp hrequired capability hwanted) _ hentity
  have habsent := List.flatMap_eq_nil_iff.mp
    (List.flatMap_eq_nil_iff.mp hforbidden capability hunwanted) _ hentity
  cases hfound : findCapability node.view.capabilities capability with
  | none => simp [hfound] at hproven
  | some ref =>
      simp only [hfound] at hproven habsent
      split at habsent
      · cases habsent
      · cases habsent

/-- No node is confined to two domains of one kind. -/
theorem excludes_locality {i j : UInt32} (hnodes : candidate.nodes ≠ [])
    (hkind : first.domainKind = second.domainKind)
    (hdomain : first.localityDomain ≠ second.localityDomain)
    (hfirst : checkLocalityScope first i candidate = []) :
    checkLocalityScope second j candidate ≠ [] := by
  intro hsecond
  obtain ⟨node, hnode⟩ := List.exists_mem_of_ne_nil _ hnodes
  have hin := List.flatMap_eq_nil_iff.mp hfirst node hnode
  have hout := List.flatMap_eq_nil_iff.mp hsecond node hnode
  rw [← hkind] at hout
  cases hfound : findLocality node.localities first.domainKind with
  | none => simp [hfound] at hin
  | some membership =>
      simp only [hfound] at hin hout
      by_cases hsame : membership.domain = first.localityDomain
      · rw [hsame, if_pos hdomain] at hout
        cases hout
      · rw [if_pos hsame] at hin
        cases hin

/-- A path does not have as many distinct domains as required and fewer than that. -/
theorem excludes_distinct {i j : UInt32} (hkind : first.domainKind = second.domainKind)
    (hrelation : second.domainRelation = .distinct) (hbound : second.bound ≤ first.bound)
    (hrequired : checkRequiredDomainRelation first i candidate = []) :
    checkForbiddenDomainRelation second j candidate ≠ [] := by
  intro hforbidden
  unfold checkRequiredDomainRelation at hrequired
  unfold checkForbiddenDomainRelation at hforbidden
  rw [← hkind] at hforbidden
  dsimp only at hrequired hforbidden
  cases hcomplete : (scanDomains candidate first.domainKind).complete with
  | false =>
      simp only [hcomplete, Bool.not_false, if_true] at hrequired
      exact incompleteReasons_ne_nil hcomplete hrequired
  | true =>
      simp only [hcomplete, Bool.not_true, Bool.false_eq_true, if_false, Bool.false_and,
        hrelation, reduceCtorEq] at hrequired hforbidden
      split at hrequired
      · cases hrequired
      · next hreached =>
          have hmet : second.bound ≤ (scanDomains candidate first.domainKind).distinct :=
            Int64.le_trans hbound (Int64.not_lt.mp hreached)
          rw [if_pos hmet] at hforbidden
          cases hforbidden

/-- A path that visits the required nodes has at least as many hops as they need. -/
theorem excludes_hop_budget {limits : Limits} {i : UInt32} {required : List NodeId}
    (hvalid : validateCandidate candidate limits = .ok ()) (hdistinct : required.Nodup)
    (hvisited : ∀ node ∈ required, node ∈ candidate.nodes.map (·.node))
    (hbudget : constraint.bound < Int64.ofNat required.length - 1) :
    checkMaxHopCount constraint i candidate ≠ [] := by
  intro hpassed
  have hwithin := checkMaxHopCount_eq_nil_iff.mp hpassed
  obtain ⟨-, hhops⟩ := validateCandidate_hops hvalid
  have hcount : required.length ≤ candidate.nodes.length := by
    have hsubset : required ⊆ candidate.nodes.map (·.node) := fun node hmem =>
      hvisited node hmem
    have hlength := hdistinct.length_le_of_subset hsubset
    rwa [List.length_map] at hlength
  have hsmall := candidate.hopCount.toNat_lt
  have hneeded : (Int64.ofNat required.length - 1).toInt = (required.length : Int) - 1 := by
    have hone : (1 : Int64).toInt = 1 := by rfl
    have hlength : (Int64.ofNat required.length).toInt = required.length :=
      Int64.toInt_ofNat_of_lt (by omega)
    rw [Int64.toInt_sub, hlength, hone]
    exact Int.bmod_eq_of_le (by omega) (by omega)
  have hless := Int64.lt_iff_toInt_lt.mp hbudget
  rw [hneeded] at hless
  omega

end Rules

/-! ## Contradictions that exclude every candidate -/

/-- Every value that the constraint lists is forbidden by a mandatory constraint. -/
def Exhausted {domain : IdentityDomain} (set : ConstraintSet) (kind : ConstraintKind)
    (member : Constraint → List (StrongId domain)) (constraint : Constraint) : Prop :=
  ∀ value ∈ member constraint, ∃ forbidding ∈ set.constraints,
    forbidding.kind = kind ∧ forbidding.scope = .mandatory ∧ value ∈ member forbidding

/-- What the rule of a contradiction needs to exclude every candidate. -/
def Contradiction.Excludes (set : ConstraintSet) (contradiction : Contradiction) : Prop :=
  match contradiction.kind, contradiction.subjectKind with
  | .requiredAndForbiddenSameEntity, .tier =>
      ∀ constraint ∈ set.constraints, constraint.id = contradiction.first →
        Exhausted set .forbiddenTier (·.tiers) constraint
  | .requiredAndForbiddenSameEntity, .site =>
      ∀ constraint ∈ set.constraints, constraint.id = contradiction.first →
        Exhausted set .forbiddenSite (·.sites) constraint
  | .requiredAndForbiddenSameEntity, _ => True
  | .conflictingLocalityScopes, _ => True
  | .conflictingIsolationClasses, _ => False
  | .failureDomainRelationConflict, _ =>
      ∀ constraint ∈ set.constraints, constraint.id = contradiction.second →
        constraint.domainRelation = .distinct
  | .impossibleHopBudget, _ =>
      ∀ constraint ∈ set.constraints, constraint.kind = .requiredNode →
        constraint.scope = .mandatory

/-- The constraints that a contradiction names are mandatory. -/
def Contradiction.BetweenMandatory (set : ConstraintSet) (contradiction : Contradiction) :
    Prop :=
  ∀ constraint ∈ set.constraints,
    constraint.id = contradiction.first ∨ constraint.id = contradiction.second →
      constraint.scope = .mandatory

section Reported

variable {set : ConstraintSet} {limits : Limits} {contradiction : Contradiction}
  {candidate : CandidatePath} {current : EvidenceRequirements}

theorem mem_bucketOf {kind : ConstraintKind} {constraint : Constraint} :
    constraint ∈ bucketOf set kind ↔ constraint ∈ set.constraints ∧ constraint.kind = kind := by
  rw [bucketOf, List.mem_filter, beq_iff_eq]

/-- A mandatory constraint of a kind pushes no reason. -/
theorem PassesMandatory.of_bucket (h : PassesMandatory set candidate current)
    {kind : ConstraintKind} {constraint : Constraint} (hmem : constraint ∈ bucketOf set kind)
    (hscope : constraint.scope = .mandatory) :
    constraint.kind = kind ∧
      ∃ ordinal, evaluateMandatory constraint ordinal candidate current = [] :=
  ⟨(mem_bucketOf.mp hmem).2, h.of_mem (mem_bucketOf.mp hmem).1 hscope⟩

theorem mem_addSameEntityContradictions {domain : IdentityDomain}
    {required forbidden : List Constraint} {subjectKind : SubjectKind}
    {member : Constraint → List (StrongId domain)}
    (h : contradiction ∈ addSameEntityContradictions required forbidden subjectKind member) :
    contradiction.kind = .requiredAndForbiddenSameEntity ∧
      contradiction.subjectKind = subjectKind ∧
      ∃ positive ∈ required, ∃ negative ∈ forbidden, ∃ value ∈ member positive,
        value ∈ member negative ∧ contradiction.first = positive.id ∧
          contradiction.second = negative.id := by
  obtain ⟨positive, hpositive, h⟩ := List.mem_flatMap.mp h
  obtain ⟨negative, hnegative, h⟩ := List.mem_flatMap.mp h
  obtain ⟨value, hvalue, rfl⟩ := List.mem_map.mp h
  obtain ⟨hmember, hshared⟩ := List.mem_filter.mp hvalue
  exact ⟨rfl, rfl, positive, hpositive, negative, hnegative, value, hmember,
    of_decide_eq_true hshared, rfl, rfl⟩

theorem mem_of_mem_orderedPairs {α : Type} {values : List α} {pair : α × α}
    (h : pair ∈ orderedPairs values) : pair.1 ∈ values ∧ pair.2 ∈ values := by
  induction values with
  | nil => cases h
  | cons a rest ih =>
      rw [orderedPairs, List.mem_append] at h
      rcases h with hfirst | hrest
      · obtain ⟨b, hb, rfl⟩ := List.mem_map.mp hfirst
        exact ⟨List.mem_cons_self, List.mem_cons_of_mem _ hb⟩
      · obtain ⟨hleft, hright⟩ := ih hrest
        exact ⟨List.mem_cons_of_mem _ hleft, List.mem_cons_of_mem _ hright⟩

/-- The two constraints of an entity contradiction are mandatory and pass. -/
private theorem sameEntity_passes {domain : IdentityDomain} {subjectKind : SubjectKind}
    {required forbidden : ConstraintKind} {member : Constraint → List (StrongId domain)}
    (hpasses : PassesMandatory set candidate current)
    (hmandatory : contradiction.BetweenMandatory set)
    (h : contradiction ∈ addSameEntityContradictions (bucketOf set required)
      (bucketOf set forbidden) subjectKind member) :
    ∃ positive negative value i j, positive.kind = required ∧ negative.kind = forbidden ∧
      positive ∈ set.constraints ∧ contradiction.first = positive.id ∧
      value ∈ member positive ∧ value ∈ member negative ∧
      evaluateMandatory positive i candidate current = [] ∧
      evaluateMandatory negative j candidate current = [] := by
  obtain ⟨-, -, positive, hpositive, negative, hnegative, value, hmember, hshared, hfirst,
    hsecond⟩ := mem_addSameEntityContradictions h
  have hin := (mem_bucketOf.mp hpositive).1
  obtain ⟨hkind, i, hi⟩ := hpasses.of_bucket hpositive (hmandatory _ hin (.inl hfirst.symm))
  obtain ⟨hother, j, hj⟩ := hpasses.of_bucket hnegative
    (hmandatory _ (mem_bucketOf.mp hnegative).1 (.inr hsecond.symm))
  exact ⟨positive, negative, value, i, j, hkind, hother, hin, hfirst, hmember, hshared, hi, hj⟩

/-- Nodes whose values a constraint allows have a value that is not forbidden. -/
private theorem membership_excludes {domain : IdentityDomain} {subjectKind : SubjectKind}
    {required forbidden : ConstraintKind} {member : Constraint → List (StrongId domain)}
    (fact : NodeFact → StrongId domain) (hpasses : PassesMandatory set candidate current)
    (hmandatory : contradiction.BetweenMandatory set) (hnodes : candidate.nodes ≠ [])
    (hrequired : ∀ constraint i, constraint.kind = required →
      evaluateMandatory constraint i candidate current = [] →
      AllNodesIn fact (member constraint) candidate)
    (hforbidden : ∀ constraint i, constraint.kind = forbidden →
      evaluateMandatory constraint i candidate current = [] →
      NoNodeIn fact constraint.unknownPolicy (member constraint) candidate)
    (hexhausted : ∀ constraint ∈ set.constraints, constraint.id = contradiction.first →
      Exhausted set forbidden member constraint)
    (h : contradiction ∈ addSameEntityContradictions (bucketOf set required)
      (bucketOf set forbidden) subjectKind member) : False := by
  obtain ⟨positive, -, -, i, -, hkind, -, hin, hfirst, -, -, hi, -⟩ :=
    sameEntity_passes hpasses hmandatory h
  refine excludes_membership hnodes (hrequired positive i hkind hi) fun value hvalue => ?_
  obtain ⟨forbidding, hmem, hforbids, hscope, hlisted⟩ :=
    hexhausted positive hin hfirst.symm value hvalue
  obtain ⟨j, hj⟩ := hpasses.of_mem hmem hscope
  exact ⟨member forbidding, forbidding.unknownPolicy, hlisted, hforbidden forbidding j hforbids hj⟩

private theorem locality_excludes (hpasses : PassesMandatory set candidate current)
    (hmandatory : contradiction.BetweenMandatory set) (hnodes : candidate.nodes ≠ [])
    (h : contradiction ∈ localityContradictions set) : False := by
  obtain ⟨⟨first, second⟩, hpair, rfl⟩ := List.mem_map.mp h
  obtain ⟨hordered, hrule⟩ := List.mem_filter.mp hpair
  have hfirst : first ∈ bucketOf set .localityScope := (mem_of_mem_orderedPairs hordered).1
  have hsecond : second ∈ bucketOf set .localityScope := (mem_of_mem_orderedPairs hordered).2
  rw [Bool.and_eq_true, beq_iff_eq, bne_iff_ne] at hrule
  obtain ⟨hkind, i, hi⟩ :=
    hpasses.of_bucket hfirst (hmandatory _ (mem_bucketOf.mp hfirst).1 (.inl rfl))
  obtain ⟨hother, j, hj⟩ :=
    hpasses.of_bucket hsecond (hmandatory _ (mem_bucketOf.mp hsecond).1 (.inr rfl))
  simp only [evaluateMandatory, hkind] at hi
  simp only [evaluateMandatory, hother] at hj
  exact excludes_locality hnodes hrule.1 hrule.2 hi hj

private theorem relation_excludes (hpasses : PassesMandatory set candidate current)
    (hmandatory : contradiction.BetweenMandatory set)
    (hdistinct : ∀ constraint ∈ set.constraints, constraint.id = contradiction.second →
      constraint.domainRelation = .distinct)
    (h : contradiction ∈ relationContradictions set) : False := by
  obtain ⟨required, hrequired, h⟩ := List.mem_flatMap.mp h
  obtain ⟨forbidden, hforbidden, rfl⟩ := List.mem_map.mp h
  obtain ⟨hbucket, hrule⟩ := List.mem_filter.mp hforbidden
  have hrelation := hdistinct forbidden (mem_bucketOf.mp hbucket).1 rfl
  rw [Bool.and_eq_true, beq_iff_eq, hrelation] at hrule
  obtain ⟨hkind, i, hi⟩ :=
    hpasses.of_bucket hrequired (hmandatory _ (mem_bucketOf.mp hrequired).1 (.inl rfl))
  obtain ⟨hother, j, hj⟩ :=
    hpasses.of_bucket hbucket (hmandatory _ (mem_bucketOf.mp hbucket).1 (.inr rfl))
  simp only [evaluateMandatory, hkind] at hi
  simp only [evaluateMandatory, hother] at hj
  exact excludes_distinct hrule.1 hrelation (of_decide_eq_true hrule.2) hi hj

private theorem hopBudget_excludes (hpasses : PassesMandatory set candidate current)
    (hmandatory : contradiction.BetweenMandatory set)
    (hvalid : validateCandidate candidate limits = .ok ())
    (hrequired : ∀ constraint ∈ set.constraints, constraint.kind = .requiredNode →
      constraint.scope = .mandatory)
    (h : contradiction ∈ hopBudgetContradictions set) : False := by
  obtain ⟨budget, hfiltered, rfl⟩ := List.mem_map.mp h
  obtain ⟨hbucket, hrule⟩ := List.mem_filter.mp hfiltered
  obtain ⟨hkind, i, hi⟩ :=
    hpasses.of_bucket hbucket (hmandatory _ (mem_bucketOf.mp hbucket).1 (.inl rfl))
  simp only [evaluateMandatory, hkind] at hi
  refine excludes_hop_budget hvalid (List.nodup_dedup _) ?_ (of_decide_eq_true hrule) hi
  intro node hnode
  obtain ⟨constraint, hmem, hlisted⟩ := List.mem_flatMap.mp (List.mem_dedup.mp hnode)
  obtain ⟨hin, hnodeKind⟩ := mem_bucketOf.mp hmem
  obtain ⟨-, j, hj⟩ := hpasses.of_bucket hmem (hrequired constraint hin hnodeKind)
  simp only [evaluateMandatory, hnodeKind] at hj
  exact checkRequiredEntity_eq_nil_iff.mp hj node hlisted

/-- A contradiction between mandatory constraints whose rule excludes every candidate is
reported of unsatisfiable sets alone. -/
theorem unsatisfiable_of_contradiction (set : ConstraintSet) (limits : Limits)
    {contradiction : Contradiction} (hreported : contradiction ∈ contradictionsOf set)
    (hmandatory : contradiction.BetweenMandatory set) (hexcludes : contradiction.Excludes set) :
    ¬ Satisfiable set limits := by
  intro hsatisfiable
  obtain ⟨candidate, current, hvalid, hpasses⟩ := hsatisfiable
  obtain ⟨hnodes, -⟩ := validateCandidate_hops hvalid
  simp only [contradictionsOf, List.mem_append] at hreported
  rcases hreported with (((((((hnode | hlink) | htier) | hsite) | hcapability) | hlocality) |
    hisolation) | hrelation) | hbudget
  · obtain ⟨positive, negative, value, i, j, hkind, hother, -, -, hmember, hshared, hi, hj⟩ :=
      sameEntity_passes hpasses hmandatory hnode
    simp only [evaluateMandatory, hkind] at hi
    simp only [evaluateMandatory, hother] at hj
    exact excludes_entity hmember hshared hi hj
  · obtain ⟨positive, negative, value, i, j, hkind, hother, -, -, hmember, hshared, hi, hj⟩ :=
      sameEntity_passes hpasses hmandatory hlink
    simp only [evaluateMandatory, hkind] at hi
    simp only [evaluateMandatory, hother] at hj
    exact excludes_entity hmember hshared hi hj
  · obtain ⟨hrule, hsubject, -⟩ := mem_addSameEntityContradictions htier
    simp only [Contradiction.Excludes, hrule, hsubject] at hexcludes
    refine membership_excludes (·.tier) hpasses hmandatory hnodes ?_ ?_ hexcludes htier
    · intro constraint i hkind hpass
      simp only [evaluateMandatory, hkind] at hpass
      exact checkRequiredMembership_eq_nil_iff.mp hpass
    · intro constraint i hkind hpass
      simp only [evaluateMandatory, hkind] at hpass
      exact checkForbiddenMembership_eq_nil_iff.mp hpass
  · obtain ⟨hrule, hsubject, -⟩ := mem_addSameEntityContradictions hsite
    simp only [Contradiction.Excludes, hrule, hsubject] at hexcludes
    refine membership_excludes (·.site) hpasses hmandatory hnodes ?_ ?_ hexcludes hsite
    · intro constraint i hkind hpass
      simp only [evaluateMandatory, hkind] at hpass
      exact checkRequiredMembership_eq_nil_iff.mp hpass
    · intro constraint i hkind hpass
      simp only [evaluateMandatory, hkind] at hpass
      exact checkForbiddenMembership_eq_nil_iff.mp hpass
  · obtain ⟨positive, negative, value, i, j, hkind, hother, -, -, hmember, hshared, hi, hj⟩ :=
      sameEntity_passes hpasses hmandatory hcapability
    simp only [evaluateMandatory, hkind] at hi
    simp only [evaluateMandatory, hother] at hj
    exact excludes_capability hnodes hmember hshared hi hj
  · exact locality_excludes hpasses hmandatory hnodes hlocality
  · obtain ⟨_, _, rfl⟩ := List.mem_map.mp hisolation
    exact hexcludes
  · have hrule : contradiction.kind = .failureDomainRelationConflict := by
      obtain ⟨_, _, hpair⟩ := List.mem_flatMap.mp hrelation
      obtain ⟨_, _, rfl⟩ := List.mem_map.mp hpair
      rfl
    simp only [Contradiction.Excludes, hrule] at hexcludes
    exact relation_excludes hpasses hmandatory hexcludes hrelation
  · have hrule : contradiction.kind = .impossibleHopBudget := by
      obtain ⟨_, _, rfl⟩ := List.mem_map.mp hbudget
      rfl
    simp only [Contradiction.Excludes, hrule] at hexcludes
    exact hopBudget_excludes hpasses hmandatory hvalid hexcludes hbudget

end Reported

/-! ## Rejected sets that a path satisfies -/

/-- A path of two racks, of one tier, that is proven to be in two isolation classes. -/
def sampleProven : CandidatePath :=
  let isolation : List IsolationAttestation := [⟨⟨1⟩, ⟨6⟩⟩, ⟨⟨2⟩, ⟨6⟩⟩]
  { path := ⟨31⟩, authorityGeneration := ⟨9⟩, authorityVerdict := .legal, hopCount := 1
    nodes :=
      [{ node := ⟨40⟩, tier := ⟨2⟩, domains := [⟨.rack, ⟨1⟩⟩], isolation },
       { node := ⟨41⟩, tier := ⟨2⟩, domains := [⟨.rack, ⟨2⟩⟩], isolation }]
    links := [{ link := ⟨50⟩, endpoints := (⟨40⟩, ⟨41⟩), domains := [⟨.rack, ⟨1⟩⟩], isolation }]
    evidence := { pathAuthority := ⟨9⟩, failureDomain := ⟨6⟩ } }

/-- Two isolation classes; two racks and not one; two tiers of which one is forbidden; a
node that is preferred and forbidden. -/
def sampleDisputes : List (List Constraint) :=
  [[{ id := ⟨1⟩, generation := ⟨1⟩, kind := .isolationClass, isolationClass := ⟨1⟩ },
    { id := ⟨2⟩, generation := ⟨1⟩, kind := .isolationClass, isolationClass := ⟨2⟩ }],
   [{ id := ⟨1⟩, generation := ⟨1⟩, kind := .requiredFailureDomainRelation,
      domainKind := .rack, domainRelation := .distinct, bound := 2 },
    { id := ⟨2⟩, generation := ⟨1⟩, kind := .forbiddenFailureDomainRelation,
      domainKind := .rack, domainRelation := .shared }],
   [{ id := ⟨1⟩, generation := ⟨1⟩, kind := .requiredTier, tiers := [⟨1⟩, ⟨2⟩] },
    { id := ⟨2⟩, generation := ⟨1⟩, kind := .forbiddenTier, tiers := [⟨1⟩] }],
   [{ id := ⟨1⟩, generation := ⟨1⟩, kind := .requiredNode, nodes := [⟨99⟩],
      scope := .preference, preferenceWeight := 1 },
    { id := ⟨2⟩, generation := ⟨1⟩, kind := .forbiddenNode, nodes := [⟨99⟩] }]]

/-- The canonical set of the constraints is rejected as contradictory, and the path passes
its mandatory constraints. -/
private def disputed (constraints : List Constraint) : Bool :=
  match canonicalizeConstraintSet { id := ⟨5⟩, generation := ⟨1⟩, constraints } {} with
  | .ok (set, _) =>
      decide (detectContradictions set {} = failure .contradictoryConstraintSet
          "constraint set contains a deterministic contradiction" ∧
        validateCandidate sampleProven {} = .ok () ∧
        mandatoryReasons { set, current := { failureDomain := ⟨6⟩ } } sampleProven = [])
  | .error _ => false

private theorem sampleDisputes_disputed : sampleDisputes.all disputed = true := by
  decide +kernel

/-- Canonical sets are rejected as contradictory that a valid candidate satisfies. -/
theorem rejected_sets_satisfiable :
    sampleDisputes.length = 4 ∧ ∀ constraints ∈ sampleDisputes, ∃ set defects,
      canonicalizeConstraintSet { id := ⟨5⟩, generation := ⟨1⟩, constraints } {} =
        .ok (set, defects) ∧
      detectContradictions set {} = failure .contradictoryConstraintSet
        "constraint set contains a deterministic contradiction" ∧
      Satisfiable set {} := by
  refine ⟨rfl, fun constraints hmem => ?_⟩
  have hdisputed := List.all_eq_true.mp sampleDisputes_disputed constraints hmem
  unfold disputed at hdisputed
  split at hdisputed
  · next set defects hcanonical =>
      obtain ⟨hrejected, hvalid, hpasses⟩ := of_decide_eq_true hdisputed
      exact ⟨set, defects, hcanonical, hrejected, sampleProven, _, hvalid, hpasses⟩
  · cases hdisputed

/-- A node that is required and forbidden. -/
def sampleContradiction : ConstraintSet where
  constraints :=
    [{ id := ⟨1⟩, generation := ⟨1⟩, kind := .requiredNode, nodes := [⟨99⟩] },
     { id := ⟨2⟩, generation := ⟨1⟩, kind := .forbiddenNode, nodes := [⟨99⟩] }]

theorem unsatisfiable_of_contradiction_sample : ¬ Satisfiable sampleContradiction {} := by
  have hreported : (⟨.requiredAndForbiddenSameEntity, ⟨1⟩, ⟨2⟩, .node, 99⟩ : Contradiction) ∈
      contradictionsOf sampleContradiction := by decide +kernel
  have hmandatory : ∀ constraint ∈ sampleContradiction.constraints,
      constraint.scope = .mandatory := by decide
  exact unsatisfiable_of_contradiction sampleContradiction {} hreported
    (fun constraint hmem _ => hmandatory constraint hmem) trivial

end ConstraintRouting.Fabric
