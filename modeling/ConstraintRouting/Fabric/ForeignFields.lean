import ConstraintRouting.Fabric.Constraint

/-!
# Fields that do not belong to a constraint's kind

Only the fields of its kind may be set in a constraint.  Validation checks that for every
kind but those whose payload is one entity list: there it looks at the entity lists only.
-/

namespace ConstraintRouting.Fabric

open Verified.Checks (seq_eq_ok)

/-- The payload of the kind is one entity list. -/
def ConstraintKind.listsEntities : ConstraintKind → Bool
  | .requiredNode | .forbiddenNode | .requiredLink | .forbiddenLink | .requiredTier
  | .forbiddenTier | .requiredSite | .forbiddenSite | .requiredCapability
  | .forbiddenCapability | .administrativePolicy => true
  | _ => false

/-- The constraint without a payload. -/
def Constraint.bare (constraint : Constraint) : Constraint where
  id := constraint.id
  generation := constraint.generation
  kind := constraint.kind
  scope := constraint.scope
  unknownPolicy := constraint.unknownPolicy
  preferenceRank := constraint.preferenceRank
  preferenceWeight := constraint.preferenceWeight

/-- The constraint with the payload fields of its kind; every other one is default. -/
def Constraint.own (constraint : Constraint) : Constraint :=
  match constraint.kind with
  | .unset => constraint.bare
  | .maxLatency =>
      { constraint.bare with
        bound := constraint.bound, latencySource := constraint.latencySource }
  | .minBandwidthCapability | .maxHopCount => { constraint.bare with bound := constraint.bound }
  | .requiredNode | .forbiddenNode => { constraint.bare with nodes := constraint.nodes }
  | .requiredLink | .forbiddenLink => { constraint.bare with links := constraint.links }
  | .requiredTier | .forbiddenTier => { constraint.bare with tiers := constraint.tiers }
  | .requiredSite | .forbiddenSite => { constraint.bare with sites := constraint.sites }
  | .requiredCapability | .forbiddenCapability =>
      { constraint.bare with capabilities := constraint.capabilities }
  | .administrativePolicy => { constraint.bare with policies := constraint.policies }
  | .localityScope =>
      { constraint.bare with
        domainKind := constraint.domainKind, localityDomain := constraint.localityDomain }
  | .isolationClass => { constraint.bare with isolationClass := constraint.isolationClass }
  | .requiredFailureDomainRelation | .forbiddenFailureDomainRelation =>
      { constraint.bare with
        domainKind := constraint.domainKind, domainRelation := constraint.domainRelation
        bound := constraint.bound }

/-- The payload fields that are no entity list are default. -/
structure Constraint.NoFigures (constraint : Constraint) : Prop where
  bound : constraint.bound = 0
  latencySource : constraint.latencySource = .unset
  domainKind : constraint.domainKind = .unset
  domainRelation : constraint.domainRelation = .unset
  localityDomain : constraint.localityDomain = {}
  isolationClass : constraint.isolationClass = {}

/-- The constraint lists entities, of its own kind only. -/
structure Constraint.ListsItsOwn (constraint : Constraint) : Prop where
  some : anyEntityList constraint = true
  nodes : constraint.nodes = constraint.own.nodes
  links : constraint.links = constraint.own.links
  tiers : constraint.tiers = constraint.own.tiers
  sites : constraint.sites = constraint.own.sites
  capabilities : constraint.capabilities = constraint.own.capabilities
  policies : constraint.policies = constraint.own.policies

/-- The list is within the limit and names no zero identity. -/
def Constraint.Lists {domain : IdentityDomain} (limits : Limits)
    (list : List (StrongId domain)) : Prop :=
  listWithin list limits.maxEntityRefsPerConstraint = true ∧ allValid list = true

/-- The rules of a constraint whatever its kind. -/
structure Constraint.Lawful (limits : Limits) (constraint : Constraint) : Prop where
  id : constraint.id.isValid = true
  generation : constraint.generation.isValid = true
  kind : constraint.kind ≠ .unset
  unknown : constraint.unknownPolicy = .permitUnknownNegative →
    isPositiveRequirement constraint.kind = false
  nodes : Constraint.Lists limits constraint.nodes
  links : Constraint.Lists limits constraint.links
  tiers : Constraint.Lists limits constraint.tiers
  sites : Constraint.Lists limits constraint.sites
  capabilities : Constraint.Lists limits constraint.capabilities
  policies : Constraint.Lists limits constraint.policies
  mandatory : constraint.scope = .mandatory →
    constraint.preferenceRank = 0 ∧ constraint.preferenceWeight = 0
  preference : constraint.scope = .preference →
    constraint.preferenceWeight ≠ 0 ∧ constraint.preferenceWeight ≤ 1000

theorem validateConstraintCommon_eq_ok_iff {constraint : Constraint} {limits : Limits} :
    validateConstraintCommon constraint limits = .ok () ↔ constraint.Lawful limits := by
  have hunknown : (decide (constraint.unknownPolicy = .permitUnknownNegative) &&
        isPositiveRequirement constraint.kind) = false ↔
      (constraint.unknownPolicy = .permitUnknownNegative →
        isPositiveRequirement constraint.kind = false) := by
    by_cases hpolicy : constraint.unknownPolicy = .permitUnknownNegative
    · simp [hpolicy]
    · simp [hpolicy]
  simp only [validateConstraintCommon, seq_eq_ok, failIf_eq_ok, hunknown,
    Bool.or_eq_false_iff, Bool.not_eq_false', decide_eq_false_iff_not]
  constructor
  · rintro ⟨hid, hgeneration, hkind, hpermitted, hwithin, hvalid, hscope⟩
    obtain ⟨⟨⟨⟨⟨wnodes, wlinks⟩, wtiers⟩, wsites⟩, wcapabilities⟩, wpolicies⟩ := hwithin
    obtain ⟨⟨⟨⟨⟨vnodes, vlinks⟩, vtiers⟩, vsites⟩, vcapabilities⟩, vpolicies⟩ := hvalid
    refine ⟨hid, hgeneration, hkind, hpermitted, ⟨wnodes, vnodes⟩, ⟨wlinks, vlinks⟩,
      ⟨wtiers, vtiers⟩, ⟨wsites, vsites⟩, ⟨wcapabilities, vcapabilities⟩,
      ⟨wpolicies, vpolicies⟩, ?_, ?_⟩
    · intro hmandatory
      rw [hmandatory] at hscope
      simpa [failIf_eq_ok] using hscope
    · intro hpreference
      rw [hpreference] at hscope
      simpa [failIf_eq_ok, UInt32.not_lt] using hscope
  · intro h
    refine ⟨h.id, h.generation, h.kind, h.unknown,
      ⟨⟨⟨⟨⟨h.nodes.1, h.links.1⟩, h.tiers.1⟩, h.sites.1⟩, h.capabilities.1⟩, h.policies.1⟩,
      ⟨⟨⟨⟨⟨h.nodes.2, h.links.2⟩, h.tiers.2⟩, h.sites.2⟩, h.capabilities.2⟩, h.policies.2⟩, ?_⟩
    cases hscope : constraint.scope with
    | mandatory => simp [failIf_eq_ok, h.mandatory hscope]
    | preference => simpa [failIf_eq_ok, UInt32.not_lt] using h.preference hscope

/-- Of an entity-list kind, validation looks at the entity lists. -/
theorem validateConstraintPayload_of_lists {constraint : Constraint}
    (h : constraint.kind.listsEntities = true) :
    validateConstraintPayload constraint = .ok () ↔ constraint.ListsItsOwn := by
  have hfields : constraint.ListsItsOwn ↔
      anyEntityList constraint = true ∧ constraint.nodes = constraint.own.nodes ∧
      constraint.links = constraint.own.links ∧ constraint.tiers = constraint.own.tiers ∧
      constraint.sites = constraint.own.sites ∧
      constraint.capabilities = constraint.own.capabilities ∧
      constraint.policies = constraint.own.policies :=
    ⟨fun ⟨hsome, hn, hl, ht, hs, hc, hp⟩ => ⟨hsome, hn, hl, ht, hs, hc, hp⟩,
     fun ⟨hsome, hn, hl, ht, hs, hc, hp⟩ => ⟨hsome, hn, hl, ht, hs, hc, hp⟩⟩
  rw [hfields]
  cases hkind : constraint.kind
  all_goals
    first
    | (rw [hkind] at h; cases h; done)
    | (simp only [validateConstraintPayload, hkind, failIf_eq_ok, Constraint.own,
        Constraint.bare, anyEntityList, Bool.or_eq_false_iff, Bool.not_eq_false',
        List.isEmpty_iff, Bool.or_eq_true, Bool.not_eq_true']
       grind)

theorem StrongId.isValid_eq_false_iff {domain : IdentityDomain} {id : StrongId domain} :
    id.isValid = false ↔ id = {} := by
  unfold StrongId.isValid
  rw [bne_eq_false_iff_eq, StrongId.ext_iff]

/-- Of any other kind, it looks at every payload field. -/
theorem own_eq_self_of_payload {constraint : Constraint}
    (h : constraint.kind.listsEntities = false)
    (hpayload : validateConstraintPayload constraint = .ok ()) :
    constraint.own = constraint := by
  obtain ⟨id, generation, kind, scope, unknownPolicy, bound, latencySource, domainKind,
    domainRelation, localityDomain, isolationClass, nodes, links, tiers, sites, capabilities,
    policies, preferenceRank, preferenceWeight⟩ := constraint
  cases kind
  case unset => cases hpayload
  case forbiddenFailureDomainRelation =>
    cases domainRelation with
    | unset =>
        simp only [validateConstraintPayload, seq_eq_ok] at hpayload
        cases hpayload.2.1
    | distinct | shared =>
        simp only [validateConstraintPayload, seq_eq_ok, failIf_eq_ok, anyEntityList,
          Bool.or_eq_false_iff, Bool.not_eq_false', List.isEmpty_iff, bne_eq_false_iff_eq,
          StrongId.isValid_eq_false_iff] at hpayload
        simp [Constraint.own, Constraint.bare, hpayload]
  case maxLatency | minBandwidthCapability | maxHopCount | localityScope | isolationClass |
      requiredFailureDomainRelation =>
    simp only [validateConstraintPayload, seq_eq_ok, failIf_eq_ok, anyEntityList,
      Bool.or_eq_false_iff, Bool.not_eq_false', List.isEmpty_iff, bne_eq_false_iff_eq,
      StrongId.isValid_eq_false_iff] at hpayload
    simp [Constraint.own, Constraint.bare, hpayload]
  all_goals cases h

/-- The own fields of an entity-list kind are its entity lists. -/
theorem own_noFigures {constraint : Constraint} (h : constraint.kind.listsEntities = true) :
    constraint.own.NoFigures := by
  unfold Constraint.own
  cases hkind : constraint.kind
  all_goals
    first
    | exact ⟨rfl, rfl, rfl, rfl, rfl, rfl⟩
    | (rw [hkind] at h; cases h)

/-- A constraint of an entity-list kind has the fields of its kind only when its other
fields are default. -/
theorem own_eq_self_of_lists {constraint : Constraint}
    (h : constraint.kind.listsEntities = true) (hlists : constraint.ListsItsOwn) :
    constraint.own = constraint ↔ constraint.NoFigures := by
  have hbare := own_noFigures h
  constructor
  · intro hown
    rw [hown] at hbare
    exact hbare
  · intro hnone
    obtain ⟨-, hnodes, hlinks, htiers, hsites, hcapabilities, hpolicies⟩ := hlists
    obtain ⟨hbound, hsource, hdomain, hrelation, hlocality, hclass⟩ := hnone
    obtain ⟨id, generation, kind, scope, unknownPolicy, bound, latencySource, domainKind,
      domainRelation, localityDomain, isolationClass, nodes, links, tiers, sites, capabilities,
      policies, preferenceRank, preferenceWeight⟩ := constraint
    cases kind
    all_goals
      first
      | (cases h; done)
      | (simp only [Constraint.own, Constraint.bare] at *
         simp [*])

/-- The kind is among the own fields. -/
theorem own_kind (constraint : Constraint) : constraint.own.kind = constraint.kind := by
  unfold Constraint.own
  split <;> rfl

theorem validateConstraint_of_lists {constraint : Constraint} {limits : Limits}
    (h : constraint.kind.listsEntities = true) :
    validateConstraint constraint limits = .ok () ↔
      constraint.Lawful limits ∧ constraint.ListsItsOwn := by
  unfold validateConstraint
  rw [seq_eq_ok, validateConstraintCommon_eq_ok_iff, validateConstraintPayload_of_lists h]

/-- Validation accepts the constraint only if it has the fields of its kind only. -/
def Constraint.AcceptedBare (limits : Limits) (constraint : Constraint) : Prop :=
  validateConstraint constraint limits = .ok () → constraint.own = constraint

/-- Validation refuses one of two constraints. -/
def Constraint.OneRefused (limits : Limits) (a b : Constraint) : Prop :=
  ¬ (validateConstraint a limits = .ok () ∧ validateConstraint b limits = .ok ())

/-- Fields foreign to the kind are refused except in an entity-list constraint that is
lawful and lists entities of its kind only; and so one of two constraints that differ in
such fields only is refused, but for two such constraints. -/
theorem foreign_fields_refused_iff (limits : Limits) :
    (∀ constraint : Constraint, constraint.AcceptedBare limits ↔
      (constraint.kind.listsEntities = true → constraint.Lawful limits →
        constraint.ListsItsOwn → constraint.NoFigures)) ∧
    ∀ a b : Constraint, a ≠ b → a.own = b.own →
      (Constraint.OneRefused limits a b ↔
        ¬ (a.kind.listsEntities = true ∧ a.Lawful limits ∧ a.ListsItsOwn ∧
          b.Lawful limits ∧ b.ListsItsOwn)) := by
  have hother : ∀ constraint : Constraint, constraint.kind.listsEntities = false →
      constraint.AcceptedBare limits := by
    intro constraint hkind haccepted
    unfold validateConstraint at haccepted
    rw [seq_eq_ok] at haccepted
    exact own_eq_self_of_payload hkind haccepted.2
  constructor
  · intro constraint
    cases hkind : constraint.kind.listsEntities with
    | false => simp [hother constraint hkind]
    | true =>
        unfold Constraint.AcceptedBare
        rw [validateConstraint_of_lists hkind]
        constructor
        · intro hbare _ hlawful hlists
          exact (own_eq_self_of_lists hkind hlists).mp (hbare ⟨hlawful, hlists⟩)
        · rintro hcondition ⟨hlawful, hlists⟩
          exact (own_eq_self_of_lists hkind hlists).mpr (hcondition rfl hlawful hlists)
  · intro a b hdiffer hsame
    have hkinds : b.kind = a.kind := by
      rw [← own_kind, ← hsame, own_kind]
    unfold Constraint.OneRefused
    cases hkind : a.kind.listsEntities with
    | false =>
        simp only [Bool.false_eq_true, false_and, not_false_eq_true, iff_true]
        rintro ⟨ha, hb⟩
        apply hdiffer
        rw [← hother a hkind ha, hsame, hother b (hkinds ▸ hkind) hb]
    | true =>
        rw [validateConstraint_of_lists hkind, validateConstraint_of_lists (hkinds ▸ hkind)]
        tauto

/-- A required node without a bound and with one. -/
def sampleBounded : Constraint × Constraint :=
  let node : Constraint :=
    { id := ⟨1⟩, generation := ⟨1⟩, kind := .requiredNode, nodes := [⟨4⟩] }
  (node, { node with bound := 5 })

/-- Two constraints are accepted that differ in a field foreign to their kind. -/
theorem foreign_fields_accepted :
    validateConstraint sampleBounded.1 {} = .ok () ∧
      validateConstraint sampleBounded.2 {} = .ok () ∧
      sampleBounded.1 ≠ sampleBounded.2 ∧ sampleBounded.1.own = sampleBounded.2.own ∧
      ¬ sampleBounded.2.AcceptedBare {} ∧
      ¬ Constraint.OneRefused {} sampleBounded.1 sampleBounded.2 := by
  have hone : validateConstraint sampleBounded.1 {} = .ok () := by decide
  have htwo : validateConstraint sampleBounded.2 {} = .ok () := by decide
  have hforeign : sampleBounded.2.own ≠ sampleBounded.2 := by decide
  exact ⟨hone, htwo, by decide, by decide, fun hbare => hforeign (hbare htwo),
    fun hrefused => hrefused ⟨hone, htwo⟩⟩

end ConstraintRouting.Fabric
