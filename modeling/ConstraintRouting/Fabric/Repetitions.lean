import ConstraintRouting.Fabric.CanonicalForm
import ConstraintRouting.Fabric.Explanations

/-!
# Reasons that repeat

The reasons of a record ascend strictly exactly when no two of the retained ones compare
equal.  One constraint gives one reason twice where a path crosses one forbidden link twice,
and where two places of a path with one identity, or two capabilities at one place, fail a
constraint in the same way.
-/

namespace ConstraintRouting.Fabric

open Verified.SortedLists

/-! ## Reasons that compare equal -/

/-- No two of the reasons compare equal. -/
def Apart (reasons : List Reason) : Prop :=
  reasons.Pairwise fun a b => compareReason a b ≠ .eq

theorem SubjectKind.code_injective : Function.Injective SubjectKind.code := by
  intro a b h
  cases a <;> cases b <;> first | rfl | exact absurd h (by decide)

/-- Reasons of the classes of their codes compare equal when they agree on everything but
the kind of their constraint. -/
theorem compareReason_eq_iff {a b : Reason} (ha : a.reasonClass = reasonClassOf a.code)
    (hb : b.reasonClass = reasonClassOf b.code) :
    compareReason a b = .eq ↔ a.constraintOrdinal = b.constraintOrdinal ∧ a.code = b.code ∧
      a.constraint = b.constraint ∧ a.family = b.family ∧ a.subjectKind = b.subjectKind ∧
      a.subject = b.subject ∧ a.expected = b.expected ∧ a.actual = b.actual := by
  simp only [compareReason, compareLex, compareOn, Ordering.then_eq_eq,
    Std.LawfulEqOrd.compare_eq_iff_eq, ReasonCode.code_injective.eq_iff,
    EvidenceFamily.code_injective.eq_iff, SubjectKind.code_injective.eq_iff]
  constructor
  · rintro ⟨-, hrest⟩
    exact hrest
  · intro hrest
    refine ⟨?_, hrest⟩
    rw [ha, hb, hrest.2.1]

namespace Apart

theorem of_length_le_one {reasons : List Reason} (h : reasons.length ≤ 1) : Apart reasons := by
  cases reasons with
  | nil => exact List.Pairwise.nil
  | cons first rest =>
      have hrest : rest = [] := List.eq_nil_of_length_eq_zero (by simpa using h)
      rw [hrest]
      exact List.pairwise_singleton _ _

theorem sublist {first second : List Reason} (h : Apart second)
    (hsublist : first.Sublist second) : Apart first :=
  List.Pairwise.sublist hsublist h

/-- Reasons of places that give at most one each are apart exactly when no two places are
alike, where alike places are those that give reasons that compare equal. -/
theorem flatMap_iff {α : Type} {places : List α} {reasonsOf : α → List Reason}
    {alike : α → α → Prop} (hone : ∀ a ∈ places, (reasonsOf a).length ≤ 1)
    (halike : ∀ a ∈ places, ∀ b ∈ places,
      (∃ first ∈ reasonsOf a, ∃ second ∈ reasonsOf b, compareReason first second = .eq) ↔
        alike a b) :
    Apart (places.flatMap reasonsOf) ↔ ¬ ∃ a b, [a, b].Sublist places ∧ alike a b := by
  have hplaces : ∀ {a b}, [a, b].Sublist places → a ∈ places ∧ b ∈ places := by
    intro a b hsublist
    exact ⟨hsublist.subset (by simp), hsublist.subset (by simp)⟩
  unfold Apart
  rw [List.pairwise_flatMap, List.pairwise_iff_forall_sublist]
  constructor
  · rintro ⟨-, hpairs⟩ ⟨a, b, hsublist, hboth⟩
    obtain ⟨ha, hb⟩ := hplaces hsublist
    obtain ⟨first, hfirst, second, hsecond, hequal⟩ := (halike a ha b hb).mpr hboth
    exact hpairs hsublist first hfirst second hsecond hequal
  · intro hnone
    refine ⟨fun a hmem => of_length_le_one (hone a hmem), ?_⟩
    intro a b hsublist first hfirst second hsecond hequal
    obtain ⟨ha, hb⟩ := hplaces hsublist
    have hboth := (halike a ha b hb).mp ⟨first, hfirst, second, hsecond, hequal⟩
    exact hnone ⟨a, b, hsublist, hboth⟩

/-- Reasons about subjects of their own, one at most about each, are apart. -/
theorem flatMap_of_subjects {α : Type} {places : List α} {reasonsOf : α → List Reason}
    {subject : α → UInt64} (hdistinct : (places.map subject).Nodup)
    (hone : ∀ a, reasonsOf a = [] ∨ ∃ reason, reasonsOf a = [reason] ∧
      reason.reasonClass = reasonClassOf reason.code ∧ reason.subject = subject a) :
    Apart (places.flatMap reasonsOf) := by
  have hlength : ∀ a ∈ places, (reasonsOf a).length ≤ 1 := by
    intro a _
    rcases hone a with hnone | ⟨reason, hreason, -⟩
    · simp [hnone]
    · simp [hreason]
  have hmem : ∀ a, ∀ reason ∈ reasonsOf a,
      reason.reasonClass = reasonClassOf reason.code ∧ reason.subject = subject a := by
    intro a reason hmem
    rcases hone a with hnone | ⟨only, honly, hclass⟩
    · rw [hnone] at hmem
      cases hmem
    · rw [honly] at hmem
      rwa [List.mem_singleton.mp hmem]
  rw [flatMap_iff hlength fun _ _ _ _ => Iff.rfl]
  rintro ⟨a, b, hsublist, first, hfirst, second, hsecond, hequal⟩
  obtain ⟨haclass, hasubject⟩ := hmem a first hfirst
  obtain ⟨hbclass, hbsubject⟩ := hmem b second hsecond
  have hsame := ((compareReason_eq_iff haclass hbclass).mp hequal).2.2.2.2.2.1
  rw [hasubject, hbsubject] at hsame
  rw [List.Nodup, List.pairwise_map] at hdistinct
  exact List.pairwise_iff_forall_sublist.mp hdistinct hsublist hsame

end Apart

/-! ## Constraints that give one reason twice -/

/-- Two places of a path with one identity. -/
def EntityView.Same (a b : EntityView) : Prop := a.kind = b.kind ∧ a.identity = b.identity

/-- Two places fail an isolation class alike: without any attestation, with the same class
attested first, or with a proof at the same stale generation. -/
def UnprovenAlike (isolationClass : IsolationClassId) (current : FailureDomainGeneration)
    (a b : EntityView) : Prop :=
  match findIsolation a.isolation isolationClass, findIsolation b.isolation isolationClass with
  | none, none =>
      a.isolation.head?.map (·.isolationClass) = b.isolation.head?.map (·.isolationClass)
  | some proof, some other =>
      proof.generation = other.generation ∧ proof.generation ≠ current
  | _, _ => False

/-- Two places lack a wanted capability alike: both are without the same one, or hold one at
the same stale generation. -/
def LackAlike (current : CapabilityGeneration) (a b : CapabilityId × EntityView) : Prop :=
  match findCapability a.2.capabilities a.1, findCapability b.2.capabilities b.1 with
  | none, none => a.1 = b.1
  | some held, some other => held.generation = other.generation ∧ held.generation ≠ current
  | _, _ => False

/-- Two places offend against a forbidden capability alike: both are without the same one,
where that fails closed, or hold one at the same stale generation, or hold the same one. -/
def OffendAlike (policy : UnknownPolicy) (current : CapabilityGeneration)
    (a b : CapabilityId × EntityView) : Prop :=
  match findCapability a.2.capabilities a.1, findCapability b.2.capabilities b.1 with
  | none, none => a.1 = b.1 ∧ policy = .failClosed
  | some held, some other =>
      held.generation = other.generation ∧ (held.generation = current → a.1 = b.1)
  | _, _ => False

/-- The capabilities of a constraint at the places of a path, in the order of the check. -/
def capabilityPlaces (constraint : Constraint) (candidate : CandidatePath) :
    List (CapabilityId × EntityView) :=
  constraint.capabilities.flatMap fun capability =>
    (entitiesOf candidate).map fun entity => (capability, entity)

/-- The constraint gives one reason twice: the path crosses a forbidden link twice, or fails
an isolation class or a capability alike at two places of one identity. -/
def Constraint.Repeats (constraint : Constraint) (candidate : CandidatePath)
    (current : EvidenceRequirements) : Prop :=
  match constraint.kind with
  | .forbiddenLink =>
      ∃ id ∈ constraint.links, [id, id].Sublist (candidate.links.map (·.link))
  | .isolationClass =>
      ∃ a b, [a, b].Sublist (entitiesOf candidate) ∧ a.Same b ∧
        UnprovenAlike constraint.isolationClass current.failureDomain a b
  | .requiredCapability =>
      ∃ a b, [a, b].Sublist (capabilityPlaces constraint candidate) ∧ a.2.Same b.2 ∧
        LackAlike current.capability a b
  | .forbiddenCapability =>
      ∃ a b, [a, b].Sublist (capabilityPlaces constraint candidate) ∧ a.2.Same b.2 ∧
        OffendAlike constraint.unknownPolicy current.capability a b
  | _ => False

section Checks

variable {constraint : Constraint} {ordinal : UInt32} {candidate : CandidatePath}
  {current : EvidenceRequirements}

theorem compareReason_makeReason {code other : ReasonCode} {family family' : EvidenceFamily}
    {kind kind' : SubjectKind} {subject subject' expected expected' actual actual' : UInt64} :
    compareReason (makeReason constraint ordinal code family kind subject expected actual)
        (makeReason constraint ordinal other family' kind' subject' expected' actual') = .eq ↔
      code = other ∧ family = family' ∧ kind = kind' ∧ subject = subject' ∧
        expected = expected' ∧ actual = actual' := by
  rw [compareReason_eq_iff rfl rfl]
  simp [makeReason]

/-- Wanted entities that a path misses are told apart. -/
theorem checkRequiredEntity_apart {domain : IdentityDomain} {code : ReasonCode}
    {kind : SubjectKind} {wanted present : List (StrongId domain)} (h : wanted.Nodup) :
    Apart (checkRequiredEntity constraint ordinal code kind wanted present) := by
  unfold checkRequiredEntity Apart
  rw [List.pairwise_map]
  apply (h.filter _).imp
  intro a b hother hequal
  exact hother (StrongId.ext (compareReason_makeReason.mp hequal).2.2.2.1)

/-- A forbidden entity is reported once for each visit. -/
theorem checkForbiddenEntity_apart_iff {domain : IdentityDomain} {code : ReasonCode}
    {kind : SubjectKind} {forbidden present : List (StrongId domain)} (h : forbidden.Nodup) :
    Apart (checkForbiddenEntity constraint ordinal code kind forbidden present) ↔
      ¬ ∃ id ∈ forbidden, [id, id].Sublist present := by
  unfold checkForbiddenEntity Apart
  rw [List.pairwise_flatMap]
  constructor
  · rintro ⟨hvisits, -⟩ ⟨id, hmem, hsublist⟩
    have hreported := (hsublist.filter (· == id)).map fun _ =>
      makeReason constraint ordinal code .topology kind id.value
    simp only [List.filter_cons, beq_self_eq_true, if_true, List.filter_nil, List.map_cons,
      List.map_nil] at hreported
    have hapart := List.pairwise_iff_forall_sublist.mp (hvisits id hmem) hreported
    exact hapart Std.ReflCmp.compare_self
  · intro hnone
    constructor
    · intro id hmem
      rw [List.pairwise_map, List.pairwise_iff_forall_sublist]
      intro a b hsublist
      exfalso
      apply hnone
      refine ⟨id, hmem, ?_⟩
      have hall : ∀ visit ∈ [a, b], visit = id := by
        intro visit hvisit
        simpa using (List.mem_filter.mp (hsublist.subset hvisit)).2
      have hvisited := hsublist.trans List.filter_sublist
      rwa [hall a (by simp), hall b (by simp)] at hvisited
    · apply h.imp
      intro a b hother first hfirst second hsecond hequal
      obtain ⟨-, -, rfl⟩ := List.mem_map.mp hfirst
      obtain ⟨-, -, rfl⟩ := List.mem_map.mp hsecond
      exact hother (StrongId.ext (compareReason_makeReason.mp hequal).2.2.2.1)

/-- A check of the path as a whole gives one reason at most. -/
theorem length_checkMaxLatency_le : (checkMaxLatency constraint ordinal candidate).length ≤ 1 := by
  dsimp only [checkMaxLatency]
  split
  · exact Nat.le_refl _
  · split
    · exact Nat.le_refl _
    · split <;> simp

theorem length_checkMinBandwidth_le :
    (checkMinBandwidth constraint ordinal candidate current).length ≤ 1 := by
  unfold checkMinBandwidth
  split
  · exact Nat.le_refl _
  · split <;> simp

theorem length_checkMaxHopCount_le :
    (checkMaxHopCount constraint ordinal candidate).length ≤ 1 := by
  unfold checkMaxHopCount
  split <;> simp

theorem length_checkRequiredDomainRelation_le :
    (checkRequiredDomainRelation constraint ordinal candidate).length ≤ 1 := by
  dsimp only [checkRequiredDomainRelation]
  split
  · simp [incompleteReasons]
  · split <;> simp

theorem length_checkForbiddenDomainRelation_le :
    (checkForbiddenDomainRelation constraint ordinal candidate).length ≤ 1 := by
  dsimp only [checkForbiddenDomainRelation]
  split
  · simp [incompleteReasons]
  · split
    · split
      · split <;> simp
      · simp
    · split <;> simp

/-- Nodes are told apart by their identities. -/
theorem nodes_values_nodup (h : (candidate.nodes.map (·.node)).Nodup) :
    (candidate.nodes.map (·.node.value)).Nodup := by
  have hvalues : Function.Injective fun id : NodeId => id.value := fun a b => StrongId.ext
  have hmapped := h.map hvalues
  rwa [List.map_map] at hmapped

theorem checkRequiredMembership_apart {domain : IdentityDomain} {unavailable notMet : ReasonCode}
    {fact : NodeFact → StrongId domain} {allowed : List (StrongId domain)}
    (h : (candidate.nodes.map (·.node)).Nodup) :
    Apart (checkRequiredMembership constraint ordinal unavailable notMet fact allowed
      candidate) := by
  apply Apart.flatMap_of_subjects (nodes_values_nodup h)
  intro node
  split
  · exact .inr ⟨_, rfl, rfl, rfl⟩
  · split
    · exact .inr ⟨_, rfl, rfl, rfl⟩
    · exact .inl rfl

theorem checkForbiddenMembership_apart {domain : IdentityDomain}
    {unavailable present : ReasonCode} {fact : NodeFact → StrongId domain}
    {forbidden : List (StrongId domain)} (h : (candidate.nodes.map (·.node)).Nodup) :
    Apart (checkForbiddenMembership constraint ordinal unavailable present fact forbidden
      candidate) := by
  apply Apart.flatMap_of_subjects (nodes_values_nodup h)
  intro node
  split
  · split
    · exact .inr ⟨_, rfl, rfl, rfl⟩
    · exact .inl rfl
  · split
    · exact .inr ⟨_, rfl, rfl, rfl⟩
    · exact .inl rfl

theorem checkLocalityScope_apart (h : (candidate.nodes.map (·.node)).Nodup) :
    Apart (checkLocalityScope constraint ordinal candidate) := by
  apply Apart.flatMap_of_subjects (nodes_values_nodup h)
  intro node
  split
  · exact .inr ⟨_, rfl, rfl, rfl⟩
  · split
    · exact .inr ⟨_, rfl, rfl, rfl⟩
    · exact .inl rfl

theorem checkAdministrativePolicy_apart (h : constraint.policies.Nodup) :
    Apart (checkAdministrativePolicy constraint ordinal candidate current) := by
  have hvalues : (constraint.policies.map (·.value)).Nodup :=
    h.map fun a b => StrongId.ext
  apply Apart.flatMap_of_subjects hvalues
  intro wanted
  split
  · exact .inr ⟨_, rfl, rfl, rfl⟩
  · split
    · exact .inr ⟨_, rfl, rfl, rfl⟩
    · exact .inl rfl

/-! ### Evidence of places -/

/-- The evidence of a place is at generations that are set. -/
structure EntityView.Evidenced (entity : EntityView) : Prop where
  capabilities : ∀ ref ∈ entity.capabilities, ref.generation.value ≠ 0
  isolation : ∀ ref ∈ entity.isolation, ref.generation.value ≠ 0

theorem mem_of_findByKey {α κ : Type} [Ord κ] [DecidableEq κ] {key : α → κ} {values : List α}
    {wanted : κ} {value : α} (h : findByKey key values wanted = some value) :
    value ∈ values := by
  obtain ⟨hfound, -⟩ := Option.filter_eq_some_iff.mp h
  exact List.mem_of_find?_eq_some hfound

/-- The reasons of an isolation class at one place. -/
def isolationReasons (constraint : Constraint) (ordinal : UInt32)
    (current : EvidenceRequirements) (entity : EntityView) : List Reason :=
  match findIsolation entity.isolation constraint.isolationClass with
  | none =>
      match entity.isolation with
      | [] =>
          [makeReason constraint ordinal .isolationEvidenceUnavailable .failureDomain
            entity.kind entity.identity constraint.isolationClass.value]
      | front :: _ =>
          [makeReason constraint ordinal .isolationClassNotProven .failureDomain
            entity.kind entity.identity constraint.isolationClass.value front.isolationClass.value]
  | some proof =>
      if proof.generation ≠ current.failureDomain then
        [makeReason constraint ordinal .isolationEvidenceUnavailable .failureDomain
          entity.kind entity.identity current.failureDomain.value proof.generation.value]
      else []

theorem isolationReasons_alike_iff {a b : EntityView} (ha : a.Evidenced) (hb : b.Evidenced) :
    (∃ first ∈ isolationReasons constraint ordinal current a,
      ∃ second ∈ isolationReasons constraint ordinal current b,
        compareReason first second = .eq) ↔
      a.Same b ∧ UnprovenAlike constraint.isolationClass current.failureDomain a b := by
  unfold isolationReasons UnprovenAlike EntityView.Same
  cases hfirst : findIsolation a.isolation constraint.isolationClass with
  | none =>
      cases hsecond : findIsolation b.isolation constraint.isolationClass with
      | none =>
          cases ha' : a.isolation with
          | nil =>
              cases hb' : b.isolation with
              | nil => simp [compareReason_makeReason]
              | cons front rest => simp [compareReason_makeReason]
          | cons front rest =>
              cases hb' : b.isolation with
              | nil => simp [compareReason_makeReason]
              | cons other later =>
                  simp [compareReason_makeReason, StrongId.ext_iff, and_assoc]
      | some other =>
          have hset := hb.isolation other (mem_of_findByKey hsecond)
          cases ha' : a.isolation with
          | nil => simp [compareReason_makeReason, hset.symm]
          | cons front rest => simp [compareReason_makeReason]
  | some proof =>
      have hset := ha.isolation proof (mem_of_findByKey hfirst)
      cases hsecond : findIsolation b.isolation constraint.isolationClass with
      | none =>
          cases hb' : b.isolation with
          | nil => simp [compareReason_makeReason, hset]
          | cons front rest => simp [compareReason_makeReason]
      | some other =>
          by_cases hcurrent : proof.generation = current.failureDomain
          · simp [hcurrent]
          · by_cases hother : other.generation = current.failureDomain
            · simp [hcurrent, hother]
            · simp [compareReason_makeReason, hcurrent, hother, Generation.ext_iff, and_assoc]

theorem checkIsolationClass_apart_iff
    (hevidenced : ∀ entity ∈ entitiesOf candidate, entity.Evidenced) :
    Apart (checkIsolationClass constraint ordinal candidate current) ↔
      ¬ ∃ a b, [a, b].Sublist (entitiesOf candidate) ∧ a.Same b ∧
        UnprovenAlike constraint.isolationClass current.failureDomain a b := by
  have hplaces : checkIsolationClass constraint ordinal candidate current =
      (entitiesOf candidate).flatMap (isolationReasons constraint ordinal current) := rfl
  rw [hplaces]
  apply Apart.flatMap_iff
  · intro entity _
    unfold isolationReasons
    split
    · split <;> exact Nat.le_refl _
    · split <;> simp
  · intro a ha b hb
    exact isolationReasons_alike_iff (hevidenced a ha) (hevidenced b hb)

/-- The reasons of a wanted capability at one place. -/
def lackReasons (constraint : Constraint) (ordinal : UInt32) (current : EvidenceRequirements)
    (place : CapabilityId × EntityView) : List Reason :=
  match findCapability place.2.capabilities place.1 with
  | none =>
      [makeReason constraint ordinal .capabilityEvidenceUnavailable .capability
        place.2.kind place.2.identity place.1.value]
  | some ref =>
      if ref.generation ≠ current.capability then
        [makeReason constraint ordinal .capabilityEvidenceUnavailable .capability
          place.2.kind place.2.identity current.capability.value ref.generation.value]
      else []

/-- The reasons of a forbidden capability at one place. -/
def offenceReasons (constraint : Constraint) (ordinal : UInt32) (current : EvidenceRequirements)
    (place : CapabilityId × EntityView) : List Reason :=
  match findCapability place.2.capabilities place.1 with
  | none =>
      if constraint.unknownPolicy = .failClosed then
        [makeReason constraint ordinal .capabilityEvidenceUnavailable .capability
          place.2.kind place.2.identity place.1.value]
      else []
  | some ref =>
      if ref.generation ≠ current.capability then
        [makeReason constraint ordinal .capabilityEvidenceUnavailable .capability
          place.2.kind place.2.identity current.capability.value ref.generation.value]
      else
        [makeReason constraint ordinal .forbiddenCapabilityPresent .capability
          place.2.kind place.2.identity place.1.value]

section Places

variable {a b : CapabilityId × EntityView}

theorem lackReasons_alike_iff (ha : a.2.Evidenced) (hb : b.2.Evidenced) :
    (∃ first ∈ lackReasons constraint ordinal current a,
      ∃ second ∈ lackReasons constraint ordinal current b, compareReason first second = .eq) ↔
      a.2.Same b.2 ∧ LackAlike current.capability a b := by
  unfold lackReasons LackAlike EntityView.Same
  cases hfirst : findCapability a.2.capabilities a.1 with
  | none =>
      cases hsecond : findCapability b.2.capabilities b.1 with
      | none => simp [compareReason_makeReason, StrongId.ext_iff, and_assoc]
      | some other =>
          have hset := hb.capabilities other (mem_of_findByKey hsecond)
          simp [compareReason_makeReason, hset.symm]
  | some held =>
      have hset := ha.capabilities held (mem_of_findByKey hfirst)
      cases hsecond : findCapability b.2.capabilities b.1 with
      | none => simp [compareReason_makeReason, hset]
      | some other =>
          by_cases hcurrent : held.generation = current.capability
          · simp [hcurrent]
          · by_cases hother : other.generation = current.capability
            · simp [hcurrent, hother]
            · simp [compareReason_makeReason, hcurrent, hother, Generation.ext_iff, and_assoc]

theorem offenceReasons_alike_iff (ha : a.2.Evidenced) (hb : b.2.Evidenced) :
    (∃ first ∈ offenceReasons constraint ordinal current a,
      ∃ second ∈ offenceReasons constraint ordinal current b,
        compareReason first second = .eq) ↔
      a.2.Same b.2 ∧ OffendAlike constraint.unknownPolicy current.capability a b := by
  unfold offenceReasons OffendAlike EntityView.Same
  cases hfirst : findCapability a.2.capabilities a.1 with
  | none =>
      cases hsecond : findCapability b.2.capabilities b.1 with
      | none =>
          by_cases hclosed : constraint.unknownPolicy = .failClosed
          · simp [compareReason_makeReason, hclosed, StrongId.ext_iff, and_assoc]
          · simp [hclosed]
      | some other =>
          have hset := hb.capabilities other (mem_of_findByKey hsecond)
          by_cases hother : other.generation = current.capability
          · simp [compareReason_makeReason, hother]
          · simp [compareReason_makeReason, hother, hset.symm]
  | some held =>
      have hset := ha.capabilities held (mem_of_findByKey hfirst)
      cases hsecond : findCapability b.2.capabilities b.1 with
      | none =>
          by_cases hcurrent : held.generation = current.capability
          · simp [compareReason_makeReason, hcurrent]
          · simp [compareReason_makeReason, hcurrent, hset]
      | some other =>
          by_cases hcurrent : held.generation = current.capability
          · by_cases hother : other.generation = current.capability
            · simp [compareReason_makeReason, hcurrent, hother, StrongId.ext_iff, and_assoc]
            · simp [compareReason_makeReason, hcurrent, hother, Ne.symm hother]
          · by_cases hother : other.generation = current.capability
            · simp [compareReason_makeReason, hcurrent, hother]
            · simp [compareReason_makeReason, hcurrent, hother, Generation.ext_iff, and_assoc]

end Places

/-- The check of capabilities goes through the places. -/
theorem flatMap_capabilityPlaces {reasonsOf : CapabilityId × EntityView → List Reason} :
    (constraint.capabilities.flatMap fun capability =>
      (entitiesOf candidate).flatMap fun entity => reasonsOf (capability, entity)) =
      (capabilityPlaces constraint candidate).flatMap reasonsOf := by
  unfold capabilityPlaces
  rw [List.flatMap_assoc]
  simp only [List.flatMap_map]

theorem evidenced_of_capabilityPlaces
    (hevidenced : ∀ entity ∈ entitiesOf candidate, entity.Evidenced) :
    ∀ place ∈ capabilityPlaces constraint candidate, place.2.Evidenced := by
  intro place hmem
  obtain ⟨capability, -, hplace⟩ := List.mem_flatMap.mp hmem
  obtain ⟨entity, hentity, rfl⟩ := List.mem_map.mp hplace
  exact hevidenced entity hentity

theorem checkRequiredCapability_apart_iff
    (hevidenced : ∀ entity ∈ entitiesOf candidate, entity.Evidenced) :
    Apart (checkRequiredCapability constraint ordinal candidate current) ↔
      ¬ ∃ a b, [a, b].Sublist (capabilityPlaces constraint candidate) ∧ a.2.Same b.2 ∧
        LackAlike current.capability a b := by
  have hplaces : checkRequiredCapability constraint ordinal candidate current =
      (capabilityPlaces constraint candidate).flatMap (lackReasons constraint ordinal current) :=
    @flatMap_capabilityPlaces _ _ (lackReasons constraint ordinal current)
  rw [hplaces]
  apply Apart.flatMap_iff
  · intro place _
    unfold lackReasons
    split
    · exact Nat.le_refl _
    · split <;> simp
  · intro a ha b hb
    exact lackReasons_alike_iff (evidenced_of_capabilityPlaces hevidenced a ha)
      (evidenced_of_capabilityPlaces hevidenced b hb)

theorem checkForbiddenCapability_apart_iff
    (hevidenced : ∀ entity ∈ entitiesOf candidate, entity.Evidenced) :
    Apart (checkForbiddenCapability constraint ordinal candidate current) ↔
      ¬ ∃ a b, [a, b].Sublist (capabilityPlaces constraint candidate) ∧ a.2.Same b.2 ∧
        OffendAlike constraint.unknownPolicy current.capability a b := by
  have hplaces : checkForbiddenCapability constraint ordinal candidate current =
      (capabilityPlaces constraint candidate).flatMap
        (offenceReasons constraint ordinal current) :=
    @flatMap_capabilityPlaces _ _ (offenceReasons constraint ordinal current)
  rw [hplaces]
  apply Apart.flatMap_iff
  · intro place _
    unfold offenceReasons
    split
    · split <;> simp
    · split <;> simp
  · intro a ha b hb
    exact offenceReasons_alike_iff (evidenced_of_capabilityPlaces hevidenced a ha)
      (evidenced_of_capabilityPlaces hevidenced b hb)

/-- The reasons of one constraint are told apart exactly when it does not give one twice. -/
theorem evaluateMandatory_apart_iff (hentities : constraint.EntitiesAscending)
    (hnodes : (candidate.nodes.map (·.node)).Nodup)
    (hevidenced : ∀ entity ∈ entitiesOf candidate, entity.Evidenced) :
    Apart (evaluateMandatory constraint ordinal candidate current) ↔
      ¬ constraint.Repeats candidate current := by
  have hdistinct : ∀ {domain : IdentityDomain} {ids : List (StrongId domain)},
      strictlyAscending compare ids = true → ids.Nodup := by
    intro domain ids hascending
    apply (strictlyAscending_iff_pairwise.mp hascending).imp
    rintro a b hless rfl
    have hself : compare a a = .eq := Std.ReflCmp.compare_self
    rw [hself] at hless
    cases hless
  unfold evaluateMandatory Constraint.Repeats
  cases constraint.kind with
  | forbiddenLink => exact checkForbiddenEntity_apart_iff (hdistinct hentities.links)
  | isolationClass => exact checkIsolationClass_apart_iff hevidenced
  | requiredCapability => exact checkRequiredCapability_apart_iff hevidenced
  | forbiddenCapability => exact checkForbiddenCapability_apart_iff hevidenced
  | unset => exact iff_of_true List.Pairwise.nil not_false
  | maxLatency => exact iff_of_true (.of_length_le_one length_checkMaxLatency_le) not_false
  | minBandwidthCapability =>
      exact iff_of_true (.of_length_le_one length_checkMinBandwidth_le) not_false
  | maxHopCount => exact iff_of_true (.of_length_le_one length_checkMaxHopCount_le) not_false
  | requiredNode =>
      exact iff_of_true (checkRequiredEntity_apart (hdistinct hentities.nodes)) not_false
  | forbiddenNode =>
      refine iff_of_true ?_ not_false
      refine (checkForbiddenEntity_apart_iff (hdistinct hentities.nodes)).mpr ?_
      rintro ⟨id, -, hrepeated⟩
      exact List.nodup_iff_sublist.mp hnodes id hrepeated
  | requiredLink =>
      exact iff_of_true (checkRequiredEntity_apart (hdistinct hentities.links)) not_false
  | requiredTier | requiredSite =>
      exact iff_of_true (checkRequiredMembership_apart hnodes) not_false
  | forbiddenTier | forbiddenSite =>
      exact iff_of_true (checkForbiddenMembership_apart hnodes) not_false
  | localityScope => exact iff_of_true (checkLocalityScope_apart hnodes) not_false
  | requiredFailureDomainRelation =>
      exact iff_of_true (.of_length_le_one length_checkRequiredDomainRelation_le) not_false
  | forbiddenFailureDomainRelation =>
      exact iff_of_true (.of_length_le_one length_checkForbiddenDomainRelation_le) not_false
  | administrativePolicy =>
      exact iff_of_true (checkAdministrativePolicy_apart (hdistinct hentities.policies)) not_false

end Checks

end ConstraintRouting.Fabric
