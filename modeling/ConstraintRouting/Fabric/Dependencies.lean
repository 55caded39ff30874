import ConstraintRouting.Fabric.IndexSpec
import ConstraintRouting.Fabric.System

/-!
# The keys of what an evaluation looks up

An evaluation looks up the capabilities, policies and isolation classes that its set names.
The keys of a record hold the capabilities of the set, but of the policies and isolation
classes only those for which the candidate carries evidence.
-/

namespace ConstraintRouting.Fabric

/-! ## Masks -/

/-- The families of a union of masks are those of either. -/
theorem consults_or (a b : EvidenceFamilyMask) (family : EvidenceFamily) :
    consults (a ||| b) family = (consults a family || consults b family) := by
  have hdistributes : (a ||| b) &&& familyBit family =
      (a &&& familyBit family) ||| (b &&& familyBit family) := by
    apply UInt32.toBitVec_inj.mp
    ext i
    simp [Bool.and_or_distrib_right]
  unfold consults
  rw [hdistributes, Bool.eq_iff_iff]
  simp only [bne_iff_ne, ne_eq, UInt32.or_eq_zero_iff, Bool.or_eq_true, not_and_or]

/-- The families of a list of constraints are those of each of them. -/
theorem consults_foldl {constraints : List Constraint} {mask : EvidenceFamilyMask}
    {family : EvidenceFamily} :
    consults (constraints.foldl (fun mask constraint => mask ||| familiesOf constraint) mask)
        family = true ↔
      consults mask family = true ∨
        ∃ constraint ∈ constraints, consults (familiesOf constraint) family = true := by
  induction constraints generalizing mask with
  | nil => simp
  | cons first rest ih =>
      rw [List.foldl_cons, ih, consults_or, Bool.or_eq_true]
      simp only [List.exists_mem_cons_iff, or_assoc]

/-- A set consults the families of its constraints. -/
theorem consults_consultedMask {set : ConstraintSet} {constraint : Constraint}
    {family : EvidenceFamily} (hmem : constraint ∈ set.constraints)
    (hconsults : consults (familiesOf constraint) family = true) :
    consults (consultedMask set) family = true := by
  have hconstraints := (@consults_foldl _ (familyBit .pathAuthority) family).mpr
    (.inr ⟨constraint, hmem, hconsults⟩)
  unfold consultedMask
  dsimp only
  split
  · rw [consults_or, hconstraints]
    rfl
  · exact hconstraints

/-! ## What an evaluation looks up -/

/-- The keys of the identities that the check of a constraint looks up by name. -/
def namedKeys (constraint : Constraint) : List InvalidationKey :=
  match constraint.kind with
  | .requiredCapability | .forbiddenCapability =>
      constraint.capabilities.map fun capability => ⟨.capability, capability.value⟩
  | .administrativePolicy =>
      constraint.policies.map fun policy => ⟨.policy, policy.value⟩
  | .isolationClass => [⟨.isolationClass, constraint.isolationClass.value⟩]
  | _ => []

/-- The families whose checks read the facts of single nodes and links. -/
def entityFamilies : List EvidenceFamily := [.topology, .capability, .failureDomain]

/-- The keys of a record hold what its evaluation looks up. -/
structure HoldsLookups (record : EvaluationRecord) (set : ConstraintSet)
    (candidate : CandidatePath) : Prop where
  named : ∀ constraint ∈ set.constraints, ∀ key ∈ namedKeys constraint,
    key ∈ dependencyKeys record set candidate
  entities : ∀ family ∈ entityFamilies, consults record.consulted family = true →
    ∀ key ∈ nodeKeys candidate ++ linkKeys candidate, key ∈ dependencyKeys record set candidate

/-! ## The keys of a record -/

theorem mem_familyKeys {consulted : EvidenceFamilyMask} {family : EvidenceFamily}
    {keys : List InvalidationKey} {key : InvalidationKey} :
    key ∈ familyKeys consulted family keys ↔ consults consulted family = true ∧ key ∈ keys := by
  unfold familyKeys
  split
  · next hconsults => simp [hconsults]
  · next hnot => simp [hnot]

section Keys

variable {record : EvaluationRecord} {set : ConstraintSet} {candidate : CandidatePath}

/-- The policies among the keys are those that the candidate carries, and the one that stands
for the family. -/
theorem policy_mem_collectedKeys {value : UInt64} :
    ⟨.policy, value⟩ ∈ collectedKeys record set candidate ↔
      consults record.consulted .policy = true ∧
        (value = 0 ∨ ∃ ref ∈ candidate.policies, ref.policy.value = value) := by
  simp [collectedKeys, mem_familyKeys, topologyKeys, capabilityKeys, failureDomainKeys,
    policyKeys, nodeKeys, linkKeys]

/-- The isolation classes among the keys are those that an entity of the path is attested
for. -/
theorem isolation_mem_collectedKeys {value : UInt64} :
    ⟨.isolationClass, value⟩ ∈ collectedKeys record set candidate ↔
      consults record.consulted .failureDomain = true ∧
        ∃ entity ∈ entitiesOf candidate, ∃ ref ∈ entity.isolation,
          ref.isolationClass.value = value := by
  simp [collectedKeys, mem_familyKeys, topologyKeys, capabilityKeys, failureDomainKeys,
    policyKeys, nodeKeys, linkKeys]

/-- The capabilities that the set names are among the keys. -/
theorem capability_mem_collectedKeys {constraint : Constraint} {capability : CapabilityId}
    (hconsults : consults record.consulted .capability = true)
    (hmem : constraint ∈ set.constraints) (hnamed : capability ∈ constraint.capabilities) :
    ⟨.capability, capability.value⟩ ∈ collectedKeys record set candidate := by
  have hkey : ⟨.capability, capability.value⟩ ∈ capabilityKeys set candidate := by
    simp only [capabilityKeys, List.cons_append, List.mem_cons, List.mem_append,
      List.mem_flatMap, List.mem_map]
    exact .inr (.inl (.inl (.inl ⟨constraint, hmem, capability, hnamed, rfl⟩)))
  simp [collectedKeys, mem_familyKeys, hconsults, hkey]

/-- The nodes and links of the path are among the keys for each of the families that read
them. -/
theorem entity_mem_collectedKeys {family : EvidenceFamily} {key : InvalidationKey}
    (hfamily : family ∈ entityFamilies) (hconsults : consults record.consulted family = true)
    (hkey : key ∈ nodeKeys candidate ++ linkKeys candidate) :
    key ∈ collectedKeys record set candidate := by
  have hkeys : key ∈ topologyKeys candidate ∧ key ∈ capabilityKeys set candidate ∧
      key ∈ failureDomainKeys candidate := by
    rcases List.mem_append.mp hkey with hnode | hlink
    · simp [topologyKeys, capabilityKeys, failureDomainKeys, hnode]
    · simp [topologyKeys, capabilityKeys, failureDomainKeys, hlink]
  simp only [entityFamilies, List.mem_cons, List.not_mem_nil, or_false] at hfamily
  rcases hfamily with rfl | rfl | rfl
  · simp [collectedKeys, mem_familyKeys, hconsults, hkeys.1]
  · simp [collectedKeys, mem_familyKeys, hconsults, hkeys.2.1]
  · simp [collectedKeys, mem_familyKeys, hconsults, hkeys.2.2]

end Keys

/-- The candidate carries what its set names of policies and isolation classes. -/
structure CarriesNamed (set : ConstraintSet) (candidate : CandidatePath) : Prop where
  policies : ∀ constraint ∈ set.constraints, constraint.kind = .administrativePolicy →
    ∀ policy ∈ constraint.policies, policy.isValid = true →
      ∃ ref ∈ candidate.policies, ref.policy = policy
  isolation : ∀ constraint ∈ set.constraints, constraint.kind = .isolationClass →
    ∃ entity ∈ entitiesOf candidate, ∃ ref ∈ entity.isolation,
      ref.isolationClass = constraint.isolationClass

/-- The families of a constraint of another kind than a latency bound. -/
theorem familiesOf_eq {constraint : Constraint} {kind : ConstraintKind}
    (hkind : constraint.kind = kind) (hother : kind ≠ .maxLatency) :
    familiesOf constraint = evidenceFamilies kind := by
  subst hkind
  exact if_neg hother

/-- The keys of an evaluated record hold what was looked up exactly when the candidate
carries the policies and the isolation classes that the set names. -/
theorem holdsLookups_iff {context : EvaluationContext} {candidate : CandidatePath}
    {record : EvaluationRecord} (h : evaluateCandidate context candidate = .ok record) :
    HoldsLookups record context.set candidate ↔ CarriesNamed context.set candidate := by
  have hmask : record.consulted = consultedMask context.set := by
    unfold evaluateCandidate at h
    split at h
    · cases h
      rfl
    · cases h
  have hconsulted : ∀ constraint ∈ context.set.constraints, ∀ kind, constraint.kind = kind →
      kind ≠ .maxLatency → ∀ family, consults (evidenceFamilies kind) family = true →
      consults record.consulted family = true := by
    intro constraint hmem kind hkind hother family hfamily
    rw [hmask]
    apply consults_consultedMask hmem
    rwa [familiesOf_eq hkind hother]
  constructor
  · intro hholds
    constructor
    · intro constraint hmem hkind policy hpolicy hvalid
      have hnamed : ⟨.policy, policy.value⟩ ∈ namedKeys constraint := by
        simp only [namedKeys, hkind]
        exact List.mem_map_of_mem hpolicy
      have hkey := mem_dependencyKeys.mp (hholds.named constraint hmem _ hnamed)
      rcases (policy_mem_collectedKeys.mp hkey).2 with hzero | ⟨ref, href, hvalue⟩
      · simp [StrongId.isValid, hzero] at hvalid
      · exact ⟨ref, href, StrongId.ext hvalue⟩
    · intro constraint hmem hkind
      have hnamed : ⟨.isolationClass, constraint.isolationClass.value⟩ ∈
          namedKeys constraint := by
        simp [namedKeys, hkind]
      have hkey := mem_dependencyKeys.mp (hholds.named constraint hmem _ hnamed)
      obtain ⟨entity, hentity, ref, href, hvalue⟩ := (isolation_mem_collectedKeys.mp hkey).2
      exact ⟨entity, hentity, ref, href, StrongId.ext hvalue⟩
  · intro hcarries
    constructor
    · intro constraint hmem key hkey
      rw [mem_dependencyKeys]
      unfold namedKeys at hkey
      split at hkey
      · next hkind =>
          obtain ⟨capability, hnamed, rfl⟩ := List.mem_map.mp hkey
          have hconsults := hconsulted constraint hmem _ hkind (by decide) .capability (by decide)
          exact capability_mem_collectedKeys hconsults hmem hnamed
      · next hkind =>
          obtain ⟨capability, hnamed, rfl⟩ := List.mem_map.mp hkey
          have hconsults := hconsulted constraint hmem _ hkind (by decide) .capability (by decide)
          exact capability_mem_collectedKeys hconsults hmem hnamed
      · next hkind =>
          obtain ⟨policy, hnamed, rfl⟩ := List.mem_map.mp hkey
          have hconsults := hconsulted constraint hmem _ hkind (by decide) .policy (by decide)
          rw [policy_mem_collectedKeys]
          refine ⟨hconsults, ?_⟩
          by_cases hvalid : policy.isValid = true
          · obtain ⟨ref, href, hsame⟩ :=
              hcarries.policies constraint hmem hkind policy hnamed hvalid
            exact .inr ⟨ref, href, congrArg StrongId.value hsame⟩
          · left
            simpa [StrongId.isValid] using hvalid
      · next hkind =>
          rw [List.mem_singleton.mp hkey, isolation_mem_collectedKeys]
          have hconsults :=
            hconsulted constraint hmem _ hkind (by decide) .failureDomain (by decide)
          obtain ⟨entity, hentity, ref, href, hsame⟩ :=
            hcarries.isolation constraint hmem hkind
          exact ⟨hconsults, entity, hentity, ref, href, congrArg StrongId.value hsame⟩
      · cases hkey
    · intro family hfamily hconsults key hkey
      exact mem_dependencyKeys.mpr (entity_mem_collectedKeys hfamily hconsults hkey)

/-- An active set of one constraint. -/
def sampleGoverned (constraint : Constraint) : EvaluationContext where
  set :=
    let set := { sampleSet 5 with constraints := [constraint] }
    { set with state := .active, digest := constraintSetDigest set }
  current := sampleEvidence
  authorityVerified := true

def samplePolicy : Constraint :=
  { id := ⟨7⟩, generation := ⟨1⟩, kind := .administrativePolicy, policies := [⟨9⟩] }

def sampleIsolation : Constraint :=
  { id := ⟨7⟩, generation := ⟨1⟩, kind := .isolationClass, isolationClass := ⟨4⟩ }

private theorem sampleGoverned_reasons :
    (evaluationRecord (sampleGoverned samplePolicy) (samplePath 31)).primaryReason =
        .administrativePolicyNotSatisfied ∧
      (evaluationRecord (sampleGoverned sampleIsolation) (samplePath 31)).primaryReason =
        .isolationEvidenceUnavailable := by
  decide +kernel

/-- The path is refused for the policy, or for the isolation class, that it carries no evidence
of, and the key of neither is among those of the record. -/
theorem absent_evidence_leaves_no_key :
    (∃ record, evaluateCandidate (sampleGoverned samplePolicy) (samplePath 31) = .ok record ∧
      record.primaryReason = .administrativePolicyNotSatisfied ∧
      ¬ HoldsLookups record (sampleGoverned samplePolicy).set (samplePath 31)) ∧
    ∃ record, evaluateCandidate (sampleGoverned sampleIsolation) (samplePath 31) = .ok record ∧
      record.primaryReason = .isolationEvidenceUnavailable ∧
      ¬ HoldsLookups record (sampleGoverned sampleIsolation).set (samplePath 31) := by
  obtain ⟨hpolicy, hisolation⟩ := sampleGoverned_reasons
  constructor
  · refine ⟨_, rfl, hpolicy, ?_⟩
    intro hholds
    have hkey := hholds.named samplePolicy List.mem_cons_self ⟨.policy, 9⟩ List.mem_cons_self
    obtain ⟨-, hzero | ⟨ref, href, -⟩⟩ :=
      policy_mem_collectedKeys.mp (mem_dependencyKeys.mp hkey)
    · cases hzero
    · cases href
  · refine ⟨_, rfl, hisolation, ?_⟩
    intro hholds
    have hkey := hholds.named sampleIsolation List.mem_cons_self ⟨.isolationClass, 4⟩
      List.mem_cons_self
    obtain ⟨-, entity, hentity, ref, href, -⟩ :=
      isolation_mem_collectedKeys.mp (mem_dependencyKeys.mp hkey)
    simp [samplePath, entitiesOf] at hentity
    rcases hentity with rfl | rfl | rfl <;> cases href

theorem holdsLookups_iff_sample :
    ∃ record, evaluateCandidate (sampleGoverned samplePolicy) (samplePath 31) = .ok record ∧
      (HoldsLookups record (sampleGoverned samplePolicy).set (samplePath 31) ↔
        CarriesNamed (sampleGoverned samplePolicy).set (samplePath 31)) :=
  ⟨_, rfl, holdsLookups_iff rfl⟩

end ConstraintRouting.Fabric
