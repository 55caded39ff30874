import ConstraintRouting.Fabric.Acknowledgement
import ConstraintRouting.Fabric.Currentness
import ConstraintRouting.Fabric.Dependencies
import ConstraintRouting.Fabric.RecordDigests

/-!
# Which records an advance of evidence reaches

An advance of the topology reaches its dependents through the keys of nodes and links, which
the records that consulted capabilities or failure domains are bound to as well.
-/

namespace ConstraintRouting.Fabric

open Verified.StepMachine
open InvalidationIndex

/-! ## Keys and families -/

/-- The family of a key of one kind, if it is that of one family only. -/
def InvalidationKeyKind.family : InvalidationKeyKind → Option EvidenceFamily
  | .topology | .localityDomain => some .topology
  | .linkState => some .linkState
  | .capability => some .capability
  | .failureDomain | .isolationClass => some .failureDomain
  | .policy => some .policy
  | .planner => some .planner
  | .pathAuthority => some .pathAuthority
  | .constraintSet | .path | .node | .link => none

/-- The record is bound to the key through a family that it consulted: one whose own the key
is, or one that reads the node or the link of the key. -/
inductive BoundThrough (record : EvaluationRecord) (candidate : CandidatePath)
    (key : InvalidationKey) : Prop
  | own (family : EvidenceFamily) :
      key.kind.family = some family → consults record.consulted family = true →
      BoundThrough record candidate key
  | entity (family : EvidenceFamily) :
      family ∈ entityFamilies → consults record.consulted family = true →
      key ∈ nodeKeys candidate ++ linkKeys candidate → BoundThrough record candidate key

section Keys

variable {record : EvaluationRecord} {set : ConstraintSet} {candidate : CandidatePath}
  {key : InvalidationKey} {family : EvidenceFamily}

theorem mem_topologyKeys_cases (h : key ∈ topologyKeys candidate) :
    key.kind.family = some .topology ∨ key ∈ nodeKeys candidate ++ linkKeys candidate := by
  simp only [topologyKeys, List.cons_append, List.mem_cons, List.mem_append,
    List.mem_flatMap, List.mem_map] at h
  rcases h with rfl | (hnode | ⟨node, -, locality, -, rfl⟩) | hlink
  · exact .inl rfl
  · exact .inr (List.mem_append_left _ hnode)
  · exact .inl rfl
  · exact .inr (List.mem_append_right _ hlink)

theorem mem_capabilityKeys_cases (h : key ∈ capabilityKeys set candidate) :
    key.kind.family = some .capability ∨ key ∈ nodeKeys candidate ++ linkKeys candidate := by
  simp only [capabilityKeys, List.cons_append, List.mem_cons, List.mem_append,
    List.mem_flatMap, List.mem_map] at h
  rcases h with rfl | ((⟨constraint, -, capability, -, rfl⟩ | hnode) | hlink) |
    ⟨entity, -, ref, -, rfl⟩
  · exact .inl rfl
  · exact .inl rfl
  · exact .inr (List.mem_append_left _ hnode)
  · exact .inr (List.mem_append_right _ hlink)
  · exact .inl rfl

theorem mem_failureDomainKeys_cases (h : key ∈ failureDomainKeys candidate) :
    key.kind.family = some .failureDomain ∨
      key ∈ nodeKeys candidate ++ linkKeys candidate := by
  simp only [failureDomainKeys, List.cons_append, List.mem_cons, List.mem_append,
    List.mem_flatMap, List.mem_map] at h
  rcases h with rfl | (hnode | hlink) | ⟨entity, -, ⟨ref, -, rfl⟩ | ⟨ref, -, rfl⟩⟩
  · exact .inl rfl
  · exact .inr (List.mem_append_left _ hnode)
  · exact .inr (List.mem_append_right _ hlink)
  · exact .inl rfl
  · exact .inl rfl

/-- A key of a family, or of a node or a link, is there through a consulted family. -/
theorem boundThrough_of_mem (hkey : key ∈ collectedKeys record set candidate)
    (hkind : key.kind ≠ .constraintSet ∧ key.kind ≠ .path) :
    BoundThrough record candidate key := by
  have hcases : ∀ family, family ∈ entityFamilies → consults record.consulted family = true →
      key.kind.family = some family ∨ key ∈ nodeKeys candidate ++ linkKeys candidate →
      BoundThrough record candidate key := by
    intro family hfamily hconsults hown
    rcases hown with hown | hentity
    · exact .own family hown hconsults
    · exact .entity family hfamily hconsults hentity
  simp only [collectedKeys, List.cons_append, List.nil_append, List.mem_cons, List.mem_append,
    mem_familyKeys, List.not_mem_nil, or_false] at hkey
  rcases hkey with rfl | rfl | ((((((⟨hconsults, hkey⟩ | ⟨hconsults, hkey⟩) |
    ⟨hconsults, hkey⟩) | ⟨hconsults, hkey⟩) | ⟨hconsults, rfl⟩) | ⟨hconsults, rfl⟩) |
    ⟨hconsults, rfl⟩)
  · exact absurd rfl hkind.1
  · exact absurd rfl hkind.2
  · exact hcases .topology (by simp [entityFamilies]) hconsults (mem_topologyKeys_cases hkey)
  · exact hcases .capability (by simp [entityFamilies]) hconsults
      (mem_capabilityKeys_cases hkey)
  · exact hcases .failureDomain (by simp [entityFamilies]) hconsults
      (mem_failureDomainKeys_cases hkey)
  · have hpolicy : key.kind = .policy := by
      simp only [policyKeys, List.mem_cons, List.mem_map] at hkey
      rcases hkey with rfl | ⟨ref, -, rfl⟩ <;> rfl
    exact .own .policy (by rw [hpolicy]; rfl) hconsults
  · exact .own .planner rfl hconsults
  · exact .own .linkState rfl hconsults
  · exact .own .pathAuthority rfl hconsults

/-- A family reaches a record through a key of its own, and the topology through those of
nodes and links as well. -/
theorem family_of_mem_familyKinds (h : key.kind ∈ familyKinds family) :
    key.kind.family = some family ∨
      family = .topology ∧ (key.kind = .node ∨ key.kind = .link) := by
  generalize key.kind = kind at h
  cases family <;> cases kind <;> simp_all [familyKinds, InvalidationKeyKind.family]

end Keys

/-! ## What an advance reaches -/

/-- The record consulted capabilities or failure domains, and its set is stored and its
candidate retained with a node or a link. -/
structure BoundByEntities (impl : Impl) (record : EvaluationRecord) : Prop where
  consults : consults record.consulted .capability = true ∨
    consults record.consulted .failureDomain = true
  located : ∃ set candidate, findSet impl.sets record.setId = some set ∧
    findCandidate impl.populations record.setId record.path = some candidate ∧
    (candidate.nodes ≠ [] ∨ candidate.links ≠ [])

section Reach

variable {impl : Impl} {record : EvaluationRecord} {family : EvidenceFamily}

/-- A node or a link of the path that has a key. -/
theorem entities_of_mem_keys {candidate : CandidatePath} {key : InvalidationKey}
    (h : key ∈ nodeKeys candidate ++ linkKeys candidate) :
    key.kind.family = none ∧ (candidate.nodes ≠ [] ∨ candidate.links ≠ []) := by
  rcases List.mem_append.mp h with hnode | hlink
  · obtain ⟨node, hmem, rfl⟩ := List.mem_map.mp hnode
    exact ⟨rfl, .inl (List.ne_nil_of_mem hmem)⟩
  · obtain ⟨link, hmem, rfl⟩ := List.mem_map.mp hlink
    exact ⟨rfl, .inr (List.ne_nil_of_mem hmem)⟩

/-- What a family reaches consulted it, or is bound by its entities. -/
theorem reached_cases {key : InvalidationKey}
    (hbound : key ∈ Impl.boundKeys impl.sets impl.populations record)
    (hkind : key.kind ∈ familyKinds family) :
    consults record.consulted family = true ∨
      family = .topology ∧ BoundByEntities impl record := by
  unfold Impl.boundKeys at hbound
  split at hbound
  · next set candidate hset hcandidate =>
      have hreach := family_of_mem_familyKinds hkind
      have hother : key.kind ≠ .constraintSet ∧ key.kind ≠ .path := by
        generalize key.kind = kind at hreach
        cases kind <;> simp_all [InvalidationKeyKind.family]
      cases boundThrough_of_mem (mem_dependencyKeys.mp hbound) hother with
      | own other hown hconsults =>
          rcases hreach with hsame | ⟨-, hnode | hlink⟩
          · rw [hown] at hsame
            cases hsame
            exact .inl hconsults
          · rw [hnode] at hown
            cases hown
          · rw [hlink] at hown
            cases hown
      | entity other hfamily hconsults hkey =>
          obtain ⟨hnone, hentities⟩ := entities_of_mem_keys hkey
          rcases hreach with hown | ⟨rfl, -⟩
          · rw [hnone] at hown
            cases hown
          · have hbinds : consults record.consulted .capability = true ∨
                consults record.consulted .failureDomain = true →
                BoundByEntities impl record :=
              fun hconsulted => ⟨hconsulted, set, candidate, hset, hcandidate, hentities⟩
            simp only [entityFamilies, List.mem_cons, List.not_mem_nil, or_false] at hfamily
            rcases hfamily with rfl | rfl | rfl
            · exact .inl hconsults
            · exact .inr ⟨rfl, hbinds (.inl hconsults)⟩
            · exact .inr ⟨rfl, hbinds (.inr hconsults)⟩
  · cases hbound

/-- The topology reaches what is bound by its entities. -/
theorem reached_of_boundByEntities (h : BoundByEntities impl record) :
    ∃ key ∈ Impl.boundKeys impl.sets impl.populations record,
      key.kind ∈ familyKinds .topology := by
  obtain ⟨hconsults, set, candidate, hset, hcandidate, hentities⟩ := h
  have hkey : ∃ key ∈ nodeKeys candidate ++ linkKeys candidate,
      key.kind ∈ familyKinds .topology := by
    rcases hentities with hnodes | hlinks
    · obtain ⟨node, hnode⟩ := List.exists_mem_of_ne_nil _ hnodes
      exact ⟨_, List.mem_append_left _ (List.mem_map_of_mem hnode), by simp [familyKinds]⟩
    · obtain ⟨link, hlink⟩ := List.exists_mem_of_ne_nil _ hlinks
      exact ⟨_, List.mem_append_right _ (List.mem_map_of_mem hlink), by simp [familyKinds]⟩
  obtain ⟨key, hmem, hkind⟩ := hkey
  refine ⟨key, ?_, hkind⟩
  simp only [Impl.boundKeys, hset, hcandidate, mem_dependencyKeys]
  rcases hconsults with hcapability | hdomain
  · exact entity_mem_collectedKeys (by simp [entityFamilies]) hcapability hmem
  · exact entity_mem_collectedKeys (by simp [entityFamilies]) hdomain hmem

end Reach

/-! ## Records of one identity -/

/-- Records of one identity consulted the same families, and current ones have a valid
identity. -/
structure Identified (evaluations : List EvaluationRecord) : Prop where
  valid : ∀ record ∈ evaluations, record.state = .current → record.id.isValid = true
  masks : ∀ a ∈ evaluations, ∀ b ∈ evaluations, a.id = b.id → a.consulted = b.consulted

namespace Identified

variable {evaluations after records : List EvaluationRecord} {setId : ConstraintSetId}

theorem sublist (h : Identified evaluations) (hsublist : after.Sublist evaluations) :
    Identified after :=
  ⟨fun record hmem => h.valid record (hsublist.mem hmem),
   fun a ha b hb => h.masks a (hsublist.mem ha) b (hsublist.mem hb)⟩

theorem demoted (h : Identified evaluations) (selected : EvaluationRecord → Bool) :
    Identified (demote selected evaluations) := by
  have hbefore : ∀ record ∈ demote selected evaluations, ∃ before ∈ evaluations,
      before.id = record.id ∧ before.consulted = record.consulted := by
    intro record hmem
    rcases demote_cases hmem with hkept | ⟨before, hbefore, -, rfl⟩
    · exact ⟨record, hkept, rfl, rfl⟩
    · exact ⟨before, hbefore, rfl, rfl⟩
  constructor
  · intro record hmem hcurrent
    exact h.valid record (mem_of_mem_demote hmem hcurrent).1 hcurrent
  · intro a ha b hb hsame
    obtain ⟨first, hfirst, hfirstId, hfirstMask⟩ := hbefore a ha
    obtain ⟨second, hsecond, hsecondId, hsecondMask⟩ := hbefore b hb
    have hids : first.id = second.id := by rw [hfirstId, hsecondId, hsame]
    rw [← hfirstMask, ← hsecondMask, h.masks first hfirst second hsecond hids]

/-- The records of a batch share a mask, and replace what has their identities. -/
theorem committed (h : Identified evaluations) {mask : EvidenceFamilyMask}
    (hmasks : ∀ record ∈ records, record.consulted = mask)
    (hvalid : ∀ record ∈ records, record.id.isValid = true) :
    Identified (commitEvaluations evaluations setId records) := by
  have hbefore : ∀ record ∈ commitEvaluations evaluations setId records,
      record ∈ records ∨ record.id ∉ records.map (·.id) ∧ ∃ before ∈ evaluations,
        before.id = record.id ∧ before.consulted = record.consulted ∧
        (record.state = .current → before = record) := by
    intro record hmem
    rcases List.mem_append.mp hmem with hold | hnew
    · right
      obtain ⟨before, hretained, hrecord⟩ := List.mem_map.mp hold
      obtain ⟨hstood, houtside⟩ := List.mem_filter.mp hretained
      have hfresh := of_decide_eq_true houtside
      split at hrecord
      · subst hrecord
        exact ⟨hfresh, before, hstood, rfl, rfl, fun hcurrent => by cases hcurrent⟩
      · subst hrecord
        exact ⟨hfresh, before, hstood, rfl, rfl, fun _ => rfl⟩
    · exact .inl hnew
  constructor
  · intro record hmem hcurrent
    rcases hbefore record hmem with hnew | ⟨-, before, hstood, -, -, hsame⟩
    · exact hvalid record hnew
    · obtain rfl := hsame hcurrent
      exact h.valid before hstood hcurrent
  · intro a ha b hb hsame
    rcases hbefore a ha with hnewA | ⟨hfreshA, first, hfirst, hfirstId, hfirstMask, -⟩
    · rcases hbefore b hb with hnewB | ⟨hfreshB, -⟩
      · rw [hmasks a hnewA, hmasks b hnewB]
      · rw [← hsame] at hfreshB
        exact absurd (List.mem_map_of_mem hnewA) hfreshB
    · rcases hbefore b hb with hnewB | ⟨-, second, hsecond, hsecondId, hsecondMask, -⟩
      · rw [hsame] at hfreshA
        exact absurd (List.mem_map_of_mem hnewB) hfreshA
      · have hids : first.id = second.id := by rw [hfirstId, hsecondId, hsame]
        rw [← hfirstMask, ← hsecondMask, h.masks first hfirst second hsecond hids]

end Identified

/-- Every step keeps the records identified. -/
theorem Transition.identified {event : Event}
    (h : Transition event.pre event.input.call event.input.action event.output event.post)
    (hbefore : Identified event.pre.impl.evaluations) :
    Identified event.post.impl.evaluations := by
  cases h.standingStep with
  | kept hstanding =>
      have hkept : event.post.impl.evaluations = event.pre.impl.evaluations :=
        congrArg Standing.evaluations hstanding
      exact hkept ▸ hbefore
  | operated operation value _ heffect =>
      have hevaluations : event.post.impl.evaluations = event.post.impl.standing.evaluations := rfl
      generalize event.post.impl.standing = standing at heffect hevaluations
      rw [hevaluations]
      cases heffect with
      | published | advanced | invalidated => exact hbefore.demoted _
      | moved =>
          dsimp only
          split
          · exact hbefore.demoted _
          · exact hbefore
  | committed ticket snapshot next _ _ htarget _ hstanding =>
      obtain ⟨populations, excess, hwrites⟩ := commitTarget_writes htarget
      have hevaluations := congrArg Standing.evaluations (hstanding.trans hwrites.standing)
      change event.post.impl.evaluations = _ at hevaluations
      rw [hevaluations]
      apply Identified.sublist _ trimHistory_sublist
      apply @Identified.committed _ _ _ hbefore (consultedMask snapshot.set)
      · intro record hmem
        exact (mem_committedRecords hmem).2.1
      · intro record hmem
        obtain ⟨-, -, candidate, -, rfl⟩ := mem_committedRecords hmem
        exact derivedEvaluationId_isValid _ _ _ _ _

theorem Execution.identified {events : List Event} {last : SystemState}
    (h : Execution events last) : Identified last.impl.evaluations := by
  let inv : List Event → SystemState → Prop := fun _ state =>
    Identified state.impl.evaluations
  have hinv : inv events last := by
    refine h.history_invariant ?_ ?_
    · intro start hopened
      have hdistinct := hopened.indexed.identities
      obtain ⟨hopened⟩ := hopened
      obtain ⟨restored, hfrom⟩ := openCoordinator_openedFrom hopened
      constructor
      · intro record hmem hcurrent
        have hstate := hfrom.evaluations record hmem
        rw [hcurrent] at hstate
        cases hstate
      · intro a ha b hb hsame
        rw [List.inj_on_of_nodup_map hdistinct ha hb hsame]
    · intro before event after _ _ htransition hbefore
      exact htransition.identified hbefore
  exact hinv

/-! ## Advances -/

/-- The event accepted the evidence, that of one family or of all. -/
structure AcceptsEvidence (event : Event) (requirements : EvidenceRequirements) : Prop where
  request : ∃ operation context, event.input.action = .operate operation ∧
    operation.requirements event.pre.impl.evidence = some (context, requirements)
  accepted : ∃ value, event.output = .operated (.ok value)

/-- A current record that consulted no advanced family stays as it is. -/
def SparesUnconsulted (event : Event) (requirements : EvidenceRequirements) : Prop :=
  ∀ record ∈ event.pre.impl.evaluations, record.state = .current →
    (∀ family ∈ advancedFamilies event.pre.impl.evidence requirements,
      consults record.consulted family = false) → record ∈ event.post.impl.evaluations

/-- The mutation that a request for evidence asks for. -/
theorem asks_of_requirements {operation : Operation} {context : AuthorityContext}
    {evidence requirements : EvidenceRequirements}
    (h : operation.requirements evidence = some (context, requirements)) :
    operation.asks evidence = some (context.attempt, .evidence requirements) := by
  cases operation with
  | setEvidenceRequirements =>
      cases h
      rfl
  | advanceFamily other family generation =>
      simp only [Operation.requirements, Option.map_eq_some_iff] at h
      obtain ⟨asked, hasked, hsame⟩ := h
      cases hsame
      simp [Operation.asks, hasked]
  | registerPublisher | fenceBoot | fenceOnSessionLoss | dropSession | observeAttempt
  | publishConstraintSet | applyLifecycle | invalidateKey | flush => cases h

/-- A request for evidence under an unused attempt is no replay. -/
theorem replays_of_unused {operation : Operation} {context : AuthorityContext} {impl : Impl}
    {requirements : EvidenceRequirements} {call : Call}
    (h : operation.requirements impl.evidence = some (context, requirements))
    (hunused : impl.authority.findAttempt context.attempt = none) :
    operation.replays impl call = false := by
  cases operation with
  | setEvidenceRequirements =>
      cases h
      exact isReplay_of_unused hunused
  | advanceFamily other family generation =>
      simp only [Operation.requirements, Option.map_eq_some_iff] at h
      obtain ⟨asked, hasked, hsame⟩ := h
      cases hsame
      simp [Operation.replays, hasked, isReplay_of_unused hunused]
  | registerPublisher | fenceBoot | fenceOnSessionLoss | dropSession | observeAttempt
  | publishConstraintSet | applyLifecycle | invalidateKey | flush => cases h

/-- An accepted request for evidence is a replay, or demotes what the advanced families
reach. -/
theorem AcceptsEvidence.effect {event : Event} {requirements : EvidenceRequirements}
    (h : AcceptsEvidence event requirements) (hsound : Sound event.pre)
    (htaken : event.Taken step) :
    Replays event = true ∧ event.post.impl.evaluations = event.pre.impl.evaluations ∨
      Replays event = false ∧ event.post.impl.evaluations = demote (fun record => record.id ∈
        (advancedFamilies event.pre.impl.evidence requirements).flatMap
          (dependentsOfFamily event.pre.impl.index)) event.pre.impl.evaluations := by
  obtain ⟨⟨operation, context, haction, hrequires⟩, haccepted⟩ := h
  cases hreplays : Replays event with
  | true =>
      refine .inl ⟨rfl, ?_⟩
      have htransition := step_transition hsound.limits htaken
      simp only [Replays, haction] at hreplays
      obtain ⟨pre, ⟨action, call⟩, output, post⟩ := event
      dsimp only at haction htransition hrequires hreplays ⊢
      subst haction
      cases htransition with
      | operated =>
          rcases operation.run_cases pre.impl call with hkept | ⟨value, -, heffect, -⟩
          · exact hkept.evaluations
          · generalize (operation.run pre.impl call).1.standing = standing at heffect
            cases heffect with
            | published | moved | invalidated => cases hrequires
            | advanced hother hunused =>
                rw [replays_of_unused hother hunused] at hreplays
                cases hreplays
      | ended _ hnot | started _ hnot => exact absurd rfl (hnot operation)
  | false =>
      refine .inr ⟨rfl, ?_⟩
      have hasks : asks event = some (context.attempt, .evidence requirements) := by
        simp [asks, haction, asks_of_requirements hrequires]
      have happlied := (carriesOut_of_operate hsound htaken haction
        ⟨hasks, hreplays, .inl haccepted⟩).1
      obtain ⟨other, result, hoperation, heffect⟩ := happlied
      rw [haction] at hoperation
      cases hoperation
      generalize hstanding : event.post.impl.standing = standing at heffect
      have hevaluations := congrArg Standing.evaluations hstanding
      change event.post.impl.evaluations = _ at hevaluations
      rw [hevaluations]
      cases heffect with
      | published | moved | invalidated => cases hrequires
      | advanced hother =>
          rw [hrequires] at hother
          cases hother
          rfl

/-- An accepted advance spares the records that consulted no advanced family exactly when it
is a replay, or does not advance the topology, or finds none of them bound by its entities. -/
theorem spares_unconsulted_iff {event : Event} {requirements : EvidenceRequirements}
    (hreachable : Reachable event.pre) (htaken : event.Taken step)
    (haccepts : AcceptsEvidence event requirements) :
    SparesUnconsulted event requirements ↔
      Replays event = true ∨
      .topology ∉ advancedFamilies event.pre.impl.evidence requirements ∨
      ∀ record ∈ event.pre.impl.evaluations, record.state = .current →
        (∀ family ∈ advancedFamilies event.pre.impl.evidence requirements,
          consults record.consulted family = false) → ¬ BoundByEntities event.pre.impl record := by
  obtain ⟨events, hexecution⟩ := hreachable
  have hsound := hexecution.sound
  have hidentified := hexecution.identified
  have hindex := hsound.derived.index
  rcases haccepts.effect hsound htaken with ⟨hreplays, hkept⟩ | ⟨hfresh, hdemoted⟩
  · refine iff_of_true ?_ (.inl hreplays)
    intro record hmem _ _
    rw [hkept]
    exact hmem
  · rw [hfresh]
    simp only [Bool.false_eq_true, false_or]
    constructor
    · intro hspares
      by_contra hneither
      rw [not_or, not_not] at hneither
      obtain ⟨htopology, hbound⟩ := hneither
      apply hbound
      intro record hmem hcurrent hunconsulted hbinds
      have hstays := hspares record hmem hcurrent hunconsulted
      rw [hdemoted] at hstays
      have hspared := (mem_of_mem_demote hstays hcurrent).2
      have hvalid := hidentified.valid record hmem hcurrent
      have hreached : record.id ∈ dependentsOfFamily event.pre.impl.index .topology := by
        rw [hindex]
        exact mem_dependentsOfFamily_iff.mpr ⟨record, hmem, hcurrent, hvalid, rfl,
          reached_of_boundByEntities hbinds⟩
      have hselected := List.mem_flatMap.mpr ⟨EvidenceFamily.topology, htopology, hreached⟩
      simp [hselected] at hspared
    · intro hcondition record hmem hcurrent hunconsulted
      have hspared : record.id ∉ (advancedFamilies event.pre.impl.evidence requirements).flatMap
          (dependentsOfFamily event.pre.impl.index) := by
        intro hselected
        obtain ⟨family, hadvanced, hreached⟩ := List.mem_flatMap.mp hselected
        rw [hindex] at hreached
        obtain ⟨other, hother, hotherCurrent, -, hid, key, hbound, hkind⟩ :=
          mem_dependentsOfFamily_iff.mp hreached
        -- The record that was reached consulted what the one of its identity did.
        have hmask := hidentified.masks other hother record hmem hid
        have hotherMask : ∀ family ∈ advancedFamilies event.pre.impl.evidence requirements,
            consults other.consulted family = false := by
          intro family hfamily
          rw [hmask]
          exact hunconsulted family hfamily
        rcases @reached_cases event.pre.impl _ _ _ hbound hkind with hconsults | ⟨rfl, hbinds⟩
        · rw [hotherMask family hadvanced] at hconsults
          cases hconsults
        · rcases hcondition with hnot | hnone
          · exact hnot hadvanced
          · exact hnone other hother hotherCurrent hotherMask hbinds
      rw [hdemoted]
      refine List.mem_map.mpr ⟨record, hmem, ?_⟩
      simp [hspared]

/-- A set that requires one capability. -/
def sampleCapable : ConstraintSet :=
  { sampleSet 5 with
    constraints :=
      [{ id := ⟨7⟩, generation := ⟨1⟩, kind := .requiredCapability, capabilities := [⟨3⟩] }] }

/-- Path 31 is evaluated on the set, and then the topology advances. -/
def sampleElsewhere : List Input :=
  [sampleInput (.operate (.publishConstraintSet (sampleContext 10) sampleCapable)),
   sampleInput (.operate (.applyLifecycle (sampleContext 11) ⟨5⟩ .activate)),
   sampleBegin 20 5 [31], sampleFinish 0,
   sampleInput (.operate (.advanceFamily (sampleContext 30) .topology 10))]

/-- The last event advances the topology and demotes a record that did not consult it. -/
private def demotesUnconsulted (events : List Event) : Bool :=
  events.getLast?.any fun event =>
    match event.output with
    | .operated (.ok _) =>
        decide (event.input.action =
            .operate (.advanceFamily (sampleContext 30) .topology 10) ∧
          event.pre.impl.evidence = sampleEvidence) &&
        event.pre.impl.evaluations.any fun record =>
          decide (record.state = .current ∧ record ∉ event.post.impl.evaluations ∧
            consults record.consulted .topology = false)
    | _ => false

private theorem sampleElsewhere_demotes :
    ((sampleRun sampleElsewhere).any fun run => demotesUnconsulted run.1) = true := by
  decide +kernel

private theorem sampleElsewhere_event :
    ∃ event, Reachable event.pre ∧ event.Taken step ∧
      AcceptsEvidence event { sampleEvidence with topology := ⟨10⟩ } ∧
      ∃ record ∈ event.pre.impl.evaluations, record.state = .current ∧
        record ∉ event.post.impl.evaluations ∧
        ∀ family ∈ advancedFamilies event.pre.impl.evidence
            { sampleEvidence with topology := ⟨10⟩ },
          consults record.consulted family = false := by
  obtain ⟨events, last, -, hexecution, hcheck⟩ := sampleRun_execution _ _ sampleElsewhere_demotes
  unfold demotesUnconsulted at hcheck
  obtain ⟨event, hlast, hevent⟩ := (Option.any_eq_true _ _).mp hcheck
  obtain ⟨before, rfl⟩ := List.getLast?_eq_some_iff.mp hlast
  have htaken := hexecution.taken_of_getLast? hlast
  split at hevent
  · next value houtput =>
      rw [Bool.and_eq_true, List.any_eq_true] at hevent
      obtain ⟨hdecided, record, hmem, hrecord⟩ := hevent
      obtain ⟨haction, hevidence⟩ := of_decide_eq_true hdecided
      obtain ⟨hcurrent, hgone, hunconsulted⟩ := of_decide_eq_true hrecord
      refine ⟨event, ⟨before, hexecution.split.1⟩, htaken,
        ⟨⟨_, sampleContext 30, haction, ?_⟩, _, houtput⟩, record, hmem, hcurrent, hgone, ?_⟩
      · rw [hevidence]
        rfl
      · rw [hevidence]
        have hadvanced : advancedFamilies sampleEvidence
            { sampleEvidence with topology := ⟨10⟩ } = [.topology] := by decide
        intro family hfamily
        rw [hadvanced, List.mem_singleton] at hfamily
        rw [hfamily]
        exact hunconsulted
  · cases hevent

/-- An advance of the topology demotes a record that consulted capabilities only. -/
theorem topology_demotes_unconsulted :
    ∃ event, Reachable event.pre ∧ event.Taken step ∧
      AcceptsEvidence event { sampleEvidence with topology := ⟨10⟩ } ∧
      ¬ SparesUnconsulted event { sampleEvidence with topology := ⟨10⟩ } := by
  obtain ⟨event, hreachable, htaken, haccepts, record, hmem, hcurrent, hgone, hunconsulted⟩ :=
    sampleElsewhere_event
  refine ⟨event, hreachable, htaken, haccepts, ?_⟩
  intro hspares
  exact hgone (hspares record hmem hcurrent hunconsulted)

theorem spares_unconsulted_iff_sample :
    ∃ event, SparesUnconsulted event { sampleEvidence with topology := ⟨10⟩ } ↔
      Replays event = true ∨
      EvidenceFamily.topology ∉ advancedFamilies event.pre.impl.evidence
        { sampleEvidence with topology := ⟨10⟩ } ∨
      ∀ record ∈ event.pre.impl.evaluations, record.state = .current →
        (∀ family ∈ advancedFamilies event.pre.impl.evidence
            { sampleEvidence with topology := ⟨10⟩ },
          consults record.consulted family = false) →
        ¬ BoundByEntities event.pre.impl record := by
  obtain ⟨event, hreachable, htaken, haccepts, -⟩ := sampleElsewhere_event
  exact ⟨event, spares_unconsulted_iff hreachable htaken haccepts⟩

end ConstraintRouting.Fabric
