import ConstraintRouting.Fabric.CanonicalForm
import ConstraintRouting.Fabric.ResultsSpec

/-!
# Stored sets

What one step does to the stored sets, and when every stored set passes
verification.  A publication keeps the digest that was computed at the submitted
generation and then assigns a generation of its own, so in memory the two agree only
when the submission carries the generation that the coordinator assigns; a durable
coordinator validates the state before it publishes it.
-/

namespace ConstraintRouting.Fabric

open Verified.StepMachine Verified.KeyedTables
open Verified.Checks (isOk)

/-! ## Steps -/

/-- What a step does to the stored sets. -/
inductive SetsStep (event : Event) : Prop
  | kept : event.post.impl.sets = event.pre.impl.sets → SetsStep event
  | published {context : AuthorityContext} {set finalized stored : ConstraintSet}
      {tick : UInt64} {defects : List SetDefect} :
      event.input.action = .operate (.publishConstraintSet context set) →
      event.pre.impl.authority.authorize context (scopeBit .publishConstraintSet) = .ok () →
      event.pre.impl.authority.findAttempt context.attempt = none →
      validateAndFinalizeConstraintSet { set with declaredTick := tick }
        event.pre.impl.config.limits = .ok (finalized, defects) →
      publishInto event.pre.impl.config.limits event.pre.impl.sets finalized =
        .ok (event.post.impl.sets, stored) →
      Published event.pre.impl event.post.impl → SetsStep event
  | moved {context : AuthorityContext} {setId : ConstraintSetId} {lifecycle : LifecycleEvent}
      {target : ConstraintSet} {state : ConstraintSetState} :
      event.input.action = .operate (.applyLifecycle context setId lifecycle) →
      findSet event.pre.impl.sets setId = some target →
      applyLifecycleEvent target.state lifecycle = .ok state →
      event.post.impl.sets =
        replaceFirst (·.id == target.id) { target with state } event.pre.impl.sets →
      SetsStep event

/-- Every step keeps the stored sets, publishes one or moves one. -/
theorem Transition.setsStep {event : Event}
    (h : Transition event.pre event.input.call event.input.action event.output
      event.post) : SetsStep event := by
  cases h.standingStep with
  | kept hstanding => exact .kept (congrArg Standing.sets hstanding)
  | operated operation value haction heffect hpublished =>
      have hsets : event.post.impl.sets = event.post.impl.standing.sets := rfl
      generalize event.post.impl.standing = standing at heffect hsets
      cases heffect with
      | @published _ _ _ stored _ _ _ _ hauthorized hunused hfinalized hinto =>
          refine @SetsStep.published _ _ _ _ stored _ _ haction hauthorized hunused hfinalized
            ?_ hpublished
          rw [hinto]
          exact congrArg (fun sets => Except.ok (sets, stored)) hsets.symm
      | moved hfound hstate => exact .moved haction hfound hstate hsets
      | advanced => exact .kept hsets
      | invalidated => exact .kept hsets
  | committed _ _ next _ _ htarget _ hstanding =>
      obtain ⟨populations, excess, hwrites⟩ := commitTarget_writes htarget
      have hsets : event.post.impl.sets = next.sets := congrArg Standing.sets hstanding
      exact .kept (hsets.trans (congrArg Standing.sets hwrites.standing))

/-! ## Canonical stored sets -/

/-- Every stored set passes verification under the coordinator's limits. -/
def StoresCanonical (impl : Impl) : Prop :=
  ∀ set ∈ impl.sets, verifyCanonicalConstraintSet set impl.config.limits = .ok ()

/-- The submitted set carries the generation that the coordinator assigns, if it
stores the set at all: the first one for a set that it does not know, the stored one
for the stored definition, and the next one for another definition. -/
def CarriesAssigned (impl : Impl) (set : ConstraintSet) : Prop :=
  match findSet impl.sets set.id with
  | none =>
      impl.sets.length < impl.config.limits.maxConstraintSets.toNat →
        set.generation = ⟨1⟩
  | some existing =>
      if existing.digest = constraintSetDigest (canonicalForm set) then
        set.generation = existing.generation
      else ∀ next, existing.generation.next = some next → set.generation = next

/-- A publication that an in-memory coordinator accepts carries the generation that
the coordinator assigns. -/
def PublishesAssigned (event : Event) : Prop :=
  ∀ context set, event.input.action = .operate (.publishConstraintSet context set) →
    event.pre.impl.durable = false →
    event.pre.impl.authority.authorize context (scopeBit .publishConstraintSet) = .ok () →
    event.pre.impl.authority.findAttempt context.attempt = none →
    isOk (validateAndFinalizeConstraintSet set event.pre.impl.config.limits) = true →
    CarriesAssigned event.pre.impl set

/-- What was accepted under one tick is accepted under another. -/
theorem Acceptable.redeclared {set : ConstraintSet} {limits : Limits} {tick : UInt64}
    (h : Acceptable { set with declaredTick := tick } limits) : Acceptable set limits :=
  ⟨h.limitsValid, h.id, h.generation, h.size, h.name, h.constraints, h.identities,
   h.consistent⟩

/-- What a finalized set keeps of its submission, and that the submission is acceptable
under any tick. -/
theorem finalized_of_submitted {set finalized : ConstraintSet} {limits : Limits}
    {tick : UInt64} {defects : List SetDefect}
    (h : validateAndFinalizeConstraintSet { set with declaredTick := tick } limits =
      .ok (finalized, defects)) :
    isOk (validateAndFinalizeConstraintSet set limits) = true ∧ finalized.id = set.id ∧
      finalized.digest = constraintSetDigest (canonicalForm set) := by
  obtain ⟨hacceptable, rfl⟩ := validateAndFinalizeConstraintSet_eq_ok_iff.mp ⟨defects, h⟩
  obtain ⟨_, hok⟩ :=
    validateAndFinalizeConstraintSet_eq_ok_iff.mpr ⟨hacceptable.redeclared, rfl⟩
  refine ⟨?_, rfl, rfl⟩
  rw [hok]
  rfl

/-- A set that was stored at the generation that it was submitted with passes
verification. -/
private theorem verify_of_same_generation {set : ConstraintSet} {limits : Limits}
    (h : Acceptable set limits) {generation : ConstraintSetGeneration}
    (hsame : set.generation = generation) (state : ConstraintSetState) :
    verifyCanonicalConstraintSet
      { canonicalForm set with
        digest := constraintSetDigest (canonicalForm set), generation, state } limits =
      .ok () := by
  subst hsame
  rw [verifyCanonicalConstraintSet_eq_ok_iff]
  have hcontent := h.canonicalContent.restated set.generation state
  exact ⟨⟨hcontent.id, hcontent.size, hcontent.constraints, hcontent.consistent⟩,
    h.generation, rfl⟩

/-- In memory, a publication that carries the assigned generation stores a set that
passes verification. -/
private theorem verify_of_publishInto {impl : Impl} {set finalized stored : ConstraintSet}
    {tick : UInt64} {defects : List SetDefect} {sets : List ConstraintSet}
    (hfinalized : validateAndFinalizeConstraintSet { set with declaredTick := tick }
      impl.config.limits = .ok (finalized, defects))
    (hinto : publishInto impl.config.limits impl.sets finalized = .ok (sets, stored))
    (hcarries : CarriesAssigned impl set) :
    verifyCanonicalConstraintSet stored impl.config.limits = .ok () := by
  obtain ⟨hacceptable, rfl⟩ :=
    validateAndFinalizeConstraintSet_eq_ok_iff.mp ⟨defects, hfinalized⟩
  have hid : findSet impl.sets { canonicalForm { set with declaredTick := tick } with
      digest := constraintSetDigest (canonicalForm { set with declaredTick := tick }) }.id =
      findSet impl.sets set.id := rfl
  unfold CarriesAssigned at hcarries
  rcases publishInto_cases hinto with ⟨hmissing, rfl, -⟩ |
    ⟨existing, hfound, hrepublished, -⟩
  · have hroom : impl.sets.length < impl.config.limits.maxConstraintSets.toNat := by
      unfold publishInto at hinto
      rw [hmissing] at hinto
      by_contra hfull
      simp only [Nat.not_lt.mp hfull, if_true] at hinto
      cases hinto
    rw [hid] at hmissing
    simp only [hmissing] at hcarries
    exact verify_of_same_generation hacceptable (hcarries hroom) .declared
  · rw [hid] at hfound
    simp only [hfound] at hcarries
    unfold republish at hrepublished
    have hdigest : constraintSetDigest (canonicalForm { set with declaredTick := tick }) =
        constraintSetDigest (canonicalForm set) := rfl
    split at hrepublished
    · next hsame =>
        rw [if_pos (hsame.trans hdigest)] at hcarries
        cases hrepublished
        exact verify_of_same_generation hacceptable hcarries existing.state
    · next hdiffers =>
        rw [if_neg fun heq => hdiffers (heq.trans hdigest.symm)] at hcarries
        split at hrepublished
        · cases hrepublished
        · next generation hnext =>
            cases hrepublished
            exact verify_of_same_generation hacceptable (hcarries generation hnext) _

/-- Every step keeps the stored sets canonical, if publications in memory carry the
assigned generation. -/
theorem StoresCanonical.step {event : Event} (hsound : Sound event.pre)
    (h : Transition event.pre event.input.call event.input.action event.output event.post)
    (hassigned : PublishesAssigned event) (hcanonical : StoresCanonical event.pre.impl) :
    StoresCanonical event.post.impl := by
  have hconfig := (h.impl_kept hsound.derived).1
  unfold StoresCanonical at *
  rw [hconfig]
  cases h.setsStep with
  | kept hsame =>
      rw [hsame]
      exact hcanonical
  | @published context set finalized stored tick defects haction hauthorized hunused
      hfinalized hinto hpublished =>
      by_cases hdurable : event.pre.impl.durable = true
      · obtain ⟨state, hstanding, hvalid⟩ := hpublished.valid hsound.stored hdurable
        have hsets : state.sets = event.post.impl.sets := congrArg Standing.sets hstanding
        rw [← hsets]
        exact (validatePersistentState_eq_ok.mp hvalid).canonical
      · have haccepted := (finalized_of_submitted hfinalized).1
        have hcarries := hassigned context set haction (eq_false_of_ne_true hdurable)
          hauthorized hunused haccepted
        have hstored := verify_of_publishInto hfinalized hinto hcarries
        intro other hother
        rcases publishInto_cases hinto with ⟨-, -, hafter⟩ | ⟨existing, -, -, hafter⟩
        · rw [hafter, List.mem_append, List.mem_singleton] at hother
          rcases hother with hbefore | rfl
          · exact hcanonical other hbefore
          · exact hstored
        · rw [hafter] at hother
          rcases mem_replaceFirst hother with rfl | hbefore
          · exact hstored
          · exact hcanonical other hbefore
  | @moved context setId lifecycle target state haction hfound hstate hafter =>
      rw [hafter]
      intro other hother
      rcases mem_replaceFirst hother with rfl | hbefore
      · have htarget := hcanonical target (List.mem_of_find?_eq_some hfound)
        rw [verifyCanonicalConstraintSet_eq_ok_iff] at htarget ⊢
        exact ⟨htarget.1.restated target.generation state, htarget.2.1, htarget.2.2⟩
      · exact hcanonical other hbefore

/-- In every run whose publications in memory carry the generation that the
coordinator assigns, every stored set passes verification. -/
theorem stored_sets_canonical_of_assigned {events : List Event} {last : SystemState}
    (h : Execution events last) (hassigned : ∀ event ∈ events, PublishesAssigned event) :
    StoresCanonical last.impl := by
  let inv : List Event → SystemState → Prop := fun _ state => StoresCanonical state.impl
  have hinv : inv events last := by
    refine h.history_invariant ?_ ?_
    · rintro start ⟨hopened⟩
      obtain ⟨restored, hfrom⟩ := openCoordinator_openedFrom hopened
      intro set hmem
      dsimp only at hmem
      rw [hfrom.sets] at hmem
      cases restored with
      | none => cases hmem
      | some state => exact (validatePersistentState_eq_ok.mp (hfrom.valid state rfl)).canonical set hmem
    · intro before event after hevents hsound htransition hcanonical
      have hmem : event ∈ events := by
        rw [hevents]
        exact List.mem_append_right _ List.mem_cons_self
      exact hcanonical.step hsound htransition (hassigned event hmem)
  exact hinv

/-! ## Publications in memory -/

/-- A set is published, activated, published again as it is stored, and published
with another definition at the next generation. -/
def sampleRepublish : List Input :=
  samplePublish 5 10 ++
    [sampleInput (.operate (.publishConstraintSet (sampleContext 12) (sampleSet 5))),
     sampleInput (.operate (.publishConstraintSet (sampleContext 13)
       { sampleSet 5 with generation := ⟨2⟩, ranking.consumePlannerRank := true }))]

/-- The publications of the sample carry what the coordinator assigns. -/
def publishesAssigned (event : Event) : Bool :=
  match event.input.action with
  | .operate (.publishConstraintSet _ set) =>
      match findSet event.pre.impl.sets set.id with
      | none => set.generation = ⟨1⟩
      | some existing =>
          if existing.digest = constraintSetDigest (canonicalForm set) then
            set.generation = existing.generation
          else existing.generation.next = some set.generation
  | _ => true

theorem publishesAssigned_sound {event : Event} (h : publishesAssigned event = true) :
    PublishesAssigned event := by
  intro context set haction _ _ _ _
  simp only [publishesAssigned, haction] at h
  unfold CarriesAssigned
  cases hfound : findSet event.pre.impl.sets set.id with
  | none =>
      simp only [hfound, decide_eq_true_eq] at h
      exact fun _ => h
  | some existing =>
      simp only [hfound] at h ⊢
      split
      · next hsame =>
          rw [if_pos hsame] at h
          exact of_decide_eq_true h
      · next hdiffers =>
          rw [if_neg hdiffers, decide_eq_true_eq] at h
          intro next hnext
          rw [h] at hnext
          exact Option.some.inj hnext

private theorem sampleRepublish_publishesAssigned :
    ((sampleRun sampleRepublish).any fun run => run.1.all publishesAssigned) = true := by
  decide +kernel

theorem stored_sets_canonical_of_assigned_sample :
    ∃ events last, sampleRun sampleRepublish = some (events, last) ∧
      StoresCanonical last.impl := by
  obtain ⟨events, last, hrun, hexecution, hcheck⟩ :=
    sampleRun_execution sampleRepublish (fun events => events.all publishesAssigned)
      sampleRepublish_publishesAssigned
  exact ⟨events, last, hrun, stored_sets_canonical_of_assigned hexecution
    fun event hmem => publishesAssigned_sound (List.all_eq_true.mp hcheck event hmem)⟩

/-- A first publication that was submitted at generation five. -/
def sampleForeign : List Input :=
  [sampleInput (.operate (.publishConstraintSet (sampleContext 10)
    { sampleSet 5 with generation := ⟨5⟩ }))]

/-- The last event acknowledges, and leaves a stored set whose digest is not the one
of its definition. -/
private def storesMismatch (events : List Event) : Bool :=
  events.getLast?.any fun event => event.post.impl.sets.any fun set =>
    decide (set.generation = ⟨1⟩ ∧ constraintSetDigest set ≠ set.digest)

private theorem sampleForeign_storesMismatch :
    ((sampleRun sampleForeign).any fun run => storesMismatch run.1) = true := by
  decide +kernel

/-- A set that was submitted at another generation than it is stored at does not pass
verification. -/
theorem submitted_generation_breaks_digest :
    ∃ events last, sampleRun sampleForeign = some (events, last) ∧ Execution events last ∧
      (∃ set ∈ last.impl.sets, set.generation = ⟨1⟩ ∧
        constraintSetDigest set ≠ set.digest) ∧
      ¬ StoresCanonical last.impl := by
  obtain ⟨events, last, hrun, hexecution, hcheck⟩ :=
    sampleRun_execution sampleForeign storesMismatch sampleForeign_storesMismatch
  refine ⟨events, last, hrun, hexecution, ?_⟩
  obtain ⟨event, hlast, hstores⟩ := (Option.any_eq_true _ _).mp hcheck
  obtain rfl := hexecution.post_of_getLast? hlast
  obtain ⟨set, hmem, hset⟩ := List.any_eq_true.mp hstores
  have hmismatch := of_decide_eq_true hset
  refine ⟨⟨set, hmem, hmismatch⟩, fun hcanonical => ?_⟩
  have hverified := verifyCanonicalConstraintSet_eq_ok_iff.mp (hcanonical set hmem)
  exact hmismatch.2 hverified.2.2

end ConstraintRouting.Fabric
