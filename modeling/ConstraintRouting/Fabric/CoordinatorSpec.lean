import ConstraintRouting.Fabric.AuthoritySpec
import ConstraintRouting.Fabric.System

/-!
# What one request can do

Requests differ in what they check and stage, and agree in how they end: a request
changes the registry, the watermarks and the sequence on its own, and it replaces
the standing definitions and results only by publishing the state that it wrote.
`Operation.Effect` lists what that state can be.
-/

namespace ConstraintRouting.Fabric

open Verified.KeyedTables

/-- The definitions and results that stand, with the evidence they are judged by. -/
structure Standing where
  evidence : EvidenceRequirements
  sets : List ConstraintSet
  evaluations : List EvaluationRecord
  populations : List CandidatePopulation

namespace Standing

/-- The index of the standing records. -/
def index (standing : Standing) : InvalidationIndex :=
  Impl.rebuildIndex standing.sets standing.populations standing.evaluations

/-- The current results of the standing records. -/
def current (standing : Standing) :
    Std.ExtTreeMap (UInt64 × UInt64) ConstraintEvaluationId resultKeyCompare :=
  (Impl.currentRecords standing.evaluations).foldl (fun current record =>
    current.insert record.resultKey record.id) ∅

end Standing

def Impl.standing (impl : Impl) : Standing :=
  ⟨impl.evidence, impl.sets, impl.evaluations, impl.populations⟩

def PersistentState.standing (state : PersistentState) : Standing :=
  ⟨state.evidence, state.sets, state.evaluations, state.populations⟩

namespace Impl

/-- A durable coordinator has a store under its own limits. -/
def Stored (impl : Impl) : Prop :=
  impl.durable = true → impl.store.map (·.limits) = some impl.config.limits

/-- The derived indexes are those of the standing records. -/
structure Derived (impl : Impl) : Prop where
  current : impl.current = impl.standing.current
  index : impl.index = impl.standing.index

/-- Only the registry, the watermarks, the sequence and the store may differ. -/
structure Kept (before after : Impl) : Prop where
  config : after.config = before.config
  durable : after.durable = before.durable
  stored : after.store.map (·.limits) = before.store.map (·.limits)
  lastGeneration : after.lastGeneration = before.lastGeneration
  standing : after.standing = before.standing
  current : after.current = before.current
  index : after.index = before.index

namespace Kept

variable {before middle after : Impl}

theorem refl (impl : Impl) : Kept impl impl := ⟨rfl, rfl, rfl, rfl, rfl, rfl, rfl⟩

theorem derived (h : Kept before after) (hderived : before.Derived) : after.Derived :=
  ⟨by rw [h.current, h.standing, hderived.current],
   by rw [h.index, h.standing, hderived.index]⟩

theorem evidence (h : Kept before after) : after.evidence = before.evidence :=
  congrArg Standing.evidence h.standing

theorem sets (h : Kept before after) : after.sets = before.sets :=
  congrArg Standing.sets h.standing

theorem evaluations (h : Kept before after) : after.evaluations = before.evaluations :=
  congrArg Standing.evaluations h.standing

theorem populations (h : Kept before after) : after.populations = before.populations :=
  congrArg Standing.populations h.standing

end Kept

theorem Stored.of_same {before after : Impl} (h : before.Stored)
    (hconfig : after.config = before.config) (hdurable : after.durable = before.durable)
    (hstored : after.store.map (·.limits) = before.store.map (·.limits)) :
    after.Stored := by
  intro hafter
  rw [hstored, hconfig]
  exact h (hdurable ▸ hafter)

theorem save_limits (store : DurableStore) (state : PersistentState)
    (outcome : WriteOutcome) : (store.save state outcome).1.limits = store.limits := by
  unfold DurableStore.save
  split
  · rfl
  · dsimp only
    split
    · rfl
    · split <;> rfl

/-- A durable write changes nothing but the store. -/
theorem persist_fst (impl : Impl) (state : PersistentState) (call : Call) :
    ∃ store, store.map (·.limits) = impl.store.map (·.limits) ∧
      (impl.persist state call).1 = { impl with store } := by
  unfold persist
  split
  · exact ⟨impl.store, rfl, rfl⟩
  · split
    · exact ⟨impl.store, rfl, rfl⟩
    · next store hstore =>
        refine ⟨some (store.save state call.write).1, ?_, rfl⟩
        rw [hstore, Option.map_some, Option.map_some, save_limits]

/-- A durable write that succeeds has validated the state. -/
theorem validate_of_persist {impl : Impl} {state : PersistentState} {call : Call}
    (hstored : impl.Stored) (hdurable : impl.durable = true)
    (h : (impl.persist state call).2 = .ok ()) :
    validatePersistentState state impl.config.limits = .ok () := by
  obtain ⟨store, hstore, hlimits⟩ := Option.map_eq_some_iff.mp (hstored hdurable)
  simp only [persist, hdurable, hstore, Bool.not_true, Bool.false_eq_true, if_false,
    DurableStore.save, hlimits] at h
  cases hvalid : validatePersistentState state impl.config.limits with
  | error error =>
      rw [hvalid] at h
      cases h
  | ok _ => rfl

theorem persist_kept (impl : Impl) (state : PersistentState) (call : Call) :
    Kept impl (impl.persist state call).1 := by
  obtain ⟨store, hstored, hsaved⟩ := impl.persist_fst state call
  rw [hsaved]
  exact ⟨rfl, rfl, hstored, rfl, rfl, rfl, rfl⟩

theorem applyState_derived (impl : Impl) (state : PersistentState) :
    (impl.applyState state).Derived := ⟨rfl, rfl⟩

@[simp] theorem applyState_standing (impl : Impl) (state : PersistentState) :
    (impl.applyState state).standing = state.standing := rfl

@[simp] theorem applyState_config (impl : Impl) (state : PersistentState) :
    (impl.applyState state).config = impl.config := rfl

@[simp] theorem applyState_durable (impl : Impl) (state : PersistentState) :
    (impl.applyState state).durable = impl.durable := rfl

@[simp] theorem applyState_authority (impl : Impl) (state : PersistentState) :
    (impl.applyState state).authority = impl.authority := rfl

@[simp] theorem applyState_lastGeneration (impl : Impl) (state : PersistentState) :
    (impl.applyState state).lastGeneration = state.lastEvaluationGeneration := rfl

@[simp] theorem toState_standing (impl : Impl) : impl.toState.standing = impl.standing := rfl

@[simp] theorem toState_lastEvaluationGeneration (impl : Impl) :
    impl.toState.lastEvaluationGeneration = impl.lastGeneration := rfl

end Impl

/-! ## Staged operations -/

/-- The result of a settled operation, by cases on the durable write. -/
theorem Staged.settle_cases {α : Type} (staged : Staged α) (call : Call) :
    (∃ impl result, staged = .reply impl result ∧ staged.settle call = (impl, result)) ∨
    ∃ impl next applies value, staged = .write impl next applies value ∧
      ((∃ error, (impl.persist next call).2 = .error error ∧
          staged.settle call = ((impl.persist next call).1, .error error)) ∨
        (impl.persist next call).2 = .ok () ∧
          staged.settle call =
            (if applies then (impl.persist next call).1.applyState next
              else (impl.persist next call).1, .ok value)) := by
  cases staged with
  | reply impl result => exact .inl ⟨impl, result, rfl, rfl⟩
  | write impl next applies value =>
      refine .inr ⟨impl, next, applies, value, rfl, ?_⟩
      rcases hpersist : impl.persist next call with ⟨saved, error | ⟨⟨⟩⟩⟩
      · exact .inl ⟨error, rfl, by simp only [Staged.settle, hpersist]⟩
      · exact .inr ⟨rfl, by simp only [Staged.settle, hpersist]⟩

/-- The staged operation keeps the standing records, and what it publishes has the
effect. -/
def Staged.Within {α : Type} (before : Impl) (effect : α → Standing → Prop) :
    Staged α → Prop
  | .reply impl _ => before.Kept impl
  | .write impl next applies value => before.Kept impl ∧
      (applies = true → next.lastEvaluationGeneration = before.lastGeneration ∧
        effect value next.standing)

/-- What a settled operation publishes; a durable coordinator has validated it. -/
structure Published (before after : Impl) : Prop where
  config : after.config = before.config
  durable : after.durable = before.durable
  valid : before.Stored → before.durable = true → ∃ state : PersistentState,
    state.standing = after.standing ∧
      validatePersistentState state before.config.limits = .ok ()
  stored : after.store.map (·.limits) = before.store.map (·.limits)
  lastGeneration : after.lastGeneration = before.lastGeneration
  derived : after.Derived

theorem Staged.Within.settle {α : Type} {before : Impl} {effect : α → Standing → Prop}
    {staged : Staged α} (h : staged.Within before effect) (call : Call) :
    before.Kept (staged.settle call).1 ∨
    ∃ value, (staged.settle call).2 = .ok value ∧
      effect value (staged.settle call).1.standing ∧
      Published before (staged.settle call).1 := by
  rcases staged.settle_cases call with ⟨impl, result, rfl, hsettle⟩ |
    ⟨impl, next, applies, value, rfl, ⟨error, -, hsettle⟩ | ⟨hpersist, hsettle⟩⟩
  · rw [hsettle]
    exact .inl h
  all_goals
    obtain ⟨hkept, heffect⟩ := h
    have hsaved := impl.persist_kept next call
    have hall : before.Kept (impl.persist next call).1 :=
      ⟨hsaved.config.trans hkept.config, hsaved.durable.trans hkept.durable,
       hsaved.stored.trans hkept.stored, hsaved.lastGeneration.trans hkept.lastGeneration,
       hsaved.standing.trans hkept.standing, hsaved.current.trans hkept.current,
       hsaved.index.trans hkept.index⟩
    rw [hsettle]
  · exact .inl hall
  · cases applies with
    | false => exact .inl hall
    | true =>
        obtain ⟨hgeneration, hvalue⟩ := heffect rfl
        have hvalid : before.Stored → before.durable = true → ∃ state : PersistentState,
            state.standing = next.standing ∧
              validatePersistentState state before.config.limits = .ok () := by
          intro hstored hdurable
          have himpl := hstored.of_same hkept.config hkept.durable hkept.stored
          have hwritten := Impl.validate_of_persist himpl (hkept.durable.trans hdurable) hpersist
          rw [hkept.config] at hwritten
          exact ⟨next, rfl, hwritten⟩
        exact .inr ⟨value, rfl, hvalue, hall.config, hall.durable, hvalid, hall.stored,
          hgeneration, Impl.applyState_derived _ _⟩

theorem Staged.Within.map {α β : Type} {before : Impl} {effect : α → Standing → Prop}
    {wider : β → Standing → Prop} {staged : Staged α} {f : α → β}
    (h : staged.Within before effect)
    (hwider : ∀ value standing, effect value standing → wider (f value) standing) :
    (staged.map f).Within before wider := by
  cases staged with
  | reply impl result => exact h
  | write impl next applies value =>
      exact ⟨h.1, fun happlies => ⟨(h.2 happlies).1, hwider _ _ (h.2 happlies).2⟩⟩

/-! ## Admission -/

/-- A fresh admission was authorized, and recorded an attempt that was not in the
window. -/
theorem admit_fresh {impl fresh : Impl} {context : AuthorityContext}
    {scope : AuthorityScope} {payload : Digest256} {tick : UInt64}
    (h : authorizeAndObserve impl context scope payload tick = .fresh fresh) :
    ∃ authority, fresh = { impl with authority } ∧
      impl.authority.authorize context (scopeBit scope) = .ok () ∧
      impl.authority.observeAttempt context.attempt payload tick impl.config.limits =
        .ok (authority, .fresh) := by
  unfold authorizeAndObserve at h
  cases hauthorize : impl.authority.authorize context (scopeBit scope) with
  | error error => simp [hauthorize] at h
  | ok _ =>
      cases hobserve : impl.authority.observeAttempt context.attempt payload tick
          impl.config.limits with
      | error error => simp [hauthorize, hobserve] at h
      | ok observed =>
          rcases observed with ⟨authority, _ | _ | _⟩
          · simp only [hauthorize, hobserve, Admission.fresh.injEq] at h
            exact ⟨authority, h.symm, rfl, rfl⟩
          · simp [hauthorize, hobserve] at h
          · simp [hauthorize, hobserve] at h

theorem admit_fresh_kept {impl fresh : Impl} {context : AuthorityContext}
    {scope : AuthorityScope} {payload : Digest256} {tick : UInt64}
    (h : authorizeAndObserve impl context scope payload tick = .fresh fresh) : impl.Kept fresh := by
  obtain ⟨authority, rfl, -, -⟩ := admit_fresh h
  exact ⟨rfl, rfl, rfl, rfl, rfl, rfl, rfl⟩

/-! ## Effects -/

/-- The evidence that a request asks for, and its caller. -/
def Operation.requirements (evidence : EvidenceRequirements) :
    Operation → Option (AuthorityContext × EvidenceRequirements)
  | .setEvidenceRequirements context requirements => some (context, requirements)
  | .advanceFamily context family generation =>
      (withFamily evidence family generation).map (context, ·)
  | _ => none

/-- What a request can publish over the standing records. -/
inductive Operation.Effect (impl : Impl) : Operation → Value → Standing → Prop
  | published {context : AuthorityContext} {set finalized stored : ConstraintSet}
      {tick : UInt64} {defects : List SetDefect} {sets : List ConstraintSet}
      {value : Value} :
      impl.authority.authorize context (scopeBit .publishConstraintSet) = .ok () →
      impl.authority.findAttempt context.attempt = none →
      validateAndFinalizeConstraintSet { set with declaredTick := tick }
        impl.config.limits = .ok (finalized, defects) →
      publishInto impl.config.limits impl.sets finalized = .ok (sets, stored) →
      Effect impl (.publishConstraintSet context set) value
        { impl.standing with
          sets
          evaluations := demote (·.setId == stored.id) impl.evaluations }
  | moved {context : AuthorityContext} {setId : ConstraintSetId} {event : LifecycleEvent}
      {target : ConstraintSet} {state : ConstraintSetState} {value : Value} :
      findSet impl.sets setId = some target →
      applyLifecycleEvent target.state event = .ok state →
      Effect impl (.applyLifecycle context setId event) value
        { impl.standing with
          sets := replaceFirst (·.id == target.id) { target with state } impl.sets
          evaluations :=
            if state ≠ .active then demote (·.setId == target.id) impl.evaluations
            else impl.evaluations }
  | advanced {operation : Operation} {context : AuthorityContext}
      {requirements : EvidenceRequirements} :
      operation.requirements impl.evidence = some (context, requirements) →
      impl.authority.findAttempt context.attempt = none →
      (∀ family ∈ kFamilies,
        generationFor impl.evidence family ≤ generationFor requirements family) →
      Effect impl operation .done
        { impl.standing with
          evidence := requirements
          evaluations := demote (fun record => record.id ∈
            (advancedFamilies impl.evidence requirements).flatMap
              (dependentsOfFamily impl.index)) impl.evaluations }
  | invalidated {context : AuthorityContext} {key : InvalidationKey} :
      Effect impl (.invalidateKey context key) .done
        { impl.standing with
          evaluations := demote (fun record => record.id ∈ impl.index.dependents key)
            impl.evaluations }

section Operations

variable {impl : Impl} {call : Call}

/-- A request that publishes nothing. -/
private def Nothing {α : Type} : α → Standing → Prop := fun _ _ => False

private theorem registerPublisher_within {context : AuthorityContext}
    {publisher : PublisherId} {boot : WorkerBootId} {scopes : AuthorityScopeMask}
    {session : SessionId} :
    (registerPublisher impl context publisher boot scopes session call).Within impl
      Nothing := by
  unfold registerPublisher
  split
  · exact .refl impl
  · split
    · exact .refl impl
    · dsimp only
      split
      · exact .refl impl
      · split
        · exact ⟨rfl, rfl, rfl, rfl, rfl, rfl, rfl⟩
        · exact ⟨⟨rfl, rfl, rfl, rfl, rfl, rfl, rfl⟩, fun h => by cases h⟩

private theorem fenceBoot_within {context : AuthorityContext} {boot : WorkerBootId} :
    (fenceBoot impl context boot call).Within impl Nothing := by
  unfold fenceBoot
  split
  · exact .refl impl
  · exact .refl impl
  · next fresh hadmitted =>
      obtain ⟨authority, rfl, -, -⟩ := admit_fresh hadmitted
      split
      · exact ⟨rfl, rfl, rfl, rfl, rfl, rfl, rfl⟩
      · exact ⟨⟨rfl, rfl, rfl, rfl, rfl, rfl, rfl⟩, fun h => by cases h⟩

private theorem fenceOnSessionLoss_within {session : SessionId} :
    (fenceOnSessionLoss impl session call).Within impl Nothing := by
  unfold fenceOnSessionLoss
  split
  · exact .refl impl
  · split
    · exact .refl impl
    · exact ⟨⟨rfl, rfl, rfl, rfl, rfl, rfl, rfl⟩, fun h => by cases h⟩

private theorem dropSession_within {context : AuthorityContext} {session : SessionId} :
    (dropSession impl context session).Within impl Nothing := by
  unfold dropSession
  split
  · exact .refl impl
  · split
    · exact .refl impl
    · exact ⟨rfl, rfl, rfl, rfl, rfl, rfl, rfl⟩

private theorem observeAttempt_within {context : AuthorityContext} {payload : Digest256} :
    (observeAttempt impl context payload call).Within impl Nothing := by
  unfold observeAttempt
  split
  · exact .refl impl
  · exact ⟨rfl, rfl, rfl, rfl, rfl, rfl, rfl⟩

private theorem publishConstraintSet_within {context : AuthorityContext}
    {set : ConstraintSet} :
    (publishConstraintSet impl context set call).Within impl fun stored standing =>
      (Operation.publishConstraintSet context set).Effect impl (.definition stored)
        standing := by
  unfold publishConstraintSet
  split
  · exact .refl impl
  · split <;> exact .refl impl
  · next fresh hadmitted =>
      have hkept := admit_fresh_kept hadmitted
      obtain ⟨authority, rfl, hauthorized, hobserve⟩ := admit_fresh hadmitted
      have hunused := AuthorityRegistry.observeAttempt_fresh hobserve
      split
      · exact hkept
      · next hfinalized =>
          split
          · exact hkept
          · next hpublished =>
              exact ⟨hkept, fun _ =>
                ⟨rfl, .published hauthorized hunused hfinalized hpublished⟩⟩

private theorem applyLifecycle_within {context : AuthorityContext}
    {setId : ConstraintSetId} {event : LifecycleEvent} :
    (applyLifecycle impl context setId event call).Within impl fun moved standing =>
      (Operation.applyLifecycle context setId event).Effect impl (.definition moved)
        standing := by
  dsimp only [applyLifecycle]
  split
  · exact .refl impl
  · split <;> exact .refl impl
  · next fresh hadmitted =>
      have hkept := admit_fresh_kept hadmitted
      obtain ⟨authority, rfl, -, -⟩ := admit_fresh hadmitted
      split
      · exact hkept
      · next target hfound =>
          unfold transition
          split
          · exact hkept
          · next state hstate =>
              exact ⟨hkept, fun _ => ⟨rfl, .moved hfound hstate⟩⟩

private theorem applyEvidenceRequirements_within {operation : Operation}
    {context : AuthorityContext} {requirements : EvidenceRequirements}
    (hasks : operation.requirements impl.evidence = some (context, requirements)) :
    (applyEvidenceRequirements impl context requirements call).Within impl
      fun _ standing => operation.Effect impl .done standing := by
  unfold applyEvidenceRequirements
  split
  · exact .refl impl
  · exact .refl impl
  · next fresh hadmitted =>
      have hkept := admit_fresh_kept hadmitted
      obtain ⟨authority, rfl, -, hobserve⟩ := admit_fresh hadmitted
      have hunused := AuthorityRegistry.observeAttempt_fresh hobserve
      split
      · exact hkept
      · next hforward =>
          have hmonotone : ∀ family ∈ kFamilies,
              generationFor impl.evidence family ≤ generationFor requirements family := by
            simpa using hforward
          dsimp only
          split
          · exact ⟨rfl, rfl, rfl, rfl, rfl, rfl, rfl⟩
          · exact ⟨⟨rfl, rfl, rfl, rfl, rfl, rfl, rfl⟩, fun _ =>
              ⟨rfl, .advanced hasks hunused hmonotone⟩⟩

private theorem advanceFamily_within {context : AuthorityContext}
    {family : EvidenceFamily} {generation : UInt64} :
    (advanceFamily impl context family generation call).Within impl fun _ standing =>
      (Operation.advanceFamily context family generation).Effect impl .done standing := by
  unfold advanceFamily
  split
  · exact .refl impl
  · next requirements hfamily =>
      split
      · exact .refl impl
      · exact applyEvidenceRequirements_within (by simp [Operation.requirements, hfamily])

private theorem invalidateKey_within {context : AuthorityContext} {key : InvalidationKey} :
    (invalidateKey impl context key call).Within impl fun _ standing =>
      (Operation.invalidateKey context key).Effect impl .done standing := by
  unfold invalidateKey
  split
  · exact .refl impl
  · exact .refl impl
  · next fresh hadmitted =>
      obtain ⟨authority, rfl, -, -⟩ := admit_fresh hadmitted
      dsimp only
      split
      · exact ⟨rfl, rfl, rfl, rfl, rfl, rfl, rfl⟩
      · exact ⟨⟨rfl, rfl, rfl, rfl, rfl, rfl, rfl⟩, fun _ => ⟨rfl, .invalidated⟩⟩

/-- A request publishes nothing, or one of its effects. -/
theorem Operation.stage_within (operation : Operation) (impl : Impl) (call : Call) :
    (operation.stage impl call).Within impl (operation.Effect impl) := by
  cases operation with
  | registerPublisher => exact registerPublisher_within.map fun _ _ h => h.elim
  | fenceBoot => exact fenceBoot_within.map fun _ _ h => h.elim
  | fenceOnSessionLoss => exact fenceOnSessionLoss_within.map fun _ _ h => h.elim
  | dropSession => exact dropSession_within.map fun _ _ h => h.elim
  | observeAttempt => exact observeAttempt_within.map fun _ _ h => h.elim
  | publishConstraintSet => exact publishConstraintSet_within.map fun _ _ h => h
  | applyLifecycle => exact applyLifecycle_within.map fun _ _ h => h
  | setEvidenceRequirements =>
      exact (applyEvidenceRequirements_within rfl).map fun _ _ h => h
  | advanceFamily => exact advanceFamily_within.map fun _ _ h => h
  | invalidateKey => exact invalidateKey_within.map fun _ _ h => h
  | flush => exact ⟨.refl impl, fun h => by cases h⟩

/-- A request keeps the standing records, or publishes one of its effects. -/
theorem Operation.run_cases (operation : Operation) (impl : Impl) (call : Call) :
    impl.Kept (operation.run impl call).1 ∨
    ∃ value, (operation.run impl call).2 = .ok value ∧
      operation.Effect impl value (operation.run impl call).1.standing ∧
      Published impl (operation.run impl call).1 :=
  (operation.stage_within impl call).settle call

end Operations

/-! ## Stored sets -/

theorem id_of_findSet {sets : List ConstraintSet} {setId : ConstraintSetId}
    {set : ConstraintSet} (h : findSet sets setId = some set) : set.id = setId := by
  unfold findSet at h
  simpa using List.find?_some h

theorem republish_id {existing finalized stored : ConstraintSet}
    (h : republish existing finalized = .ok stored) : stored.id = finalized.id := by
  unfold republish at h
  split at h
  · cases h
    rfl
  · split at h
    · cases h
    · cases h
      rfl

/-- A publication appends a first definition, or replaces the one stored before. -/
theorem publishInto_cases {limits : Limits} {sets after : List ConstraintSet}
    {finalized stored : ConstraintSet}
    (h : publishInto limits sets finalized = .ok (after, stored)) :
    findSet sets finalized.id = none ∧
      stored = { finalized with generation := ⟨1⟩, state := .declared } ∧
      after = sets ++ [stored] ∨
    ∃ existing, findSet sets finalized.id = some existing ∧
      republish existing finalized = .ok stored ∧
      after = replaceFirst (·.id == finalized.id) stored sets := by
  unfold publishInto at h
  split at h
  · next hmissing =>
      split at h
      · cases h
      · cases h
        exact .inl ⟨hmissing, rfl, rfl⟩
  · next existing hfound =>
      split at h
      · cases h
      · next hrepublished =>
          cases h
          exact .inr ⟨existing, hfound, hrepublished, rfl⟩

/-- A publication leaves every other set as it was. -/
theorem findSet_publishInto_of_ne {limits : Limits} {sets after : List ConstraintSet}
    {finalized stored : ConstraintSet} {other : ConstraintSetId}
    (h : publishInto limits sets finalized = .ok (after, stored)) (hne : stored.id ≠ other) :
    findSet after other = findSet sets other := by
  rcases publishInto_cases h with ⟨-, -, rfl⟩ | ⟨existing, -, hrepublished, rfl⟩
  · exact find?_concat_of_ne hne
  · have hid := republish_id hrepublished
    exact find?_replaceFirst_of_ne hid (hid ▸ hne)

end ConstraintRouting.Fabric
