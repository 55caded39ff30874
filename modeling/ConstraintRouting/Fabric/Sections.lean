import ConstraintRouting.Fabric.DurableWrites

/-!
# What a critical section leaves behind

Every critical section either replies without a write, or writes the projection of the
state that it staged.  The registry moves in few ways, and which ones reach the store is
what restarts depend on.
-/

namespace ConstraintRouting.Fabric

open Verified.StepMachine

/-! ## Staged operations -/

/-- The state beside the projected one says what the registry and the watermarks of the
staged state say. -/
structure Projects (staged : Impl) (next : PersistentState) : Prop where
  epoch : next.epoch = staged.authority.epoch
  fencedBoots : next.fencedBoots = staged.authority.fenced.values
  liveBoots : next.liveBoots = Impl.liveBoots staged.authority
  attempts : next.attempts = staged.authority.attempts
  watermarks : next.watermarks = staged.watermarks

/-- How the registry moves in a section that replies without a write. -/
inductive Replied (impl : Impl) : Action → AuthorityRegistry → Prop
  | observed {action : Action} {attempts : List MutationAttemptRecord} :
      Replied impl action { impl.authority with attempts }
  | refused {context : AuthorityContext} {publisher : PublisherId} {boot : WorkerBootId}
      {scopes : AuthorityScopeMask} {session : SessionId}
      {registration : PublisherRegistration} {after : AuthorityRegistry} {error : Error} :
      impl.authority.registerPublisher registration impl.config.limits =
        (after, .error error) →
      Replied impl (.operate (.registerPublisher context publisher boot scopes session)) after
  | dropped {context : AuthorityContext} {session : SessionId} {after : AuthorityRegistry} :
      impl.authority.authorize context (scopeBit .administerFencing) = .ok () →
      impl.authority.dropSession session = .ok after →
      Replied impl (.operate (.dropSession context session)) after

/-- How the registry moves in a section that writes. -/
inductive Wrote (impl : Impl) : Action → AuthorityRegistry → Prop
  | observed {action : Action} {attempts : List MutationAttemptRecord} :
      Wrote impl action { impl.authority with attempts }
  | registered {context : AuthorityContext} {publisher : PublisherId} {boot : WorkerBootId}
      {scopes : AuthorityScopeMask} {session : SessionId}
      {registration : PublisherRegistration} {after : AuthorityRegistry} :
      registration.boot = boot →
      impl.authority.registerPublisher registration impl.config.limits = (after, .ok ()) →
      Wrote impl (.operate (.registerPublisher context publisher boot scopes session)) after
  | fenced {context : AuthorityContext} {boot : WorkerBootId} {tick : UInt64}
      {attempts : List MutationAttemptRecord} {after : AuthorityRegistry} :
      ({ impl.authority with attempts } : AuthorityRegistry).fenceBoot boot
        impl.authority.epoch tick impl.config.limits = .ok after →
      Wrote impl (.operate (.fenceBoot context boot)) after
  | lost {session : SessionId} {boot : WorkerBootId} {tick : UInt64}
      {fenced after : AuthorityRegistry} :
      impl.authority.bootOfSession session = some boot →
      impl.authority.fenceBoot boot impl.authority.epoch tick impl.config.limits =
        .ok fenced →
      (fenced.dropSession session = .ok after ∨ after = fenced) →
      Wrote impl (.operate (.fenceOnSessionLoss session)) after

theorem Replied.epoch {impl : Impl} {action : Action} {after : AuthorityRegistry}
    (h : Replied impl action after) : after.epoch = impl.authority.epoch := by
  cases h with
  | observed => rfl
  | refused hrefused => exact (AuthorityRegistry.unobserved_of_registerPublisher hrefused).2
  | dropped _ hdropped =>
      obtain ⟨registrations, rfl⟩ := AuthorityRegistry.dropSession_ok hdropped
      rfl

theorem Wrote.epoch {impl : Impl} {action : Action} {after : AuthorityRegistry}
    (h : Wrote impl action after) : after.epoch = impl.authority.epoch := by
  cases h with
  | observed => rfl
  | registered _ hregistered =>
      exact (AuthorityRegistry.unobserved_of_registerPublisher hregistered).2
  | fenced hfenced =>
      have hepoch := AuthorityRegistry.epoch_of_fenceBoot hfenced
      exact hepoch
  | lost _ hfenced hdropped =>
      have hepoch := AuthorityRegistry.epoch_of_fenceBoot hfenced
      rcases hdropped with hdropped | rfl
      · obtain ⟨registrations, rfl⟩ := AuthorityRegistry.dropSession_ok hdropped
        exact hepoch
      · exact hepoch

/-- The registry of the coordinator that a staged operation leaves. -/
def Staged.authority {α : Type} : Staged α → AuthorityRegistry
  | .reply impl _ => impl.authority
  | .write impl _ _ _ => impl.authority

/-- Neither the write nor the publication touches the registry. -/
theorem Staged.settle_authority {α : Type} (staged : Staged α) (call : Call) :
    (staged.settle call).1.authority = staged.authority := by
  rcases staged.settle_cases call with ⟨impl, result, rfl, hsettle⟩ |
    ⟨impl, next, applies, value, rfl, hends⟩
  · rw [hsettle]
    rfl
  · obtain ⟨saved, -, hsaved⟩ := impl.persist_fst next call
    rcases hends with ⟨error, -, hsettle⟩ | ⟨-, hsettle⟩
    · rw [hsettle, hsaved]
      rfl
    · rw [hsettle, hsaved]
      cases applies <;> rfl

/-- The staged operation keeps the store, moves the registry in one of the ways above and
writes what it staged. -/
def Staged.Projected {α : Type} (impl : Impl) (action : Action) : Staged α → Prop
  | .reply after _ => after.store = impl.store ∧ Replied impl action after.authority
  | .write staged next applies _ => staged.store = impl.store ∧
      Wrote impl action staged.authority ∧ Projects staged next ∧
      (applies = false → next.standing = staged.standing)

theorem Staged.Projected.map {α β : Type} {impl : Impl} {action : Action}
    {staged : Staged α} (h : staged.Projected impl action) (f : α → β) :
    (staged.map f).Projected impl action := by
  cases staged <;> exact h

section Operations

variable {impl : Impl} {call : Call}

private theorem registerPublisher_projected {context : AuthorityContext}
    {publisher : PublisherId} {boot : WorkerBootId} {scopes : AuthorityScopeMask}
    {session : SessionId} :
    (registerPublisher impl context publisher boot scopes session call).Projected impl
      (.operate (.registerPublisher context publisher boot scopes session)) := by
  unfold registerPublisher
  split
  · exact ⟨rfl, .observed⟩
  · split
    · exact ⟨rfl, .observed⟩
    · dsimp only
      split
      · exact ⟨rfl, .observed⟩
      · split
        · next hrefused => exact ⟨rfl, .refused hrefused⟩
        · next authority hregistered =>
            have hattempts :=
              (AuthorityRegistry.unobserved_of_registerPublisher hregistered).1
            exact ⟨rfl, .registered rfl hregistered, ⟨rfl, rfl, rfl, hattempts.symm, rfl⟩,
              fun _ => rfl⟩

private theorem fenceBoot_projected {context : AuthorityContext} {boot : WorkerBootId} :
    (fenceBoot impl context boot call).Projected impl
      (.operate (.fenceBoot context boot)) := by
  unfold fenceBoot
  split
  · exact ⟨rfl, .observed⟩
  · exact ⟨rfl, .observed⟩
  · next fresh hadmitted =>
      obtain ⟨authority, rfl, -, hobserve⟩ := admit_fresh hadmitted
      obtain ⟨attempts, rfl⟩ := AuthorityRegistry.observeAttempt_ok hobserve
      split
      · exact ⟨rfl, .observed⟩
      · next hfenced => exact ⟨rfl, .fenced hfenced, ⟨rfl, rfl, rfl, rfl, rfl⟩, fun _ => rfl⟩

private theorem fenceOnSessionLoss_projected {session : SessionId} :
    (fenceOnSessionLoss impl session call).Projected impl
      (.operate (.fenceOnSessionLoss session)) := by
  unfold fenceOnSessionLoss
  split
  · exact ⟨rfl, .observed⟩
  · next boot hboot =>
      split
      · exact ⟨rfl, .observed⟩
      · next fenced hfenced =>
          refine ⟨rfl, ?_, ⟨rfl, rfl, rfl, rfl, rfl⟩, fun _ => rfl⟩
          cases hdropped : fenced.dropSession session with
          | ok dropped => exact .lost hboot hfenced (.inl hdropped)
          | error error => exact .lost hboot hfenced (.inr rfl)

private theorem dropSession_projected {context : AuthorityContext} {session : SessionId} :
    (dropSession impl context session).Projected impl
      (.operate (.dropSession context session)) := by
  unfold dropSession
  split
  · exact ⟨rfl, .observed⟩
  · next hauthorized =>
      split
      · exact ⟨rfl, .observed⟩
      · next hdropped => exact ⟨rfl, .dropped hauthorized hdropped⟩

private theorem observeAttempt_projected {context : AuthorityContext} {payload : Digest256} :
    (observeAttempt impl context payload call).Projected impl
      (.operate (.observeAttempt context payload)) := by
  unfold observeAttempt
  split
  · exact ⟨rfl, .observed⟩
  · next hobserve =>
      obtain ⟨attempts, rfl⟩ := AuthorityRegistry.observeAttempt_ok hobserve
      exact ⟨rfl, .observed⟩

private theorem publishConstraintSet_projected {context : AuthorityContext}
    {set : ConstraintSet} :
    (publishConstraintSet impl context set call).Projected impl
      (.operate (.publishConstraintSet context set)) := by
  unfold publishConstraintSet
  split
  · exact ⟨rfl, .observed⟩
  · split <;> exact ⟨rfl, .observed⟩
  · next fresh hadmitted =>
      obtain ⟨authority, rfl, -, hobserve⟩ := admit_fresh hadmitted
      obtain ⟨attempts, rfl⟩ := AuthorityRegistry.observeAttempt_ok hobserve
      split
      · exact ⟨rfl, .observed⟩
      · split
        · exact ⟨rfl, .observed⟩
        · exact ⟨rfl, .observed, ⟨rfl, rfl, rfl, rfl, rfl⟩, fun h => by cases h⟩

private theorem applyLifecycle_projected {context : AuthorityContext}
    {setId : ConstraintSetId} {event : LifecycleEvent} :
    (applyLifecycle impl context setId event call).Projected impl
      (.operate (.applyLifecycle context setId event)) := by
  unfold applyLifecycle
  dsimp only
  split
  · exact ⟨rfl, .observed⟩
  · split <;> exact ⟨rfl, .observed⟩
  · next fresh hadmitted =>
      obtain ⟨authority, rfl, -, hobserve⟩ := admit_fresh hadmitted
      obtain ⟨attempts, rfl⟩ := AuthorityRegistry.observeAttempt_ok hobserve
      split
      · exact ⟨rfl, .observed⟩
      · unfold transition
        split
        · exact ⟨rfl, .observed⟩
        · exact ⟨rfl, .observed, ⟨rfl, rfl, rfl, rfl, rfl⟩, fun h => by cases h⟩

private theorem applyEvidenceRequirements_projected {context : AuthorityContext}
    {requirements : EvidenceRequirements} {action : Action} :
    (applyEvidenceRequirements impl context requirements call).Projected impl action := by
  unfold applyEvidenceRequirements
  split
  · exact ⟨rfl, .observed⟩
  · exact ⟨rfl, .observed⟩
  · next fresh hadmitted =>
      obtain ⟨authority, rfl, -, hobserve⟩ := admit_fresh hadmitted
      obtain ⟨attempts, rfl⟩ := AuthorityRegistry.observeAttempt_ok hobserve
      split
      · exact ⟨rfl, .observed⟩
      · dsimp only
        split
        · exact ⟨rfl, .observed⟩
        · exact ⟨rfl, .observed, ⟨rfl, rfl, rfl, rfl, rfl⟩, fun h => by cases h⟩

private theorem advanceFamily_projected {context : AuthorityContext}
    {family : EvidenceFamily} {generation : UInt64} {action : Action} :
    (advanceFamily impl context family generation call).Projected impl action := by
  unfold advanceFamily
  split
  · exact ⟨rfl, .observed⟩
  · split
    · exact ⟨rfl, .observed⟩
    · exact applyEvidenceRequirements_projected

private theorem invalidateKey_projected {context : AuthorityContext} {key : InvalidationKey} :
    (invalidateKey impl context key call).Projected impl
      (.operate (.invalidateKey context key)) := by
  unfold invalidateKey
  split
  · exact ⟨rfl, .observed⟩
  · exact ⟨rfl, .observed⟩
  · next fresh hadmitted =>
      obtain ⟨authority, rfl, -, hobserve⟩ := admit_fresh hadmitted
      obtain ⟨attempts, rfl⟩ := AuthorityRegistry.observeAttempt_ok hobserve
      dsimp only
      split
      · exact ⟨rfl, .observed⟩
      · exact ⟨rfl, .observed, ⟨rfl, rfl, rfl, rfl, rfl⟩, fun h => by cases h⟩

/-- Every request keeps the store up to its write, and writes what it staged. -/
theorem Operation.stage_projected (operation : Operation) (impl : Impl) (call : Call) :
    (operation.stage impl call).Projected impl (.operate operation) := by
  cases operation with
  | registerPublisher => exact registerPublisher_projected.map _
  | fenceBoot => exact fenceBoot_projected.map _
  | fenceOnSessionLoss => exact fenceOnSessionLoss_projected.map _
  | dropSession => exact dropSession_projected.map _
  | observeAttempt => exact observeAttempt_projected.map _
  | publishConstraintSet => exact publishConstraintSet_projected.map _
  | applyLifecycle => exact applyLifecycle_projected.map _
  | setEvidenceRequirements => exact applyEvidenceRequirements_projected.map _
  | advanceFamily => exact advanceFamily_projected.map _
  | invalidateKey => exact invalidateKey_projected.map _
  | flush => exact ⟨rfl, .observed, ⟨rfl, rfl, rfl, rfl, rfl⟩, fun _ => rfl⟩

end Operations

/-! ## Events -/

/-- How a critical section ends: with a reply, with a write that succeeds, or with one
that fails. -/
inductive Section (event : Event) : Prop
  | replied : event.post.impl.store = event.pre.impl.store →
      event.post.impl.config = event.pre.impl.config →
      event.post.impl.standing = event.pre.impl.standing →
      Replied event.pre.impl event.input.action event.post.impl.authority → Section event
  | written {staged : Impl} {next : PersistentState} {applies : Bool} :
      event.pre.impl.Kept staged → staged.store = event.pre.impl.store →
      Wrote event.pre.impl event.input.action staged.authority → Projects staged next →
      (applies = false → next.standing = staged.standing) →
      (staged.persist next event.input.call).2 = .ok () →
      event.post.impl =
        (if applies then (staged.persist next event.input.call).1.applyState next
          else (staged.persist next event.input.call).1) → Section event
  | unwritten {staged : Impl} {next : PersistentState} {error : Error} :
      event.pre.impl.Kept staged → staged.store = event.pre.impl.store →
      Wrote event.pre.impl event.input.action staged.authority → WriteFails event → (staged.persist next event.input.call).2 = .error error →
      event.post.impl = (staged.persist next event.input.call).1 → Section event

/-- The registry moves as in a section that replies, or as in one that writes. -/
theorem Section.registry {event : Event} (h : Section event) :
    Replied event.pre.impl event.input.action event.post.impl.authority ∨
      Wrote event.pre.impl event.input.action event.post.impl.authority := by
  cases h with
  | replied _ _ _ hreplied => exact .inl hreplied
  | @unwritten staged next _ _ _ hwrote _ _ hpost =>
      obtain ⟨saved, -, hsaved⟩ := staged.persist_fst next event.input.call
      rw [hpost, hsaved]
      exact .inr hwrote
  | @written staged next applies _ _ hwrote _ _ _ hpost =>
      obtain ⟨saved, -, hsaved⟩ := staged.persist_fst next event.input.call
      rw [hpost, hsaved]
      cases applies with
      | true => exact .inr hwrote
      | false => exact .inr hwrote

/-- The first section of an evaluation observes its attempt and may reserve a
generation. -/
theorem evaluateBegin_fst (impl : Impl) (context : AuthorityContext) (setId : ConstraintSetId)
    (candidates : List CandidatePath) (expectedGeneration : ConstraintSetGeneration)
    (call : Call) : ∃ attempts lastGeneration,
      (evaluateBegin impl context setId candidates expectedGeneration call).1 =
        { impl with authority := { impl.authority with attempts }, lastGeneration } := by
  unfold evaluateBegin
  split
  · exact ⟨_, _, rfl⟩
  · exact ⟨_, _, rfl⟩
  · next fresh hadmitted =>
      obtain ⟨authority, rfl, -, hobserve⟩ := admit_fresh hadmitted
      obtain ⟨attempts, rfl⟩ := AuthorityRegistry.observeAttempt_ok hobserve
      split
      · exact ⟨_, _, rfl⟩
      · split
        · exact ⟨_, _, rfl⟩
        · split <;> exact ⟨_, _, rfl⟩

theorem SystemState.begin_impl (state : SystemState) (context : AuthorityContext)
    (setId : ConstraintSetId) (candidates : List CandidatePath)
    (expectedGeneration : ConstraintSetGeneration) (call : Call) :
    (state.begin context setId candidates expectedGeneration call).1.impl =
      (evaluateBegin state.impl context setId candidates expectedGeneration call).1 := by
  unfold SystemState.begin
  rcases evaluateBegin state.impl context setId candidates expectedGeneration call with
    ⟨after, error | outcome | snapshot⟩ <;> rfl

/-- A last section that writes writes the projection of the state it found. -/
theorem evaluateFinish_projects {impl staged : Impl} {snapshot : EvaluationSnapshot}
    {call : Call} {next : PersistentState} {applies : Bool} {outcome : CommitOutcome}
    (h : evaluateFinish impl snapshot call = some (.write staged next applies outcome)) :
    Projects impl next ∧ applies = true := by
  unfold evaluateFinish at h
  dsimp only at h
  split at h
  · cases h
  · split at h
    · cases h
    · simp only [Option.map_eq_some_iff] at h
      obtain ⟨target, htarget, hstaged⟩ := h
      cases hstaged
      simp only [commitState, Option.map_eq_some_iff] at htarget
      obtain ⟨populations, -, rfl⟩ := htarget
      exact ⟨⟨rfl, rfl, rfl, rfl, rfl⟩, rfl⟩

/-- A last section that replies leaves the state as it found it. -/
theorem evaluateFinish_reply {impl after : Impl} {snapshot : EvaluationSnapshot} {call : Call}
    {result : Result CommitOutcome}
    (h : evaluateFinish impl snapshot call = some (.reply after result)) : after = impl := by
  unfold evaluateFinish at h
  dsimp only at h
  split at h
  · cases h
    rfl
  · split at h
    · cases h
      rfl
    · simp only [Option.map_eq_some_iff] at h
      obtain ⟨_, -, hstaged⟩ := h
      cases hstaged

/-- Every step is one of these sections. -/
theorem section_of_taken {event : Event} (htaken : event.Taken step) : Section event := by
  obtain ⟨pre, ⟨action, call⟩, output, post⟩ := event
  unfold Event.Taken step at htaken
  cases action with
  | operate operation =>
      simp only [Option.some.injEq, Prod.mk.injEq] at htaken
      obtain ⟨rfl, rfl⟩ := htaken
      have hwithin := operation.stage_within pre.impl call
      have hprojected := operation.stage_projected pre.impl call
      rcases (operation.stage pre.impl call).settle_cases call with
        ⟨after, result, hstage, hsettle⟩ |
        ⟨staged, next, applies, value, hstage, ⟨error, herror, hsettle⟩ | ⟨hok, hsettle⟩⟩
      all_goals rw [hstage] at hwithin hprojected
      · refine .replied ?_ ?_ ?_ ?_
        all_goals dsimp only [Operation.run]; rw [hsettle]
        · exact hprojected.1
        · exact hwithin.config
        · exact hwithin.standing
        · exact hprojected.2
      · have hfails : WriteFails ⟨pre, ⟨.operate operation, call⟩,
            .operated (operation.run pre.impl call).2,
            { pre with impl := (operation.run pre.impl call).1 }⟩ :=
          .operated operation rfl (by simp [hstage, Staged.writeFails, herror])
        exact .unwritten hwithin.1 hprojected.1 hprojected.2.1 hfails herror
          (congrArg Prod.fst hsettle)
      · exact .written hwithin.1 hprojected.1 hprojected.2.1 hprojected.2.2.1
          hprojected.2.2.2 hok (congrArg Prod.fst hsettle)
  | evaluateBegin context setId candidates expectedGeneration =>
      simp only [Option.some.injEq] at htaken
      obtain ⟨attempts, lastGeneration, hbegin⟩ := evaluateBegin_fst pre.impl context setId
        candidates expectedGeneration call
      have himpl := pre.begin_impl context setId candidates expectedGeneration call
      rw [htaken, hbegin] at himpl
      refine .replied ?_ ?_ ?_ ?_
      all_goals dsimp only at himpl ⊢; rw [himpl]
      · rfl
      · exact .observed
  | evaluateFinish ticket =>
      unfold SystemState.finish at htaken
      dsimp only at htaken
      split at htaken
      · next snapshot hflight =>
          simp only [Option.map_eq_some_iff, Prod.mk.injEq] at htaken
          obtain ⟨staged, hstaged, rfl, rfl⟩ := htaken
          rcases staged.settle_cases call with ⟨after, result, rfl, hsettle⟩ |
            ⟨impl, next, applies, value, rfl, ⟨error, herror, hsettle⟩ | ⟨hok, hsettle⟩⟩
          · obtain rfl := evaluateFinish_reply hstaged
            have himpl := congrArg Prod.fst hsettle
            refine .replied ?_ ?_ ?_ ?_
            all_goals dsimp only [SystemState.land] at himpl ⊢; rw [himpl]
            exact .observed
          · obtain rfl := evaluateFinish_eq_write hstaged
            refine .unwritten (.refl _) rfl .observed ?_ herror (congrArg Prod.fst hsettle)
            exact .finished ticket snapshot _ ⟨rfl, hflight⟩ hstaged
              (by simp [Staged.writeFails, herror])
          · obtain rfl := evaluateFinish_eq_write hstaged
            obtain ⟨hprojects, happlies⟩ := evaluateFinish_projects hstaged
            subst happlies
            have hpost := congrArg Prod.fst hsettle
            exact @Section.written _ _ next true (.refl _) rfl .observed hprojects
              (fun h => by cases h) hok hpost
      · cases htaken
  | revalidateRead context setId =>
      simp only [Option.some.injEq] at htaken
      unfold SystemState.readPopulation at htaken
      dsimp only at htaken
      split at htaken
      · cases htaken
        exact .replied rfl rfl rfl .observed
      · cases htaken
        exact .replied rfl rfl rfl .observed
  | revalidateBegin ticket =>
      unfold SystemState.revalidate at htaken
      dsimp only at htaken
      split at htaken
      · next context setId population hflight =>
          simp only [Option.some.injEq] at htaken
          obtain ⟨attempts, lastGeneration, hbegin⟩ := evaluateBegin_fst pre.impl context setId
            population {} call
          have himpl := (pre.land ticket).begin_impl context setId population {} call
          have hland : (pre.land ticket).impl = pre.impl := rfl
          rw [htaken, hland, hbegin] at himpl
          refine .replied ?_ ?_ ?_ ?_
          all_goals dsimp only at himpl ⊢; rw [himpl]
          · rfl
          · exact .observed
      · cases htaken

end ConstraintRouting.Fabric
