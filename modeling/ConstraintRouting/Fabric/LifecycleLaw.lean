import ConstraintRouting.Fabric.Lifetimes
import ConstraintRouting.Fabric.StoredSets

/-!
# Lifecycle states over a lifetime

The transition table is the law of a stored set's lifecycle state.  Lifecycle requests
follow it, and restarts restore what was stored.  A publication of another definition
writes the state without asking the table, which agrees with it only for a set that is
active, suspended or waiting for revalidation.
-/

namespace ConstraintRouting.Fabric

open Verified.StepMachine Verified.KeyedTables
open Verified.Checks (isOk)

/-! ## The law -/

/-- The lifecycle state of a stored set. -/
def lifecycleOf (impl : Impl) (setId : ConstraintSetId) : Option ConstraintSetState :=
  (findSet impl.sets setId).map (·.state)

/-- The event is a lifecycle request for the set. -/
def RequestsLifecycle (event : LifeEvent) (setId : ConstraintSetId)
    (lifecycle : LifecycleEvent) : Prop :=
  ∃ input context, event.input = .serve input ∧
    input.action = .operate (.applyLifecycle context setId lifecycle)

/-- The table accepts the change, and a revoked set is left on request only. -/
structure LawfulChange (event : LifeEvent) (setId : ConstraintSetId)
    (before after : ConstraintSetState) : Prop where
  accepted : ∃ lifecycle, applyLifecycleEvent before lifecycle = .ok after
  requested : before = .revoked → ∃ lifecycle ∈ [.reinstate, .supersede, .retire],
    RequestsLifecycle event setId lifecycle ∧ applyLifecycleEvent before lifecycle = .ok after

/-- A stored set stays stored, and its state stays or changes lawfully. -/
def FollowsLaw (event : LifeEvent) : Prop :=
  ∀ setId before, lifecycleOf event.pre.impl setId = some before →
    ∃ after, lifecycleOf event.post.impl setId = some after ∧
      (after = before ∨ LawfulChange event setId before after)

/-- The lifecycle law over a lifetime: every event follows it, a retired set stays retired
and a superseded one is superseded or retired in every later state. -/
structure LifecycleLaw (events : List LifeEvent) (last : SystemState) : Prop where
  follows : ∀ event ∈ events, FollowsLaw event
  retired : ∀ before event after, events = before ++ event :: after → ∀ setId,
    lifecycleOf event.pre.impl setId = some .retired →
      lifecycleOf last.impl setId = some .retired
  superseded : ∀ before event after, events = before ++ event :: after → ∀ setId,
    lifecycleOf event.pre.impl setId = some .superseded →
      lifecycleOf last.impl setId = some .superseded ∨
        lifecycleOf last.impl setId = some .retired

/-! ## When it is kept -/

/-- A publication by an authorized caller, of a set that is stored in a state which the
table does not lead from to revalidation, submits the stored definition. -/
def KeepsDefinition (event : LifeEvent) : Prop :=
  ∀ input context set existing, event.input = .serve input →
    input.action = .operate (.publishConstraintSet context set) →
    event.pre.impl.authority.authorize context (scopeBit .publishConstraintSet) = .ok () →
    event.pre.impl.authority.findAttempt context.attempt = none →
    isOk (validateAndFinalizeConstraintSet set event.pre.impl.config.limits) = true →
    findSet event.pre.impl.sets set.id = some existing →
    existing.state ∈ [.declared, .revoked, .superseded, .retired] →
    existing.digest = constraintSetDigest (canonicalForm set)

/-- The publications keep the definitions that they may not change, and a restart loads
the file that it finds. -/
def LifecycleKept (event : LifeEvent) : Prop := KeepsDefinition event ∧ Reloads event

/-! ## Steps -/

theorem findSet_replaceFirst_self {sets : List ConstraintSet} {setId : ConstraintSetId}
    {existing replacement : ConstraintSet} (hid : replacement.id = setId)
    (hfound : findSet sets setId = some existing) :
    findSet (replaceFirst (·.id == setId) replacement sets) setId = some replacement := by
  apply find?_replaceFirst_self hid
  unfold findSet at hfound
  rw [hfound]
  rfl

/-- What a publication makes of the state of the set that it replaces. -/
theorem republish_state {existing finalized stored : ConstraintSet}
    (h : republish existing finalized = .ok stored) :
    stored.state = existing.state ∨
      existing.digest ≠ finalized.digest ∧ existing.state ≠ .active ∧
        stored.state = .revalidationRequired := by
  unfold republish at h
  split at h
  · cases h
    exact .inl rfl
  · next hdiffers =>
      split at h
      · cases h
      · cases h
        by_cases hactive : existing.state = .active
        · exact .inl (by simp [hactive])
        · exact .inr ⟨hdiffers, hactive, by simp [hactive]⟩

/-- The events that lead out of revocation. -/
theorem mem_of_leaves_revoked {lifecycle : LifecycleEvent} {after : ConstraintSetState}
    (h : applyLifecycleEvent .revoked lifecycle = .ok after) :
    lifecycle ∈ [.reinstate, .supersede, .retire] := by
  cases lifecycle with
  | reinstate | supersede | retire => simp
  | activate | suspend | resume | requireRevalidation | revalidated | revoke => cases h

/-- A critical section follows the law when its publication keeps the definition. -/
theorem followsLaw_of_served {event : LifeEvent} {served : Event}
    (hserving : Serving event served) (hsound : Sound served.pre)
    (htaken : served.Taken step) (hkeeps : KeepsDefinition event) : FollowsLaw event := by
  have htransition := step_transition hsound.limits htaken
  intro setId before hbefore
  obtain ⟨target, htarget, rfl⟩ := Option.map_eq_some_iff.mp hbefore
  rw [hserving.pre] at htarget
  unfold lifecycleOf
  rw [hserving.post]
  cases htransition.setsStep with
  | kept hsame => exact ⟨target.state, by rw [hsame, htarget]; rfl, .inl rfl⟩
  | @published context set finalized stored tick defects haction hauthorized hunused
      hfinalized hinto hpublished =>
      by_cases hid : stored.id = setId
      · subst hid
        rcases publishInto_cases hinto with ⟨hmissing, rfl, -⟩ |
          ⟨existing, hfound, hrepublished, hafter⟩
        · rw [hmissing] at htarget
          cases htarget
        · have hstored := republish_id hrepublished
          rw [hstored, hfound] at htarget
          cases htarget
          have hpost := findSet_replaceFirst_self hstored hfound
          rw [← hafter, ← hstored] at hpost
          refine ⟨stored.state, by rw [hpost]; rfl, ?_⟩
          obtain ⟨haccepted, hset, hdigest⟩ := finalized_of_submitted hfinalized
          rcases republish_state hrepublished with hsame | ⟨hdiffers, hactive, hrequired⟩
          · exact .inl hsame
          · have hmoves : target.state ∉ [.declared, .revoked, .superseded, .retired] := by
              intro hfixed
              rw [← hserving.pre] at hauthorized hunused haccepted hfound
              rw [hset] at hfound
              exact hdiffers ((hkeeps _ context set target hserving.input haction hauthorized
                hunused haccepted hfound hfixed).trans hdigest.symm)
            rw [hrequired]
            cases hstate : target.state with
            | revalidationRequired => exact .inl rfl
            | suspended =>
                exact .inr ⟨⟨.requireRevalidation, rfl⟩, fun hrevoked => by cases hrevoked⟩
            | active => exact absurd hstate hactive
            | declared | revoked | superseded | retired => simp [hstate] at hmoves
      · rw [findSet_publishInto_of_ne hinto hid, htarget]
        exact ⟨target.state, rfl, .inl rfl⟩
  | @moved context moving lifecycle found state haction hfound hstate hafter =>
      have hfoundId := id_of_findSet hfound
      by_cases hid : moving = setId
      · subst hid
        rw [hfound] at htarget
        cases htarget
        obtain rfl := hfoundId
        have hpost := @findSet_replaceFirst_self _ _ _ { target with state } rfl hfound
        rw [hafter, hpost]
        have hrequest : RequestsLifecycle event target.id lifecycle :=
          ⟨_, context, hserving.input, haction⟩
        refine ⟨state, rfl, .inr ⟨⟨lifecycle, hstate⟩, fun hrevoked => ?_⟩⟩
        exact ⟨lifecycle, mem_of_leaves_revoked (hrevoked ▸ hstate), hrequest, hstate⟩
      · have hpost : findSet served.post.impl.sets setId = findSet served.pre.impl.sets setId := by
          rw [hafter]
          exact find?_replaceFirst_of_ne rfl (hfoundId ▸ hid)
        rw [hpost, htarget]
        exact ⟨target.state, rfl, .inl rfl⟩

/-- A restart that loads its file restores every set in its state. -/
theorem followsLaw_of_restarting {event : LifeEvent} {config : CoordinatorConfig} {call : Call}
    (hrestarting : Restarting event config call) (hsound : LifeSound event.pre)
    (hreloads : Reloads event) : FollowsLaw event := by
  intro setId before hbefore
  have hpath := (hreloads config call hrestarting.input).1
  have hdurable : event.pre.impl.durable = true := by
    rw [hsound.durability, ← hrestarting.path]
    exact bne_iff_ne.mpr hpath
  obtain ⟨written, hmirrors⟩ := hsound.mirrored hdurable
  obtain ⟨authority, -, hrecovered, -, -⟩ := hrestarting.reloaded hreloads hmirrors.toSaved
  obtain ⟨-, -, hsets, -⟩ := hrecovered.restores _ rfl
  have hstanding := congrArg Standing.sets hmirrors.standing
  have hsame : event.post.impl.sets = event.pre.impl.sets := hsets.trans hstanding
  unfold lifecycleOf at hbefore ⊢
  rw [hsame]
  exact ⟨before, hbefore, .inl rfl⟩

/-- No change leaves a retired set, and a superseded one is only retired. -/
theorem LawfulChange.terminal {event : LifeEvent} {setId : ConstraintSetId}
    {before after : ConstraintSetState} (h : LawfulChange event setId before after) :
    before ≠ .retired ∧ (before = .superseded → after = .retired) := by
  obtain ⟨⟨lifecycle, haccepted⟩, -⟩ := h
  constructor
  · rintro rfl
    cases lifecycle <;> cases haccepted
  · rintro rfl
    cases lifecycle <;> cases haccepted
    rfl

/-- Along a run that follows the law, a retired set stays retired. -/
theorem retired_of_run {start last : SystemState} {events : List LifeEvent}
    (h : Run turn start events last) (hfollows : ∀ event ∈ events, FollowsLaw event)
    {setId : ConstraintSetId} (hretired : lifecycleOf start.impl setId = some .retired) :
    lifecycleOf last.impl setId = some .retired := by
  refine @Run.invariant _ _ _ _ _ _ _
    (fun state => lifecycleOf state.impl setId = some .retired) h hretired ?_
  intro event hmem _ hbefore
  obtain ⟨after, hafter, rfl | hchange⟩ := hfollows event hmem setId .retired hbefore
  · exact hafter
  · exact absurd rfl hchange.terminal.1

/-- Along a run that follows the law, a superseded set stays superseded or is retired. -/
theorem superseded_of_run {start last : SystemState} {events : List LifeEvent}
    (h : Run turn start events last) (hfollows : ∀ event ∈ events, FollowsLaw event)
    {setId : ConstraintSetId}
    (hsuperseded : lifecycleOf start.impl setId = some .superseded) :
    lifecycleOf last.impl setId = some .superseded ∨
      lifecycleOf last.impl setId = some .retired := by
  refine @Run.invariant _ _ _ _ _ _ _ (fun state =>
    lifecycleOf state.impl setId = some .superseded ∨
      lifecycleOf state.impl setId = some .retired) h (.inl hsuperseded) ?_
  intro event hmem _ hbefore
  rcases hbefore with hbefore | hbefore
  · obtain ⟨after, hafter, rfl | hchange⟩ := hfollows event hmem setId .superseded hbefore
    · exact .inl hafter
    · exact .inr (hchange.terminal.2 rfl ▸ hafter)
  · obtain ⟨after, hafter, rfl | hchange⟩ := hfollows event hmem setId .retired hbefore
    · exact .inr hafter
    · exact absurd rfl hchange.terminal.1

/-! ## Lifetimes -/

/-- In every lifetime whose publications keep the definitions that they may not change, and
whose restarts load their file, the lifecycle states follow the law. -/
theorem lifecycle_law_of_kept {events : List LifeEvent} {last : SystemState}
    (h : Lifetime events last) (hkept : ∀ event ∈ events, LifecycleKept event) :
    LifecycleLaw events last := by
  have hfollows : ∀ event ∈ events, FollowsLaw event := by
    intro event hmem
    obtain ⟨before, after, rfl⟩ := List.append_of_mem hmem
    obtain ⟨hbefore, htaken, -⟩ := h.split
    obtain ⟨hkeeps, hreloads⟩ := hkept event hmem
    rcases turn_cases htaken with ⟨served, hserving, hstep⟩ | ⟨config, call, hrestarting⟩
    · exact followsLaw_of_served hserving (hserving.pre ▸ hbefore.lifeSound.toSound) hstep hkeeps
    · exact followsLaw_of_restarting hrestarting hbefore.lifeSound hreloads
  refine ⟨hfollows, ?_, ?_⟩
  · rintro before event after rfl setId hretired
    have hrun : Run turn event.pre (event :: after) last := .cons h.split.2.1 h.split.2.2
    exact retired_of_run hrun
      (fun later hlater => hfollows later (List.mem_append_right _ hlater)) hretired
  · rintro before event after rfl setId hsuperseded
    have hrun : Run turn event.pre (event :: after) last := .cons h.split.2.1 h.split.2.2
    exact superseded_of_run hrun
      (fun later hlater => hfollows later (List.mem_append_right _ hlater)) hsuperseded

/-! ## A retired set is published again -/

/-- Publishes a set, retires it and publishes another definition of it. -/
def sampleRevival : List Turn :=
  [sampleInput (.operate (.publishConstraintSet (sampleContext 10) (sampleSet 5))),
   sampleInput (.operate (.applyLifecycle (sampleContext 11) ⟨5⟩ .retire)),
   sampleInput (.operate (.publishConstraintSet (sampleContext 12)
     { sampleSet 5 with ranking.consumePlannerRank := true }))].map .serve

/-- The last event leads a set from retirement to revalidation. -/
private def revives (events : List LifeEvent) : Bool :=
  events.getLast?.any fun event =>
    decide (lifecycleOf event.pre.impl ⟨5⟩ = some .retired ∧
      lifecycleOf event.post.impl ⟨5⟩ = some .revalidationRequired)

private theorem sampleRevival_revives :
    ((sampleLife sampleRevival).any fun run => revives run.1) = true := by
  decide +kernel

/-- A publication takes a retired set back to where revalidation may activate it. -/
theorem publication_revives_retired_set :
    ∃ events last, sampleLife sampleRevival = some (events, last) ∧ Lifetime events last ∧
      (∃ event ∈ events, lifecycleOf event.pre.impl ⟨5⟩ = some .retired ∧
        lifecycleOf event.post.impl ⟨5⟩ = some .revalidationRequired) ∧
      ¬ LifecycleLaw events last := by
  obtain ⟨events, last, hrun, hlifetime, hcheck⟩ :=
    Lifetime.of_check revives sampleRevival_revives
  refine ⟨events, last, hrun, hlifetime, ?_⟩
  obtain ⟨event, hlast, hrevives⟩ := (Option.any_eq_true _ _).mp hcheck
  obtain ⟨hretired, hrequired⟩ := of_decide_eq_true hrevives
  have hmem : event ∈ events := List.mem_of_getLast? hlast
  refine ⟨⟨event, hmem, hretired, hrequired⟩, fun hlaw => ?_⟩
  obtain ⟨after, hafter, rfl | hchange⟩ := hlaw.follows event hmem ⟨5⟩ .retired hretired
  · rw [hrequired] at hafter
    cases hafter
  · exact hchange.terminal.1 rfl

/-- Publishes a set, activates it, publishes another definition, and retires it. -/
def sampleRedefinition : List Turn :=
  [sampleInput (.operate (.publishConstraintSet (sampleContext 10) (sampleSet 5))),
   sampleInput (.operate (.applyLifecycle (sampleContext 11) ⟨5⟩ .activate)),
   sampleInput (.operate (.publishConstraintSet (sampleContext 12)
     { sampleSet 5 with ranking.consumePlannerRank := true })),
   sampleInput (.operate (.applyLifecycle (sampleContext 13) ⟨5⟩ .retire))].map .serve

/-- Every publication is of a set that is unknown or active, and nothing restarts. -/
private def redefines (event : LifeEvent) : Bool :=
  match event.input with
  | .serve ⟨.operate (.publishConstraintSet _ set), _⟩ =>
      (findSet event.pre.impl.sets set.id).all (·.state = .active)
  | .serve _ => true
  | .restart _ _ => false

private theorem redefines_sound {event : LifeEvent} (h : redefines event = true) :
    LifecycleKept event := by
  constructor
  · intro input context set existing hinput haction _ _ _ hfound hstate
    obtain ⟨action, call⟩ := input
    obtain rfl := haction
    simp only [redefines, hinput, hfound, Option.all_some, decide_eq_true_eq] at h
    simp [h] at hstate
  · intro config call hinput
    simp [redefines, hinput] at h

private theorem sampleRedefinition_redefines :
    ((sampleLife sampleRedefinition).any fun run => run.1.all redefines) = true := by
  decide +kernel

theorem lifecycle_law_of_kept_sample :
    ∃ events last, sampleLife sampleRedefinition = some (events, last) ∧
      LifecycleLaw events last := by
  obtain ⟨events, last, hrun, hlifetime, hcheck⟩ :=
    Lifetime.of_check (fun events => events.all redefines) sampleRedefinition_redefines
  exact ⟨events, last, hrun, lifecycle_law_of_kept hlifetime fun event hmem =>
    redefines_sound (List.all_eq_true.mp hcheck event hmem)⟩

end ConstraintRouting.Fabric
