import ConstraintRouting.Fabric.GenerationCounter
import ConstraintRouting.Fabric.LifecycleLaw
import ConstraintRouting.Fabric.RoundTrip
import ConstraintRouting.Fabric.SnapshotIsolation

/-!
# What the coordinator knows moves forward

No section takes back a generation: required evidence, watermarks and definitions only
advance, failed requests included.  So a value that an evaluation finds unchanged when it
commits did not change in between, and came back to nothing.
-/

namespace ConstraintRouting.Fabric

open Verified.StepMachine Verified.KeyedTables
open Verified.MonotoneTables (Rises raise)

/-! ## Definitions -/

/-- The later definition is the same one, or of a greater generation. -/
def ConstraintSet.Succeeds (set later : ConstraintSet) : Prop :=
  later.generation = set.generation ∧ later.digest = set.digest ∨
    set.generation.value < later.generation.value

namespace ConstraintSet.Succeeds

variable {set middle later : ConstraintSet}

theorem refl (set : ConstraintSet) : set.Succeeds set := .inl ⟨rfl, rfl⟩

theorem le (h : set.Succeeds later) : set.generation.value ≤ later.generation.value := by
  rcases h with ⟨hgeneration, -⟩ | hless
  · rw [hgeneration]
    exact UInt64.le_refl _
  · exact UInt64.le_of_lt hless

theorem trans (h : set.Succeeds middle) (hrest : middle.Succeeds later) :
    set.Succeeds later := by
  rcases h with ⟨hgeneration, hdigest⟩ | hless
  · unfold Succeeds at hrest ⊢
    rw [← hgeneration, ← hdigest]
    exact hrest
  · exact .inr (UInt64.lt_of_lt_of_le hless hrest.le)

/-- Between two occurrences of one generation there is no other definition. -/
theorem squeezed (h : set.Succeeds middle) (hrest : middle.Succeeds later)
    (hsame : later.generation = set.generation) :
    middle.generation = set.generation ∧ middle.digest = set.digest := by
  rcases h with hfirst | hless
  · exact hfirst
  · have hback := hrest.le
    rw [hsame] at hback
    exact absurd (UInt64.lt_of_lt_of_le hless hback) (UInt64.lt_irrefl _)

end ConstraintSet.Succeeds

/-- A definition is published again under its generation, or under the next one. -/
theorem succeeds_of_republish {existing finalized stored : ConstraintSet}
    (h : republish existing finalized = .ok stored) : existing.Succeeds stored := by
  unfold republish at h
  split at h
  · next hsame =>
      cases h
      exact .inl ⟨rfl, hsame.symm⟩
  · split at h
    · cases h
    · next generation hnext =>
        cases h
        exact .inr (Generation.lt_of_next hnext)

/-! ## Knowledge -/

/-- What the first coordinator knows, the second knows as well, or something newer. -/
structure Impl.Progresses (before after : Impl) : Prop where
  evidence : ∀ family,
    generationFor before.evidence family ≤ generationFor after.evidence family
  families : Rises before.watermarks.families after.watermarks.families
  keys : Rises before.watermarks.keys after.watermarks.keys
  sets : ∀ setId set, findSet before.sets setId = some set →
    ∃ later, findSet after.sets setId = some later ∧ set.Succeeds later

namespace Impl.Progresses

variable {before middle after : Impl}

theorem refl (impl : Impl) : impl.Progresses impl :=
  ⟨fun _ => UInt64.le_refl _, .refl _, .refl _, fun _ set hfound => ⟨set, hfound, .refl set⟩⟩

theorem trans (h : before.Progresses middle) (hrest : middle.Progresses after) :
    before.Progresses after := by
  constructor
  · intro family
    exact UInt64.le_trans (h.evidence family) (hrest.evidence family)
  · exact h.families.trans hrest.families
  · exact h.keys.trans hrest.keys
  · intro setId set hfound
    obtain ⟨next, hnext, hsucceeds⟩ := h.sets setId set hfound
    obtain ⟨later, hlater, hagain⟩ := hrest.sets setId next hnext
    exact ⟨later, hlater, hsucceeds.trans hagain⟩

end Impl.Progresses

/-! ## Steps -/

/-- The watermarks of the coordinator that a staged operation leaves. -/
def Staged.watermarks {α : Type} : Staged α → Watermarks
  | .reply impl _ => impl.watermarks
  | .write impl _ _ _ => impl.watermarks

theorem Staged.map_watermarks {α β : Type} (staged : Staged α) (f : α → β) :
    (staged.map f).watermarks = staged.watermarks := by
  cases staged <;> rfl

/-- No watermark is lowered. -/
structure Watermarks.Rise (before after : Watermarks) : Prop where
  families : Rises before.families after.families
  keys : Rises before.keys after.keys

namespace Watermarks.Rise

theorem refl (watermarks : Watermarks) : watermarks.Rise watermarks := ⟨.refl _, .refl _⟩

theorem of_advanceKey {watermarks after : Watermarks} {key : InvalidationKey}
    {watermark : UInt64} (h : watermarks.advanceKey key watermark = some after) :
    watermarks.Rise after := by
  rw [Watermarks.advanceKey_eq] at h
  obtain ⟨keys, hraise, rfl⟩ := Option.map_eq_some_iff.mp h
  exact ⟨.refl _, .of_raise hraise⟩

theorem of_advanceFamily {watermarks after : Watermarks} {family : EvidenceFamily}
    {generation : UInt64} (h : watermarks.advanceFamily family generation = some after) :
    watermarks.Rise after := by
  rw [Watermarks.advanceFamily_eq] at h
  obtain ⟨families, hraise, rfl⟩ := Option.map_eq_some_iff.mp h
  exact ⟨.of_raise hraise, .refl _⟩

theorem of_advanceWatermarks {requirements : EvidenceRequirements}
    {families : List EvidenceFamily} {watermarks after : Watermarks} {done : Bool}
    (h : advanceWatermarks requirements families watermarks = (after, done)) :
    watermarks.Rise after := by
  induction families generalizing watermarks with
  | nil =>
      cases h
      exact .refl _
  | cons family rest ih =>
      rw [advanceWatermarks] at h
      split at h
      · cases h
        exact .refl _
      · next advanced hadvanced =>
          have hfirst := of_advanceFamily hadvanced
          have hrest := ih h
          exact ⟨hfirst.families.trans hrest.families, hfirst.keys.trans hrest.keys⟩

end Watermarks.Rise

section Operations

variable {impl : Impl} {context : AuthorityContext} {call : Call}

theorem applyEvidenceRequirements_rise {requirements : EvidenceRequirements} :
    impl.watermarks.Rise
      (applyEvidenceRequirements impl context requirements call).watermarks := by
  unfold applyEvidenceRequirements
  split
  · exact .refl _
  · exact .refl _
  · next fresh hadmitted =>
      obtain ⟨authority, rfl, -, -⟩ := admit_fresh hadmitted
      split
      · exact .refl _
      · dsimp only
        split
        · next hadvanced => exact .of_advanceWatermarks hadvanced
        · next hadvanced => exact .of_advanceWatermarks hadvanced

theorem advanceFamily_rise {family : EvidenceFamily} {generation : UInt64} :
    impl.watermarks.Rise (advanceFamily impl context family generation call).watermarks := by
  unfold advanceFamily
  split
  · exact .refl _
  · split
    · exact .refl _
    · exact applyEvidenceRequirements_rise

theorem invalidateKey_rise {key : InvalidationKey} :
    impl.watermarks.Rise (invalidateKey impl context key call).watermarks := by
  unfold invalidateKey
  split
  · exact .refl _
  · exact .refl _
  · next fresh hadmitted =>
      obtain ⟨authority, rfl, -, -⟩ := admit_fresh hadmitted
      dsimp only
      split
      · exact .refl _
      · next hadvanced => exact .of_advanceKey hadvanced

/-- The requests that advance no watermark. -/
theorem registerPublisher_watermarks {publisher : PublisherId} {boot : WorkerBootId}
    {scopes : AuthorityScopeMask} {session : SessionId} :
    (registerPublisher impl context publisher boot scopes session call).watermarks =
      impl.watermarks := by
  unfold registerPublisher
  split
  · rfl
  · split
    · rfl
    · dsimp only
      split
      · rfl
      · split <;> rfl

theorem fenceBoot_watermarks {boot : WorkerBootId} :
    (fenceBoot impl context boot call).watermarks = impl.watermarks := by
  unfold fenceBoot
  split
  · rfl
  · rfl
  · next fresh hadmitted =>
      obtain ⟨authority, rfl, -, -⟩ := admit_fresh hadmitted
      split <;> rfl

theorem fenceOnSessionLoss_watermarks {session : SessionId} :
    (fenceOnSessionLoss impl session call).watermarks = impl.watermarks := by
  unfold fenceOnSessionLoss
  split
  · rfl
  · split <;> rfl

theorem dropSession_watermarks {session : SessionId} :
    (dropSession impl context session).watermarks = impl.watermarks := by
  unfold dropSession
  split
  · rfl
  · split <;> rfl

theorem observeAttempt_watermarks {payload : Digest256} :
    (observeAttempt impl context payload call).watermarks = impl.watermarks := by
  unfold observeAttempt
  split <;> rfl

theorem publishConstraintSet_watermarks {set : ConstraintSet} :
    (publishConstraintSet impl context set call).watermarks = impl.watermarks := by
  unfold publishConstraintSet
  split
  · rfl
  · split <;> rfl
  · next fresh hadmitted =>
      obtain ⟨authority, rfl, -, -⟩ := admit_fresh hadmitted
      split
      · rfl
      · split <;> rfl

theorem applyLifecycle_watermarks {setId : ConstraintSetId} {event : LifecycleEvent} :
    (applyLifecycle impl context setId event call).watermarks = impl.watermarks := by
  unfold applyLifecycle
  dsimp only
  split
  · rfl
  · split <;> rfl
  · next fresh hadmitted =>
      obtain ⟨authority, rfl, -, -⟩ := admit_fresh hadmitted
      split
      · rfl
      · unfold transition
        split <;> rfl

/-- No request lowers a watermark, whether it succeeds or fails. -/
theorem Operation.stage_rise (operation : Operation) (impl : Impl) (call : Call) :
    impl.watermarks.Rise (operation.stage impl call).watermarks := by
  cases operation <;> unfold Operation.stage
  case registerPublisher =>
    rw [Staged.map_watermarks, registerPublisher_watermarks]
    exact .refl _
  case fenceBoot =>
    rw [Staged.map_watermarks, fenceBoot_watermarks]
    exact .refl _
  case fenceOnSessionLoss =>
    rw [Staged.map_watermarks, fenceOnSessionLoss_watermarks]
    exact .refl _
  case dropSession =>
    rw [Staged.map_watermarks, dropSession_watermarks]
    exact .refl _
  case observeAttempt =>
    rw [Staged.map_watermarks, observeAttempt_watermarks]
    exact .refl _
  case publishConstraintSet =>
    rw [Staged.map_watermarks, publishConstraintSet_watermarks]
    exact .refl _
  case applyLifecycle =>
    rw [Staged.map_watermarks, applyLifecycle_watermarks]
    exact .refl _
  case setEvidenceRequirements =>
    rw [Staged.map_watermarks]
    exact applyEvidenceRequirements_rise
  case advanceFamily =>
    rw [Staged.map_watermarks]
    exact advanceFamily_rise
  case invalidateKey =>
    rw [Staged.map_watermarks]
    exact invalidateKey_rise
  case flush => exact .refl _

/-- A section leaves the watermarks that it staged. -/
theorem Staged.settle_watermarks {α : Type} {staged : Staged α} {action : Action}
    (h : staged.Projected impl action) (call : Call) :
    (staged.settle call).1.watermarks = staged.watermarks := by
  rcases staged.settle_cases call with ⟨after, result, rfl, hsettle⟩ |
    ⟨staged, next, applies, value, rfl, hends⟩
  · rw [hsettle]
    rfl
  · obtain ⟨saved, -, hsaved⟩ := staged.persist_fst next call
    rcases hends with ⟨error, -, hsettle⟩ | ⟨-, hsettle⟩
    · rw [hsettle, hsaved]
      rfl
    · rw [hsettle, hsaved]
      cases applies with
      | false => rfl
      | true => exact h.2.2.1.watermarks

end Operations

section Events

variable {event : Event}

/-- The sections of an evaluation leave the watermarks as they are. -/
theorem watermarks_of_evaluation (htaken : event.Taken step)
    (hevaluates : ∀ operation, event.input.action ≠ .operate operation) :
    event.post.impl.watermarks = event.pre.impl.watermarks := by
  obtain ⟨pre, ⟨action, call⟩, output, post⟩ := event
  unfold Event.Taken step at htaken
  dsimp only at htaken hevaluates ⊢
  cases action with
  | operate operation => exact absurd rfl (hevaluates operation)
  | evaluateBegin context setId candidates expectedGeneration =>
      obtain ⟨attempts, lastGeneration, hbegin⟩ := evaluateBegin_fst pre.impl context setId
        candidates expectedGeneration call
      have himpl := pre.begin_impl context setId candidates expectedGeneration call
      rw [Option.some.inj htaken, hbegin] at himpl
      dsimp only at himpl
      rw [himpl]
  | evaluateFinish ticket =>
      unfold SystemState.finish at htaken
      dsimp only at htaken
      split at htaken
      · next snapshot hflight =>
          obtain ⟨staged, hstaged, hpost⟩ := Option.map_eq_some_iff.mp htaken
          cases hpost
          show (staged.settle call).1.watermarks = pre.impl.watermarks
          rcases staged.settle_cases call with ⟨after, result, rfl, hsettle⟩ |
            ⟨found, next, applies, value, rfl, hends⟩
          · rw [hsettle, evaluateFinish_reply hstaged]
          · obtain rfl := evaluateFinish_eq_write hstaged
            obtain ⟨hprojects, rfl⟩ := evaluateFinish_projects hstaged
            obtain ⟨saved, -, hsaved⟩ := pre.impl.persist_fst next call
            rcases hends with ⟨error, -, hsettle⟩ | ⟨-, hsettle⟩
            · rw [hsettle, hsaved]
            · rw [hsettle]
              exact hprojects.watermarks
      · cases htaken
  | revalidateRead context setId =>
      unfold SystemState.readPopulation at htaken
      dsimp only at htaken
      split at htaken
      · cases htaken
        rfl
      · cases htaken
        rfl
  | revalidateBegin ticket =>
      unfold SystemState.revalidate at htaken
      dsimp only at htaken
      split at htaken
      · next context setId population hflight =>
          obtain ⟨attempts, lastGeneration, hbegin⟩ := evaluateBegin_fst pre.impl context setId
            population {} call
          have himpl := (pre.land ticket).begin_impl context setId population {} call
          have hland : (pre.land ticket).impl = pre.impl := rfl
          rw [Option.some.inj htaken, hland, hbegin] at himpl
          dsimp only at himpl
          rw [himpl]
      · cases htaken

/-- A request leaves what its staged operation settles to. -/
theorem impl_of_operation {operation : Operation} (htaken : event.Taken step)
    (haction : event.input.action = .operate operation) :
    event.post.impl =
      ((operation.stage event.pre.impl event.input.call).settle event.input.call).1 := by
  obtain ⟨pre, ⟨action, call⟩, output, post⟩ := event
  dsimp only at haction
  subst haction
  unfold Event.Taken step at htaken
  dsimp only at htaken ⊢
  cases htaken
  rfl

/-- A request leaves the watermarks that it staged. -/
theorem watermarks_of_operation {operation : Operation} (htaken : event.Taken step)
    (haction : event.input.action = .operate operation) :
    event.post.impl.watermarks =
      (operation.stage event.pre.impl event.input.call).watermarks := by
  rw [impl_of_operation htaken haction]
  exact Staged.settle_watermarks (operation.stage_projected event.pre.impl event.input.call) _

/-- No section lowers a watermark. -/
theorem rise_of_taken (htaken : event.Taken step) :
    event.pre.impl.watermarks.Rise event.post.impl.watermarks := by
  by_cases hevaluates : ∀ operation, event.input.action ≠ .operate operation
  · rw [watermarks_of_evaluation htaken hevaluates]
    exact .refl _
  · obtain ⟨operation, haction⟩ := not_forall_not.mp hevaluates
    rw [watermarks_of_operation htaken haction]
    exact operation.stage_rise event.pre.impl event.input.call

theorem evidence_of_transition (h : Transition event.pre event.input.call event.input.action
      event.output event.post) (family : EvidenceFamily) :
    generationFor event.pre.impl.evidence family ≤
      generationFor event.post.impl.evidence family := by
  cases h.standingStep with
  | kept hstanding =>
      have hsame : event.post.impl.evidence = event.pre.impl.evidence :=
        congrArg Standing.evidence hstanding
      rw [hsame]
      exact UInt64.le_refl _
  | operated operation value haction heffect hpublished =>
      have hevidence : event.post.impl.evidence = event.post.impl.standing.evidence := rfl
      generalize event.post.impl.standing = standing at heffect hevidence
      rw [hevidence]
      cases heffect with
      | published | moved | invalidated => exact UInt64.le_refl _
      | advanced _ _ hforward =>
          by_cases hmem : family ∈ kFamilies
          · exact hforward family hmem
          · cases family with
            | constraintSet | none => exact UInt64.le_refl _
            | topology | linkState | capability | failureDomain | policy | planner
            | pathAuthority => exact absurd (by decide) hmem
  | committed _ _ next _ _ htarget _ hstanding =>
      obtain ⟨populations, excess, hwrites⟩ := commitTarget_writes htarget
      have hsame : event.post.impl.evidence = event.pre.impl.evidence :=
        (congrArg Standing.evidence hstanding).trans (congrArg Standing.evidence hwrites.standing)
      rw [hsame]
      exact UInt64.le_refl _

theorem sets_of_transition (h : Transition event.pre event.input.call event.input.action
      event.output event.post) {setId : ConstraintSetId} {set : ConstraintSet}
    (hfound : findSet event.pre.impl.sets setId = some set) :
    ∃ later, findSet event.post.impl.sets setId = some later ∧ set.Succeeds later := by
  cases h.setsStep with
  | kept hsame => exact ⟨set, by rw [hsame, hfound], .refl set⟩
  | @published context submitted finalized stored tick defects _ _ _ _ hinto =>
      by_cases hid : stored.id = setId
      · rcases publishInto_cases hinto with ⟨hmissing, rfl, -⟩ |
          ⟨existing, hexisting, hrepublished, hafter⟩
        · rw [← hid] at hfound
          exact absurd (hmissing.symm.trans hfound) nofun
        · have hstored := republish_id hrepublished
          rw [← hid, hstored, hexisting] at hfound
          cases hfound
          have hpost := findSet_replaceFirst_self hstored hexisting
          refine ⟨stored, ?_, succeeds_of_republish hrepublished⟩
          rw [hafter, ← hid, hstored]
          exact hpost
      · exact ⟨set, (findSet_publishInto_of_ne hinto hid).trans hfound, .refl set⟩
  | @moved context moving lifecycle target state _ htarget _ hafter =>
      have hmoving := id_of_findSet htarget
      by_cases hid : moving = setId
      · subst hid
        rw [htarget] at hfound
        cases hfound
        obtain rfl := hmoving
        have hpost := @findSet_replaceFirst_self _ _ _ { set with state } rfl htarget
        refine ⟨{ set with state }, ?_, .inl ⟨rfl, rfl⟩⟩
        rw [hafter]
        exact hpost
      · have hpost : findSet event.post.impl.sets setId = findSet event.pre.impl.sets setId := by
          rw [hafter]
          exact find?_replaceFirst_of_ne rfl (hmoving ▸ hid)
        exact ⟨set, hpost.trans hfound, .refl set⟩

theorem progresses_of_taken (htaken : event.Taken step) (hsound : Sound event.pre) :
    event.pre.impl.Progresses event.post.impl := by
  have htransition := step_transition hsound.limits htaken
  have hrise := rise_of_taken htaken
  exact ⟨evidence_of_transition htransition, hrise.families, hrise.keys,
    fun _ _ hfound => sets_of_transition htransition hfound⟩

end Events

/-! ## Runs -/

theorem progresses_of_run {state last : SystemState} {events : List Event}
    (hsound : Sound state) (hrun : Run step state events last) :
    state.impl.Progresses last.impl := by
  have hinv : (fun reached => Sound reached ∧ state.impl.Progresses reached.impl) last := by
    apply hrun.invariant ⟨hsound, Impl.Progresses.refl _⟩
    intro event _ htaken hbefore
    obtain ⟨hpre, hprogress⟩ := hbefore
    have htransition := step_transition hpre.limits htaken
    exact ⟨htransition.sound hpre, hprogress.trans (progresses_of_taken htaken hpre)⟩
  exact hinv.2

/-- No run takes back what a coordinator knows: from every reachable state on, whatever is
asked for and in whatever order, and also where requests fail, the required generation of no
evidence family decreases, no watermark is lowered or lost, and no definition is lost or
replaced except under a greater generation. -/
theorem knowledge_only_advances {state last : SystemState} {events : List Event}
    (hreachable : Reachable state) (hrun : Run step state events last) :
    (∀ family,
      generationFor state.impl.evidence family ≤ generationFor last.impl.evidence family) ∧
    (∀ family, state.impl.watermarks.family family ≤ last.impl.watermarks.family family) ∧
    (∀ key, state.impl.watermarks.key key ≤ last.impl.watermarks.key key) ∧
    ∀ setId set, findSet state.impl.sets setId = some set →
      ∃ later, findSet last.impl.sets setId = some later ∧
        (later.generation = set.generation ∧ later.digest = set.digest ∨
          set.generation.value < later.generation.value) := by
  obtain ⟨earlier, hexecution⟩ := hreachable
  have hprogress := progresses_of_run hexecution.sound hrun
  refine ⟨hprogress.evidence, ?_, ?_, hprogress.sets⟩
  · intro family
    exact hprogress.families.getD_le family fun _ => UInt64.zero_le
  · intro key
    exact hprogress.keys.getD_le key fun _ => UInt64.zero_le

/-- A run that publishes and activates a set and moves a family forward. -/
def sampleForward : List Input :=
  samplePublish 5 10 ++
    [sampleInput (.operate (.advanceFamily (sampleContext 20) .pathAuthority 10))]

private theorem sampleForward_runs :
    ((sampleRun sampleForward).any fun run => run.1.length == 4) = true := by
  decide +kernel

theorem knowledge_only_advances_sample :
    ∃ event events last, Execution (event :: events) last ∧ events.length = 3 ∧
      ∀ family, generationFor event.post.impl.evidence family ≤
        generationFor last.impl.evidence family := by
  obtain ⟨events, last, -, hexecution, hcheck⟩ := sampleRun_execution _
    (fun events => events.length == 4) sampleForward_runs
  cases events with
  | nil => cases hcheck
  | cons event rest =>
      have hlength : rest.length = 3 := Nat.succ.inj (beq_iff_eq.mp hcheck)
      have hsplit : Execution ([] ++ event :: rest) last := hexecution
      obtain ⟨⟨start, hopened, hbefore⟩, -, hrun⟩ := hsplit.split
      have hreachable : Reachable event.post :=
        ⟨_, start, hopened, hbefore.append (.cons hsplit.taken (.nil _))⟩
      exact ⟨event, rest, last, hexecution, hlength,
        (knowledge_only_advances hreachable hrun).1⟩

/-! ## Evaluations in flight -/

/-- A value that came back to where it was did not move in between. -/
private theorem eq_of_squeezed {first middle last : UInt64} (h : first ≤ middle)
    (hrest : middle ≤ last) (hsame : last = first) : middle = first := by
  rw [hsame] at hrest
  exact UInt64.le_antisymm hrest h

/-- A boot that nobody has is fenced while an evaluation is in flight. -/
def sampleUndisturbed : List Input :=
  samplePublish 5 10 ++ [sampleBegin 20 5 [31],
    sampleInput (.operate (.fenceBoot (sampleContext 30) ⟨9999⟩)), sampleFinish 0]

private def commitsUndisturbed : List Event → Bool
  | [_, _, _, start, _, finish] =>
      match start.post.flights 0, finish.pre.flights 0 with
      | some (.evaluating snapshot), some (.evaluating held) =>
          decide (snapshot = held ∧ start.output = .evaluating 0 ∧
            finish.input.action = .evaluateFinish 0 ∧ ReportsCommit finish)
      | _, _ => false
  | _ => false

private theorem sampleUndisturbed_commits :
    ((sampleRun sampleUndisturbed).any fun run => commitsUndisturbed run.1) = true := by
  decide +kernel

end ConstraintRouting.Fabric
