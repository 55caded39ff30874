import ConstraintRouting.Fabric.Lifetimes
import ConstraintRouting.Fabric.ResultsSpec

/-!
# Invalidating a key

A key invalidation advances the watermark of its key to the next invalidation sequence.
The sequence starts again with every incarnation and the watermarks are restored, so the
request is refused until the sequence has passed the watermark that was restored.
-/

namespace ConstraintRouting.Fabric

open Verified.StepMachine
open Verified.MonotoneTables (raise raise_isSome)
open Verified.Checks (seq_eq_ok)

/-- The event is accepted, and after it no record that was bound to the key in the index
is current. -/
structure Invalidates (event : Event) (key : InvalidationKey) : Prop where
  accepted : event.output = .operated (.ok .done)
  demoted : ∀ record ∈ event.post.impl.evaluations,
    record.id ∈ event.pre.impl.index.dependents key → record.state ≠ .current

/-- The watermark of the key, if it has one, is below the next sequence. -/
def BelowSequence (impl : Impl) (key : InvalidationKey) : Prop :=
  ∀ watermark, impl.watermarks.keys[key]? = some watermark →
    watermark < impl.invalidationSequence + 1

/-- An authorized request under an attempt that is not in the window is admitted. -/
theorem admits_fresh {impl : Impl} {context : AuthorityContext} {scope : AuthorityScope}
    (payload : Digest256) (tick : UInt64)
    (hauthorized : impl.authority.authorize context (scopeBit scope) = .ok ())
    (hfresh : impl.authority.findAttempt context.attempt = none) :
    ∃ attempts, authorizeAndObserve impl context scope payload tick =
      .fresh { impl with authority := { impl.authority with attempts } } := by
  have hvalid : context.attempt.isValid = true := by
    unfold AuthorityRegistry.authorize at hauthorized
    have hcomplete := failIf_eq_ok.mp (seq_eq_ok.mp hauthorized).1
    simp only [Bool.or_eq_false_iff, Bool.not_eq_false'] at hcomplete
    exact hcomplete.1.2
  have hobserve : ∃ attempts, impl.authority.observeAttempt context.attempt payload tick
      impl.config.limits = .ok ({ impl.authority with attempts }, .fresh) := by
    unfold AuthorityRegistry.observeAttempt
    rw [hvalid, hfresh]
    exact ⟨_, rfl⟩
  obtain ⟨attempts, hobserve⟩ := hobserve
  unfold authorizeAndObserve
  simp only [hauthorized, hobserve]
  exact ⟨attempts, rfl⟩

/-- A request for a key stages its write exactly when the watermark of the key is below the
next sequence, and otherwise ends with a refusal. -/
theorem invalidateKey_cases {impl : Impl} {context : AuthorityContext} {key : InvalidationKey}
    {call : Call}
    (hauthorized : impl.authority.authorize context (scopeBit .publishEvaluation) = .ok ())
    (hfresh : impl.authority.findAttempt context.attempt = none) :
    BelowSequence impl key ∧ (∃ staged next, invalidateKey impl context key call =
        .write staged next true () ∧ next.evaluations =
          demote (fun record => record.id ∈ impl.index.dependents key) impl.evaluations) ∨
      ¬ BelowSequence impl key ∧ ∃ after error,
        invalidateKey impl context key call = .reply after (.error error) := by
  obtain ⟨attempts, hadmitted⟩ :=
    admits_fresh (invalidateDigest key) (call.clock 0) hauthorized hfresh
  unfold invalidateKey
  simp only [hadmitted, Watermarks.advanceKey_eq]
  have hraises := @raise_isSome _ _ InvalidationKey.cmp _ _ _ impl.watermarks.keys key
    (impl.invalidationSequence + 1)
  have hbelow : BelowSequence impl key ↔
      (raise impl.watermarks.keys key (impl.invalidationSequence + 1)).isSome = true := by
    rw [hraises]
    exact forall_congr' fun _ => imp_congr_right fun _ => UInt64.not_le.symm
  rw [hbelow]
  cases raise impl.watermarks.keys key (impl.invalidationSequence + 1) with
  | none => exact .inr ⟨by simp, _, _, rfl⟩
  | some keys => exact .inl ⟨rfl, _, _, rfl, rfl⟩

/-- In every lifetime, a request for a key with an authorized context and an unused
attempt, whose durable write does not fail, is accepted and leaves no record of the key
current exactly when the watermark of the key is below the next sequence. -/
theorem invalidates_iff_below_sequence {before after : List LifeEvent} {event : LifeEvent}
    {last : SystemState} (h : Lifetime (before ++ event :: after) last) {served : Event}
    (hserving : Serving event served) {context : AuthorityContext} {key : InvalidationKey}
    (haction : served.input.action = .operate (.invalidateKey context key))
    (hauthorized :
      served.pre.impl.authority.authorize context (scopeBit .publishEvaluation) = .ok ())
    (hfresh : served.pre.impl.authority.findAttempt context.attempt = none)
    (hwritten : ¬ WriteFails served) :
    Invalidates served key ↔ BelowSequence served.pre.impl key := by
  have htaken := hserving.taken h.split.2.1
  obtain ⟨pre, ⟨action, call⟩, output, post⟩ := served
  dsimp only at haction hauthorized hfresh ⊢
  subst haction
  have hfails : ((Operation.invalidateKey context key).stage pre.impl call).writeFails call =
      false := eq_false_of_ne_true fun hfails => hwritten (.operated _ rfl hfails)
  simp only [Event.Taken, step, Option.some.injEq, Prod.mk.injEq] at htaken
  obtain ⟨rfl, rfl⟩ := htaken
  rcases @invalidateKey_cases pre.impl context key call hauthorized hfresh with
    ⟨hbelow, staged, next, hstage, hevaluations⟩ | ⟨habove, refused, error, hstage⟩
  · have hstaged : (Operation.invalidateKey context key).stage pre.impl call =
        .write staged next true .done := by
      show (invalidateKey pre.impl context key call).map _ = _
      rw [hstage]
      rfl
    have hpersist : (staged.persist next call).2 = .ok () := by
      rw [hstaged, Staged.writeFails, Bool.not_eq_false', isOk_eq_true] at hfails
      exact hfails
    have hrun : (Operation.invalidateKey context key).run pre.impl call =
        ((staged.persist next call).1.applyState next, .ok .done) := by
      unfold Operation.run
      rw [hstaged, Staged.settle]
      rcases hsaved : staged.persist next call with ⟨saved, status⟩
      rw [hsaved] at hpersist
      obtain rfl := hpersist
      rfl
    rw [hrun]
    refine iff_of_true ⟨rfl, ?_⟩ hbelow
    intro record hmem hbound hcurrent
    have hdemoted : record ∈ demote (fun record => record.id ∈ pre.impl.index.dependents key)
        pre.impl.evaluations := hevaluations ▸ hmem
    have hunselected := (mem_of_mem_demote hdemoted hcurrent).2
    simp [hbound] at hunselected
  · have hrun : ((Operation.invalidateKey context key).run pre.impl call).2 = .error error := by
      show (((invalidateKey pre.impl context key call).map _).settle call).2 = _
      rw [hstage]
      rfl
    refine iff_of_false (fun hinvalidates => ?_) habove
    have haccepted := hinvalidates.accepted
    rw [hrun] at haccepted
    cases haccepted

/-! ## A watermark that was restored -/

/-- The caller's authority in the second incarnation, under another boot. -/
def sampleReturned (attempt : UInt64) : AuthorityContext :=
  { sampleContext attempt with epoch := ⟨2⟩, workerBoot := ⟨4243⟩ }

/-- Invalidates the key of a path, under the caller's authority. -/
def samplePathInvalidation (context : AuthorityContext) : Turn :=
  .serve (sampleInput (.operate (.invalidateKey context ⟨.path, 31⟩)))

/-- Invalidates a key in two incarnations. -/
def sampleReinvalidate : List Turn :=
  [.serve sampleRegister, samplePathInvalidation (sampleContext 10),
   .restart sampleDurable sampleCall,
   .serve (sampleInput (.operate
     (.registerPublisher (sampleReturned 1) ⟨1⟩ ⟨4243⟩ 127 ⟨7⟩))),
   samplePathInvalidation (sampleReturned 20)]

/-- The last event is an authorized request for the key under an unused attempt, whose
durable write does not fail, with the answer. -/
private def asksForKey (context : AuthorityContext) (answer : Reply)
    (events : List LifeEvent) : Bool :=
  events.getLast?.any fun event =>
    match event.input, event.output with
    | .serve ⟨.operate (.invalidateKey caller key), call⟩, some reply =>
        decide (caller = context ∧ key = ⟨.path, 31⟩ ∧ reply = answer ∧
          event.pre.impl.authority.authorize context (scopeBit .publishEvaluation) = .ok () ∧
          event.pre.impl.authority.findAttempt context.attempt = none ∧
          ((Operation.invalidateKey caller key).stage event.pre.impl call).writeFails call =
            false)
    | _, _ => false

/-- What the check says of the last event. -/
private theorem served_of_asksForKey {context : AuthorityContext} {answer : Reply}
    {events : List LifeEvent} (h : asksForKey context answer events = true) :
    ∃ before event served, events = before ++ [event] ∧ Serving event served ∧
      served.input.action = .operate (.invalidateKey context ⟨.path, 31⟩) ∧
      served.pre.impl.authority.authorize context (scopeBit .publishEvaluation) = .ok () ∧
      served.pre.impl.authority.findAttempt context.attempt = none ∧
      ¬ WriteFails served ∧ served.output = answer := by
  obtain ⟨event, hlast, hevent⟩ := (Option.any_eq_true _ _).mp h
  obtain ⟨before, rfl⟩ := List.getLast?_eq_some_iff.mp hlast
  obtain ⟨pre, input, output, post⟩ := event
  dsimp only at hevent
  split at hevent
  · next caller key call reply =>
      obtain ⟨rfl, rfl, rfl, hauthorized, hfresh, hwritten⟩ := of_decide_eq_true hevent
      refine ⟨before, _, ⟨pre, ⟨.operate (.invalidateKey caller ⟨.path, 31⟩), call⟩, reply, post⟩,
        rfl, ⟨rfl, rfl, rfl, rfl⟩, rfl, hauthorized, hfresh, ?_, rfl⟩
      intro hfails
      cases hfails with
      | operated operation haction hfails =>
          cases haction
          rw [hwritten] at hfails
          cases hfails
      | finished ticket snapshot staged hfinish => cases hfinish.1
  · cases hevent

private theorem sampleReinvalidate_asks :
    ((sampleDurableLife sampleReinvalidate).any fun run =>
      asksForKey (sampleReturned 20) (.operated (failure .staleGeneration
        "invalidation watermark never decreases")) run.1) = true := by
  decide +kernel

/-- A key that was invalidated before a restart cannot be invalidated after it. -/
theorem restored_watermark_refuses_key :
    ∃ events last, sampleDurableLife sampleReinvalidate = some (events, last) ∧
      Lifetime events last ∧
      ∃ before event served, events = before ++ [event] ∧ Serving event served ∧
        served.input.action = .operate (.invalidateKey (sampleReturned 20) ⟨.path, 31⟩) ∧
        served.pre.impl.authority.authorize (sampleReturned 20)
          (scopeBit .publishEvaluation) = .ok () ∧
        served.pre.impl.authority.findAttempt (sampleReturned 20).attempt = none ∧
        ¬ WriteFails served ∧
        served.output = .operated (failure .staleGeneration
          "invalidation watermark never decreases") ∧
        ¬ Invalidates served ⟨.path, 31⟩ := by
  obtain ⟨events, last, hrun, hlifetime, hcheck⟩ :=
    Lifetime.of_check _ sampleReinvalidate_asks
  obtain ⟨before, event, served, hevents, hserving, haction, hauthorized, hfresh, hwritten,
    houtput⟩ := served_of_asksForKey hcheck
  refine ⟨events, last, hrun, hlifetime, before, event, served, hevents, hserving, haction,
    hauthorized, hfresh, hwritten, houtput, fun hinvalidates => ?_⟩
  have haccepted := hinvalidates.accepted
  rw [houtput] at haccepted
  cases haccepted

private theorem sampleInvalidate_asks :
    ((sampleLife [samplePathInvalidation (sampleContext 10)]).any fun run =>
      asksForKey (sampleContext 10) (.operated (.ok .done)) run.1) = true := by
  decide +kernel

theorem invalidates_iff_below_sequence_sample :
    ∃ events last, sampleLife [samplePathInvalidation (sampleContext 10)] = some (events, last) ∧
      ∃ event ∈ events, ∃ served, Serving event served ∧
        (Invalidates served ⟨.path, 31⟩ ↔ BelowSequence served.pre.impl ⟨.path, 31⟩) := by
  obtain ⟨events, last, hrun, hlifetime, hcheck⟩ := Lifetime.of_check _ sampleInvalidate_asks
  obtain ⟨before, event, served, rfl, hserving, haction, hauthorized, hfresh, hwritten, -⟩ :=
    served_of_asksForKey hcheck
  exact ⟨_, last, hrun, event, by simp, served, hserving,
    invalidates_iff_below_sequence hlifetime hserving haction hauthorized hfresh hwritten⟩

end ConstraintRouting.Fabric
