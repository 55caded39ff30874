import ConstraintRouting.Fabric.SnapshotIsolation

/-!
# The evaluation generation counter

The first section of an evaluation reserves the generation after the counter, and
the last section of a committed one sets the counter to the generation that it
reserved, however far the counter has moved since.
-/

namespace ConstraintRouting.Fabric

open Verified.StepMachine

/-- The event committed a batch that carries the generation. -/
def CommitsGeneration (event : Event) (generation : EvaluationGeneration) : Prop :=
  ∃ ticket snapshot outcome, Finishes event ticket snapshot ∧
    event.output = .evaluated (.ok outcome) ∧ outcome.committed = true ∧
    outcome.batch.generation = generation

/-- The counter never decreases, and no two committed batches carry the same
generation. -/
structure GenerationsAdvance (events : List Event) : Prop where
  monotone : ∀ event ∈ events,
    event.pre.impl.lastGeneration.value ≤ event.post.impl.lastGeneration.value
  distinct : events.Pairwise fun first second =>
    ∀ generation, CommitsGeneration first generation → ¬ CommitsGeneration second generation

/-- A last section whose gate is open finds that the counter has not passed the
generation that it reserved. -/
def InReservationOrder (event : Event) : Prop :=
  ∀ ticket snapshot, Finishes event ticket snapshot →
    CommitGate event.pre.impl snapshot event.input.call →
    event.pre.impl.lastGeneration.value ≤ snapshot.generation.value

/-! ## One step -/

/-- What a step does to the counter and to the generations in flight. -/
inductive CounterStep (event : Event) : Prop
  | kept :
      event.post.impl.lastGeneration = event.pre.impl.lastGeneration →
      (∀ ticket snapshot, event.post.flights ticket = some (.evaluating snapshot) →
        event.pre.flights ticket = some (.evaluating snapshot)) →
      (∀ generation, ¬ CommitsGeneration event generation) → CounterStep event
  | reserved (started : EvaluationSnapshot) :
      event.pre.impl.lastGeneration.next = some started.generation →
      event.post.impl.lastGeneration = started.generation →
      (∀ ticket snapshot, event.post.flights ticket = some (.evaluating snapshot) →
        event.pre.flights ticket = some (.evaluating snapshot) ∨
          ticket = event.pre.nextTicket ∧ snapshot = started) →
      (∀ generation, ¬ CommitsGeneration event generation) → CounterStep event
  | wrote (ticket : Nat) (finished : EvaluationSnapshot) :
      Finishes event ticket finished →
      CommitGate event.pre.impl finished event.input.call →
      event.post.impl.lastGeneration = finished.generation →
      (∀ other snapshot, event.post.flights other = some (.evaluating snapshot) →
        other ≠ ticket ∧ event.pre.flights other = some (.evaluating snapshot)) →
      (∀ generation, CommitsGeneration event generation →
        generation = finished.generation) → CounterStep event

private theorem not_commits_of_action {event : Event} {generation : EvaluationGeneration}
    (h : ∀ ticket, event.input.action ≠ .evaluateFinish ticket) :
    ¬ CommitsGeneration event generation := by
  rintro ⟨ticket, _, _, hfinish, -⟩
  exact h ticket hfinish.action

theorem Transition.counterStep {event : Event}
    (h : Transition event.pre event.input.call event.input.action event.output
      event.post) : CounterStep event := by
  obtain ⟨pre, ⟨action, call⟩, output, post⟩ := event
  dsimp only at h
  cases h with
  | operated operation =>
      refine .kept ?_ (fun _ _ hflight => hflight)
        fun _ => not_commits_of_action fun ticket => by simp
      rcases operation.run_cases pre.impl call with hkept | ⟨_, -, -, hpublished⟩
      · exact hkept.lastGeneration
      · exact hpublished.lastGeneration
  | ended hfinish _ hkept hfewer =>
      exact .kept hkept.lastGeneration (fun ticket snapshot => hfewer ticket _)
        fun _ => not_commits_of_action hfinish
  | read =>
      refine .kept rfl (fun ticket snapshot hflight => ?_)
        fun _ => not_commits_of_action fun ticket => by simp
      rw [SystemState.launch_flights] at hflight
      split at hflight
      · cases hflight
      · exact hflight
  | @started _ _ _ _ snapshot _ _ hfinish _ _ hcaptured hfewer =>
      obtain ⟨authority, rfl⟩ := hcaptured.after
      refine .reserved snapshot hcaptured.generation rfl (fun ticket found hflight => ?_)
        fun _ => not_commits_of_action hfinish
      rw [SystemState.launch_flights] at hflight
      split at hflight
      · next heq =>
          cases hflight
          exact .inr ⟨heq, rfl⟩
      · exact .inl (hfewer ticket _ hflight)
  | moved hflight _ hcommitted =>
      refine .kept rfl (fun ticket snapshot => fewerFlights_update _ _ ticket _) ?_
      rintro generation ⟨_, _, outcome, -, houtput, htrue, -⟩
      cases houtput
      rw [hcommitted] at htrue
      cases htrue
  | @unwritten _ _ next =>
      refine .kept (pre.impl.persist_kept next call).lastGeneration
        (fun ticket snapshot => fewerFlights_update _ _ ticket _) ?_
      rintro generation ⟨_, _, outcome, -, houtput, -, -⟩
      cases houtput
  | @committed ticket snapshot next outcome hflight hunchanged htarget hok _ _ hgeneration =>
      obtain ⟨populations, excess, hwrites⟩ := commitTarget_writes htarget
      refine .wrote ticket snapshot ⟨rfl, hflight⟩ ⟨hunchanged, fun other hother => ?_⟩
        hwrites.generation (fun other found hother => ?_) ?_
      · rw [htarget] at hother
        cases hother
        exact hok
      · refine ⟨?_, fewerFlights_update _ _ other _ hother⟩
        rintro rfl
        simp [SystemState.land] at hother
      · rintro generation ⟨_, _, other, -, houtput, -, rfl⟩
        cases houtput
        exact hgeneration

/-- The next generation is greater. -/
theorem Generation.lt_of_next {domain : GenerationDomain}
    {generation next : Generation domain} (h : generation.next = some next) :
    generation.value < next.value := by
  unfold Generation.next at h
  split at h
  · cases h
  · next hbelow =>
      cases h
      refine UInt64.lt_add_one ?_
      rintro heq
      exact hbelow (heq ▸ by decide)

/-- A step does not decrease the counter exactly when a last section whose gate is
open finds its reservation not passed. -/
theorem Transition.counter_le_iff {event : Event}
    (h : Transition event.pre event.input.call event.input.action event.output
      event.post) :
    event.pre.impl.lastGeneration.value ≤ event.post.impl.lastGeneration.value ↔
      InReservationOrder event := by
  constructor
  · intro hle ticket snapshot hfinish hgate
    cases h.finishOutcome hfinish with
    | moved _ hmoved => exact absurd hgate.1 hmoved
    | unwritten next _ htarget herror =>
        rw [hgate.2 next htarget] at herror
        cases herror
    | committed next _ _ htarget _ _ _ _ _ hpost =>
        obtain ⟨_, _, hwrites⟩ := commitTarget_writes htarget
        rwa [hpost, Impl.applyState_lastGeneration, hwrites.generation] at hle
  · intro horder
    cases h.counterStep with
    | kept hsame => exact hsame ▸ UInt64.le_refl _
    | reserved started hnext hset =>
        rw [hset]
        exact UInt64.le_of_lt (Generation.lt_of_next hnext)
    | wrote ticket finished hfinish hgate hset =>
        rw [hset]
        exact horder ticket finished hfinish hgate

/-! ## Whole runs -/

/-- Every evaluation in flight holds a generation of its own, up to the counter. -/
structure Reserved (state : SystemState) : Prop where
  below : ∀ ticket snapshot, state.flights ticket = some (.evaluating snapshot) →
    snapshot.generation.value ≤ state.impl.lastGeneration.value
  own : ∀ ticket other snapshot found,
    state.flights ticket = some (.evaluating snapshot) →
    state.flights other = some (.evaluating found) →
    snapshot.generation = found.generation → ticket = other

/-- The counter has reached the generation, and no evaluation in flight holds it. -/
structure Spent (state : SystemState) (generation : EvaluationGeneration) : Prop where
  below : generation.value ≤ state.impl.lastGeneration.value
  free : ∀ ticket snapshot, state.flights ticket = some (.evaluating snapshot) →
    snapshot.generation ≠ generation

/-- A generation after the counter differs from one up to it. -/
private theorem ne_of_next {domain : GenerationDomain} {counter next held : Generation domain}
    (hnext : counter.next = some next) (hheld : held.value ≤ counter.value) :
    held ≠ next := by
  rintro rfl
  exact UInt64.lt_irrefl _ (UInt64.lt_of_le_of_lt hheld (Generation.lt_of_next hnext))

theorem CounterStep.reserved_post {event : Event} (h : CounterStep event)
    (horder : InReservationOrder event) (hreserved : Reserved event.pre) :
    Reserved event.post := by
  cases h with
  | kept hsame hflights =>
      refine ⟨fun ticket snapshot hflight => ?_, fun ticket other snapshot found hone htwo => ?_⟩
      · exact hsame ▸ hreserved.below ticket snapshot (hflights _ _ hflight)
      · exact hreserved.own _ _ _ _ (hflights _ _ hone) (hflights _ _ htwo)
  | reserved started hnext hset hflights =>
      constructor
      · intro ticket snapshot hflight
        rw [hset]
        rcases hflights _ _ hflight with hbefore | ⟨-, rfl⟩
        · exact UInt64.le_trans (hreserved.below ticket snapshot hbefore)
            (UInt64.le_of_lt (Generation.lt_of_next hnext))
        · exact UInt64.le_refl _
      · intro ticket other snapshot found hone htwo heq
        rcases hflights _ _ hone with hbefore | ⟨hticket, rfl⟩ <;>
          rcases hflights _ _ htwo with hother | ⟨hnew, rfl⟩
        · exact hreserved.own _ _ _ _ hbefore hother heq
        · exact absurd heq (ne_of_next hnext (hreserved.below _ _ hbefore))
        · exact absurd heq.symm (ne_of_next hnext (hreserved.below _ _ hother))
        · rw [hticket, hnew]
  | wrote ticket finished hfinish hgate hset hflights =>
      refine ⟨fun other snapshot hflight => ?_, fun one two snapshot found hone htwo => ?_⟩
      · rw [hset]
        exact UInt64.le_trans (hreserved.below other snapshot (hflights _ _ hflight).2)
          (horder ticket finished hfinish hgate)
      · exact hreserved.own _ _ _ _ (hflights _ _ hone).2 (hflights _ _ htwo).2

/-- A spent generation stays spent. -/
theorem CounterStep.spent_post {event : Event} (h : CounterStep event)
    (horder : InReservationOrder event) {generation : EvaluationGeneration}
    (hspent : Spent event.pre generation) : Spent event.post generation := by
  cases h with
  | kept hsame hflights =>
      exact ⟨hsame ▸ hspent.below, fun ticket snapshot hflight =>
        hspent.free ticket snapshot (hflights _ _ hflight)⟩
  | reserved started hnext hset hflights =>
      refine ⟨?_, fun ticket snapshot hflight => ?_⟩
      · rw [hset]
        exact UInt64.le_trans hspent.below (UInt64.le_of_lt (Generation.lt_of_next hnext))
      · rcases hflights _ _ hflight with hbefore | ⟨-, rfl⟩
        · exact hspent.free ticket snapshot hbefore
        · exact (ne_of_next hnext hspent.below).symm
  | wrote ticket finished hfinish hgate hset hflights =>
      refine ⟨?_, fun other snapshot hflight =>
        hspent.free other snapshot (hflights _ _ hflight).2⟩
      rw [hset]
      exact UInt64.le_trans hspent.below (horder ticket finished hfinish hgate)

/-- A commit spends a generation that was in flight before it. -/
theorem CounterStep.commits_spent {event : Event} (h : CounterStep event)
    (hreserved : Reserved event.pre) {generation : EvaluationGeneration}
    (hcommits : CommitsGeneration event generation) :
    Spent event.post generation ∧ ¬ Spent event.pre generation := by
  cases h with
  | kept _ _ hnone => exact absurd hcommits (hnone generation)
  | reserved _ _ _ _ hnone => exact absurd hcommits (hnone generation)
  | wrote ticket finished hfinish hgate hset hflights hcarries =>
      obtain rfl := hcarries generation hcommits
      refine ⟨⟨hset ▸ UInt64.le_refl _, fun other snapshot hflight heq => ?_⟩,
        fun hspent => hspent.free ticket finished hfinish.flight rfl⟩
      obtain ⟨hother, hbefore⟩ := hflights _ _ hflight
      exact hother (hreserved.own _ _ _ _ hbefore hfinish.flight heq)

/-- The generations in flight and committed are apart. -/
structure Numbered (history : List Event) (state : SystemState) : Prop
    extends Reserved state where
  spent : ∀ event ∈ history, ∀ generation, CommitsGeneration event generation →
    Spent state generation
  distinct : history.Pairwise fun first second =>
    ∀ generation, CommitsGeneration first generation → ¬ CommitsGeneration second generation

theorem Numbered.step {before : List Event} {event : Event}
    (h : Numbered before event.pre) (hstep : CounterStep event)
    (horder : InReservationOrder event) : Numbered (before ++ [event]) event.post := by
  refine ⟨hstep.reserved_post horder h.toReserved, ?_, ?_⟩
  · intro earlier hearlier generation hcommits
    rcases List.mem_append.mp hearlier with hbefore | hlast
    · exact hstep.spent_post horder (h.spent earlier hbefore generation hcommits)
    · rw [List.mem_singleton.mp hlast] at hcommits
      exact (hstep.commits_spent h.toReserved hcommits).1
  · refine List.pairwise_append.mpr ⟨h.distinct, List.pairwise_singleton _ _, ?_⟩
    intro earlier hearlier last hlast generation hcommits hagain
    rw [List.mem_singleton.mp hlast] at hagain
    exact (hstep.commits_spent h.toReserved hagain).2
      (h.spent earlier hearlier generation hcommits)

theorem Execution.numbered {events : List Event} {last : SystemState}
    (h : Execution events last) (horder : ∀ event ∈ events, InReservationOrder event) :
    Numbered events last := by
  refine h.history_invariant ?_ ?_
  · rintro start ⟨hopened⟩
    refine ⟨⟨?_, ?_⟩, by simp, List.Pairwise.nil⟩
    · intro ticket snapshot hflight
      cases hflight
    · intro ticket other snapshot found hflight
      cases hflight
  · rintro before event after rfl _ htransition hnumbered
    exact hnumbered.step htransition.counterStep (horder event (by simp))

/-- In a run, the counter never decreases and no two committed batches carry the same
generation, exactly when evaluations that commit do so in the order in which they
reserved. -/
theorem generations_advance_iff {events : List Event} {last : SystemState}
    (hexecution : Execution events last) :
    GenerationsAdvance events ↔ ∀ event ∈ events, InReservationOrder event := by
  have hcounter : ∀ event ∈ events,
      (event.pre.impl.lastGeneration.value ≤ event.post.impl.lastGeneration.value ↔
        InReservationOrder event) := by
    intro event hmem
    obtain ⟨before, after, rfl⟩ := List.append_of_mem hmem
    exact hexecution.split.2.1.counter_le_iff
  constructor
  · intro hadvance event hmem
    exact (hcounter event hmem).mp (hadvance.monotone event hmem)
  · intro horder
    exact ⟨fun event hmem => (hcounter event hmem).mpr (horder event hmem),
      (hexecution.numbered horder).distinct⟩

/-! ## Two evaluations that finish out of order -/

/-- The evaluation that began first finishes last, and a third one follows. -/
def sampleOvertake : List Input :=
  samplePublish 5 10 ++ [sampleBegin 20 5 [31], sampleBegin 21 5 [32], sampleFinish 1,
    sampleFinish 0, sampleBegin 22 5 [33], sampleFinish 2]

/-- The last section commits a batch of the generation under the ticket. -/
private def commitsUnder (event : Event) (ticket : Nat) (generation : EvaluationGeneration) :
    Bool :=
  match event.pre.flights ticket, event.output with
  | some (.evaluating _), .evaluated (.ok outcome) =>
      decide (event.input.action = .evaluateFinish ticket ∧ outcome.committed = true ∧
        outcome.batch.generation = generation)
  | _, _ => false

private theorem commitsGeneration_of_commitsUnder {event : Event} {ticket : Nat}
    {generation : EvaluationGeneration} (h : commitsUnder event ticket generation = true) :
    CommitsGeneration event generation := by
  unfold commitsUnder at h
  split at h
  · next snapshot outcome hflight houtput =>
      obtain ⟨haction, hcommitted, hgeneration⟩ := of_decide_eq_true h
      exact ⟨ticket, snapshot, outcome, ⟨haction, hflight⟩, houtput, hcommitted,
        hgeneration⟩
  · cases h

/-- The last section of the older evaluation sets the counter back, and the third
evaluation commits under the generation of the second. -/
private def setsBack : List Event → Bool
  | [_, _, _, _, _, second, first, _, third] =>
      commitsUnder second 1 ⟨2⟩ && commitsUnder third 2 ⟨2⟩ &&
        decide (first.post.impl.lastGeneration.value < first.pre.impl.lastGeneration.value)
  | _ => false

private theorem sampleOvertake_setsBack :
    ((sampleRun sampleOvertake).any fun run => setsBack run.1) = true := by
  decide +kernel

/-- Two evaluations that finish out of order set the counter back, and a generation is
committed twice. -/
theorem overtaken_evaluation_sets_counter_back :
    ∃ events last, sampleRun sampleOvertake = some (events, last) ∧
      Execution events last ∧
      (∃ event ∈ events,
        event.post.impl.lastGeneration.value < event.pre.impl.lastGeneration.value) ∧
      (∃ generation, ¬ events.Pairwise fun first second =>
        CommitsGeneration first generation → ¬ CommitsGeneration second generation) ∧
      ¬ GenerationsAdvance events := by
  obtain ⟨events, last, hrun, hexecution, hcheck⟩ :=
    sampleRun_execution _ _ sampleOvertake_setsBack
  refine ⟨events, last, hrun, hexecution, ?_⟩
  unfold setsBack at hcheck
  split at hcheck
  · next a b c d e second first f third =>
      rw [Bool.and_eq_true, Bool.and_eq_true, decide_eq_true_eq] at hcheck
      obtain ⟨⟨hsecond, hthird⟩, hback⟩ := hcheck
      have htwice : ∃ generation, ¬ [a, b, c, d, e, second, first, f, third].Pairwise
          fun first second => CommitsGeneration first generation →
            ¬ CommitsGeneration second generation := by
        refine ⟨⟨2⟩, fun hpairwise => ?_⟩
        have htail := hpairwise.sublist (List.sublist_append_right [a, b, c, d, e] _)
        exact List.rel_of_pairwise_cons htail (by simp)
          (commitsGeneration_of_commitsUnder hsecond)
          (commitsGeneration_of_commitsUnder hthird)
      exact ⟨⟨first, by simp, hback⟩, htwice, fun hadvance =>
        absurd (hadvance.monotone first (by simp)) (UInt64.not_le.mpr hback)⟩
  · cases hcheck

theorem generations_advance_iff_sample :
    ∃ events last, sampleRun sampleOvertake = some (events, last) ∧
      (GenerationsAdvance events ↔ ∀ event ∈ events, InReservationOrder event) := by
  obtain ⟨events, last, hrun, hexecution, -⟩ :=
    sampleRun_execution _ _ sampleOvertake_setsBack
  exact ⟨events, last, hrun, generations_advance_iff hexecution⟩

end ConstraintRouting.Fabric
