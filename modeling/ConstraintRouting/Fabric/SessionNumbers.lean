import ConstraintRouting.Fabric.Hosting

/-!
# The numbers of sessions

A handshake increments the counter of sessions and reads it afterwards, and others may
number their handshakes in between.  So two handshakes share a number exactly when nothing
was numbered between their reads, and only handshakes that overlap do.  Where handshakes do
not overlap, a publisher acts on one connection at most.
-/

namespace ConstraintRouting.Fabric

open Verified.StepMachine
open Verified.Checks (isOk)

/-! ## The counter -/

/-- How many handshakes the events number. -/
def numberedBy (events : List HostEvent) : Nat := events.countP counts

theorem numberedBy_concat (before : List HostEvent) (event : HostEvent) :
    numberedBy (before ++ [event]) = numberedBy before + if counts event then 1 else 0 := by
  unfold numberedBy
  rw [List.countP_append, List.countP_singleton]

section Counter

variable {config : ServerConfig} {start last : HostState} {events : List HostEvent}
  {event : HostEvent} {who : Nat}

theorem counter_of_moves (h : HostMoves config event) :
    event.post.nextSession =
      event.pre.nextSession + UInt64.ofNat (if counts event then 1 else 0) := by
  rcases passes_of_moves h with ⟨-, hnumber, hcounts⟩ | ⟨-, hnumber, hcounts⟩
  · rw [hnumber, hcounts]
    exact (UInt64.add_zero _).symm
  · rw [hnumber, hcounts]
    rfl

/-- The counter counts the handshakes. -/
theorem counter_of_run (h : Run (hostStep config) start events last) :
    last.nextSession = start.nextSession + UInt64.ofNat (numberedBy events) := by
  have hinv : (fun done host => HostState.nextSession host =
      start.nextSession + UInt64.ofNat (numberedBy done)) events last := by
    apply h.history_invariant
    · exact (UInt64.add_zero _).symm
    · intro before event after _ htaken hbefore
      rw [counter_of_moves (hostMoves_of_taken htaken), hbefore, numberedBy_concat,
        UInt64.ofNat_add, UInt64.add_assoc]
  exact hinv

/-- A connection starts a handshake only where the counter is incremented. -/
theorem counts_of_moves (h : HostMoves config event)
    (hbefore : (event.pre.links who).work.isNumbering = false)
    (hafter : (event.post.links who).work.isNumbering = true) : counts event = true := by
  by_cases hactor : event.input.actor = some who
  · cases h with
    | counted =>
        cases hactor
        exact hafter
    | begun | handled | greeted | concluded | ended =>
        cases hactor
        rw [HostState.work_seat] at hafter
        cases hafter
    | elsewhere => cases hactor
  · rw [links_of_moves h hactor, hbefore] at hafter
    cases hafter

theorem counted_of_run (h : Run (hostStep config) start events last)
    (hbefore : (start.links who).work.isNumbering = false)
    (hafter : (last.links who).work.isNumbering = true) : ∃ event ∈ events, counts event = true := by
  by_contra hnone
  have hstill : (fun host => (HostState.links host who).work.isNumbering = false) last := by
    apply h.invariant hbefore
    intro event hmem htaken hidle
    cases hpost : (event.post.links who).work.isNumbering with
    | false => rfl
    | true =>
        exact absurd ⟨event, hmem, counts_of_moves (hostMoves_of_taken htaken) hidle hpost⟩ hnone
  rw [hstill] at hafter
  cases hafter

end Counter

/-! ## Shared numbers -/

/-- The event reads the number of a handshake on the connection. -/
def Reads (event : HostEvent) (who : Nat) : Prop :=
  (∃ call, event.input = .resumed who call) ∧ (event.pre.links who).work.isNumbering = true

theorem Reads.done {config : ServerConfig} {event : HostEvent} {who : Nat}
    (h : Reads event who) (hmoves : HostMoves config event) :
    (event.post.links who).work.isNumbering = false ∧
      event.post.nextSession = event.pre.nextSession := by
  obtain ⟨⟨call, hinput⟩, hnumbering⟩ := h
  have hnumber := counter_of_moves hmoves
  have hcounts : counts event = false := by
    unfold counts
    rw [hinput]
  rw [hcounts, if_neg Bool.false_ne_true] at hnumber
  refine ⟨?_, hnumber.trans (UInt64.add_zero _)⟩
  cases hmoves with
  | greeted | concluded =>
      cases hinput
      rw [HostState.work_seat]
      rfl
  | counted | begun | handled | ended | elsewhere => cases hinput

/-- Two handshakes are given one number exactly when no handshake is numbered between their
reads of the counter, and then the later of them was under way when the earlier one read. -/
theorem session_number_shared_iff {config : ServerConfig} {start last : HostState}
    {before middle after : List HostEvent} {first second : HostEvent} {one other : Nat}
    (h : Run (hostStep config) start (before ++ first :: (middle ++ second :: after)) last)
    (hfirst : Reads first one) (hsecond : Reads second other)
    (hfew : numberedBy middle < UInt64.size) :
    (first.pre.nextSession = second.pre.nextSession ↔ ∀ event ∈ middle, counts event = false) ∧
      (first.pre.nextSession = second.pre.nextSession →
        (first.pre.links other).work.isNumbering = true ∧ one ≠ other) := by
  obtain ⟨-, htaken, hlater⟩ := h.split_event
  obtain ⟨hmiddle, -, -⟩ := hlater.split_event
  have hmoves := hostMoves_of_taken htaken
  obtain ⟨hdone, hsame⟩ := hfirst.done hmoves
  have hcounter := counter_of_run hmiddle
  rw [hsame] at hcounter
  have hequal : first.pre.nextSession = second.pre.nextSession ↔
      ∀ event ∈ middle, counts event = false := by
    rw [hcounter]
    constructor
    · intro hshared
      have hzero : numberedBy middle = 0 := by
        have hwrapped := congrArg UInt64.toNat (UInt64.left_eq_add.mp hshared)
        rwa [UInt64.toNat_ofNat_of_lt' hfew] at hwrapped
      intro event hmem
      rw [← Bool.not_eq_true]
      exact List.countP_eq_zero.mp hzero event hmem
    · intro hnone
      have hzero : numberedBy middle = 0 := by
        unfold numberedBy
        rw [List.countP_eq_zero]
        intro event hmem
        rw [hnone event hmem]
        exact Bool.false_ne_true
      rw [hzero]
      exact (UInt64.add_zero _).symm
  refine ⟨hequal, ?_⟩
  intro hshared
  have hnone := hequal.mp hshared
  have hunderway : (first.post.links other).work.isNumbering = true := by
    by_contra hidle
    rw [Bool.not_eq_true] at hidle
    obtain ⟨event, hmem, hcounts⟩ := counted_of_run hmiddle hidle hsecond.2
    rw [hnone event hmem] at hcounts
    cases hcounts
  have hne : one ≠ other := by
    rintro rfl
    rw [hdone] at hunderway
    cases hunderway
  refine ⟨?_, hne⟩
  have hactor : first.input.actor ≠ some other := by
    obtain ⟨⟨call, hinput⟩, -⟩ := hfirst
    rw [hinput]
    intro hactor
    cases hactor
    exact hne rfl
  rw [← links_of_moves hmoves hactor]
  exact hunderway

/-- Two handshakes that overlap: both are numbered before either number is read. -/
def sampleOverlap : List HostInput :=
  [.arrived 0 (sampleHello ⟨1⟩ ⟨4242⟩ 1) sampleCall, .arrived 1 sampleNextHello sampleCall,
   .resumed 0 sampleCall, .resumed 1 sampleCall]

private def reads (event : HostEvent) (who : Nat) : Bool :=
  match event.input with
  | .resumed other _ => other == who && (event.pre.links who).work.isNumbering
  | .arrived _ _ _ | .ended _ _ | .elsewhere _ => false

private theorem reads_sound {event : HostEvent} {who : Nat} (h : reads event who = true) :
    Reads event who := by
  unfold reads at h
  split at h
  · next other call hinput =>
      rw [Bool.and_eq_true, beq_iff_eq] at h
      obtain ⟨rfl, hnumbering⟩ := h
      exact ⟨⟨call, hinput⟩, hnumbering⟩
  all_goals cases h

private def overlaps : List HostEvent → Bool
  | [_, _, first, second] => reads first 0 && reads second 1
  | _ => false

private theorem sampleOverlap_overlaps :
    ((sampleHost sampleOverlap).any fun run => overlaps run.1) = true := by
  decide +kernel

theorem session_number_shared_iff_sample :
    ∃ events last, sampleHost sampleOverlap = some (events, last) ∧
      ∃ first ∈ events, ∃ second ∈ events, Reads first 0 ∧ Reads second 1 ∧
        first.pre.nextSession = second.pre.nextSession := by
  obtain ⟨⟨events, last⟩, hrun, hcheck⟩ := (Option.any_eq_true _ _).mp sampleOverlap_overlaps
  refine ⟨events, last, hrun, ?_⟩
  unfold sampleHost at hrun
  split at hrun
  · next impl hopened =>
      dsimp only at hcheck
      unfold overlaps at hcheck
      split at hcheck
      · next arrived next first second =>
          rw [Bool.and_eq_true] at hcheck
          have hfirst := reads_sound hcheck.1
          have hsecond := reads_sound hcheck.2
          have hshared := @session_number_shared_iff {} { system := { impl } } last
            [arrived, next] [] [] first second 0 1 (Run.of_exec hrun) hfirst hsecond (by decide)
          refine ⟨first, by simp, second, by simp, hfirst, hsecond, hshared.1.mpr ?_⟩
          intro event hmem
          cases hmem
      · cases hcheck
  · cases hrun

/-! ## Sessions of the connections -/

section Sessions

variable {config : ServerConfig} {event : HostEvent} {who : Nat}

/-- The step concludes a handshake on the connection, with the number that it reads. -/
structure Concludes (event : HostEvent) (who : Nat) : Prop where
  numbering : (event.pre.links who).work.isNumbering = true
  done : (event.post.links who).work.isNumbering = false
  uncounted : counts event = false
  number : (event.post.links who).session.session = ⟨event.pre.nextSession⟩

theorem session_of_moves (h : HostMoves config event) :
    (event.post.links who).session = (event.pre.links who).session ∨ Concludes event who := by
  by_cases hactor : event.input.actor = some who
  · cases h with
    | counted | begun =>
        cases hactor
        left
        simp [HostState.seat, HostState.view]
    | @handled host other frame call handled _ _ hpause hhandled =>
        cases hactor
        left
        have hsession : handled.state.session = (host.view who).session := by
          by_cases hhello : frame.header.message = .hello
          · rw [handleFrame_malformed hhello hpause hhandled]
          · exact (handleFrame_other hhello hhandled).1
        simpa [HostState.seat, HostState.view] using hsession
    | @greeted host other frame hello call hwork =>
        cases hactor
        have hsession : (greetSession config (host.view who) frame.header hello call).state.session
            = (host.links who).session ∨
            (greetSession config (host.view who) frame.header hello
              call).state.session.session = ⟨host.nextSession⟩ := by
          unfold greetSession
          dsimp only
          split
          · exact .inl rfl
          · exact .inr rfl
        rcases hsession with hsame | hnumber
        · left
          simpa [HostState.seat] using hsame
        · right
          refine ⟨by rw [hwork]; rfl, by rw [HostState.work_seat]; rfl, rfl, ?_⟩
          simpa [HostState.seat] using hnumber
    | @concluded host other frame ticket call handled hwork hconcluded =>
        cases hactor
        left
        unfold concludeEvaluation at hconcluded
        obtain ⟨⟨finished, reply⟩, -, hreply⟩ := Option.bind_eq_some_iff.mp hconcluded
        cases reply with
        | evaluated outcome =>
            cases hreply
            rw [ServerState.respond_state]
            simp [HostState.seat, HostState.view]
        | operated | populationRead | evaluating => cases hreply
    | @ended host other call hidle =>
        cases hactor
        left
        rcases hangUp_eq (host.view who) call with ⟨input, -, system, reply, -, hpost⟩ | hnone
        · rw [hpost]
          simp [HostState.seat, HostState.view]
        · rw [hnone.2]
          simp [HostState.seat, HostState.view]
    | elsewhere => cases hactor
  · rw [links_of_moves h hactor]
    exact .inl rfl

/-- No two connections are in the middle of a handshake. -/
def HostState.Apart (host : HostState) : Prop :=
  ∀ one other, (host.links one).work.isNumbering = true →
    (host.links other).work.isNumbering = true → one = other

/-- What holds of the numbers while handshakes do not overlap: the counter did not wrap, the
number of a session that is registered was read from it, and before the number that the
handshake under way reads; and no two sessions share a number. -/
structure SessionsNumbered (host : HostState) (count : Nat) : Prop where
  counter : host.nextSession.toNat = count
  read : ∀ who, (host.links who).session.registered = true →
    (host.links who).session.session.value.toNat ≤ count
  earlier : ∀ who other, (host.links who).session.registered = true →
    (host.links other).work.isNumbering = true →
      (host.links who).session.session.value.toNat < count
  distinct : ∀ one other, one ≠ other → (host.links one).session.registered = true →
    (host.links other).session.registered = true →
      (host.links one).session.session ≠ (host.links other).session.session

theorem SessionsNumbered.step {count : Nat} (h : SessionsNumbered event.pre count)
    (hmoves : HostMoves config event) (hapart : event.pre.Apart)
    (hfew : count + (if counts event then 1 else 0) < UInt64.size) :
    SessionsNumbered event.post (count + if counts event then 1 else 0) := by
  have hcounter := counter_of_moves hmoves
  cases hcounts : counts event with
  | true =>
      rw [hcounts, if_pos rfl] at hcounter hfew
      rw [if_pos rfl]
      have hsame : ∀ who, (event.post.links who).session = (event.pre.links who).session := by
        intro who
        rcases @session_of_moves _ _ who hmoves with hsame | hconcludes
        · exact hsame
        · rw [hconcludes.uncounted] at hcounts
          cases hcounts
      constructor
      · rw [hcounter, UInt64.toNat_add, h.counter]
        exact Nat.mod_eq_of_lt hfew
      · intro who hregistered
        rw [hsame] at hregistered ⊢
        exact Nat.le_succ_of_le (h.read who hregistered)
      · intro who other hregistered _
        rw [hsame] at hregistered ⊢
        exact Nat.lt_succ_of_le (h.read who hregistered)
      · intro one other hne hone hother
        rw [hsame] at hone hother ⊢
        rw [hsame]
        exact h.distinct one other hne hone hother
  | false =>
      rw [hcounts, if_neg Bool.false_ne_true] at hcounter
      rw [if_neg Bool.false_ne_true, Nat.add_zero]
      have hnumbering : ∀ who, (event.post.links who).work.isNumbering = true →
          (event.pre.links who).work.isNumbering = true := by
        intro who hafter
        by_contra hidle
        rw [Bool.not_eq_true] at hidle
        rw [counts_of_moves hmoves hidle hafter] at hcounts
        cases hcounts
      have hread : ∀ who, Concludes event who →
          (event.post.links who).session.session.value.toNat = count := by
        intro who hconcludes
        rw [hconcludes.number]
        exact h.counter
      constructor
      · rw [hcounter]
        exact (congrArg UInt64.toNat (UInt64.add_zero _)).trans h.counter
      · intro who hregistered
        rcases @session_of_moves _ _ who hmoves with hsame | hconcludes
        · rw [hsame] at hregistered ⊢
          exact h.read who hregistered
        · exact Nat.le_of_eq (hread who hconcludes)
      · intro who other hregistered hother
        rcases @session_of_moves _ _ who hmoves with hsame | hconcludes
        · rw [hsame] at hregistered ⊢
          exact h.earlier who other hregistered (hnumbering other hother)
        · -- the handshake that is concluded is the only one that was under way
          obtain rfl := hapart who other hconcludes.numbering (hnumbering other hother)
          rw [hconcludes.done] at hother
          cases hother
      · intro one other hne hone hother hshared
        have hvalue := congrArg (fun id => id.value.toNat) hshared
        rcases @session_of_moves _ _ one hmoves with hsame | hconcludes
        · rcases @session_of_moves _ _ other hmoves with hstill | hconcludes
          · rw [hsame] at hone hshared
            rw [hstill] at hother hshared
            exact h.distinct one other hne hone hother hshared
          · rw [hsame] at hone hvalue
            rw [hread other hconcludes] at hvalue
            exact absurd hvalue (Nat.ne_of_lt (h.earlier one other hone hconcludes.numbering))
        · rcases @session_of_moves _ _ other hmoves with hstill | hagain
          · rw [hstill] at hother hvalue
            rw [hread one hconcludes] at hvalue
            exact absurd hvalue.symm
              (Nat.ne_of_lt (h.earlier other one hother hconcludes.numbering))
          · exact hne (hapart one other hconcludes.numbering hagain.numbering)

end Sessions

/-! ## Publishers -/

/-- A run of a server on a coordinator that was just opened. -/
def HostExecution (config : ServerConfig) (events : List HostEvent) (last : HostState) : Prop :=
  ∃ system, Opened system ∧ Run (hostStep config) { system } events last

section Publishers

variable {config : ServerConfig} {events : List HostEvent} {last : HostState}

/-- The connections of a server use one coordinator. -/
theorem HostExecution.reachable (h : HostExecution config events last) :
    Reachable last.system := by
  obtain ⟨system, hopened, hrun⟩ := h
  have hstart : Reachable system := ⟨[], system, hopened, .nil system⟩
  have hinv : (fun host => Reachable (HostState.system host)) last := by
    apply hrun.invariant hstart
    intro event _ htaken hbefore
    rcases passes_of_moves (hostMoves_of_taken htaken) with ⟨⟨served, hserved⟩, -⟩ | ⟨hsame, -⟩
    · exact hbefore.of_run hserved
    · rw [hsame]
      exact hbefore
  exact hinv

theorem HostExecution.numbered (h : HostExecution config events last)
    (hapart : ∀ event ∈ events, event.pre.Apart) (hfew : numberedBy events < UInt64.size) :
    SessionsNumbered last (numberedBy events) := by
  obtain ⟨system, -, hrun⟩ := h
  apply hrun.history_invariant
  · exact ⟨rfl, fun _ h => (nomatch h), fun _ _ h => (nomatch h), fun _ _ _ h => (nomatch h)⟩
  · intro before event after hevents htaken hbefore
    have hmem : event ∈ events := by
      rw [hevents]
      exact List.mem_append_right _ List.mem_cons_self
    have hroom : numberedBy before + (if counts event then 1 else 0) < UInt64.size := by
      refine Nat.lt_of_le_of_lt ?_ hfew
      rw [← numberedBy_concat, hevents]
      unfold numberedBy
      rw [List.countP_append, List.countP_append, List.countP_singleton, List.countP_cons]
      omega
    rw [numberedBy_concat]
    exact hbefore.step (hostMoves_of_taken htaken) (hapart event hmem) hroom

/-- While handshakes do not overlap, a publisher acts on one connection at most: where the
coordinator accepts the requests of one connection, it accepts none of another connection of
the same publisher, whatever order the server served its connections in. -/
theorem publisher_acts_on_one_connection (h : HostExecution config events last)
    (hapart : ∀ event ∈ events, event.pre.Apart) (hfew : numberedBy events < UInt64.size)
    {one other : Nat} (hne : one ≠ other)
    (hone : (last.links one).session.registered = true)
    (hother : (last.links other).session.registered = true)
    (hpublisher : (last.links one).session.publisher = (last.links other).session.publisher)
    {header : FrameHeader} {required : AuthorityScopeMask}
    (haccepted : last.system.impl.authority.authorize
      (contextFor last.system.impl (last.links one).session header) required = .ok ()) :
    ∀ request scopes, ∃ error, last.system.impl.authority.authorize
      (contextFor last.system.impl (last.links other).session request) scopes =
        .error error := by
  intro request scopes
  cases hrefused : last.system.impl.authority.authorize
      (contextFor last.system.impl (last.links other).session request) scopes with
  | error error => exact ⟨error, rfl⟩
  | ok _ =>
      obtain ⟨-, -, first, hfirst, howner, hsession, -⟩ :=
        AuthorityRegistry.authorize_eq_ok haccepted
      obtain ⟨-, -, second, hsecond, hsame, hshared, -⟩ :=
        AuthorityRegistry.authorize_eq_ok hrefused
      -- the two would be the one live registration of the publisher
      have hequal : first = second := by
        apply List.inj_on_of_nodup_map h.reachable.enrolled.publishers hfirst hsecond
        rw [howner, hsame]
        exact hpublisher
      rw [hequal, hshared] at hsession
      exact absurd hsession.symm ((h.numbered hapart hfew).distinct one other hne hone hother)

end Publishers

/-! ## Two boots of a worker -/

theorem untouched_of_run {config : ServerConfig} {start last : HostState}
    {events : List HostEvent} {who : Nat} (h : Run (hostStep config) start events last)
    (hothers : ∀ event ∈ events, event.input.actor ≠ some who) :
    last.links who = start.links who := by
  have hstart : (fun host => HostState.links host who = start.links who) start := rfl
  have hinv : (fun host => HostState.links host who = start.links who) last := by
    apply h.invariant hstart
    intro event hmem htaken hbefore
    rw [links_of_moves (hostMoves_of_taken htaken) (hothers event hmem)]
    exact hbefore
  exact hinv

/-- Handshakes of two connections do not overlap where they do not in any state. -/
theorem apart_of_two {config : ServerConfig} {system : SystemState} {last : HostState}
    {events : List HostEvent} (h : Run (hostStep config) { system } events last)
    (hactors : ∀ event ∈ events, ∀ who, event.input.actor = some who → who = 0 ∨ who = 1)
    (hturns : ∀ event ∈ events, ((event.pre.links 0).work.isNumbering &&
      (event.pre.links 1).work.isNumbering) = false) :
    ∀ event ∈ events, event.pre.Apart := by
  intro event hmem one other hone hother
  obtain ⟨before, after, rfl⟩ := List.append_of_mem hmem
  have hbefore := h.split_event.1
  have htwo : ∀ who, (event.pre.links who).work.isNumbering = true → who = 0 ∨ who = 1 := by
    intro who hnumbering
    by_contra hnone
    have huntouched := untouched_of_run hbefore fun earlier hearlier hactor =>
      hnone (hactors earlier (List.mem_append_left _ hearlier) who hactor)
    rw [huntouched] at hnumbering
    cases hnumbering
  have hturn := hturns event hmem
  rcases htwo one hone with rfl | rfl <;> rcases htwo other hother with rfl | rfl
  · rfl
  · rw [hone, hother] at hturn
    cases hturn
  · rw [hone, hother] at hturn
    cases hturn
  · rfl

/-- The second boot is accepted after handshakes that did not overlap. -/
private def succeedsInTurn (run : List HostEvent × HostState) : Bool :=
  (run.1.all fun event => (event.input.actor == some 0 || event.input.actor == some 1) &&
    !((event.pre.links 0).work.isNumbering && (event.pre.links 1).work.isNumbering)) &&
  (run.2.links 0).session.registered && (run.2.links 1).session.registered &&
  decide ((run.2.links 1).session.publisher = (run.2.links 0).session.publisher) &&
  isOk (run.2.system.impl.authority.authorize
    (contextFor run.2.system.impl (run.2.links 1).session { attempt := ⟨2⟩ }) 127)

private theorem sampleArrivals_succeed :
    ((sampleHost sampleArrivals).any succeedsInTurn) = true := by
  decide +kernel

theorem publisher_acts_on_one_connection_sample :
    ∃ events last, sampleHost sampleArrivals = some (events, last) ∧
      ∀ request scopes, ∃ error, last.system.impl.authority.authorize
        (contextFor last.system.impl (last.links 0).session request) scopes = .error error := by
  obtain ⟨⟨events, last⟩, hrun, hcheck⟩ := (Option.any_eq_true _ _).mp sampleArrivals_succeed
  refine ⟨events, last, hrun, ?_⟩
  simp only [succeedsInTurn, Bool.and_eq_true, decide_eq_true_eq, List.all_eq_true,
    Bool.or_eq_true, beq_iff_eq, Bool.not_eq_true'] at hcheck
  obtain ⟨⟨⟨⟨hturns, hfirst⟩, hsecond⟩, hpublisher⟩, haccepted⟩ := hcheck
  unfold sampleHost at hrun
  split at hrun
  · next impl hopened =>
      have hserved := Run.of_exec hrun
      have hapart : ∀ event ∈ events, event.pre.Apart := by
        apply apart_of_two hserved
        · intro event hmem who hactor
          rcases (hturns event hmem).1 with hzero | hone
          · exact .inl (Option.some.inj (hactor.symm.trans hzero))
          · exact .inr (Option.some.inj (hactor.symm.trans hone))
        · intro event hmem
          exact (hturns event hmem).2
      have hfew : numberedBy events < UInt64.size := by
        have hlength : events.length = 4 := by
          rw [← List.length_map, inputs_of_exec hrun]
          rfl
        refine Nat.lt_of_le_of_lt List.countP_le_length ?_
        rw [hlength]
        decide
      obtain ⟨_, hauthorized⟩ := Verified.Checks.isOk_iff.mp haccepted
      exact publisher_acts_on_one_connection ⟨_, .opened hopened, hserved⟩ hapart hfew
        Nat.one_ne_zero hsecond hfirst hpublisher hauthorized
  · cases hrun

end ConstraintRouting.Fabric
