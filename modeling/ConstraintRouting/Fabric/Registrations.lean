import ConstraintRouting.Fabric.Sections

/-!
# Who holds live authority

The registry keeps live and dead registrations in one list, and only the live ones
authorize.  Fencing, dropping a session and reincarnation take live registrations away;
one operation adds one.  Every critical section is a sequence of such moves.
-/

namespace ConstraintRouting.Fabric

open Verified.StepMachine
open Verified.Checks (seq_eq_ok failIf_eq_ok)

namespace AuthorityRegistry

variable {registry middle after : AuthorityRegistry} {limits : Limits}

/-! ## Live registrations -/

theorem mem_liveRegistrations {registration : PublisherRegistration} :
    registration ∈ registry.liveRegistrations ↔
      registration ∈ registry.registrations ∧ registration.live = true :=
  List.mem_filter

/-- Retiring leaves the live registrations that are not selected. -/
theorem filter_live_retire (selected : PublisherRegistration → Bool)
    (registrations : List PublisherRegistration) :
    (retire selected registrations).filter (·.live) =
      registrations.filter fun registration => registration.live && !selected registration := by
  induction registrations with
  | nil => rfl
  | cons first rest ih =>
      have hcons : retire selected (first :: rest) =
          (if selected first then { first with live := false } else first) ::
            retire selected rest := rfl
      rw [hcons, List.filter_cons, List.filter_cons, ih]
      by_cases hselected : selected first = true
      · simp [hselected]
      · simp [eq_false_of_ne_true hselected]

theorem filter_live_retire_sublist (selected : PublisherRegistration → Bool)
    (registrations : List PublisherRegistration) :
    ((retire selected registrations).filter (·.live)).Sublist
      (registrations.filter (·.live)) := by
  rw [filter_live_retire, ← List.filter_filter]
  exact (List.filter_sublist).filter _

/-- Retiring the registration at one position. -/
theorem filter_live_modify_sublist (registrations : List PublisherRegistration)
    (index : Nat) :
    ((registrations.modify index ({ · with live := false })).filter (·.live)).Sublist
      (registrations.filter (·.live)) := by
  induction registrations generalizing index with
  | nil => simp
  | cons first rest ih =>
      cases index with
      | zero =>
          rw [List.modify_zero_cons, List.filter_cons_of_neg (by simp), List.filter_cons]
          split
          · exact List.sublist_cons_self _ _
          · exact List.Sublist.refl _
      | succ index =>
          rw [List.modify_succ_cons, List.filter_cons, List.filter_cons]
          split
          · exact (ih index).cons_cons _
          · exact ih index

/-! ## Losing authority -/

/-- No registration becomes live, and no live one has a boot that was not fenced and is
fenced now. -/
structure Thins (before after : AuthorityRegistry) : Prop where
  live : after.liveRegistrations.Sublist before.liveRegistrations
  unfenced : ∀ registration ∈ after.liveRegistrations,
    before.isBootFenced registration.boot = false →
    after.isBootFenced registration.boot = false
  epoch : after.epoch = before.epoch

namespace Thins

theorem refl (registry : AuthorityRegistry) : registry.Thins registry :=
  ⟨List.Sublist.refl _, fun _ _ h => h, rfl⟩

theorem trans (h : registry.Thins middle) (hrest : middle.Thins after) :
    registry.Thins after := by
  refine ⟨hrest.live.trans h.live, ?_, hrest.epoch.trans h.epoch⟩
  intro registration hmem hfree
  exact hrest.unfenced registration hmem (h.unfenced registration (hrest.live.mem hmem) hfree)

end Thins

/-- The window makes no difference to the registrations. -/
theorem thins_of_observeAttempt {attempt : MutationAttemptId} {payload : Digest256}
    {tick : UInt64} {verdict : ReplayVerdict}
    (h : registry.observeAttempt attempt payload tick limits = .ok (after, verdict)) :
    registry.Thins after := by
  obtain ⟨attempts, rfl⟩ := observeAttempt_ok h
  exact ⟨List.Sublist.refl _, fun _ _ h => h, rfl⟩

/-- Fencing one boot leaves another as it was. -/
theorem isBootFenced_of_fenceBoot_ne {boot other : WorkerBootId}
    {fencedAt : CoordinatorEpoch} {tick : UInt64}
    (h : registry.fenceBoot boot fencedAt tick limits = .ok after) (hne : boot ≠ other) :
    after.isBootFenced other = registry.isBootFenced other := by
  rcases fenceBoot_ok h with ⟨-, rfl⟩ | ⟨-, rfl⟩
  · rfl
  · have hcompare : compare boot other ≠ .eq :=
      fun heq => hne (Std.LawfulEqCmp.eq_of_compare heq)
    show (registry.fenced.insert boot _).contains other = _
    rw [Std.ExtTreeMap.contains_insert, beq_eq_false_iff_ne.mpr hcompare, Bool.false_or]
    rfl

/-- A boot is fenced together with its registrations. -/
theorem thins_of_fenceBoot {boot : WorkerBootId} {fencedAt : CoordinatorEpoch}
    {tick : UInt64} (h : registry.fenceBoot boot fencedAt tick limits = .ok after) :
    registry.Thins after := by
  have hleft := fun other => @isBootFenced_of_fenceBoot_ne _ _ _ _ other _ _ h
  rcases fenceBoot_ok h with ⟨-, rfl⟩ | ⟨-, rfl⟩
  · exact .refl _
  · refine ⟨filter_live_retire_sublist _ _, ?_, rfl⟩
    intro registration hmem hfree
    have hlive : registration ∈ registry.registrations.filter fun registration =>
        registration.live && !(registration.boot == boot) := by
      rw [← filter_live_retire]
      exact hmem
    have hother : registration.boot ≠ boot := by
      have hkept := (List.mem_filter.mp hlive).2
      rw [Bool.and_eq_true, Bool.not_eq_true', beq_eq_false_iff_ne] at hkept
      exact hkept.2
    exact (hleft registration.boot hother.symm).trans hfree

theorem thins_of_dropSession {session : SessionId}
    (h : registry.dropSession session = .ok after) : registry.Thins after := by
  unfold dropSession at h
  dsimp only at h
  split at h
  · cases h
    exact ⟨filter_live_retire_sublist _ _, fun _ _ hfree => hfree, rfl⟩
  · cases h

/-! ## Reincarnation -/

/-- One turn of the loop: the boot of a live registration is fenced and the
registration itself retired. -/
theorem thins_of_fenceAt {boot : WorkerBootId} {fencedAt : CoordinatorEpoch}
    {tick : UInt64} {index : Nat}
    (h : registry.fenceBoot boot fencedAt tick limits = .ok after) :
    registry.Thins { after with
      registrations := after.registrations.modify index ({ · with live := false }) } :=
  (thins_of_fenceBoot h).trans
    ⟨filter_live_modify_sublist _ _, fun _ _ hfree => hfree, rfl⟩

/-- Fencing the previous boots of a publisher takes authority away, even when it stops
half way. -/
theorem thins_of_fencePrevious {registration : PublisherRegistration}
    {remaining index : Nat} {status : Status}
    (h : fencePrevious registration limits remaining index registry = (after, status)) :
    registry.Thins after := by
  induction remaining generalizing index registry with
  | zero =>
      cases h
      exact .refl _
  | succ remaining ih =>
      rw [fencePrevious] at h
      split at h
      · cases h
        exact .refl _
      · split at h
        · split at h
          · cases h
            exact .refl _
          · split at h
            · cases h
              exact .refl _
            · next hfenced => exact (thins_of_fenceAt hfenced).trans (ih h)
        · exact ih h

/-- What is live at a position after one turn was live there, at another position. -/
private theorem live_of_fenceAt {boot : WorkerBootId} {fencedAt : CoordinatorEpoch}
    {tick : UInt64} {index position : Nat} {registration : PublisherRegistration}
    (h : registry.fenceBoot boot fencedAt tick limits = .ok after)
    (hfound : (after.registrations.modify index ({ · with live := false }))[position]? =
      some registration) (hlive : registration.live = true) :
    position ≠ index ∧ registry.registrations[position]? = some registration := by
  by_cases hsame : index = position
  · subst hsame
    rw [List.getElem?_modify_eq] at hfound
    obtain ⟨original, -, rfl⟩ := Option.map_eq_some_iff.mp hfound
    cases hlive
  · rw [List.getElem?_modify_ne _ _ hsame] at hfound
    refine ⟨fun heq => hsame heq.symm, ?_⟩
    rcases fenceBoot_ok h with ⟨-, rfl⟩ | ⟨-, rfl⟩
    · exact hfound
    · simp only [retire, List.getElem?_map, Option.map_eq_some_iff] at hfound
      obtain ⟨original, horiginal, hretired⟩ := hfound
      split at hretired
      · rw [← hretired] at hlive
        cases hlive
      · exact hretired ▸ horiginal

/-- A publisher without a live registration at any position has none. -/
private theorem cleared_of_done {publisher : PublisherId} {index : Nat}
    (hdone : ∀ position < index, ∀ existing,
      registry.registrations[position]? = some existing → existing.live = true →
      existing.publisher ≠ publisher)
    (hend : registry.registrations.length ≤ index) :
    ∀ existing ∈ registry.liveRegistrations, existing.publisher ≠ publisher := by
  intro existing hmem
  obtain ⟨hmem, hlive⟩ := mem_liveRegistrations.mp hmem
  obtain ⟨position, hposition⟩ := List.mem_iff_getElem?.mp hmem
  have hbound := (List.getElem?_eq_some_iff.mp hposition).1
  exact hdone position (Nat.lt_of_lt_of_le hbound hend) existing hposition hlive

/-- The loop that succeeds leaves the publisher without a live registration, and does not
fence the boot that is about to register. -/
theorem cleared_of_fencePrevious {registration : PublisherRegistration}
    {remaining index : Nat}
    (h : fencePrevious registration limits remaining index registry = (after, .ok ()))
    (hlength : registry.registrations.length ≤ index + remaining)
    (hdone : ∀ position < index, ∀ existing,
      registry.registrations[position]? = some existing → existing.live = true →
      existing.publisher ≠ registration.publisher) :
    (∀ existing ∈ after.liveRegistrations, existing.publisher ≠ registration.publisher) ∧
      after.isBootFenced registration.boot = registry.isBootFenced registration.boot := by
  induction remaining generalizing index registry with
  | zero =>
      cases h
      exact ⟨cleared_of_done hdone hlength, rfl⟩
  | succ remaining ih =>
      rw [fencePrevious] at h
      split at h
      · next hnone =>
          cases h
          exact ⟨cleared_of_done hdone (List.getElem?_eq_none_iff.mp hnone), rfl⟩
      · next existing hexisting =>
          split at h
          · split at h
            · cases h
            · next hboot =>
                split at h
                · cases h
                · next fenced hfenced =>
                    -- The turn fences the boot found, which is not the new one.
                    have hturn : ∀ position < index + 1, ∀ entry,
                        (fenced.registrations.modify index
                          ({ · with live := false }))[position]? = some entry →
                        entry.live = true → entry.publisher ≠ registration.publisher := by
                      intro position hposition entry hentry hlive
                      obtain ⟨hne, hbefore⟩ := live_of_fenceAt hfenced hentry hlive
                      exact hdone position (by omega) entry hbefore hlive
                    have hlengths := length_registrations_of_fenceBoot hfenced
                    have hbound : (fenced.registrations.modify index
                        ({ · with live := false })).length ≤ index + 1 + remaining := by
                      rw [List.length_modify]
                      omega
                    obtain ⟨hcleared, hkept⟩ := ih h hbound hturn
                    have hother : existing.boot ≠ registration.boot := by simpa using hboot
                    have hsame := isBootFenced_of_fenceBoot_ne hfenced hother
                    exact ⟨hcleared, hkept.trans hsame⟩
          · next hother =>
              refine ih h (by omega) ?_
              intro position hposition entry hentry hlive
              by_cases hlast : position = index
              · subst hlast
                rw [hexisting] at hentry
                cases hentry
                intro hsame
                rw [hsame, beq_self_eq_true, hlive] at hother
                exact hother rfl
              · exact hdone position (by omega) entry hentry hlive

/-! ## Registration -/

/-- A registration that is admitted takes the authority of the previous boots of its
publisher, and joins a registry with room that has no live one of the publisher. -/
structure Joins (registry : AuthorityRegistry) (registration : PublisherRegistration)
    (limits : Limits) (middle : AuthorityRegistry) : Prop where
  thins : registry.Thins middle
  cleared : ∀ existing ∈ middle.liveRegistrations,
    existing.publisher ≠ registration.publisher
  unfenced : middle.isBootFenced registration.boot = false
  room : middle.liveRegistrations.length < limits.maxPublishers.toNat
  current : registration.registeredAt = registry.epoch

/-- A registration that is refused adds nothing; one that succeeds is of a valid boot and
joins. -/
theorem registerPublisher_cases {registration : PublisherRegistration} {status : Status}
    (h : registry.registerPublisher registration limits = (after, status)) :
    registry.Thins after ∧ (∃ error, status = .error error) ∨
      registration.boot.isValid = true ∧
        ∃ middle, registry.Joins registration limits middle ∧
          after = { middle with
            registrations := middle.registrations ++ [registration] } := by
  unfold registerPublisher at h
  split at h
  · cases h
    exact .inl ⟨.refl _, _, rfl⟩
  · next hadmitted =>
      split at h
      · next hprevious =>
          cases h
          exact .inl ⟨thins_of_fencePrevious hprevious, _, rfl⟩
      · next middle hprevious =>
          have hthins := thins_of_fencePrevious hprevious
          split at h
          · cases h
            exact .inl ⟨hthins, _, rfl⟩
          · next hroom =>
              cases h
              simp only [admitRegistration, seq_eq_ok, failIf_eq_ok, Bool.or_eq_false_iff,
                bne_eq_false_iff_eq, Bool.not_eq_false'] at hadmitted
              obtain ⟨-, hvalid, -, ⟨-, hcurrent⟩, hfree, -⟩ := hadmitted
              simp only [checkRegistrationLimits, seq_eq_ok, failIf_eq_ok,
                decide_eq_false_iff_not, Nat.not_le] at hroom
              obtain ⟨hcleared, hkept⟩ := cleared_of_fencePrevious hprevious (by omega)
                (by omega)
              refine .inr ⟨hvalid, middle, ?_, rfl⟩
              exact ⟨hthins, hcleared, hkept.trans hfree, hroom.1, hcurrent⟩

/-! ## Moves -/

/-- How the operations of the registry follow one another; a registration carries
scopes that its publisher was granted. -/
inductive Moves (config : CoordinatorConfig) (before : AuthorityRegistry) :
    AuthorityRegistry → Prop
  | refl : Moves config before before
  | observed {middle after : AuthorityRegistry} {attempt : MutationAttemptId}
      {payload : Digest256} {tick : UInt64} {verdict : ReplayVerdict} :
      Moves config before middle →
      middle.observeAttempt attempt payload tick config.limits = .ok (after, verdict) →
      Moves config before after
  | fenced {middle after : AuthorityRegistry} {boot : WorkerBootId}
      {fencedAt : CoordinatorEpoch} {tick : UInt64} :
      Moves config before middle →
      middle.fenceBoot boot fencedAt tick config.limits = .ok after →
      Moves config before after
  | dropped {middle after : AuthorityRegistry} {session : SessionId} :
      Moves config before middle → middle.dropSession session = .ok after →
      Moves config before after
  | registered {middle after : AuthorityRegistry} {registration : PublisherRegistration}
      {grant : PublisherGrant} {scopes : AuthorityScopeMask} {status : Status} :
      Moves config before middle →
      grantOf config registration.publisher = some grant →
      registration.scopes = grant.scopes &&& scopes →
      middle.registerPublisher registration config.limits = (after, status) →
      Moves config before after

end AuthorityRegistry

open AuthorityRegistry

/-! ## Critical sections -/

/-- The registry that the staged operation leaves is reached by moves. -/
def Staged.Moves {α : Type} (impl : Impl) : Staged α → Prop
  | .reply after _ => impl.authority.Moves impl.config after.authority
  | .write staged _ _ _ => impl.authority.Moves impl.config staged.authority

theorem Staged.Moves.map {α β : Type} {impl : Impl} {staged : Staged α}
    (h : staged.Moves impl) (f : α → β) : (staged.map f).Moves impl := by
  cases staged <;> exact h

theorem Staged.Moves.settle {α : Type} {impl : Impl} {staged : Staged α}
    (h : staged.Moves impl) (call : Call) :
    impl.authority.Moves impl.config (staged.settle call).1.authority := by
  rw [staged.settle_authority call]
  cases staged <;> exact h

section Operations

variable {impl : Impl} {call : Call}

private theorem registerPublisher_moves {context : AuthorityContext}
    {publisher : PublisherId} {boot : WorkerBootId} {scopes : AuthorityScopeMask}
    {session : SessionId} :
    (registerPublisher impl context publisher boot scopes session call).Moves impl := by
  unfold registerPublisher
  split
  · exact .refl
  · split
    · exact .refl
    · next grant hgrant =>
        dsimp only
        split
        · exact .refl
        · split
          · next hregistered => exact .registered .refl hgrant rfl hregistered
          · next hregistered => exact .registered .refl hgrant rfl hregistered

private theorem fenceBoot_moves {context : AuthorityContext} {boot : WorkerBootId} :
    (fenceBoot impl context boot call).Moves impl := by
  unfold fenceBoot
  split
  · exact .refl
  · exact .refl
  · next fresh hadmitted =>
      obtain ⟨authority, rfl, -, hobserve⟩ := admit_fresh hadmitted
      split
      · exact .observed .refl hobserve
      · next hfenced => exact .fenced (.observed .refl hobserve) hfenced

private theorem fenceOnSessionLoss_moves {session : SessionId} :
    (fenceOnSessionLoss impl session call).Moves impl := by
  unfold fenceOnSessionLoss
  split
  · exact .refl
  · split
    · exact .refl
    · next fenced hfenced =>
        dsimp only [Staged.Moves]
        cases hdropped : fenced.dropSession session with
        | ok dropped => exact .dropped (.fenced .refl hfenced) hdropped
        | error error => exact .fenced .refl hfenced

private theorem dropSession_moves {context : AuthorityContext} {session : SessionId} :
    (dropSession impl context session).Moves impl := by
  unfold dropSession
  split
  · exact .refl
  · split
    · exact .refl
    · next hdropped => exact .dropped .refl hdropped

private theorem observeAttempt_moves {context : AuthorityContext} {payload : Digest256} :
    (observeAttempt impl context payload call).Moves impl := by
  unfold observeAttempt
  split
  · exact .refl
  · next hobserve => exact .observed .refl hobserve

private theorem publishConstraintSet_moves {context : AuthorityContext}
    {set : ConstraintSet} : (publishConstraintSet impl context set call).Moves impl := by
  unfold publishConstraintSet
  split
  · exact .refl
  · split <;> exact .refl
  · next fresh hadmitted =>
      obtain ⟨authority, rfl, -, hobserve⟩ := admit_fresh hadmitted
      split
      · exact .observed .refl hobserve
      · split <;> exact .observed .refl hobserve

private theorem applyLifecycle_moves {context : AuthorityContext} {setId : ConstraintSetId}
    {event : LifecycleEvent} : (applyLifecycle impl context setId event call).Moves impl := by
  unfold applyLifecycle
  dsimp only
  split
  · exact .refl
  · split <;> exact .refl
  · next fresh hadmitted =>
      obtain ⟨authority, rfl, -, hobserve⟩ := admit_fresh hadmitted
      split
      · exact .observed .refl hobserve
      · unfold transition
        split <;> exact .observed .refl hobserve

private theorem applyEvidenceRequirements_moves {context : AuthorityContext}
    {requirements : EvidenceRequirements} :
    (applyEvidenceRequirements impl context requirements call).Moves impl := by
  unfold applyEvidenceRequirements
  split
  · exact .refl
  · exact .refl
  · next fresh hadmitted =>
      obtain ⟨authority, rfl, -, hobserve⟩ := admit_fresh hadmitted
      split
      · exact .observed .refl hobserve
      · dsimp only
        split <;> exact .observed .refl hobserve

private theorem advanceFamily_moves {context : AuthorityContext} {family : EvidenceFamily}
    {generation : UInt64} : (advanceFamily impl context family generation call).Moves impl := by
  unfold advanceFamily
  split
  · exact .refl
  · split
    · exact .refl
    · exact applyEvidenceRequirements_moves

private theorem invalidateKey_moves {context : AuthorityContext} {key : InvalidationKey} :
    (invalidateKey impl context key call).Moves impl := by
  unfold invalidateKey
  split
  · exact .refl
  · exact .refl
  · next fresh hadmitted =>
      obtain ⟨authority, rfl, -, hobserve⟩ := admit_fresh hadmitted
      dsimp only
      split <;> exact .observed .refl hobserve

theorem Operation.stage_moves (operation : Operation) (impl : Impl) (call : Call) :
    (operation.stage impl call).Moves impl := by
  cases operation with
  | registerPublisher => exact registerPublisher_moves.map _
  | fenceBoot => exact fenceBoot_moves.map _
  | fenceOnSessionLoss => exact fenceOnSessionLoss_moves.map _
  | dropSession => exact dropSession_moves.map _
  | observeAttempt => exact observeAttempt_moves.map _
  | publishConstraintSet => exact publishConstraintSet_moves.map _
  | applyLifecycle => exact applyLifecycle_moves.map _
  | setEvidenceRequirements => exact applyEvidenceRequirements_moves.map _
  | advanceFamily => exact advanceFamily_moves.map _
  | invalidateKey => exact invalidateKey_moves.map _
  | flush => exact .refl

private theorem evaluateBegin_moves {context : AuthorityContext} {setId : ConstraintSetId}
    {candidates : List CandidatePath} {expectedGeneration : ConstraintSetGeneration} :
    impl.authority.Moves impl.config
      (evaluateBegin impl context setId candidates expectedGeneration call).1.authority := by
  unfold evaluateBegin
  split
  · exact .refl
  · exact .refl
  · next fresh hadmitted =>
      obtain ⟨authority, rfl, -, hobserve⟩ := admit_fresh hadmitted
      split
      · exact .observed .refl hobserve
      · split
        · exact .observed .refl hobserve
        · split <;> exact .observed .refl hobserve

end Operations

/-- No critical section changes the configuration. -/
theorem Section.config {event : Event} (h : Section event) :
    event.post.impl.config = event.pre.impl.config := by
  cases h with
  | replied _ hconfig _ _ => exact hconfig
  | @unwritten staged next _ hkept _ _ _ _ hpost =>
      rw [hpost, (staged.persist_kept next event.input.call).config, hkept.config]
  | @written staged next applies hkept _ _ _ _ _ hpost =>
      have hsaved := (staged.persist_kept next event.input.call).config
      rw [hpost]
      cases applies with
      | true => exact hsaved.trans hkept.config
      | false => exact hsaved.trans hkept.config

/-- Every critical section is a sequence of moves of the registry. -/
theorem moves_of_taken {event : Event} (htaken : event.Taken step) :
    event.pre.impl.authority.Moves event.pre.impl.config event.post.impl.authority := by
  obtain ⟨pre, ⟨action, call⟩, output, post⟩ := event
  unfold Event.Taken step at htaken
  cases action with
  | operate operation =>
      simp only [Option.some.injEq, Prod.mk.injEq] at htaken
      obtain ⟨rfl, rfl⟩ := htaken
      exact (operation.stage_moves pre.impl call).settle call
  | evaluateBegin context setId candidates expectedGeneration =>
      simp only [Option.some.injEq] at htaken
      have himpl := pre.begin_impl context setId candidates expectedGeneration call
      rw [htaken] at himpl
      dsimp only at himpl ⊢
      rw [himpl]
      exact evaluateBegin_moves
  | evaluateFinish ticket =>
      unfold SystemState.finish at htaken
      dsimp only at htaken
      split at htaken
      · simp only [Option.map_eq_some_iff, Prod.mk.injEq] at htaken
        obtain ⟨staged, hstaged, rfl, rfl⟩ := htaken
        refine Staged.Moves.settle ?_ call
        cases staged with
        | reply after result =>
            obtain rfl := evaluateFinish_reply hstaged
            exact .refl
        | write after next applies value =>
            obtain rfl := evaluateFinish_eq_write hstaged
            exact .refl
      · cases htaken
  | revalidateRead context setId =>
      simp only [Option.some.injEq] at htaken
      unfold SystemState.readPopulation at htaken
      dsimp only at htaken
      split at htaken
      · cases htaken
        exact .refl
      · cases htaken
        exact .refl
  | revalidateBegin ticket =>
      unfold SystemState.revalidate at htaken
      dsimp only at htaken
      split at htaken
      · next context setId population hflight =>
          simp only [Option.some.injEq] at htaken
          have himpl := (pre.land ticket).begin_impl context setId population {} call
          rw [htaken] at himpl
          have hland : (pre.land ticket).impl = pre.impl := rfl
          rw [hland] at himpl
          dsimp only at himpl ⊢
          rw [himpl]
          exact evaluateBegin_moves
      · cases htaken

end ConstraintRouting.Fabric
