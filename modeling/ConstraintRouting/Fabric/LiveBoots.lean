import ConstraintRouting.Fabric.LostSessions
import ConstraintRouting.Fabric.Volatile

/-!
# Boots that hold live authority

The durable view lists each live boot once, and validation bounds that list by the limit of
fenced boots.  Only a registration adds to it: it fences the boots that its publisher held and
then needs a place among the others.
-/

namespace ConstraintRouting.Fabric

open Verified.StepMachine

/-! ## Live boots -/

theorem nodup_eraseDups {α : Type} [BEq α] [LawfulBEq α] (values : List α) :
    values.eraseDups.Nodup := by
  generalize hlength : values.length = length
  induction length using Nat.strong_induction_on generalizing values with
  | _ length ih =>
      cases values with
      | nil => exact List.nodup_nil
      | cons first rest =>
          have hshorter := List.length_filter_le (fun value => !value == first) rest
          rw [List.length_cons] at hlength
          rw [List.eraseDups_cons, List.nodup_cons, List.mem_eraseDups]
          refine ⟨fun hmem => ?_, ih _ (by omega) _ rfl⟩
          simpa using (List.mem_filter.mp hmem).2

namespace AuthorityRegistry

variable {registry after : AuthorityRegistry} {limits : Limits}

theorem mem_liveBoots {boot : WorkerBootId} :
    boot ∈ Impl.liveBoots registry ↔
      ∃ registration ∈ registry.liveRegistrations, registration.boot = boot := by
  rw [Impl.liveBoots, List.mem_eraseDups, List.mem_map]

/-- Live boots that are all in a list are no more than the list is long. -/
theorem length_liveBoots_le {boots : List WorkerBootId}
    (h : ∀ registration ∈ registry.liveRegistrations, registration.boot ∈ boots) :
    (Impl.liveBoots registry).length ≤ boots.length := by
  have hnodup : (Impl.liveBoots registry).Nodup := nodup_eraseDups _
  apply (hnodup.subperm _).length_le
  intro boot hmem
  obtain ⟨registration, hlive, rfl⟩ := mem_liveBoots.mp hmem
  exact h registration hlive

theorem length_liveBoots_of_thins (h : registry.Thins after) :
    (Impl.liveBoots after).length ≤ (Impl.liveBoots registry).length := by
  apply length_liveBoots_le
  intro registration hmem
  exact mem_liveBoots.mpr ⟨registration, h.live.mem hmem, rfl⟩

/-- The live boots that the publisher itself does not hold. -/
def otherBoots (registry : AuthorityRegistry) (publisher : PublisherId) : List WorkerBootId :=
  (Impl.liveBoots registry).filter fun boot =>
    !registry.liveRegistrations.any fun registration =>
      registration.publisher == publisher && registration.boot == boot

/-- The loop that succeeds fences the boot of each live registration of the publisher that it
passes. -/
theorem fenced_of_fencePrevious {registration existing : PublisherRegistration}
    {remaining index position : Nat}
    (h : fencePrevious registration limits remaining index registry = (after, .ok ()))
    (hlength : registry.registrations.length ≤ index + remaining) (hlater : index ≤ position)
    (hfound : registry.registrations[position]? = some existing) (hlive : existing.live = true)
    (hpublisher : existing.publisher = registration.publisher) :
    after.isBootFenced existing.boot = true := by
  have hbound := (List.getElem?_eq_some_iff.mp hfound).1
  induction remaining generalizing index registry with
  | zero => omega
  | succ remaining ih =>
      rw [fencePrevious] at h
      split at h
      · next hnone =>
          have hend := List.getElem?_eq_none_iff.mp hnone
          omega
      · next current hcurrent =>
          split at h
          · split at h
            · cases h
            · split at h
              · cases h
              · next fenced hfenced =>
                  have hlengths := length_registrations_of_fenceBoot hfenced
                  have hkept := (rearranges_of_fencePrevious h).1.fenced existing.boot
                  by_cases hsame : existing.boot = current.boot
                  · apply hkept
                    show fenced.isBootFenced existing.boot = true
                    rw [hsame]
                    exact isBootFenced_of_fenceBoot hfenced
                  · have hnext : index + 1 ≤ position := by
                      have hne : position ≠ index := by
                        rintro rfl
                        rw [hcurrent] at hfound
                        exact hsame (congrArg _ (Option.some.inj hfound).symm)
                      omega
                    have hspared : (fenced.registrations.modify index
                        ({ · with live := false }))[position]? = some existing := by
                      rw [List.getElem?_modify_ne _ _ (by omega)]
                      rcases fenceBoot_ok hfenced with ⟨-, rfl⟩ | ⟨-, rfl⟩
                      · exact hfound
                      · simp [retire, hfound, hsame]
                    refine ih h ?_ hnext hspared ?_
                    · rw [List.length_modify]
                      omega
                    · rw [List.length_modify]
                      omega
          · next hother =>
              have hnext : index + 1 ≤ position := by
                have hne : position ≠ index := by
                  rintro rfl
                  rw [hcurrent] at hfound
                  cases hfound
                  rw [hpublisher, beq_self_eq_true, hlive] at hother
                  exact hother rfl
                omega
              exact ih h (by omega) hnext hfound hbound

/-- After a registration the live boots are its own and those that its publisher did not
hold. -/
theorem boot_of_registerPublisher {registration : PublisherRegistration}
    (h : registry.registerPublisher registration limits = (after, .ok ()))
    (hunfenced : ∀ existing ∈ registry.liveRegistrations,
      registry.isBootFenced existing.boot = false) :
    ∀ existing ∈ after.liveRegistrations, existing.boot = registration.boot ∨
      existing.boot ∈ registry.otherBoots registration.publisher := by
  unfold registerPublisher at h
  split at h
  · cases h
  · split at h
    · cases h
    · next middle hprevious =>
        split at h
        · cases h
        · cases h
          have hthins := thins_of_fencePrevious hprevious
          intro existing hmem
          obtain ⟨hmem, hlive⟩ := mem_liveRegistrations.mp hmem
          rcases List.mem_append.mp hmem with hold | hnew
          · right
            have hstays : existing ∈ middle.liveRegistrations :=
              mem_liveRegistrations.mpr ⟨hold, hlive⟩
            have hbefore := hthins.live.mem hstays
            have hfree := hthins.unfenced existing hstays (hunfenced existing hbefore)
            refine List.mem_filter.mpr ⟨mem_liveBoots.mpr ⟨existing, hbefore, rfl⟩, ?_⟩
            rw [Bool.not_eq_true', List.any_eq_false]
            intro other hother hholds
            rw [Bool.and_eq_true, beq_iff_eq, beq_iff_eq] at hholds
            obtain ⟨hregistered, hotherLive⟩ := mem_liveRegistrations.mp hother
            obtain ⟨position, hposition⟩ := List.mem_iff_getElem?.mp hregistered
            have hfenced := fenced_of_fencePrevious hprevious (by omega) (Nat.zero_le _)
              hposition hotherLive hholds.1
            rw [hholds.2, hfree] at hfenced
            cases hfenced
          · left
            rw [List.mem_singleton.mp hnew]

/-- The boot has a place among the live ones once those of the publisher lost theirs. -/
def HasPlace (registry : AuthorityRegistry) (limits : Limits) (publisher : PublisherId)
    (boot : WorkerBootId) : Prop :=
  boot ∈ registry.otherBoots publisher ∨
    (registry.otherBoots publisher).length < limits.maxFencedBoots.toNat

theorem length_liveBoots_of_registered {registration : PublisherRegistration}
    (h : registry.registerPublisher registration limits = (after, .ok ()))
    (hunfenced : ∀ existing ∈ registry.liveRegistrations,
      registry.isBootFenced existing.boot = false)
    (hbefore : (Impl.liveBoots registry).length ≤ limits.maxFencedBoots.toNat)
    (hplace : registry.HasPlace limits registration.publisher registration.boot) :
    (Impl.liveBoots after).length ≤ limits.maxFencedBoots.toNat := by
  have hboots := boot_of_registerPublisher h hunfenced
  have hfewer : (registry.otherBoots registration.publisher).length ≤
      (Impl.liveBoots registry).length := List.length_filter_le _ _
  rcases hplace with hheld | hroom
  · refine Nat.le_trans (length_liveBoots_le fun existing hmem => ?_)
      (hfewer.trans hbefore)
    rcases hboots existing hmem with hown | hother
    · rw [hown]
      exact hheld
    · exact hother
  · have hmore := @length_liveBoots_le after
      (registration.boot :: registry.otherBoots registration.publisher)
      fun existing hmem => List.mem_cons.mpr (hboots existing hmem)
    rw [List.length_cons] at hmore
    omega

/-- A registration that is refused makes no registration live. -/
theorem thins_of_refused {registration : PublisherRegistration} {error : Error}
    (h : registry.registerPublisher registration limits = (after, .error error)) :
    registry.Thins after := by
  unfold registerPublisher at h
  split at h
  · cases h
    exact .refl _
  · split at h
    · next hprevious =>
        cases h
        exact thins_of_fencePrevious hprevious
    · next hprevious =>
        split at h
        · cases h
          exact thins_of_fencePrevious hprevious
        · cases h

end AuthorityRegistry

open AuthorityRegistry

/-! ## Events -/

/-- A registration that is saved finds a place for its boot. -/
def FindsPlace (event : Event) : Prop :=
  ∀ context publisher boot scopes session,
    event.input.action = .operate (.registerPublisher context publisher boot scopes session) →
    (event.pre.saved event.input).isSome = true →
    event.pre.impl.authority.HasPlace event.pre.impl.config.limits publisher boot

/-- A registration is refused, and makes no registration live, or is staged. -/
theorem registerPublisher_stage (impl : Impl) (context : AuthorityContext)
    (publisher : PublisherId) (boot : WorkerBootId) (scopes : AuthorityScopeMask)
    (session : SessionId) (call : Call) :
    (∃ after result,
      registerPublisher impl context publisher boot scopes session call =
        .reply after result ∧ impl.authority.Thins after.authority) ∨
    ∃ registration authority next,
      registerPublisher impl context publisher boot scopes session call =
        .write { impl with authority } next false registration ∧
      registration.publisher = publisher ∧ registration.boot = boot ∧
      impl.authority.registerPublisher registration impl.config.limits =
        (authority, .ok ()) := by
  unfold registerPublisher
  split
  · exact .inl ⟨_, _, rfl, .refl _⟩
  · split
    · exact .inl ⟨_, _, rfl, .refl _⟩
    · dsimp only
      split
      · exact .inl ⟨_, _, rfl, .refl _⟩
      · split
        · next hrefused => exact .inl ⟨_, _, rfl, thins_of_refused hrefused⟩
        · next hregistered => exact .inr ⟨_, _, _, rfl, rfl, rfl, hregistered⟩

/-- In memory, the live boots stay within the limit as long as registrations find a place. -/
theorem length_liveBoots_of_taken {event : Event} (htaken : event.Taken step)
    (hmemory : event.pre.impl.durable = false)
    (hunfenced : ∀ existing ∈ event.pre.impl.authority.liveRegistrations,
      event.pre.impl.authority.isBootFenced existing.boot = false)
    (hfinds : FindsPlace event)
    (hbefore : (Impl.liveBoots event.pre.impl.authority).length ≤
      event.pre.impl.config.limits.maxFencedBoots.toNat) :
    (Impl.liveBoots event.post.impl.authority).length ≤
      event.pre.impl.config.limits.maxFencedBoots.toNat := by
  have hfewer : event.pre.impl.authority.Thins event.post.impl.authority →
      (Impl.liveBoots event.post.impl.authority).length ≤
        event.pre.impl.config.limits.maxFencedBoots.toNat :=
    fun hthins => (length_liveBoots_of_thins hthins).trans hbefore
  rcases (section_of_taken htaken).registry with hreplied | hwrote
  · apply hfewer
    generalize event.post.impl.authority = after at hreplied
    generalize event.input.action = action at hreplied
    cases hreplied with
    | observed => exact ⟨List.Sublist.refl _, fun _ _ h => h, rfl⟩
    | refused hrefused => exact thins_of_refused hrefused
    | dropped _ hdropped => exact thins_of_dropSession hdropped
  · by_cases hregisters : ∃ context publisher boot scopes session, event.input.action =
        .operate (.registerPublisher context publisher boot scopes session)
    · obtain ⟨context, publisher, boot, scopes, session, haction⟩ := hregisters
      obtain ⟨pre, ⟨action, call⟩, output, post⟩ := event
      dsimp only at haction
      subst haction
      unfold Event.Taken step at htaken
      simp only [Option.some.injEq, Prod.mk.injEq] at htaken
      obtain ⟨rfl, rfl⟩ := htaken
      have hauthority := ((Operation.registerPublisher context publisher boot scopes
        session).stage pre.impl call).settle_authority call
      rcases registerPublisher_stage pre.impl context publisher boot scopes session call with
        ⟨after, result, hstage, hthins⟩ |
        ⟨registration, authority, next, hstage, hpublisher, hboot, hregistered⟩
      · apply hfewer
        show pre.impl.authority.Thins (Operation.run _ _ _).1.authority
        unfold Operation.run
        rw [hauthority]
        unfold Operation.stage
        dsimp only
        rw [hstage]
        exact hthins
      · have hplace := hfinds context publisher boot scopes session rfl ?_
        · show (Impl.liveBoots (Operation.run _ _ _).1.authority).length ≤ _
          unfold Operation.run
          rw [hauthority]
          unfold Operation.stage
          dsimp only
          rw [hstage]
          subst hpublisher hboot
          exact length_liveBoots_of_registered hregistered hunfenced hbefore hplace
        · unfold SystemState.saved Operation.stage
          dsimp only
          rw [hstage]
          dsimp only [Staged.map, Staged.saved]
          rw [@persist_of_memory { pre.impl with authority } hmemory]
          rfl
    · apply hfewer
      generalize haction : event.input.action = action at hwrote
      generalize event.post.impl.authority = after at hwrote
      cases hwrote with
      | observed => exact ⟨List.Sublist.refl _, fun _ _ h => h, rfl⟩
      | registered => exact absurd ⟨_, _, _, _, _, haction⟩ hregisters
      | fenced hfenced =>
          have hthins := thins_of_fenceBoot hfenced
          exact ⟨hthins.live, hthins.unfenced, hthins.epoch⟩
      | lost _ hfenced hdropped =>
          have hthins := thins_of_fenceBoot hfenced
          rcases hdropped with hdropped | rfl
          · exact hthins.trans (thins_of_dropSession hdropped)
          · exact hthins

end ConstraintRouting.Fabric
