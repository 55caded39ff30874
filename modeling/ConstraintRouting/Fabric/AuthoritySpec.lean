import ConstraintRouting.Fabric.Authority

/-!
# What the authority registry does

How observing an attempt, fencing a boot, registering a publisher and dropping a
session change the registry.
-/

namespace ConstraintRouting.Fabric

open Verified.Checks (seq_eq_ok)

namespace AuthorityRegistry

variable {registry after : AuthorityRegistry} {limits : Limits}

/-- Observing an attempt changes nothing but the window. -/
theorem observeAttempt_ok {attempt : MutationAttemptId} {payload : Digest256}
    {tick : UInt64} {verdict : ReplayVerdict}
    (h : registry.observeAttempt attempt payload tick limits = .ok (after, verdict)) :
    ∃ attempts, after = { registry with attempts } := by
  simp only [observeAttempt, seq_eq_ok] at h
  obtain ⟨-, h⟩ := h
  split at h
  · cases h
    exact ⟨registry.attempts, rfl⟩
  · cases h
    exact ⟨_, rfl⟩

/-- A fresh attempt was not in the window. -/
theorem observeAttempt_fresh {attempt : MutationAttemptId} {payload : Digest256}
    {tick : UInt64}
    (h : registry.observeAttempt attempt payload tick limits = .ok (after, .fresh)) :
    registry.findAttempt attempt = none := by
  simp only [observeAttempt, seq_eq_ok] at h
  cases hfound : registry.findAttempt attempt with
  | none => rfl
  | some record =>
      have hverdict := h.2
      simp only [hfound] at hverdict
      split at hverdict <;> cases hverdict

@[simp] theorem length_retire (selected : PublisherRegistration → Bool)
    (registrations : List PublisherRegistration) :
    (retire selected registrations).length = registrations.length :=
  List.length_map _

/-- Fencing a boot keeps a registry that has fenced it, and otherwise fences it and
retires its registrations. -/
theorem fenceBoot_ok {boot : WorkerBootId} {fencedAt : CoordinatorEpoch} {tick : UInt64}
    (h : registry.fenceBoot boot fencedAt tick limits = .ok after) :
    registry.isBootFenced boot = true ∧ after = registry ∨
      registry.isBootFenced boot = false ∧
        after = { registry with
          fenced := registry.fenced.insert boot ⟨boot, fencedAt, tick⟩
          registrations := retire (·.boot == boot) registry.registrations } := by
  simp only [fenceBoot, seq_eq_ok] at h
  obtain ⟨-, h⟩ := h
  split at h
  · next hfenced =>
      cases h
      exact .inl ⟨hfenced, rfl⟩
  · next hfree =>
      obtain ⟨-, h⟩ := seq_eq_ok.mp h
      cases h
      exact .inr ⟨eq_false_of_ne_true hfree, rfl⟩

/-- A boot that was fenced successfully is fenced. -/
theorem isBootFenced_of_fenceBoot {boot : WorkerBootId} {fencedAt : CoordinatorEpoch}
    {tick : UInt64} (h : registry.fenceBoot boot fencedAt tick limits = .ok after) :
    after.isBootFenced boot = true := by
  rcases fenceBoot_ok h with ⟨hfenced, rfl⟩ | ⟨-, rfl⟩
  · exact hfenced
  · simp [isBootFenced]

theorem epoch_of_fenceBoot {boot : WorkerBootId} {fencedAt : CoordinatorEpoch}
    {tick : UInt64} (h : registry.fenceBoot boot fencedAt tick limits = .ok after) :
    after.epoch = registry.epoch := by
  rcases fenceBoot_ok h with ⟨-, rfl⟩ | ⟨-, rfl⟩ <;> rfl

theorem length_registrations_of_fenceBoot {boot : WorkerBootId}
    {fencedAt : CoordinatorEpoch} {tick : UInt64}
    (h : registry.fenceBoot boot fencedAt tick limits = .ok after) :
    after.registrations.length = registry.registrations.length := by
  rcases fenceBoot_ok h with ⟨-, rfl⟩ | ⟨-, rfl⟩
  · rfl
  · exact length_retire _ _

theorem length_registrations_of_fencePrevious {registration : PublisherRegistration}
    {remaining index : Nat} {status : Status}
    (h : fencePrevious registration limits remaining index registry = (after, status)) :
    after.registrations.length = registry.registrations.length := by
  induction remaining generalizing index registry with
  | zero =>
      cases h
      rfl
  | succ remaining ih =>
      rw [fencePrevious] at h
      split at h
      · cases h
        rfl
      · split at h
        · split at h
          · cases h
            rfl
          · split at h
            · cases h
              rfl
            · next hfenced =>
                rw [ih h, List.length_modify]
                exact length_registrations_of_fenceBoot hfenced
        · exact ih h

/-- Fencing the previous boots of a publisher observes no attempt and keeps the epoch. -/
theorem unobserved_of_fencePrevious {registration : PublisherRegistration}
    {remaining index : Nat} {status : Status}
    (h : fencePrevious registration limits remaining index registry = (after, status)) :
    after.attempts = registry.attempts ∧ after.epoch = registry.epoch := by
  induction remaining generalizing index registry with
  | zero =>
      cases h
      exact ⟨rfl, rfl⟩
  | succ remaining ih =>
      rw [fencePrevious] at h
      split at h
      · cases h
        exact ⟨rfl, rfl⟩
      · split at h
        · split at h
          · cases h
            exact ⟨rfl, rfl⟩
          · split at h
            · cases h
              exact ⟨rfl, rfl⟩
            · next hfenced =>
                obtain ⟨hattempts, hepoch⟩ := ih h
                rcases fenceBoot_ok hfenced with ⟨-, rfl⟩ | ⟨-, rfl⟩
                · exact ⟨hattempts, hepoch⟩
                · exact ⟨hattempts, hepoch⟩
        · exact ih h

/-- A registration observes no attempt and keeps the epoch. -/
theorem unobserved_of_registerPublisher {registration : PublisherRegistration}
    {status : Status} (h : registry.registerPublisher registration limits = (after, status)) :
    after.attempts = registry.attempts ∧ after.epoch = registry.epoch := by
  unfold registerPublisher at h
  split at h
  · cases h
    exact ⟨rfl, rfl⟩
  · split at h
    · next hprevious =>
        cases h
        exact unobserved_of_fencePrevious hprevious
    · next hprevious =>
        have hkept := unobserved_of_fencePrevious hprevious
        split at h
        · cases h
          exact hkept
        · cases h
          exact hkept

/-- A registration adds one entry. -/
theorem length_registrations_of_registerPublisher {registration : PublisherRegistration}
    (h : registry.registerPublisher registration limits = (after, .ok ())) :
    after.registrations.length = registry.registrations.length + 1 := by
  unfold registerPublisher at h
  split at h
  · cases h
  · split at h
    · cases h
    · next hprevious =>
        split at h
        · cases h
        · cases h
          rw [List.length_append, length_registrations_of_fencePrevious hprevious]
          rfl

/-- Dropping a session changes nothing but the registrations. -/
theorem dropSession_ok {session : SessionId} (h : registry.dropSession session = .ok after) :
    ∃ registrations, after = { registry with registrations } := by
  unfold dropSession at h
  dsimp only at h
  split at h
  · cases h
    exact ⟨_, rfl⟩
  · cases h

/-- Retiring a selected live registration changes the registrations. -/
theorem retire_ne {selected : PublisherRegistration → Bool}
    {registrations : List PublisherRegistration} {registration : PublisherRegistration}
    (hmem : registration ∈ registrations) (hselected : selected registration = true)
    (hlive : registration.live = true) : retire selected registrations ≠ registrations := by
  intro hsame
  have hfixed := List.map_inj_left.mp (hsame.trans (List.map_id _).symm) registration hmem
  rw [if_pos hselected] at hfixed
  have hretired : false = registration.live := congrArg PublisherRegistration.live hfixed
  rw [hlive] at hretired
  cases hretired

/-! ## Known boots -/

/-- Each fencing record is of the boot that it is kept under. -/
def Keyed (registry : AuthorityRegistry) : Prop :=
  ∀ (boot : WorkerBootId) (record : FencedBootRecord),
    registry.fenced[boot]? = some record → record.boot = boot

/-- The boot holds a live registration. -/
def Live (registry : AuthorityRegistry) (boot : WorkerBootId) : Prop :=
  ∃ registration ∈ registry.registrations, registration.live = true ∧ registration.boot = boot

/-- The boot is fenced, or holds a live registration. -/
def Known (registry : AuthorityRegistry) (boot : WorkerBootId) : Prop :=
  registry.isBootFenced boot = true ∨ registry.Live boot

/-- What was fenced stays fenced, and what was known stays known. -/
structure Retains (before after : AuthorityRegistry) : Prop where
  fenced : ∀ boot, before.isBootFenced boot = true → after.isBootFenced boot = true
  known : ∀ boot, before.Known boot → after.Known boot
  keyed : before.Keyed → after.Keyed

/-- No boot becomes known that was not. -/
def Rearranges (before after : AuthorityRegistry) : Prop :=
  before.Retains after ∧ ∀ boot, after.Known boot → before.Known boot

theorem Retains.refl (registry : AuthorityRegistry) : registry.Retains registry :=
  ⟨fun _ h => h, fun _ h => h, fun h => h⟩

theorem Retains.trans {before middle : AuthorityRegistry} (h : before.Retains middle)
    (hrest : middle.Retains after) : before.Retains after :=
  ⟨fun boot hfenced => hrest.fenced boot (h.fenced boot hfenced),
   fun boot hknown => hrest.known boot (h.known boot hknown),
   fun hkeyed => hrest.keyed (h.keyed hkeyed)⟩

theorem Rearranges.refl (registry : AuthorityRegistry) : registry.Rearranges registry :=
  ⟨.refl registry, fun _ h => h⟩

theorem Rearranges.trans {before middle : AuthorityRegistry} (h : before.Rearranges middle)
    (hrest : middle.Rearranges after) : before.Rearranges after :=
  ⟨h.1.trans hrest.1, fun boot hknown => h.2 boot (hrest.2 boot hknown)⟩

/-- The window of attempts makes no difference to the boots. -/
theorem rearranges_of_observed (registry : AuthorityRegistry)
    (attempts : List MutationAttemptRecord) :
    registry.Rearranges { registry with attempts } :=
  ⟨⟨fun _ h => h, fun _ h => h, fun h => h⟩, fun _ h => h⟩

/-- A fenced boot may lose its live registrations. -/
theorem rearranges_of_retired {registrations : List PublisherRegistration}
    (hlost : ∀ registration ∈ registry.registrations, registration.live = true →
      registration ∈ registrations ∨ registry.isBootFenced registration.boot = true)
    (hnew : ∀ registration ∈ registrations, registration.live = true →
      registration ∈ registry.registrations) :
    registry.Rearranges { registry with registrations } := by
  refine ⟨⟨fun _ h => h, ?_, fun h => h⟩, ?_⟩
  · intro boot hknown
    rcases hknown with hfenced | ⟨registration, hmem, hlive, rfl⟩
    · exact .inl hfenced
    · rcases hlost registration hmem hlive with hkept | hfenced
      · exact .inr ⟨registration, hkept, hlive, rfl⟩
      · exact .inl hfenced
  · intro boot hknown
    rcases hknown with hfenced | ⟨registration, hmem, hlive, rfl⟩
    · exact .inl hfenced
    · exact .inr ⟨registration, hnew registration hmem hlive, hlive, rfl⟩

/-- A registration that is live after some were retired was live before. -/
theorem mem_of_mem_retire {selected : PublisherRegistration → Bool}
    {registrations : List PublisherRegistration} {registration : PublisherRegistration}
    (hmem : registration ∈ retire selected registrations) (hlive : registration.live = true) :
    registration ∈ registrations := by
  obtain ⟨original, horiginal, hretired⟩ := List.mem_map.mp hmem
  split at hretired
  · rw [← hretired] at hlive
    cases hlive
  · exact hretired ▸ horiginal

/-- A registration that is not selected is not retired. -/
theorem mem_retire_of_mem {selected : PublisherRegistration → Bool}
    {registrations : List PublisherRegistration} {registration : PublisherRegistration}
    (hmem : registration ∈ registrations) (hspared : selected registration = false) :
    registration ∈ retire selected registrations := by
  refine List.mem_map.mpr ⟨registration, hmem, ?_⟩
  rw [hspared]
  rfl

/-- Fencing a boot makes no other boot known, and forgets none. -/
theorem retains_of_fenceBoot {boot : WorkerBootId} {fencedAt : CoordinatorEpoch}
    {tick : UInt64} (h : registry.fenceBoot boot fencedAt tick limits = .ok after) :
    registry.Retains after ∧ ∀ other, after.Known other → registry.Known other ∨ other = boot := by
  rcases fenceBoot_ok h with ⟨-, rfl⟩ | ⟨-, rfl⟩
  · exact ⟨.refl _, fun other hknown => .inl hknown⟩
  · have hmono : ∀ other, registry.isBootFenced other = true →
        (registry.fenced.insert boot ⟨boot, fencedAt, tick⟩).contains other = true := by
      intro other hfenced
      rw [Std.ExtTreeMap.contains_insert, Bool.or_eq_true]
      exact .inr hfenced
    refine ⟨⟨hmono, ?_, ?_⟩, ?_⟩
    · intro other hknown
      rcases hknown with hfenced | ⟨registration, hmem, hlive, rfl⟩
      · exact .inl (hmono other hfenced)
      · by_cases hsame : registration.boot = boot
        · left
          rw [hsame]
          exact Std.ExtTreeMap.contains_insert_self
        · exact .inr ⟨registration, mem_retire_of_mem hmem (beq_eq_false_iff_ne.mpr hsame), hlive, rfl⟩
    · intro hkeyed other record hrecord
      rw [Std.ExtTreeMap.getElem?_insert] at hrecord
      split at hrecord
      · next hsame =>
          cases hrecord
          exact Std.LawfulEqCmp.eq_of_compare hsame
      · exact hkeyed other record hrecord
    · intro other hknown
      rcases hknown with hfenced | ⟨registration, hmem, hlive, rfl⟩
      · rw [isBootFenced, Std.ExtTreeMap.contains_insert, Bool.or_eq_true] at hfenced
        rcases hfenced with hsame | hfenced
        · exact .inr (Std.LawfulEqCmp.eq_of_compare (beq_iff_eq.mp hsame)).symm
        · exact .inl (.inl hfenced)
      · exact .inl (.inr ⟨registration, mem_of_mem_retire hmem hlive, hlive, rfl⟩)

/-- Fencing the boot of a registration leaves one of that boot at its position. -/
theorem boot_of_fenceAt {existing registration : PublisherRegistration} {index : Nat}
    {fencedAt : CoordinatorEpoch} {tick : UInt64}
    (hexisting : registry.registrations[index]? = some existing)
    (h : registry.fenceBoot existing.boot fencedAt tick limits = .ok after)
    (hfound : after.registrations[index]? = some registration) :
    registration.boot = existing.boot := by
  rcases fenceBoot_ok h with ⟨-, rfl⟩ | ⟨-, rfl⟩
  · rw [hexisting] at hfound
    cases hfound
    rfl
  · simp only [retire, List.getElem?_map, hexisting, Option.map_some, Option.some.injEq] at hfound
    rw [← hfound]
    split <;> rfl

/-- Fencing a live boot and then retiring one of its registrations. -/
theorem rearranges_of_fenceAt {existing : PublisherRegistration} {index : Nat}
    {fencedAt : CoordinatorEpoch} {tick : UInt64}
    (hexisting : registry.registrations[index]? = some existing)
    (hlive : existing.live = true)
    (h : registry.fenceBoot existing.boot fencedAt tick limits = .ok after) :
    registry.Rearranges { after with
      registrations := after.registrations.modify index ({ · with live := false }) } := by
  obtain ⟨hretains, hlearned⟩ := retains_of_fenceBoot h
  have hfirst : registry.Rearranges after := by
    refine ⟨hretains, fun other hknown => ?_⟩
    rcases hlearned other hknown with hbefore | rfl
    · exact hbefore
    · exact .inr ⟨existing, List.mem_of_getElem? hexisting, hlive, rfl⟩
  refine hfirst.trans (rearranges_of_retired ?_ ?_)
  · intro registration hmem _
    obtain ⟨position, hposition⟩ := List.mem_iff_getElem?.mp hmem
    by_cases hsame : index = position
    · subst hsame
      rw [boot_of_fenceAt hexisting h hposition]
      exact .inr (isBootFenced_of_fenceBoot h)
    · left
      refine List.mem_iff_getElem?.mpr ⟨position, ?_⟩
      rw [List.getElem?_modify_ne _ _ hsame]
      exact hposition
  · intro registration hmem hlater
    obtain ⟨position, hposition⟩ := List.mem_iff_getElem?.mp hmem
    by_cases hsame : index = position
    · subst hsame
      rw [List.getElem?_modify_eq] at hposition
      obtain ⟨original, -, rfl⟩ := Option.map_eq_some_iff.mp hposition
      cases hlater
    · rw [List.getElem?_modify_ne _ _ hsame] at hposition
      exact List.mem_of_getElem? hposition

/-- Fencing the previous boots of a publisher fences live boots alone. -/
theorem rearranges_of_fencePrevious {registration : PublisherRegistration}
    {remaining index : Nat} {status : Status}
    (h : fencePrevious registration limits remaining index registry = (after, status)) :
    registry.Rearranges after := by
  induction remaining generalizing index registry with
  | zero =>
      cases h
      exact .refl _
  | succ remaining ih =>
      rw [fencePrevious] at h
      split at h
      · cases h
        exact .refl _
      · next existing hexisting =>
          split at h
          · next hprevious =>
              split at h
              · cases h
                exact .refl _
              · split at h
                · cases h
                  exact .refl _
                · next hfenced =>
                    rw [Bool.and_eq_true] at hprevious
                    exact (rearranges_of_fenceAt hexisting hprevious.2 hfenced).trans (ih h)
          · exact ih h

/-- A registration that is refused makes no boot known. -/
theorem rearranges_of_refused {registration : PublisherRegistration} {error : Error}
    (h : registry.registerPublisher registration limits = (after, .error error)) :
    registry.Rearranges after := by
  unfold registerPublisher at h
  split at h
  · cases h
    exact .refl _
  · split at h
    · next hprevious =>
        cases h
        exact rearranges_of_fencePrevious hprevious
    · next hprevious =>
        split at h
        · cases h
          exact rearranges_of_fencePrevious hprevious
        · cases h

theorem retains_of_registerPublisher {registration : PublisherRegistration}
    (h : registry.registerPublisher registration limits = (after, .ok ())) :
    registry.Retains after := by
  unfold registerPublisher at h
  split at h
  · cases h
  · split at h
    · cases h
    · next middle hprevious =>
        split at h
        · cases h
        · cases h
          have hmiddle := (rearranges_of_fencePrevious hprevious).1
          refine hmiddle.trans ⟨fun _ hfenced => hfenced, fun boot hknown => ?_, fun hkeyed => hkeyed⟩
          rcases hknown with hfenced | ⟨existing, hmem, hlive, rfl⟩
          · exact .inl hfenced
          · exact .inr ⟨existing, List.mem_append_left _ hmem, hlive, rfl⟩

/-- Dropping a session forgets the boots that hold live authority in it alone. -/
theorem retained_of_dropSession {session : SessionId}
    (h : registry.dropSession session = .ok after) :
    (∀ boot, after.Known boot → registry.Known boot) ∧ after.fenced = registry.fenced ∧
      ∀ registration ∈ registry.registrations, registration.live = true →
        registration.session ≠ session → after.Known registration.boot := by
  unfold dropSession at h
  dsimp only at h
  split at h
  · cases h
    refine ⟨?_, rfl, ?_⟩
    · intro boot hknown
      rcases hknown with hfenced | ⟨registration, hmem, hlive, rfl⟩
      · exact .inl hfenced
      · exact .inr ⟨registration, mem_of_mem_retire hmem hlive, hlive, rfl⟩
    · intro registration hmem hlive hother
      have hspared : (registration.live && registration.session == session) = false := by
        rw [beq_eq_false_iff_ne.mpr hother, Bool.and_false]
      exact .inr ⟨registration, mem_retire_of_mem hmem hspared, hlive, rfl⟩
  · cases h

end AuthorityRegistry

end ConstraintRouting.Fabric
