import ConstraintRouting.Fabric.Registrations

/-!
# Refused registrations

A publisher that registers again has its previous boots fenced, and only then are the
publisher and session limits checked.  A refusal leaves the registry as it was exactly
when the loop over the previous boots retired nothing.
-/

namespace ConstraintRouting.Fabric

open Verified.Checks (seq_eq_ok failIf_eq_ok)

namespace AuthorityRegistry

variable {registry after : AuthorityRegistry} {limits : Limits}
  {registration existing : PublisherRegistration}

/-! ## What is retired -/

/-- Retiring a live registration leaves fewer of them. -/
theorem length_filter_live_modify {registrations : List PublisherRegistration} {index : Nat}
    (hfound : registrations[index]? = some existing) (hlive : existing.live = true) :
    ((registrations.modify index ({ · with live := false })).filter (·.live)).length <
      (registrations.filter (·.live)).length := by
  induction registrations generalizing index with
  | nil => simp at hfound
  | cons first rest ih =>
      cases index with
      | zero =>
          have hfirst : first = existing := Option.some.inj hfound
          rw [List.modify_zero_cons, List.filter_cons_of_neg (by simp),
            List.filter_cons_of_pos (by rw [hfirst, hlive]), List.length_cons]
          exact Nat.lt_succ_self _
      | succ index =>
          have hrest := ih (show rest[index]? = some existing from hfound)
          rw [List.modify_succ_cons, List.filter_cons, List.filter_cons]
          split
          · rw [List.length_cons, List.length_cons]
            omega
          · exact hrest

/-- Retiring by a test leaves fewer live registrations, where a live one passes it. -/
theorem length_filter_live_retire {registrations : List PublisherRegistration}
    {selected : PublisherRegistration → Bool} (hmem : existing ∈ registrations)
    (hlive : existing.live = true) (hselected : selected existing = true) :
    ((retire selected registrations).filter (·.live)).length <
      (registrations.filter (·.live)).length := by
  rw [filter_live_retire]
  have hsplit : (registrations.filter fun registration =>
      registration.live && !selected registration) =
      (registrations.filter (·.live)).filter fun registration => !selected registration := by
    rw [List.filter_filter]
    congr 1
    funext registration
    exact Bool.and_comm _ _
  rw [hsplit]
  apply List.length_filter_lt_length_iff_exists.mpr
  exact ⟨existing, List.mem_filter.mpr ⟨hmem, hlive⟩, by simp [hselected]⟩

/-- One turn of the loop over the previous boots takes live authority away. -/
theorem length_live_of_fenceAt {fenced : AuthorityRegistry} {fencedAt : CoordinatorEpoch}
    {tick : UInt64} {index : Nat}
    (h : registry.fenceBoot existing.boot fencedAt tick limits = .ok fenced)
    (hfound : registry.registrations[index]? = some existing)
    (hlive : existing.live = true) :
    ({ fenced with registrations :=
        fenced.registrations.modify index ({ · with live := false }) } :
      AuthorityRegistry).liveRegistrations.length < registry.liveRegistrations.length := by
  rcases fenceBoot_ok h with ⟨-, rfl⟩ | ⟨-, rfl⟩
  · exact length_filter_live_modify hfound hlive
  · have hfewer : ((retire (·.boot == existing.boot) registry.registrations).filter
        (·.live)).length < (registry.registrations.filter (·.live)).length :=
      length_filter_live_retire (List.mem_of_getElem? hfound) hlive (beq_self_eq_true _)
    have hsub := filter_live_modify_sublist
      (retire (·.boot == existing.boot) registry.registrations) index
    exact Nat.lt_of_le_of_lt hsub.length_le hfewer

/-! ## The loop over the previous boots -/

/-- A boot that the registry refuses to fence. -/
def RefusesFence (registry : AuthorityRegistry) (boot : WorkerBootId) (limits : Limits) :
    Prop :=
  boot.isValid = false ∨
    registry.isBootFenced boot = false ∧ limits.maxFencedBoots.toNat ≤ registry.fenced.size

theorem fenceBoot_error_iff {boot : WorkerBootId} {fencedAt : CoordinatorEpoch}
    {tick : UInt64} : (∃ error, registry.fenceBoot boot fencedAt tick limits = .error error) ↔
      registry.RefusesFence boot limits := by
  have hok : (∃ after, registry.fenceBoot boot fencedAt tick limits = .ok after) ↔
      boot.isValid = true ∧ (registry.isBootFenced boot = false →
        ¬ limits.maxFencedBoots.toNat ≤ registry.fenced.size) := by
    unfold fenceBoot
    simp only [seq_eq_ok, failIf_eq_ok]
    by_cases hfenced : registry.isBootFenced boot = true
    · simp [hfenced, pure, Except.pure]
    · simp [hfenced, seq_eq_ok, failIf_eq_ok, pure, Except.pure]
  have hsplit : (∃ error, registry.fenceBoot boot fencedAt tick limits = .error error) ↔
      ¬ ∃ after, registry.fenceBoot boot fencedAt tick limits = .ok after := by
    cases registry.fenceBoot boot fencedAt tick limits <;> simp
  rw [hsplit, hok]
  unfold RefusesFence
  cases boot.isValid <;> simp

/-- The live registrations of the publisher that registers. -/
def previousOf (registration existing : PublisherRegistration) : Bool :=
  existing.publisher == registration.publisher && existing.live

/-- The loop stops at a live registration of the publisher, before it retires it. -/
def StopsAt (registry : AuthorityRegistry) (registration : PublisherRegistration)
    (limits : Limits) (existing : PublisherRegistration) : Prop :=
  existing.boot = registration.boot ∨ registry.RefusesFence existing.boot limits

/-- A loop that finds nothing of the publisher, or stops where it finds the first. -/
theorem fencePrevious_unchanged {remaining index : Nat}
    (hstops : ∀ existing ∈ (registry.registrations.drop index).find? (previousOf registration),
      registry.StopsAt registration limits existing) :
    (fencePrevious registration limits remaining index registry).1 = registry := by
  induction remaining generalizing index with
  | zero => rfl
  | succ remaining ih =>
      rw [fencePrevious]
      cases hfound : registry.registrations[index]? with
      | none => rfl
      | some first =>
          have hdrop : registry.registrations.drop index =
              first :: registry.registrations.drop (index + 1) := by
            obtain ⟨hlt, rfl⟩ := List.getElem?_eq_some_iff.mp hfound
            exact List.drop_eq_getElem_cons hlt
          rw [hdrop, List.find?_cons] at hstops
          by_cases hprevious : previousOf registration first = true
          · rw [hprevious] at hstops
            have hfirst := hstops first rfl
            unfold previousOf at hprevious
            dsimp only
            rw [if_pos hprevious]
            by_cases hboot : first.boot = registration.boot
            · rw [if_pos (beq_iff_eq.mpr hboot)]
            · rw [if_neg (by simpa using hboot)]
              obtain ⟨error, herror⟩ := fenceBoot_error_iff.mpr (hfirst.resolve_left hboot)
              rw [herror]
          · have hother := eq_false_of_ne_true hprevious
            rw [hother] at hstops
            unfold previousOf at hother
            dsimp only
            rw [if_neg (by simp [hother])]
            exact ih hstops

/-- A loop that goes past the first takes live authority away. -/
theorem fencePrevious_fewer {remaining index : Nat}
    (hfound : (registry.registrations.drop index).find? (previousOf registration) =
      some existing)
    (hpasses : ¬ registry.StopsAt registration limits existing)
    (hlength : registry.registrations.length ≤ index + remaining) :
    (fencePrevious registration limits remaining index registry).1.liveRegistrations.length <
      registry.liveRegistrations.length := by
  induction remaining generalizing index with
  | zero =>
      rw [List.drop_eq_nil_of_le (by omega)] at hfound
      cases hfound
  | succ remaining ih =>
      rw [fencePrevious]
      cases hentry : registry.registrations[index]? with
      | none =>
          rw [List.drop_eq_nil_of_le (List.getElem?_eq_none_iff.mp hentry)] at hfound
          cases hfound
      | some first =>
          have hdrop : registry.registrations.drop index =
              first :: registry.registrations.drop (index + 1) := by
            obtain ⟨hlt, rfl⟩ := List.getElem?_eq_some_iff.mp hentry
            exact List.drop_eq_getElem_cons hlt
          rw [hdrop, List.find?_cons] at hfound
          by_cases hprevious : previousOf registration first = true
          · rw [hprevious] at hfound
            have hsame : first = existing := Option.some.inj hfound
            subst hsame
            have hlive : first.live = true := (Bool.and_eq_true _ _ ▸ hprevious).2
            unfold previousOf at hprevious
            dsimp only
            rw [if_pos hprevious]
            have hboot : first.boot ≠ registration.boot := fun h => hpasses (.inl h)
            rw [if_neg (by simpa using hboot)]
            cases hfenced : registry.fenceBoot first.boot registry.epoch
                registration.registeredTick limits with
            | error error =>
                exact absurd (.inr (fenceBoot_error_iff.mp ⟨error, hfenced⟩)) hpasses
            | ok fenced =>
                -- The turns that follow take no authority back.
                have hturn := length_live_of_fenceAt hfenced hentry hlive
                refine Nat.lt_of_le_of_lt (List.Sublist.length_le (Thins.live ?_)) hturn
                exact thins_of_fencePrevious rfl
          · have hother := eq_false_of_ne_true hprevious
            rw [hother] at hfound
            unfold previousOf at hother
            dsimp only
            rw [if_neg (by simp [hother])]
            exact ih hfound (by omega)

/-! ## Registrations that are refused -/

/-- No boot is fenced before the request is refused: it is not admitted, or the publisher's
first live registration, if it has one, stops the loop. -/
def SparesPrevious (registry : AuthorityRegistry) (registration : PublisherRegistration)
    (limits : Limits) : Prop :=
  (∃ error, registry.admitRegistration registration = .error error) ∨
    ∀ existing ∈ registry.registrations.find? (previousOf registration),
      registry.StopsAt registration limits existing

/-- A refused request leaves what the loop over the previous boots left. -/
theorem registerPublisher_refused {error : Error}
    (h : registry.registerPublisher registration limits = (after, .error error))
    (hadmitted : registry.admitRegistration registration = .ok ()) :
    after = (fencePrevious registration limits registry.registrations.length 0 registry).1 := by
  unfold registerPublisher at h
  rw [hadmitted] at h
  dsimp only at h
  split at h
  · next fenced why hloop =>
      rw [hloop]
      exact (congrArg Prod.fst h).symm
  · next fenced hloop =>
      rw [hloop]
      split at h
      · exact (congrArg Prod.fst h).symm
      · cases congrArg Prod.snd h

/-- A refused registration changes nothing, and costs nobody's live authority, exactly when
it is refused before a previous boot of the publisher is fenced. -/
theorem refused_registration_unchanged_iff {error : Error}
    (h : registry.registerPublisher registration limits = (after, .error error)) :
    (after = registry ↔ registry.SparesPrevious registration limits) ∧
      (after.liveRegistrations = registry.liveRegistrations ↔
        registry.SparesPrevious registration limits) := by
  have hkept : registry.SparesPrevious registration limits → after = registry := by
    intro hspares
    cases hadmitted : registry.admitRegistration registration with
    | error why =>
        unfold registerPublisher at h
        rw [hadmitted] at h
        exact (congrArg Prod.fst h).symm
    | ok passed =>
        have hstops := hspares.resolve_left (by simp [hadmitted])
        rw [registerPublisher_refused h hadmitted]
        exact fencePrevious_unchanged hstops
  have hfewer : ¬ registry.SparesPrevious registration limits →
      after.liveRegistrations.length < registry.liveRegistrations.length := by
    intro hspares
    simp only [SparesPrevious, not_or, not_exists, not_forall] at hspares
    obtain ⟨hadmits, existing, hfound, hpasses⟩ := hspares
    have hadmitted : registry.admitRegistration registration = .ok () := by
      cases hadmission : registry.admitRegistration registration with
      | error why => exact absurd hadmission (hadmits why)
      | ok passed => rfl
    rw [registerPublisher_refused h hadmitted]
    exact fencePrevious_fewer hfound hpasses (by omega)
  refine ⟨⟨?_, hkept⟩, ⟨?_, fun hspares => by rw [hkept hspares]⟩⟩
  · intro hsame
    by_contra hspares
    have hless := hfewer hspares
    rw [hsame] at hless
    exact absurd hless (Nat.lt_irrefl _)
  · intro hsame
    by_contra hspares
    have hless := hfewer hspares
    rw [hsame] at hless
    exact absurd hless (Nat.lt_irrefl _)

/-- A registration of the first epoch. -/
def sampleEnrolment (publisher boot session : UInt64) : PublisherRegistration :=
  { publisher := ⟨publisher⟩, boot := ⟨boot⟩, session := ⟨session⟩, scopes := 127,
    registeredAt := ⟨1⟩, live := true }

/-- Two publishers that registered on the only session there may be. -/
def sampleCompanions : AuthorityRegistry :=
  [sampleEnrolment 1 11 7, sampleEnrolment 2 12 7].foldl
    (fun registry registration =>
      (registry.registerPublisher registration { maxSessions := 1 }).1)
    { epoch := ⟨1⟩ }

private theorem sampleCompanions_refused :
    let reply := sampleCompanions.registerPublisher (sampleEnrolment 1 13 8) { maxSessions := 1 }
    reply.2 = .error ⟨.resourceLimit, "session limit reached"⟩ ∧
      sampleEnrolment 1 11 7 ∈ sampleCompanions.liveRegistrations ∧
      sampleEnrolment 1 11 7 ∉ reply.1.liveRegistrations ∧
      sampleCompanions.isBootFenced ⟨11⟩ = false ∧ reply.1.isBootFenced ⟨11⟩ = true := by
  decide +kernel

/-- The first of them is refused another session, after the boot it had was fenced. -/
theorem refused_registration_fences :
    ∃ after, sampleCompanions.registerPublisher (sampleEnrolment 1 13 8) { maxSessions := 1 } =
        (after, .error ⟨.resourceLimit, "session limit reached"⟩) ∧
      after ≠ sampleCompanions ∧
      sampleEnrolment 1 11 7 ∈ sampleCompanions.liveRegistrations ∧
      sampleEnrolment 1 11 7 ∉ after.liveRegistrations ∧
      sampleCompanions.isBootFenced ⟨11⟩ = false ∧ after.isBootFenced ⟨11⟩ = true := by
  have hcheck := sampleCompanions_refused
  generalize sampleCompanions.registerPublisher _ _ = reply at hcheck ⊢
  obtain ⟨after, status⟩ := reply
  obtain ⟨hrefused, hlive, hretired, hfree, hfenced⟩ := hcheck
  have hchanged : after ≠ sampleCompanions := by
    intro hsame
    rw [hsame] at hretired
    exact hretired hlive
  exact ⟨after, Prod.ext rfl hrefused, hchanged, hlive, hretired, hfree, hfenced⟩

private theorem sampleCompanions_repeated :
    (sampleCompanions.registerPublisher (sampleEnrolment 1 11 7) { maxSessions := 1 }).2 =
      .error ⟨.duplicateIdentity, "the same publisher and boot is already registered"⟩ := by
  decide +kernel

theorem refused_registration_unchanged_iff_sample :
    ∃ after, sampleCompanions.registerPublisher (sampleEnrolment 1 11 7) { maxSessions := 1 } =
        (after, .error
          ⟨.duplicateIdentity, "the same publisher and boot is already registered"⟩) ∧
      (after = sampleCompanions ↔
        sampleCompanions.SparesPrevious (sampleEnrolment 1 11 7) { maxSessions := 1 }) := by
  have hrepeated := sampleCompanions_repeated
  cases hreply : sampleCompanions.registerPublisher (sampleEnrolment 1 11 7)
      { maxSessions := 1 } with
  | mk after status =>
      rw [hreply] at hrepeated
      have hrefused : status = .error _ := hrepeated
      subst hrefused
      exact ⟨after, rfl, (refused_registration_unchanged_iff hreply).1⟩

end AuthorityRegistry

end ConstraintRouting.Fabric
