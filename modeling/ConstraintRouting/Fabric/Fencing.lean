import ConstraintRouting.Fabric.Lifetimes

/-!
# Fenced boots over a lifetime

A restart fences every boot that its store file names, as fenced or as live.  The file
names each boot that is known, as long as no request takes the last live registration of
a boot away without fencing it.
-/

namespace ConstraintRouting.Fabric

open Verified.StepMachine
open Verified.Checks (seq_eq_ok isOk)
open Verified.KeyedTables (fill getElem?_fill values_eq_map_toList)

/-! ## Barred boots -/

/-- The boot can neither act nor register. -/
structure Barred (impl : Impl) (boot : WorkerBootId) : Prop where
  unauthorized : ∀ context required, context.workerBoot = boot →
    impl.authority.authorize context required ≠ .ok ()
  unregistered : ∀ context publisher scopes session call value,
    ((Operation.registerPublisher context publisher boot scopes session).run impl call).2 ≠
      .ok value

/-- A registry refuses a boot that it has fenced. -/
theorem AuthorityRegistry.registerPublisher_ne_ok {registry after : AuthorityRegistry}
    {registration : PublisherRegistration} {limits : Limits}
    (hfenced : registry.isBootFenced registration.boot = true) :
    registry.registerPublisher registration limits ≠ (after, .ok ()) := by
  intro h
  unfold registerPublisher at h
  split at h
  · cases h
  · next hadmitted =>
      simp only [admitRegistration, seq_eq_ok, failIf_eq_ok, hfenced] at hadmitted
      obtain ⟨-, -, -, -, hfree, -⟩ := hadmitted
      cases hfree

/-- A fenced boot is barred. -/
theorem barred_of_fenced {impl : Impl} {boot : WorkerBootId}
    (hfenced : impl.authority.isBootFenced boot = true) : Barred impl boot := by
  constructor
  · rintro context required rfl h
    simp only [AuthorityRegistry.authorize, seq_eq_ok, failIf_eq_ok, hfenced] at h
    obtain ⟨-, -, hfree, -⟩ := h
    cases hfree
  · intro context publisher scopes session call value h
    unfold Operation.run Operation.stage Fabric.registerPublisher at h
    dsimp only at h
    split at h
    · cases h
    · split at h
      · cases h
      · split at h
        · cases h
        · split at h
          · cases h
          · next hregistered =>
              exact AuthorityRegistry.registerPublisher_ne_ok hfenced hregistered

/-! ## Requests that keep the boots known -/

/-- The boot holds live authority, and in no other session. -/
def AuthorityRegistry.Confined (registry : AuthorityRegistry) (session : SessionId)
    (boot : WorkerBootId) : Prop :=
  registry.Live boot ∧ ∀ registration ∈ registry.registrations, registration.live = true →
    registration.boot = boot → registration.session = session

/-- The action takes no boot's last live registration away without fencing the boot. -/
structure RetainsBoots (impl : Impl) (action : Action) : Prop where
  dropped : ∀ context session boot, action = .operate (.dropSession context session) →
    impl.authority.authorize context (scopeBit .administerFencing) = .ok () →
    ¬ impl.authority.Confined session boot
  lost : ∀ session owner tick fenced boot, action = .operate (.fenceOnSessionLoss session) →
    impl.authority.bootOfSession session = some owner →
    impl.authority.fenceBoot owner impl.authority.epoch tick impl.config.limits =
      .ok fenced →
    impl.authority.Confined session boot → boot = owner

/-- What the event serves takes no boot's last live registration away without fencing
the boot. -/
def KeepsBoots (event : LifeEvent) : Prop :=
  ∀ input, event.input = .serve input → RetainsBoots event.pre.impl input.action

/-- Durable writes succeed, and a restart loads the file that was written. -/
structure Undamaged (event : LifeEvent) : Prop where
  written : ∀ served, Serving event served → ¬ WriteFails served
  reloads : Reloads event

/-- A live boot that is not confined to a session is live in another one. -/
theorem AuthorityRegistry.exists_of_not_confined {registry : AuthorityRegistry}
    {session : SessionId} {boot : WorkerBootId} (hlive : registry.Live boot)
    (h : ¬ registry.Confined session boot) :
    ∃ registration ∈ registry.registrations, registration.live = true ∧
      registration.boot = boot ∧ registration.session ≠ session := by
  by_contra hnone
  refine h ⟨hlive, fun registration hmem hregistered hboot => ?_⟩
  by_contra hother
  exact hnone ⟨registration, hmem, hregistered, hboot, hother⟩

/-- Fencing a boot leaves the registrations of the others. -/
theorem AuthorityRegistry.mem_of_fenceBoot {registry after : AuthorityRegistry}
    {boot : WorkerBootId} {fencedAt : CoordinatorEpoch} {tick : UInt64} {limits : Limits}
    (h : registry.fenceBoot boot fencedAt tick limits = .ok after)
    {registration : PublisherRegistration} (hmem : registration ∈ registry.registrations)
    (hother : registration.boot ≠ boot) : registration ∈ after.registrations := by
  rcases fenceBoot_ok h with ⟨-, rfl⟩ | ⟨-, rfl⟩
  · exact hmem
  · exact mem_retire_of_mem hmem (beq_eq_false_iff_ne.mpr hother)

theorem Replied.rearranges {impl : Impl} {action : Action} {after : AuthorityRegistry}
    (h : Replied impl action after) (hkeeps : RetainsBoots impl action) :
    impl.authority.Rearranges after := by
  cases h with
  | observed => exact impl.authority.rearranges_of_observed _
  | refused hrefused => exact AuthorityRegistry.rearranges_of_refused hrefused
  | @dropped context session _ hauthorized hdropped =>
      obtain ⟨hlearned, hfenced, hspared⟩ := AuthorityRegistry.retained_of_dropSession hdropped
      have hsame : ∀ boot, after.isBootFenced boot = impl.authority.isBootFenced boot := by
        intro boot
        unfold AuthorityRegistry.isBootFenced
        rw [hfenced]
      refine ⟨⟨fun boot h => (hsame boot).trans h, ?_, fun hkeyed => ?_⟩, hlearned⟩
      · intro boot hknown
        rcases hknown with hbefore | hlive
        · exact .inl ((hsame boot).trans hbefore)
        · obtain ⟨registration, hmem, hregistered, rfl, hother⟩ :=
            AuthorityRegistry.exists_of_not_confined hlive
              (hkeeps.dropped context session boot rfl hauthorized)
          exact hspared registration hmem hregistered hother
      · unfold AuthorityRegistry.Keyed
        rw [hfenced]
        exact hkeyed

theorem Wrote.retains {impl : Impl} {action : Action} {after : AuthorityRegistry}
    (h : Wrote impl action after) (hkeeps : RetainsBoots impl action) :
    impl.authority.Retains after := by
  cases h with
  | observed => exact (impl.authority.rearranges_of_observed _).1
  | registered _ hregistered => exact AuthorityRegistry.retains_of_registerPublisher hregistered
  | @fenced _ boot _ attempts _ hfenced =>
      have hobserved := (impl.authority.rearranges_of_observed attempts).1
      exact hobserved.trans (AuthorityRegistry.retains_of_fenceBoot hfenced).1
  | @lost session owner tick fenced _ howner hfenced hdropped =>
      have hretains := (AuthorityRegistry.retains_of_fenceBoot hfenced).1
      rcases hdropped with hdropped | rfl
      · obtain ⟨-, hsame, hspared⟩ := AuthorityRegistry.retained_of_dropSession hdropped
        have hfences : ∀ boot, fenced.isBootFenced boot = true → after.isBootFenced boot = true := by
          intro boot h
          unfold AuthorityRegistry.isBootFenced at h ⊢
          rw [hsame]
          exact h
        refine ⟨fun boot h => hfences boot (hretains.fenced boot h), ?_, fun hkeyed => ?_⟩
        · intro boot hknown
          rcases hknown with hbefore | hlive
          · exact .inl (hfences boot (hretains.fenced boot hbefore))
          · by_cases hboot : boot = owner
            · subst hboot
              exact .inl (hfences boot (AuthorityRegistry.isBootFenced_of_fenceBoot hfenced))
            · have hspread : ¬ impl.authority.Confined session boot := fun hconfined =>
                hboot (hkeeps.lost session owner tick fenced boot rfl howner hfenced hconfined)
              obtain ⟨registration, hmem, hregistered, rfl, hother⟩ :=
                AuthorityRegistry.exists_of_not_confined hlive hspread
              have hleft := AuthorityRegistry.mem_of_fenceBoot hfenced hmem hboot
              exact hspared registration hleft hregistered hother
        · unfold AuthorityRegistry.Keyed
          rw [hsame]
          exact hretains.keyed hkeyed
      · exact hretains

/-! ## What a restart fences -/

/-- A restored registry holds the records of its valid boots, each under its own boot. -/
theorem AuthorityRegistry.restoreDurableState_fill (epoch : CoordinatorEpoch)
    (records : List FencedBootRecord) :
    (restoreDurableState epoch records).fenced =
      fill FencedBootRecord.boot (records.filter (·.boot.isValid)) := by
  unfold restoreDurableState fill
  rw [List.foldl_filter]

/-- A restored registry has fenced the valid boots of its records, each under its own
record. -/
theorem AuthorityRegistry.restoreDurableState_fenced (epoch : CoordinatorEpoch)
    (records : List FencedBootRecord) :
    (restoreDurableState epoch records).Keyed ∧
      ∀ record ∈ records, record.boot.isValid = true →
        (restoreDurableState epoch records).isBootFenced record.boot = true := by
  constructor
  · intro boot record hrecord
    rw [restoreDurableState_fill, getElem?_fill] at hrecord
    have hboot : (record.boot == boot) = true :=
      List.find?_some (p := fun record : FencedBootRecord => record.boot == boot) hrecord
    exact beq_iff_eq.mp hboot
  · intro record hmem hvalid
    rw [isBootFenced, Std.ExtTreeMap.contains_eq_isSome_getElem?, restoreDurableState_fill,
      getElem?_fill, List.find?_isSome]
    exact ⟨record, List.mem_filter.mpr ⟨hmem, hvalid⟩, beq_self_eq_true _⟩

/-- The boots that the state names, as fenced or as live. -/
def PersistentState.Names (state : PersistentState) (boot : WorkerBootId) : Prop :=
  boot ∈ state.fencedBoots.map (·.boot) ∨ boot ∈ state.liveBoots

/-- The fenced boots of a restored state hold every boot that the state names. -/
theorem mem_restoredFencedBoots {state : PersistentState} {boot : WorkerBootId}
    (clock : Nat → UInt64) (h : state.Names boot) :
    boot ∈ (restoredFencedBoots state clock).map (·.boot) := by
  unfold restoredFencedBoots
  dsimp only
  rw [List.map_append, List.mem_append]
  by_cases hfenced : boot ∈ state.fencedBoots.map (·.boot)
  · exact .inl hfenced
  · have hlive : boot ∈ state.liveBoots := h.resolve_left hfenced
    have hadded : boot ∈ (state.liveBoots.filter fun boot =>
        !state.fencedBoots.any (·.boot == boot)).eraseDups := by
      rw [List.mem_eraseDups, List.mem_filter]
      refine ⟨hlive, ?_⟩
      rw [Bool.not_eq_true', List.any_eq_false]
      intro record hmem hsame
      exact hfenced (List.mem_map.mpr ⟨record, hmem, beq_iff_eq.mp hsame⟩)
    obtain ⟨position, hposition⟩ := List.mem_iff_getElem?.mp hadded
    right
    refine List.mem_map.mpr ⟨⟨boot, state.epoch, clock position⟩, ?_, rfl⟩
    refine List.mem_iff_getElem?.mpr ⟨position, ?_⟩
    rw [List.getElem?_mapIdx, hposition]
    rfl

theorem AuthorityRegistry.establishEpoch_ok {registry after : AuthorityRegistry}
    {epoch : CoordinatorEpoch} (h : registry.establishEpoch epoch = .ok after) :
    epoch.isValid = true ∧ after = { registry with epoch } := by
  simp only [establishEpoch, seq_eq_ok, failIf_eq_ok, Bool.not_eq_false'] at h
  obtain ⟨hvalid, -, h⟩ := h
  cases h
  exact ⟨hvalid, rfl⟩

/-- The next incarnation of a state with an epoch starts from its fenced boots. -/
theorem nextIncarnation_restored {state : PersistentState} {clock : Nat → UInt64}
    {authority : AuthorityRegistry} (hvalid : state.epoch.isValid = true)
    (h : nextIncarnation (some state) clock = .ok authority) :
    ∃ epoch, (AuthorityRegistry.restoreDurableState state.epoch
      (restoredFencedBoots state clock)).establishEpoch epoch = .ok authority := by
  unfold nextIncarnation at h
  simp only [hvalid, Bool.not_true, Bool.false_eq_true, if_false] at h
  split at h
  · cases h
  · next epoch _ => exact ⟨epoch, h⟩

/-- The next incarnation has an epoch, and its registry is in order. -/
theorem nextIncarnation_keyed {restored : Option PersistentState} {clock : Nat → UInt64}
    {authority : AuthorityRegistry} (h : nextIncarnation restored clock = .ok authority) :
    authority.Keyed ∧ authority.epoch.isValid = true := by
  have hfresh : ∀ {after}, AuthorityRegistry.establishEpoch {} ⟨1⟩ = .ok after →
      after.Keyed ∧ after.epoch.isValid = true := by
    intro after h
    obtain ⟨hvalid, rfl⟩ := AuthorityRegistry.establishEpoch_ok h
    refine ⟨fun boot record hrecord => ?_, hvalid⟩
    rw [Std.ExtTreeMap.getElem?_empty] at hrecord
    cases hrecord
  cases restored with
  | none => exact hfresh h
  | some state =>
      by_cases hvalid : state.epoch.isValid = true
      · obtain ⟨epoch, hnext⟩ := nextIncarnation_restored hvalid h
        obtain ⟨hepoch, rfl⟩ := AuthorityRegistry.establishEpoch_ok hnext
        exact ⟨(AuthorityRegistry.restoreDurableState_fenced _ _).1, hepoch⟩
      · refine hfresh ?_
        rw [← h]
        simp [nextIncarnation, hvalid]

/-- The next incarnation has fenced every valid boot that the restored state names. -/
theorem nextIncarnation_fenced {state : PersistentState} {clock : Nat → UInt64}
    {authority : AuthorityRegistry} (hvalid : state.epoch.isValid = true)
    (h : nextIncarnation (some state) clock = .ok authority) {boot : WorkerBootId}
    (hnamed : state.Names boot) (hboot : boot.isValid = true) :
    authority.isBootFenced boot = true := by
  obtain ⟨epoch, hnext⟩ := nextIncarnation_restored hvalid h
  obtain ⟨-, rfl⟩ := AuthorityRegistry.establishEpoch_ok hnext
  obtain ⟨record, hmem, rfl⟩ := List.mem_map.mp (mem_restoredFencedBoots clock hnamed)
  exact (AuthorityRegistry.restoreDurableState_fenced _ _).2 record hmem hboot

/-! ## Lifetimes -/

/-- The store file names every boot that is known. -/
structure Covered (state : SystemState) : Prop where
  keyed : state.impl.authority.Keyed
  epoch : state.impl.authority.epoch.isValid = true
  names : state.impl.durable = true → ∃ written, Mirrors state.impl written ∧
    ∀ boot, state.impl.authority.Known boot → written.Names boot

/-- A state that projects a registry names the boots that are known to it. -/
theorem Projects.names {impl : Impl} {state : PersistentState} (h : Projects impl state)
    (hkeyed : impl.authority.Keyed) {boot : WorkerBootId} (hknown : impl.authority.Known boot) :
    state.Names boot := by
  rcases hknown with hfenced | ⟨registration, hmem, hlive, rfl⟩
  · left
    rw [h.fencedBoots]
    have hrecord : ∃ record, impl.authority.fenced[boot]? = some record := by
      rw [AuthorityRegistry.isBootFenced, Std.ExtTreeMap.contains_eq_isSome_getElem?] at hfenced
      exact Option.isSome_iff_exists.mp hfenced
    obtain ⟨record, hrecord⟩ := hrecord
    refine List.mem_map.mpr ⟨record, ?_, hkeyed boot record hrecord⟩
    rw [values_eq_map_toList]
    exact List.mem_map.mpr
      ⟨(boot, record), Std.ExtTreeMap.mem_toList_iff_getElem?_eq_some.mpr hrecord, rfl⟩
  · right
    rw [h.liveBoots, Impl.liveBoots, List.mem_eraseDups]
    exact List.mem_map.mpr ⟨registration, List.mem_filter.mpr ⟨hmem, hlive⟩, rfl⟩

theorem Opened.covered {state : SystemState} (h : Opened state) : Covered state := by
  cases h with
  | opened hopened =>
      obtain ⟨restored, authority, -, hauthority, hrecovered, hmirrors⟩ :=
        openCoordinator_recovered hopened
      obtain ⟨hkeyed, hepoch⟩ := nextIncarnation_keyed hauthority
      rw [← hrecovered.registry] at hkeyed hepoch
      refine ⟨hkeyed, hepoch, fun hdurable => ?_⟩
      obtain ⟨hmirror, hprojects⟩ := hmirrors hdurable
      exact ⟨_, hmirror, fun boot hknown => hprojects.names hkeyed hknown⟩

/-- The boots that were known stay known in the same epoch, or are fenced in the next. -/
inductive Carried (before after : AuthorityRegistry) : Prop
  | retained : before.Retains after → after.epoch = before.epoch → Carried before after
  | fenced : (∀ boot, before.Known boot → after.isBootFenced boot = true) → Carried before after

/-- A critical section keeps the known boots named in the store file. -/
theorem Covered.served {event : LifeEvent} {served : Event} (hserving : Serving event served)
    (htaken : served.Taken step) (hsound : LifeSound event.pre) (h : Covered event.pre)
    (hundamaged : Undamaged event) (hkeeps : KeepsBoots event) :
    Covered event.post ∧ Carried event.pre.impl.authority event.post.impl.authority := by
  have hretains := hkeeps served.input hserving.input
  have hwritten := hundamaged.written served hserving
  rw [hserving.pre] at h hsound hretains ⊢
  rw [hserving.post]
  have hsection := section_of_taken htaken
  have hmoved : served.pre.impl.authority.Retains served.post.impl.authority ∧
      served.post.impl.authority.epoch = served.pre.impl.authority.epoch := by
    rcases hsection.registry with hreplied | hwrote
    · exact ⟨(hreplied.rearranges hretains).1, hreplied.epoch⟩
    · exact ⟨hwrote.retains hretains, hwrote.epoch⟩
  obtain ⟨hkept, hepoch⟩ := hmoved
  have hkeyed := hkept.keyed h.keyed
  refine ⟨⟨hkeyed, hepoch ▸ h.epoch, fun hdurable => ?_⟩, .retained hkept hepoch⟩
  have hbefore : served.pre.impl.durable = true := by
    rw [← ((step_transition hsound.limits htaken).impl_kept hsound.derived).2.1]
    exact hdurable
  obtain ⟨written, hmirrors, hnames⟩ := h.names hbefore
  rcases hsection.mirrors hsound.toSound hbefore hmirrors with
    ⟨hsame, hreplied | hfails⟩ | ⟨next, hnext, hprojects⟩
  · exact ⟨written, hsame, fun boot hknown =>
      hnames boot ((hreplied.rearranges hretains).2 boot hknown)⟩
  · exact absurd hfails hwritten
  · exact ⟨next, hnext, fun boot hknown => hprojects.names hkeyed hknown⟩

/-- A restart that loads its file fences the boots that were known. -/
theorem Covered.restarted {event : LifeEvent} {config : CoordinatorConfig} {call : Call}
    (hrestarting : Restarting event config call) (hsound : LifeSound event.pre)
    (h : Covered event.pre) (hreloads : Reloads event) :
    Covered event.post ∧ Carried event.pre.impl.authority event.post.impl.authority := by
  refine ⟨hrestarting.opens.covered, .fenced fun boot hknown => ?_⟩
  have hpath := (hreloads config call hrestarting.input).1
  have hdurable : event.pre.impl.durable = true := by
    rw [hsound.durability, ← hrestarting.path]
    exact bne_iff_ne.mpr hpath
  obtain ⟨written, hmirrors, hnames⟩ := h.names hdurable
  obtain ⟨authority, hauthority, hrecovered, -⟩ := hrestarting.reloaded hreloads hmirrors.toSaved
  have hvalid : written.stored.epoch.isValid = true := by
    have hepoch : written.stored.epoch = event.pre.impl.authority.epoch := hmirrors.epoch
    rw [hepoch]
    exact h.epoch
  have hboot : boot.isValid = true := by
    rcases hnames boot hknown with hfenced | hlive
    · obtain ⟨record, hmem, rfl⟩ := List.mem_map.mp hfenced
      exact hmirrors.valid.fenced record hmem
    · exact hmirrors.valid.live boot hlive
  have hnamed : written.stored.Names boot := hnames boot hknown
  rw [hrecovered.registry]
  exact nextIncarnation_fenced hvalid hauthority hnamed hboot

theorem Covered.turned {event : LifeEvent} (htaken : event.Taken turn)
    (hsound : LifeSound event.pre) (h : Covered event.pre) (hundamaged : Undamaged event)
    (hkeeps : KeepsBoots event) :
    Covered event.post ∧ Carried event.pre.impl.authority event.post.impl.authority := by
  rcases turn_cases htaken with ⟨served, hserving, hstep⟩ | ⟨config, call, hrestarting⟩
  · exact h.served hserving hstep hsound hundamaged hkeeps
  · exact h.restarted hrestarting hsound hundamaged.reloads

/-- Along a run a boot that is known stays known, and is fenced from the next epoch on. -/
theorem carried_of_run {start last : SystemState} {events : List LifeEvent}
    (hrun : Run turn start events last) (hsound : LifeSound start) (hcovered : Covered start)
    (hkept : ∀ event ∈ events, Undamaged event ∧ KeepsBoots event) :
    Carried start.impl.authority last.impl.authority := by
  have hinvariant : LifeSound last ∧ Covered last ∧
      Carried start.impl.authority last.impl.authority := by
    refine @Run.invariant _ _ _ _ _ _ _ (fun state => LifeSound state ∧ Covered state ∧
      Carried start.impl.authority state.impl.authority) hrun
      ⟨hsound, hcovered, .retained (.refl _) rfl⟩ ?_
    intro event hmem htaken hbefore
    obtain ⟨hpre, hnamed, hcarried⟩ := hbefore
    obtain ⟨hundamaged, hkeeps⟩ := hkept event hmem
    obtain ⟨hpost, hmoved⟩ := hnamed.turned htaken hpre hundamaged hkeeps
    refine ⟨hpre.turned htaken, hpost, ?_⟩
    cases hcarried with
    | retained hearlier hepoch =>
        cases hmoved with
        | retained hlater hsame => exact .retained (hearlier.trans hlater) (hsame.trans hepoch)
        | fenced hfences => exact .fenced fun boot hknown => hfences boot (hearlier.known boot hknown)
    | fenced hfenced =>
        cases hmoved with
        | retained hlater _ => exact .fenced fun boot hknown => hlater.fenced boot (hfenced boot hknown)
        | fenced hfences => exact .fenced fun boot hknown => hfences boot (.inl (hfenced boot hknown))
  exact hinvariant.2.2

/-- In every lifetime over an undamaged store, whose requests take no boot's last live
registration away without fencing the boot, a boot that was fenced once, or that was live
in an earlier epoch, is barred. -/
theorem known_boot_barred {before after : List LifeEvent} {middle last : SystemState}
    (h : Lifetime before middle) (hrun : Run turn middle after last)
    (hundamaged : ∀ event ∈ before ++ after, Undamaged event)
    (hkeeps : ∀ event ∈ before ++ after, KeepsBoots event) {boot : WorkerBootId}
    (hknown : middle.impl.authority.isBootFenced boot = true ∨
      middle.impl.authority.Live boot ∧
        middle.impl.authority.epoch.value < last.impl.authority.epoch.value) :
    Barred last.impl boot := by
  have hsound := h.lifeSound
  obtain ⟨start, hstart, hbefore⟩ := h
  have hcovered : LifeSound middle ∧ Covered middle := by
    refine @Run.invariant _ _ _ _ _ _ _ (fun state => LifeSound state ∧ Covered state) hbefore
      ⟨hstart.lifeSound, hstart.covered⟩ ?_
    intro event hmem htaken hinv
    have hin : event ∈ before ++ after := List.mem_append_left _ hmem
    exact ⟨hinv.1.turned htaken,
      (hinv.2.turned htaken hinv.1 (hundamaged event hin) (hkeeps event hin)).1⟩
  have hcarried := carried_of_run hrun hsound hcovered.2 fun event hmem =>
    ⟨hundamaged event (List.mem_append_right _ hmem), hkeeps event (List.mem_append_right _ hmem)⟩
  apply barred_of_fenced
  cases hcarried with
  | fenced hfenced => exact hfenced boot (hknown.imp id And.left)
  | retained hretained hepoch =>
      rcases hknown with hfenced | ⟨-, hlater⟩
      · exact hretained.fenced boot hfenced
      · rw [hepoch] at hlater
        exact absurd hlater (UInt64.lt_irrefl _)

/-! ## A boot whose session was dropped -/

/-- A request that succeeds, or a restart that does not begin with the first epoch. -/
private def succeeds (event : LifeEvent) : Bool :=
  match event.input, event.output with
  | .serve _, some (.operated (.ok _)) => true
  | .restart _ _, _ => event.post.impl.authority.epoch ≠ ⟨1⟩
  | _, _ => false

private theorem undamaged_of_succeeds {event : LifeEvent} (htaken : event.Taken turn)
    (h : succeeds event = true) : Undamaged event := by
  rcases turn_cases htaken with ⟨served, hserving, hstep⟩ | ⟨config, call, hrestarting⟩
  · refine ⟨fun other hother hfails => ?_, fun config call hinput => ?_⟩
    · obtain ⟨error, hfailure⟩ := hfails.reportsFailure (hother.taken htaken)
      unfold succeeds at h
      rw [hother.input, hother.output] at h
      rcases hfailure with hfailure | hfailure <;> simp [hfailure] at h
    · rw [hserving.input] at hinput
      cases hinput
  · refine ⟨fun other hother => ?_, hrestarting.reloads ?_⟩
    · have hinput := hother.input
      rw [hrestarting.input] at hinput
      cases hinput
    · unfold succeeds at h
      rw [hrestarting.input] at h
      simpa using h

/-- The event finds the boot live, in an epoch before that of the state. -/
private def findsLive (boot : WorkerBootId) (last : SystemState) (event : LifeEvent) : Bool :=
  (event.pre.impl.authority.registrations.any fun registration =>
    registration.live && registration.boot == boot) &&
  decide (event.pre.impl.authority.epoch.value < last.impl.authority.epoch.value)

/-- A lifetime of events that succeed, cut where the boot is live. -/
private theorem split_of_findsLive {events : List LifeEvent} {last : SystemState}
    {boot : WorkerBootId} (h : Lifetime events last) (hsucceeds : events.all succeeds = true)
    (hlive : events.any (findsLive boot last) = true) :
    ∃ before middle after, events = before ++ after ∧ Lifetime before middle ∧
      Run turn middle after last ∧ (∀ event ∈ before ++ after, Undamaged event) ∧
      middle.impl.authority.Live boot ∧
      middle.impl.authority.epoch.value < last.impl.authority.epoch.value := by
  obtain ⟨event, hmem, hfinds⟩ := List.any_eq_true.mp hlive
  obtain ⟨before, after, rfl⟩ := List.append_of_mem hmem
  obtain ⟨hbefore, htaken, hafter⟩ := h.split
  simp only [findsLive, Bool.and_eq_true, decide_eq_true_eq, List.any_eq_true,
    beq_iff_eq] at hfinds
  refine ⟨before, event.pre, event :: after, rfl, hbefore, .cons htaken hafter, ?_, hfinds.1, hfinds.2⟩
  intro other hother
  obtain ⟨earlier, later, hevents⟩ := List.append_of_mem hother
  rw [hevents] at h
  exact undamaged_of_succeeds h.split.2.1 (List.all_eq_true.mp hsucceeds other hother)

/-- Registers a publisher, drops its session, writes the state and restarts. -/
def sampleForgotten : List Turn :=
  [.serve sampleRegister,
   .serve (sampleInput (.operate (.dropSession (sampleContext 2) ⟨7⟩))),
   .serve (sampleInput (.operate .flush)),
   .restart sampleDurable sampleCall]

/-- The boot registers in the second epoch. -/
private def registersAgain (boot : WorkerBootId) (impl : Impl) : Bool :=
  isOk ((Operation.registerPublisher { sampleContext 3 with epoch := ⟨2⟩ } ⟨1⟩ boot 127
    ⟨7⟩).run impl sampleCall).2

private theorem sampleForgotten_registers :
    ((sampleDurableLife sampleForgotten).any fun run =>
      run.1.all succeeds && run.1.any (findsLive ⟨4242⟩ run.2) &&
        registersAgain ⟨4242⟩ run.2.impl) = true := by
  decide +kernel

/-- A boot whose session was dropped registers again after a restart. -/
theorem dropped_boot_registers_again :
    ∃ before middle after last,
      sampleDurableLife sampleForgotten = some (before ++ after, last) ∧
      Lifetime before middle ∧ Run turn middle after last ∧
      (∀ event ∈ before ++ after, Undamaged event) ∧
      middle.impl.authority.Live ⟨4242⟩ ∧
      middle.impl.authority.epoch.value < last.impl.authority.epoch.value ∧
      ¬ Barred last.impl ⟨4242⟩ := by
  obtain ⟨events, last, hrun, hlifetime, hcheck⟩ :=
    Lifetime.of_run_check _ sampleForgotten_registers
  simp only [Bool.and_eq_true] at hcheck
  obtain ⟨⟨hsucceeds, hlive⟩, hregisters⟩ := hcheck
  obtain ⟨before, middle, after, rfl, hbefore, hafter, hundamaged, hfound, hepoch⟩ :=
    split_of_findsLive hlifetime hsucceeds hlive
  refine ⟨before, middle, after, last, hrun, hbefore, hafter, hundamaged, hfound, hepoch,
    fun hbarred => ?_⟩
  obtain ⟨value, hvalue⟩ := Verified.Checks.isOk_iff.mp hregisters
  exact hbarred.unregistered _ _ _ _ _ value hvalue

/-- Registers a publisher and restarts. -/
def sampleRemembered : List Turn := [.serve sampleRegister, .restart sampleDurable sampleCall]

/-- The event drops no session and observes the loss of none. -/
private def keepsSessions (event : LifeEvent) : Bool :=
  match event.input with
  | .serve ⟨.operate (.dropSession _ _), _⟩ => false
  | .serve ⟨.operate (.fenceOnSessionLoss _), _⟩ => false
  | _ => true

private theorem keepsBoots_of_keepsSessions {event : LifeEvent}
    (h : keepsSessions event = true) : KeepsBoots event := by
  intro input hinput
  obtain ⟨action, call⟩ := input
  constructor
  · rintro context session boot rfl
    simp [keepsSessions, hinput] at h
  · rintro session owner tick fenced boot rfl
    simp [keepsSessions, hinput] at h

private theorem sampleRemembered_keeps :
    ((sampleDurableLife sampleRemembered).any fun run =>
      run.1.all succeeds && run.1.any (findsLive ⟨4242⟩ run.2) && run.1.all keepsSessions) =
        true := by
  decide +kernel

theorem known_boot_barred_sample :
    ∃ events last, sampleDurableLife sampleRemembered = some (events, last) ∧
      Barred last.impl ⟨4242⟩ := by
  obtain ⟨events, last, hrun, hlifetime, hcheck⟩ :=
    Lifetime.of_run_check _ sampleRemembered_keeps
  simp only [Bool.and_eq_true] at hcheck
  obtain ⟨⟨hsucceeds, hlive⟩, hkeeps⟩ := hcheck
  obtain ⟨before, middle, after, rfl, hbefore, hafter, hundamaged, hfound, hepoch⟩ :=
    split_of_findsLive hlifetime hsucceeds hlive
  exact ⟨_, last, hrun, known_boot_barred hbefore hafter hundamaged
    (fun event hmem => keepsBoots_of_keepsSessions (List.all_eq_true.mp hkeeps event hmem))
    (.inr ⟨hfound, hepoch⟩)⟩

end ConstraintRouting.Fabric
