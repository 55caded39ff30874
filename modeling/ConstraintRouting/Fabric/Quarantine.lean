import ConstraintRouting.Fabric.StoreOpening
import ConstraintRouting.Verified.StepMachine

/-!
# What becomes of an unreadable store

A store file that does not hold a valid state is moved to the first free quarantine name.
Its bytes survive the later saves when there is such a name and the move succeeds.
-/

namespace ConstraintRouting.Fabric

open Verified

/-! ## Moving a file away -/

/-- The bytes are in one of the quarantine files of the store. -/
def Quarantined (disk : Disk) (path : String) (raw : List UInt8) : Prop :=
  ∃ name ∈ DurableStore.quarantineNames path, disk name = some raw

/-- Under one of the quarantine names no file is reported. -/
def HasFreeName (disk : Disk) (path : String) (failing : String → Bool) : Prop :=
  ∃ name ∈ DurableStore.quarantineNames path, disk.reports failing name = false

/-- The first quarantine name under which no file is reported has none. -/
def Spares (disk : Disk) (path : String) (failing : String → Bool) : Prop :=
  ∀ before name after, DurableStore.quarantineNames path = before ++ name :: after →
    (∀ other ∈ before, disk.reports failing other = true) →
    disk.reports failing name = false → disk name = none

section Moves

variable {disk locked : Disk} {path name : String} {answers : OpenAnswers}
  {failing : String → Bool} {raw : List UInt8}

theorem AgreeOffLock.quarantined_iff (h : AgreeOffLock path disk locked) :
    Quarantined locked path raw ↔ Quarantined disk path raw := by
  unfold Quarantined
  constructor
  · rintro ⟨name, hname, hraw⟩
    exact ⟨name, hname, (h name (ne_of_mem_quarantineNames hname).2.1).symm.trans hraw⟩
  · rintro ⟨name, hname, hraw⟩
    exact ⟨name, hname, (h name (ne_of_mem_quarantineNames hname).2.1).trans hraw⟩

theorem AgreeOffLock.reports_eq (h : AgreeOffLock path disk locked)
    (hname : name ∈ DurableStore.quarantineNames path) :
    locked.reports failing name = disk.reports failing name := by
  unfold Disk.reports
  rw [h name (ne_of_mem_quarantineNames hname).2.1]

/-- The file is moved when a name is free and the move succeeds. -/
theorem quarantined_of_moved (hagree : AgreeOffLock path disk locked)
    (hfree : HasFreeName disk path answers.failing) (hrenamed : answers.renamed = true)
    (hraw : disk path = some raw) :
    Quarantined (DurableStore.quarantine locked path answers) path raw := by
  unfold DurableStore.quarantine
  cases hname : DurableStore.freeName locked path answers.failing with
  | none =>
      obtain ⟨name, hmem, hreports⟩ := hfree
      have htaken := List.find?_eq_none.mp hname name hmem
      rw [hagree.reports_eq hmem, hreports] at htaken
      exact absurd rfl htaken
  | some name =>
      dsimp only
      rw [if_pos hrenamed]
      have hmoved : locked.rename path name name = some raw :=
        Disk.put_self.trans ((hagree path path_ne_lock).trans hraw)
      exact ⟨name, List.mem_of_find?_eq_some hname, hmoved⟩

/-- The file stays when every name is taken, and when the move fails. -/
theorem quarantine_of_stays (hagree : AgreeOffLock path disk locked)
    (h : ¬(HasFreeName disk path answers.failing ∧ answers.renamed = true)) :
    DurableStore.quarantine locked path answers = locked := by
  unfold DurableStore.quarantine
  cases hname : DurableStore.freeName locked path answers.failing with
  | none => rfl
  | some name =>
      dsimp only
      apply if_neg
      intro hrenamed
      have hmem : name ∈ DurableStore.quarantineNames path := List.mem_of_find?_eq_some hname
      have hfree := List.find?_some hname
      rw [hagree.reports_eq hmem] at hfree
      exact h ⟨⟨name, hmem, by simpa using hfree⟩, hrenamed⟩

/-- A move to a name without a file leaves the other quarantined bytes as they are. -/
theorem quarantined_of_spares (hagree : AgreeOffLock path disk locked)
    (hspares : answers.renamed = true → Spares disk path answers.failing)
    (h : Quarantined disk path raw) :
    Quarantined (DurableStore.quarantine locked path answers) path raw := by
  have hlocked := hagree.quarantined_iff.mpr h
  unfold DurableStore.quarantine
  cases hfound : DurableStore.freeName locked path answers.failing with
  | none => exact hlocked
  | some target =>
      dsimp only
      by_cases hrenamed : answers.renamed = true
      · rw [if_pos hrenamed]
        obtain ⟨hfree, before, after, hnames, hbefore⟩ :=
          List.find?_eq_some_iff_append.mp hfound
        have hmem : target ∈ DurableStore.quarantineNames path :=
          List.mem_of_find?_eq_some hfound
        have hempty : disk target = none := by
          apply hspares hrenamed before target after hnames
          · intro other hother
            have hothers : other ∈ DurableStore.quarantineNames path := by
              rw [hnames]
              exact List.mem_append_left _ hother
            simpa [hagree.reports_eq hothers] using hbefore other hother
          · simpa [hagree.reports_eq hmem] using hfree
        obtain ⟨name, hname, hraw⟩ := h
        have hother : name ≠ target := by
          rintro rfl
          cases hempty.symm.trans hraw
        obtain ⟨hpath, hlock, -⟩ := ne_of_mem_quarantineNames hname
        refine ⟨name, hname, ?_⟩
        calc locked.rename path target name
            = locked.put path none name := Disk.put_of_ne hother
          _ = locked name := Disk.put_of_ne hpath
          _ = some raw := (hagree name hlock).trans hraw
      · rw [if_neg hrenamed]
        exact hlocked

end Moves

/-! ## Opening over unreadable bytes -/

/-- The bytes of the store file survive the opening: it fails, or a copy of them is
already quarantined, or they are read and moved to a free name. -/
def Preserves (disk : Disk) (path : String) (limits : Limits) (allowInitialize : Bool)
    (answers : OpenAnswers) (raw : List UInt8) : Prop :=
  ¬Admitted path limits answers ∨ Quarantined disk path raw ∨
    answers.read ≠ .missed ∧ (allowInitialize = false ∨
      HasFreeName disk path answers.failing ∧ answers.renamed = true)

/-- Saves states one after another through one opened store. -/
def saveAll (store : DurableStore) (disk : Disk) :
    List (PersistentState × WriteAnswer) → Disk
  | [] => disk
  | (state, answer) :: rest =>
      saveAll (store.saveTo disk state answer).2.1 (store.saveTo disk state answer).1 rest

section Preservation

variable {disk : Disk} {path : String} {limits : Limits} {allowInitialize : Bool}
  {answers : OpenAnswers} {raw : List UInt8} {store : DurableStore}

theorem quarantined_saveTo {state : PersistentState} {answer : WriteAnswer}
    (hpath : store.path = path) :
    Quarantined (store.saveTo disk state answer).1 path raw ↔ Quarantined disk path raw := by
  subst hpath
  constructor
  · rintro ⟨name, hname, hraw⟩
    exact ⟨name, hname, (saveTo_of_quarantined hname).symm.trans hraw⟩
  · rintro ⟨name, hname, hraw⟩
    exact ⟨name, hname, (saveTo_of_quarantined hname).trans hraw⟩

theorem quarantined_saveAll {saves : List (PersistentState × WriteAnswer)}
    (hpath : store.path = path) :
    Quarantined (saveAll store disk saves) path raw ↔ Quarantined disk path raw := by
  induction saves generalizing store disk with
  | nil => rfl
  | cons save rest ih =>
      rw [saveAll, ih (path_saveTo.trans hpath)]
      exact quarantined_saveTo hpath

theorem unusable_iff (hraw : disk path = some raw) (hunreadable : Unreadable path limits raw) :
    Unusable disk path limits answers.read ↔ answers.read ≠ .missed := by
  obtain ⟨error, herror, hmissed⟩ :=
    @loadFrom_of_unreadable disk path limits raw answers.read hraw hunreadable
  have hcode : error.code ≠ .notFound ↔ answers.read ≠ .missed := not_congr hmissed
  constructor
  · rintro ⟨other, hother, hfound⟩
    cases herror.symm.trans hother
    exact hcode.mp hfound
  · intro hfound
    exact ⟨error, herror, hcode.mpr hfound⟩

/-- What opening leaves of unreadable bytes, when it succeeds. -/
theorem quarantined_of_opened {opened : Disk} (hraw : disk path = some raw)
    (hunreadable : Unreadable path limits raw)
    (hopen : DurableStore.openStore disk path limits allowInitialize answers =
      (opened, .ok store)) :
    store.path = path ∧
      (Quarantined opened path raw ↔
        Preserves disk path limits allowInitialize answers raw) := by
  have hspec := @storeOpened_openStore disk path limits allowInitialize answers
  have hread := @unusable_iff disk path limits answers raw hraw hunreadable
  rw [hopen] at hspec
  unfold Preserves
  cases hspec with
  | kept hadmitted husable hagree =>
      refine ⟨rfl, ?_⟩
      rw [hagree.quarantined_iff]
      have hmissed : answers.read = .missed := by
        by_contra hfound
        exact husable (hread.mpr hfound)
      simp [hadmitted, hmissed]
  | recovered hadmitted hunusable hallowed hagree hafter =>
      refine ⟨rfl, ?_⟩
      have hfound := hread.mp hunusable
      subst hafter
      by_cases hmoves : HasFreeName disk path answers.failing ∧ answers.renamed = true
      · have hmoved := quarantined_of_moved hagree hmoves.1 hmoves.2 hraw
        simp [hmoved, hfound, hmoves]
      · rw [quarantine_of_stays hagree hmoves, hagree.quarantined_iff]
        simp [hadmitted, hallowed, hmoves]

/-- The opening fails, or the bytes are quarantined after it and after any later saves. -/
def OpenKeeps (disk : Disk) (path : String) (limits : Limits) (allowInitialize : Bool)
    (answers : OpenAnswers) (raw : List UInt8) : Prop :=
  match DurableStore.openStore disk path limits allowInitialize answers with
  | (_, .error _) => True
  | (opened, .ok store) => ∀ saves, Quarantined (saveAll store opened saves) path raw

/-- An opening that fails keeps every byte. -/
theorem preserves_of_failed {opened : Disk} {error : Error} (hraw : disk path = some raw)
    (hunreadable : Unreadable path limits raw)
    (hopen : DurableStore.openStore disk path limits allowInitialize answers =
      (opened, .error error)) :
    Preserves disk path limits allowInitialize answers raw := by
  have hspec := @storeOpened_openStore disk path limits allowInitialize answers
  rw [hopen] at hspec
  cases hspec with
  | refused hrefused _ => exact .inl hrefused
  | @disallowed _ existing _ hload hcode hallowed _ =>
      have hfound := (unusable_iff hraw hunreadable).mp ⟨existing, hload, hcode⟩
      exact .inr (.inr ⟨hfound, .inl hallowed⟩)

theorem openKeeps_iff (hraw : disk path = some raw) (hunreadable : Unreadable path limits raw) :
    OpenKeeps disk path limits allowInitialize answers raw ↔
      Preserves disk path limits allowInitialize answers raw := by
  unfold OpenKeeps
  cases hopen : DurableStore.openStore disk path limits allowInitialize answers with
  | mk opened result =>
      cases result with
      | error error => simpa using preserves_of_failed hraw hunreadable hopen
      | ok store =>
          dsimp only
          obtain ⟨hpath, hiff⟩ := quarantined_of_opened hraw hunreadable hopen
          simp only [quarantined_saveAll hpath, hiff, forall_const]

end Preservation

/-! ## Runs over one store path -/

/-- The files, and the stores that were opened on one path. -/
structure StoreSite where
  disk : Disk
  stores : List DurableStore := []

/-- One thing that happens at a store path. -/
inductive StoreAction where
  | opening (limits : Limits) (allowInitialize : Bool) (answers : OpenAnswers)
  | saving (index : Nat) (state : PersistentState) (answer : WriteAnswer)
  /-- Something else changes or removes the store file. -/
  | altering (content : Option (List UInt8))

def StoreSite.step (path : String) (site : StoreSite) :
    StoreAction → Option (StoreSite × Status)
  | .opening limits allowInitialize answers =>
      match DurableStore.openStore site.disk path limits allowInitialize answers with
      | (disk, .error error) => some ({ site with disk }, .error error)
      | (disk, .ok store) => some ({ disk, stores := site.stores ++ [store] }, .ok ())
  | .saving index state answer =>
      match site.stores[index]? with
      | none => none
      | some store =>
          let (disk, next, status) := store.saveTo site.disk state answer
          some ({ disk, stores := site.stores.set index next }, status)
  | .altering content => some ({ site with disk := site.disk.put path content }, .ok ())

/-- An opening preserves the bytes that it cannot read, and moves no file over another. -/
def Careful (path : String) (disk : Disk) : StoreAction → Prop
  | .opening limits allowInitialize answers =>
      (∀ raw, disk path = some raw → Unreadable path limits raw →
        Preserves disk path limits allowInitialize answers raw) ∧
      (Admitted path limits answers → Unusable disk path limits answers.read →
        allowInitialize = true → answers.renamed = true → Spares disk path answers.failing)
  | .saving _ _ _ | .altering _ => True

/-- What every opened store of a run could not read is quarantined at its end. -/
def KeepsUnreadable (path : String)
    (events : List (StepMachine.Event StoreSite StoreAction Status)) (last : StoreSite) : Prop :=
  ∀ event ∈ events, ∀ limits allowInitialize answers raw,
    event.input = .opening limits allowInitialize answers → event.output = .ok () →
    event.pre.disk path = some raw → Unreadable path limits raw →
    Quarantined last.disk path raw

section Runs

variable {path : String} {site next : StoreSite} {action : StoreAction} {status : Status}
  {raw : List UInt8}

/-- Every opened store is at the path. -/
def StoreSite.Placed (path : String) (site : StoreSite) : Prop :=
  ∀ store ∈ site.stores, store.path = path

theorem StoreSite.Placed.step (hplaced : site.Placed path)
    (htaken : site.step path action = some (next, status)) : next.Placed path := by
  cases action with
  | opening limits allowInitialize answers =>
      have hspec := @storeOpened_openStore site.disk path limits allowInitialize answers
      unfold StoreSite.step at htaken
      dsimp only at htaken
      cases hopen : DurableStore.openStore site.disk path limits allowInitialize answers with
      | mk opened result =>
          rw [hopen] at hspec htaken
          cases hspec with
          | refused | disallowed =>
              cases htaken
              exact hplaced
          | kept | recovered =>
              cases htaken
              intro store hstore
              rcases List.mem_append.mp hstore with hold | hnew
              · exact hplaced store hold
              · rw [List.mem_singleton.mp hnew]
  | saving index state answer =>
      unfold StoreSite.step at htaken
      cases hfound : site.stores[index]? with
      | none => simp [hfound] at htaken
      | some store =>
          simp only [hfound, Option.some.injEq, Prod.mk.injEq] at htaken
          obtain ⟨rfl, -⟩ := htaken
          have hstore := hplaced store (List.mem_of_getElem? hfound)
          intro other hother
          rcases List.mem_or_eq_of_mem_set hother with hold | rfl
          · exact hplaced other hold
          · exact path_saveTo.trans hstore
  | altering content =>
      cases htaken
      exact hplaced

/-- A careful step leaves the quarantined bytes quarantined. -/
theorem quarantined_step (hplaced : site.Placed path)
    (htaken : site.step path action = some (next, status))
    (hcareful : Careful path site.disk action) (h : Quarantined site.disk path raw) :
    Quarantined next.disk path raw := by
  cases action with
  | opening limits allowInitialize answers =>
      have hspec := @storeOpened_openStore site.disk path limits allowInitialize answers
      unfold StoreSite.step at htaken
      dsimp only at htaken
      cases hopen : DurableStore.openStore site.disk path limits allowInitialize answers with
      | mk opened result =>
          rw [hopen] at hspec htaken
          cases hspec with
          | refused _ hagree | disallowed _ _ _ _ hagree =>
              cases htaken
              exact hagree.quarantined_iff.mpr h
          | kept _ _ hagree =>
              cases htaken
              exact hagree.quarantined_iff.mpr h
          | recovered hadmitted hunusable hallowed hagree hafter =>
              cases htaken
              rw [hafter]
              exact quarantined_of_spares hagree
                (hcareful.2 hadmitted hunusable hallowed) h
  | saving index state answer =>
      unfold StoreSite.step at htaken
      cases hfound : site.stores[index]? with
      | none => simp [hfound] at htaken
      | some store =>
          simp only [hfound, Option.some.injEq, Prod.mk.injEq] at htaken
          obtain ⟨rfl, -⟩ := htaken
          have hstore := hplaced store (List.mem_of_getElem? hfound)
          exact (quarantined_saveTo hstore).mpr h
  | altering content =>
      cases htaken
      obtain ⟨name, hname, hraw⟩ := h
      have hput : site.disk.put path content name = some raw :=
        (Disk.put_of_ne (ne_of_mem_quarantineNames hname).1).trans hraw
      exact ⟨name, hname, hput⟩

/-- A careful opening quarantines what it cannot read. -/
theorem quarantined_of_opening {limits : Limits} {allowInitialize : Bool}
    {answers : OpenAnswers}
    (htaken : site.step path (.opening limits allowInitialize answers) = some (next, .ok ()))
    (hcareful : Careful path site.disk (.opening limits allowInitialize answers))
    (hraw : site.disk path = some raw) (hunreadable : Unreadable path limits raw) :
    Quarantined next.disk path raw := by
  unfold StoreSite.step at htaken
  dsimp only at htaken
  cases hopen : DurableStore.openStore site.disk path limits allowInitialize answers with
  | mk opened result =>
      rw [hopen] at htaken
      cases result with
      | error error => cases htaken
      | ok store =>
          cases htaken
          have hiff := (quarantined_of_opened hraw hunreadable hopen).2
          exact hiff.mpr (hcareful.1 raw hraw hunreadable)

theorem keepsUnreadable_of_run {disk : Disk}
    {events : List (StepMachine.Event StoreSite StoreAction Status)} {last : StoreSite}
    (hrun : StepMachine.Run (StoreSite.step path) { disk } events last)
    (hcareful : ∀ event ∈ events, Careful path event.pre.disk event.input) :
    KeepsUnreadable path events last := by
  suffices hinv : last.Placed path ∧ KeepsUnreadable path events last from hinv.2
  change (fun history (site : StoreSite) =>
    site.Placed path ∧ KeepsUnreadable path history site) events last
  apply hrun.history_invariant
  · exact ⟨by simp [StoreSite.Placed], by simp [KeepsUnreadable]⟩
  · rintro before event after rfl htaken ⟨hplaced, hkeeps⟩
    have hstep := hcareful event (by simp)
    refine ⟨hplaced.step htaken, ?_⟩
    intro earlier hearlier limits allowInitialize answers raw hinput houtput hraw hunreadable
    rcases List.mem_append.mp hearlier with hbefore | hlast
    · have hquarantined := hkeeps earlier hbefore limits allowInitialize answers raw hinput
        houtput hraw hunreadable
      exact quarantined_step hplaced htaken hstep hquarantined
    · cases List.mem_singleton.mp hlast
      have hopening : event.pre.step path (.opening limits allowInitialize answers) =
          some (event.post, .ok ()) := by
        rw [← hinput, ← houtput]
        exact htaken
      exact quarantined_of_opening hopening (hinput ▸ hstep) hraw hunreadable

end Runs

/-! ## Two sample disks -/

/-- One byte that is no envelope, and nothing else. -/
def lonelyDisk : Disk := fun name => if name = "fabric.store" then some [0] else none

/-- The same byte, beside an empty file under each quarantine name. -/
def crowdedDisk : Disk := fun name =>
  if name = "fabric.store" then some [0]
  else if name ∈ DurableStore.quarantineNames "fabric.store" then some [] else none

private theorem unreadable_zero : Unreadable "fabric.store" {} [0] := by
  intro state h
  cases h

private theorem admitted_sample : Admitted "fabric.store" {} {} :=
  ⟨by decide +kernel, by decide +kernel, rfl⟩

private theorem lonelyDisk_eq_none {name : String}
    (h : name ∈ DurableStore.quarantineNames "fabric.store") : lonelyDisk name = none :=
  if_neg (ne_of_mem_quarantineNames h).1

private theorem crowdedDisk_eq_empty {name : String}
    (h : name ∈ DurableStore.quarantineNames "fabric.store") : crowdedDisk name = some [] :=
  (if_neg (ne_of_mem_quarantineNames h).1).trans (if_pos h)

private theorem crowdedDisk_not_free :
    ¬HasFreeName crowdedDisk "fabric.store" fun _ => false := by
  rintro ⟨name, hname, hreports⟩
  simp [Disk.reports, crowdedDisk_eq_empty hname] at hreports

/-- The opened store knows the unreadable byte, which stays in its place. -/
private theorem opened_crowdedDisk {opened : Disk} {store : DurableStore}
    (hopen : DurableStore.openStore crowdedDisk "fabric.store" {} true {} =
      (opened, .ok store)) :
    AgreeOffLock "fabric.store" crowdedDisk opened ∧
      store = { path := "fabric.store", limits := {}, file := some [0] } := by
  have hspec := @storeOpened_openStore crowdedDisk "fabric.store" {} true {}
  rw [hopen] at hspec
  have hzero : ∀ {after}, AgreeOffLock "fabric.store" crowdedDisk after →
      after "fabric.store" = some [0] := by
    intro after hagree
    exact hagree _ path_ne_lock
  cases hspec with
  | kept _ _ hagree => exact ⟨hagree, by rw [hzero hagree]⟩
  | recovered _ _ _ hagree hafter =>
      rw [quarantine_of_stays hagree fun h => crowdedDisk_not_free h.1] at hafter
      subst hafter
      exact ⟨hagree, by rw [hzero hagree]⟩

private theorem saves_sampleState :
    (({ path := "fabric.store", limits := {}, file := some [0] } : DurableStore).save
      sampleState .written).2 = .ok () := by
  decide +kernel

private theorem encodeEnvelope_ne_zero (payload : List UInt8) : encodeEnvelope payload ≠ [0] := by
  intro h
  have hlength := congrArg List.length h
  have hmagic : kStoreMagic.length = 8 := length_kStoreMagic
  rw [encodeEnvelope_eq, List.length_append, List.length_append, hmagic,
    List.length_singleton] at hlength
  omega

private theorem preserves_lonelyDisk : Preserves lonelyDisk "fabric.store" {} true {} [0] := by
  have hmem : DurableStore.quarantineName "fabric.store" 1 ∈
      DurableStore.quarantineNames "fabric.store" :=
    List.mem_map.mpr ⟨0, by simp, rfl⟩
  have hfree : HasFreeName lonelyDisk "fabric.store" fun _ => false :=
    ⟨_, hmem, by simp [Disk.reports, lonelyDisk_eq_none hmem]⟩
  exact .inr (.inr ⟨by decide, .inr ⟨hfree, rfl⟩⟩)

private theorem careful_lonelyDisk :
    Careful "fabric.store" lonelyDisk (.opening {} true {}) := by
  constructor
  · intro raw hraw _
    cases hraw
    exact preserves_lonelyDisk
  · intro _ _ _ _ before name after hnames _ _
    apply lonelyDisk_eq_none
    rw [hnames]
    simp

/-- Opening a store keeps bytes that do not decode to a valid state exactly when it preserves
them; and in every run of openings, saves and outside changes whose openings are careful,
what an opened store could not read stays quarantined. -/
theorem openStore_keeps_iff (path : String) :
    (∀ disk limits allowInitialize answers raw, disk path = some raw →
      Unreadable path limits raw →
      (OpenKeeps disk path limits allowInitialize answers raw ↔
        Preserves disk path limits allowInitialize answers raw)) ∧
    ∀ disk events last, StepMachine.Run (StoreSite.step path) { disk } events last →
      (∀ event ∈ events, Careful path event.pre.disk event.input) →
      KeepsUnreadable path events last := by
  constructor
  · intro disk limits allowInitialize answers raw hraw hunreadable
    exact openKeeps_iff hraw hunreadable
  · intro disk events last hrun hcareful
    exact keepsUnreadable_of_run hrun hcareful

/-- An unreadable file is met, moved to a free name and replaced by a save. -/
theorem openStore_keeps_iff_sample :
    OpenKeeps lonelyDisk "fabric.store" {} true {} [0] ∧
      ∃ events last, StepMachine.Run (StoreSite.step "fabric.store")
          { disk := lonelyDisk } events last ∧
        events.map (·.input) = [.opening {} true {}, .saving 0 sampleState {}] ∧
        Quarantined last.disk "fabric.store" [0] := by
  have hkeeps := openStore_keeps_iff "fabric.store"
  have hzero : lonelyDisk "fabric.store" = some [0] := rfl
  have hopens := hkeeps.1 lonelyDisk {} true {} [0] hzero unreadable_zero
  refine ⟨hopens.mpr preserves_lonelyDisk, ?_⟩
  obtain ⟨opened, store, hopen⟩ := @openStore_of_admitted lonelyDisk _ _ _ admitted_sample
  let first : StoreSite := { disk := opened, stores := [store] }
  let opening : StepMachine.Event StoreSite StoreAction Status :=
    ⟨{ disk := lonelyDisk }, .opening {} true {}, .ok (), first⟩
  let saved := store.saveTo opened sampleState {}
  let saving : StepMachine.Event StoreSite StoreAction Status :=
    ⟨first, .saving 0 sampleState {}, saved.2.2, { disk := saved.1, stores := [saved.2.1] }⟩
  have hopening : opening.Taken (StoreSite.step "fabric.store") := by
    show StoreSite.step _ _ _ = _
    unfold StoreSite.step
    dsimp only [opening]
    rw [hopen]
    rfl
  have hsaving : saving.Taken (StoreSite.step "fabric.store") := rfl
  have hrun : StepMachine.Run (StoreSite.step "fabric.store") { disk := lonelyDisk }
      [opening, saving] saving.post := .cons hopening (.cons hsaving (.nil _))
  have hcareful : ∀ event ∈ [opening, saving],
      Careful "fabric.store" event.pre.disk event.input := by
    intro event hevent
    rcases List.mem_pair.mp hevent with rfl | rfl
    · exact careful_lonelyDisk
    · trivial
  refine ⟨_, _, hrun, rfl, ?_⟩
  exact hkeeps.2 lonelyDisk _ _ hrun hcareful opening (by simp) {} true {} [0] rfl rfl hzero
    unreadable_zero

/-- With every quarantine name taken the store opens over the unreadable byte, and the
first save leaves it nowhere. -/
theorem crowded_store_loses_bytes :
    crowdedDisk "fabric.store" = some [0] ∧ Unreadable "fabric.store" {} [0] ∧
      ∃ opened store, DurableStore.openStore crowdedDisk "fabric.store" {} true {} =
          (opened, .ok store) ∧
        (store.saveTo opened sampleState {}).2.2 = .ok () ∧
        (store.saveTo opened sampleState {}).1 "fabric.store" ≠ some [0] ∧
        ¬Quarantined (store.saveTo opened sampleState {}).1 "fabric.store" [0] := by
  refine ⟨rfl, unreadable_zero, ?_⟩
  obtain ⟨opened, store, hopen⟩ := @openStore_of_admitted crowdedDisk _ _ _ admitted_sample
  obtain ⟨hagree, hstore⟩ := opened_crowdedDisk hopen
  have hpath : store.path = "fabric.store" := by rw [hstore]
  have hsaved : (store.saveTo opened sampleState {}).2.2 = .ok () := by
    rw [saveTo_eq_save, hstore]
    exact saves_sampleState
  refine ⟨opened, store, hopen, hsaved, ?_, ?_⟩
  · intro hkept
    have henvelope := saveTo_path hsaved
    rw [hpath, hkept] at henvelope
    exact encodeEnvelope_ne_zero _ (Option.some.inj henvelope).symm
  · rw [quarantined_saveTo hpath, hagree.quarantined_iff]
    rintro ⟨name, hname, hraw⟩
    cases (crowdedDisk_eq_empty hname).symm.trans hraw

end ConstraintRouting.Fabric
