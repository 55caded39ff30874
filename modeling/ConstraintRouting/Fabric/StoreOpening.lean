import ConstraintRouting.Fabric.Lifetimes
import ConstraintRouting.Fabric.RoundTrip
import ConstraintRouting.Fabric.StoreFiles

/-!
# What opening a store does

Which files an opening, a save and a lock touch, which files do not load, and what a
coordinator restores from the store that it opened.
-/

namespace ConstraintRouting.Fabric

/-! ## Names -/

section Names

variable {path name : String}

theorem length_of_mem_quarantineNames (h : name ∈ DurableStore.quarantineNames path) :
    path.length + 12 ≤ name.length := by
  obtain ⟨index, -, rfl⟩ := List.mem_map.mp h
  have hmiddle : ".quarantine-".length = 12 := by decide +kernel
  unfold DurableStore.quarantineName
  rw [String.length_append, String.length_append, hmiddle]
  omega

/-- A quarantine name is not the name of the store, nor of its lock or temporary file. -/
theorem ne_of_mem_quarantineNames (h : name ∈ DurableStore.quarantineNames path) :
    name ≠ path ∧ name ≠ path ++ ".lock" ∧ name ≠ path ++ ".tmp" := by
  have hlength := length_of_mem_quarantineNames h
  have hlock : ".lock".length = 5 := by decide +kernel
  have htemporary : ".tmp".length = 4 := by decide +kernel
  refine ⟨?_, ?_, ?_⟩
  · rintro rfl
    omega
  · rintro rfl
    rw [String.length_append, hlock] at hlength
    omega
  · rintro rfl
    rw [String.length_append, htemporary] at hlength
    omega

end Names

/-! ## Frames -/

namespace Disk

variable {disk : Disk} {name other : String} {content : Option (List UInt8)}

theorem put_self : disk.put name content name = content := Function.update_self ..

theorem put_of_ne (h : other ≠ name) : disk.put name content other = disk other :=
  Function.update_of_ne h ..

end Disk

section Frames

variable {disk : Disk} {path name : String} {store : DurableStore}

/-- Taking the lock touches the lock file alone. -/
theorem acquireStoreLock_of_ne {answer : LockAnswer} (h : name ≠ path ++ ".lock") :
    (acquireStoreLock disk path answer).1 name = disk name := by
  cases answer with
  | granted | owned => exact Disk.put_of_ne h
  | badPath | cannotOpen => rfl

/-- A replacement touches the store file and the temporary one. -/
theorem atomicWrite_of_ne {data : List UInt8} {answer : WriteAnswer} (hpath : name ≠ path)
    (htemporary : name ≠ path ++ ".tmp") :
    (atomicWrite disk path data answer).1 name = disk name := by
  unfold atomicWrite
  split
  · exact (Disk.put_of_ne hpath).trans (Disk.put_of_ne htemporary)
  · rfl
  · exact Disk.put_of_ne htemporary
  · exact Disk.put_of_ne htemporary
  · exact Disk.put_of_ne htemporary

/-- A save leaves the quarantined files as they are. -/
theorem saveTo_of_quarantined {state : PersistentState} {answer : WriteAnswer}
    (h : name ∈ DurableStore.quarantineNames store.path) :
    (store.saveTo disk state answer).1 name = disk name := by
  obtain ⟨hpath, -, htemporary⟩ := ne_of_mem_quarantineNames h
  have hwrite := @atomicWrite_of_ne disk store.path name
    (encodeEnvelope (encodePersistentState state)) answer hpath htemporary
  unfold DurableStore.saveTo
  split
  · rfl
  · dsimp only
    split
    · rfl
    · split
      · next heq => rw [← hwrite, heq]
      · next heq => rw [← hwrite, heq]

theorem path_saveTo {state : PersistentState} {answer : WriteAnswer} :
    (store.saveTo disk state answer).2.1.path = store.path := by
  unfold DurableStore.saveTo
  split
  · rfl
  · dsimp only
    split
    · rfl
    · split <;> rfl

/-- What the save reports, and the file that the store knows, are those of the save without
the other files. -/
theorem saveTo_eq_save {state : PersistentState} {answer : WriteAnswer} :
    (store.saveTo disk state answer).2 = store.save state answer.outcome := by
  unfold DurableStore.saveTo DurableStore.save
  cases validatePersistentState state store.limits with
  | error error => rfl
  | ok _ =>
      dsimp only
      split
      · rfl
      · cases houtcome : answer.outcome <;>
          simp [atomicWrite, houtcome, WriteOutcome.status, failure]

/-- A save that succeeds leaves the envelope of the state under the path. -/
theorem saveTo_path {state : PersistentState} {answer : WriteAnswer}
    (h : (store.saveTo disk state answer).2.2 = .ok ()) :
    (store.saveTo disk state answer).1 store.path =
      some (encodeEnvelope (encodePersistentState state)) := by
  unfold DurableStore.saveTo at h ⊢
  cases hvalid : validatePersistentState state store.limits with
  | error error => simp [hvalid] at h
  | ok _ =>
      simp only [hvalid] at h ⊢
      split at h
      · cases h
      · next hlarge =>
          rw [if_neg hlarge]
          cases houtcome : answer.outcome with
          | written =>
              simp only [atomicWrite, houtcome]
              exact Disk.put_self
          | cannotCreate | cannotWrite | cannotFlush | cannotReplace =>
              simp [atomicWrite, houtcome, WriteOutcome.status, failure] at h

end Frames

/-! ## Files that do not load -/

/-- A failure of the program is not that something was not found. -/
def Finds {α : Type} (program : Result α) : Prop :=
  ∀ error, program = .error error → error.code ≠ .notFound

namespace Finds

variable {α β : Type} {code : ErrorCode} {detail : String}

theorem ok (value : α) : Finds (.ok value : Result α) := by
  intro error h
  cases h

theorem failure (hcode : code ≠ .notFound) : Finds (failure code detail : Result α) := by
  intro error h
  cases h
  exact hcode

theorem failIf {condition : Bool} (hcode : code ≠ .notFound) :
    Finds (failIf condition code detail) := by
  intro error h
  unfold Fabric.failIf Verified.Checks.failIf at h
  split at h
  · cases h
    exact hcode
  · cases h

theorem bind {first : Result α} {next : α → Result β} (hfirst : Finds first)
    (hnext : ∀ value, Finds (next value)) : Finds (first >>= next) := by
  intro error h
  cases first with
  | error other =>
      have hother : other = error := Except.error.inj h
      exact hfirst error (congrArg Except.error hother)
  | ok value => exact hnext value error h

end Finds

section Unreadable

variable {disk : Disk} {path : String} {limits : Limits} {raw : List UInt8}

/-- The bytes do not hold a valid state. -/
def Unreadable (path : String) (limits : Limits) (raw : List UInt8) : Prop :=
  ∀ state, ({ path, limits, file := some raw } : DurableStore).load ≠ .ok state

theorem decodeEnvelope_finds : Finds (decodeEnvelope raw limits) := by
  unfold decodeEnvelope
  apply Finds.bind (Finds.failIf (by decide))
  intro _
  apply Finds.bind (Finds.failIf (by decide))
  intro _
  split
  · exact Finds.failure (by decide)
  · apply Finds.bind (Finds.failIf (by decide))
    intro _
    apply Finds.bind (Finds.failIf (by decide))
    intro _
    apply Finds.bind (Finds.failIf (by split <;> decide))
    intro _
    apply Finds.bind (Finds.failIf (by decide))
    intro _
    apply Finds.bind (Finds.failIf (by decide))
    intro _
    exact Finds.ok _

/-- Bytes that are there are never reported as missing. -/
theorem load_finds {store : DurableStore} (h : store.file = some raw) : Finds store.load := by
  unfold DurableStore.load
  rw [h]
  apply Finds.bind decodeEnvelope_finds
  intro payload
  split
  · exact Finds.failure (by decide)
  · split
    · exact Finds.ok _
    · exact Finds.failure (by decide)

theorem loadFrom_whole {store : DurableStore} (h : disk store.path = some raw) :
    store.loadFrom disk .whole = { store with file := some raw }.load := by
  unfold DurableStore.loadFrom
  rw [h]

theorem loadFrom_of_none {store : DurableStore} {read : ReadAnswer}
    (h : disk store.path = none) :
    store.loadFrom disk read = failure .notFound "durable store file does not exist" := by
  unfold DurableStore.loadFrom
  rw [h]

/-- Unreadable bytes are not loaded, and are reported as missing exactly when the reading
misses them. -/
theorem loadFrom_of_unreadable {read : ReadAnswer} (hraw : disk path = some raw)
    (hunreadable : Unreadable path limits raw) :
    ∃ error, ({ path, limits } : DurableStore).loadFrom disk read = .error error ∧
      (error.code = .notFound ↔ read = .missed) := by
  cases read with
  | whole =>
      rw [loadFrom_whole hraw]
      cases hload : ({ path, limits, file := some raw } : DurableStore).load with
      | ok state => exact absurd hload (hunreadable state)
      | error error =>
          have hcode : error.code ≠ .notFound := load_finds rfl error hload
          exact ⟨error, rfl, by simp [hcode]⟩
  | missed | broken =>
      unfold DurableStore.loadFrom
      dsimp only
      rw [hraw]
      exact ⟨_, rfl, by simp⟩

end Unreadable

/-! ## What opening does -/

/-- The request for the store is admitted. -/
def Admitted (path : String) (limits : Limits) (answers : OpenAnswers) : Prop :=
  validateLimits limits = .ok () ∧ path ≠ "" ∧ answers.lock = .granted

/-- What is read of the store file is not a valid state. -/
def Unusable (disk : Disk) (path : String) (limits : Limits) (read : ReadAnswer) : Prop :=
  ∃ error, ({ path, limits } : DurableStore).loadFrom disk read = .error error ∧
    error.code ≠ .notFound

/-- Two disks differ at most in the lock file of the store. -/
def AgreeOffLock (path : String) (disk after : Disk) : Prop :=
  ∀ name, name ≠ path ++ ".lock" → after name = disk name

/-- What opening does to the disk, and what it returns. -/
inductive StoreOpened (disk : Disk) (path : String) (limits : Limits) (allowInitialize : Bool)
    (answers : OpenAnswers) : Disk × Result DurableStore → Prop
  | refused {after : Disk} {error : Error} : ¬Admitted path limits answers →
      AgreeOffLock path disk after →
      StoreOpened disk path limits allowInitialize answers (after, .error error)
  | kept {after : Disk} : Admitted path limits answers →
      ¬Unusable disk path limits answers.read → AgreeOffLock path disk after →
      StoreOpened disk path limits allowInitialize answers
        (after, .ok { path, limits, file := after path })
  | disallowed {after : Disk} {existing : Error} : Admitted path limits answers →
      ({ path, limits } : DurableStore).loadFrom disk answers.read = .error existing →
      existing.code ≠ .notFound → allowInitialize = false → AgreeOffLock path disk after →
      StoreOpened disk path limits allowInitialize answers (after, failure existing.code
        ("durable store exists but is not usable: " ++ existing.detail))
  | recovered {locked after : Disk} : Admitted path limits answers →
      Unusable disk path limits answers.read → allowInitialize = true →
      AgreeOffLock path disk locked →
      after = DurableStore.quarantine locked path answers →
      StoreOpened disk path limits allowInitialize answers
        (after, .ok { path, limits, file := after path })

section Opening

variable {disk : Disk} {path : String} {limits : Limits} {allowInitialize : Bool}
  {answers : OpenAnswers}

theorem path_ne_lock : path ≠ path ++ ".lock" := by
  intro h
  have hlength := congrArg String.length h
  have hlock : ".lock".length = 5 := by decide +kernel
  rw [String.length_append, hlock] at hlength
  omega

theorem agreeOffLock_acquireStoreLock {answer : LockAnswer} :
    AgreeOffLock path disk (acquireStoreLock disk path answer).1 := by
  intro name hname
  exact acquireStoreLock_of_ne hname

theorem loadFrom_of_agree {locked : Disk} {read : ReadAnswer}
    (h : AgreeOffLock path disk locked) :
    ({ path, limits } : DurableStore).loadFrom locked read =
      ({ path, limits } : DurableStore).loadFrom disk read := by
  unfold DurableStore.loadFrom
  dsimp only
  rw [h path path_ne_lock]

theorem storeOpened_openStore : StoreOpened disk path limits allowInitialize answers
    (DurableStore.openStore disk path limits allowInitialize answers) := by
  have hagree := @agreeOffLock_acquireStoreLock disk path answers.lock
  unfold DurableStore.openStore
  cases hlimits : validateLimits limits with
  | error why =>
      apply StoreOpened.refused
      · intro hadmitted
        cases hlimits.symm.trans hadmitted.1
      · intro _ _
        rfl
  | ok _ =>
      dsimp only
      by_cases hpath : path = ""
      · rw [if_pos hpath]
        apply StoreOpened.refused
        · intro hadmitted
          exact hadmitted.2.1 hpath
        · intro _ _
          rfl
      · rw [if_neg hpath]
        by_cases hlock : answers.lock = .granted
        · have hadmitted : Admitted path limits answers := ⟨hlimits, hpath, hlock⟩
          have hgranted : acquireStoreLock disk path answers.lock =
              ((acquireStoreLock disk path answers.lock).1, .ok ()) := by
            rw [hlock]
            rfl
          rw [hgranted]
          generalize (acquireStoreLock disk path answers.lock).1 = locked at hagree
          dsimp only
          rw [loadFrom_of_agree hagree]
          cases hload : ({ path, limits } : DurableStore).loadFrom disk answers.read with
          | ok state =>
              have husable : ¬Unusable disk path limits answers.read := by
                rintro ⟨error, herror, -⟩
                cases hload.symm.trans herror
              exact .kept hadmitted husable hagree
          | error existing =>
              dsimp only
              by_cases hmissing : existing.code = .notFound
              · rw [if_pos hmissing]
                have husable : ¬Unusable disk path limits answers.read := by
                  rintro ⟨error, herror, hcode⟩
                  cases hload.symm.trans herror
                  exact hcode hmissing
                exact .kept hadmitted husable hagree
              · rw [if_neg hmissing]
                cases allowInitialize with
                | false => exact .disallowed hadmitted hload hmissing rfl hagree
                | true => exact .recovered hadmitted ⟨existing, hload, hmissing⟩ rfl hagree rfl
        · have hfails : ∃ error, acquireStoreLock disk path answers.lock =
              ((acquireStoreLock disk path answers.lock).1, .error error) := by
            cases hanswer : answers.lock with
            | granted => exact absurd hanswer hlock
            | badPath | cannotOpen | owned => exact ⟨_, rfl⟩
          obtain ⟨error, hfails⟩ := hfails
          rw [hfails]
          apply StoreOpened.refused
          · intro hadmitted
            exact hlock hadmitted.2.2
          · exact hagree

/-- An admitted request that may initialize is served. -/
theorem openStore_of_admitted (hadmitted : Admitted path limits answers) :
    ∃ opened store, DurableStore.openStore disk path limits true answers =
      (opened, .ok store) := by
  have hspec := @storeOpened_openStore disk path limits true answers
  cases hopen : DurableStore.openStore disk path limits true answers with
  | mk opened result =>
      rw [hopen] at hspec
      cases hspec with
      | refused hrefused _ => exact absurd hadmitted hrefused
      | kept | recovered => exact ⟨_, _, rfl⟩
      | disallowed _ _ _ hallowed _ => cases hallowed

end Opening

/-! ## What a coordinator restores -/

section Restoring

variable {config : CoordinatorConfig} {disk : Disk} {path : String} {answers : OpenAnswers}
  {raw : List UInt8} {error : Error}

/-- A coordinator restores nothing from a file that it may replace. -/
theorem restoreFrom_of_error {store : DurableStore}
    (h : store.loadFrom disk .whole = .error error) :
    store.restoreFrom disk true (fun _ => false) .whole = .ok none := by
  unfold DurableStore.restoreFrom
  split
  · rfl
  · rw [h]
    rfl

/-- The store file is moved away, or stays as it is. -/
theorem quarantine_path :
    DurableStore.quarantine disk path answers path = none ∨
      DurableStore.quarantine disk path answers path = disk path := by
  unfold DurableStore.quarantine
  cases hname : DurableStore.freeName disk path answers.failing with
  | none => exact .inr rfl
  | some name =>
      dsimp only
      split
      · have hmem : name ∈ DurableStore.quarantineNames path :=
          List.mem_of_find?_eq_some hname
        have hother : path ≠ name := (ne_of_mem_quarantineNames hmem).1.symm
        exact .inl ((Disk.put_of_ne hother).trans Disk.put_self)
      · exact .inr rfl

theorem DurableStore.report_of_error {store : DurableStore} (hfile : store.file = some raw)
    (h : store.load = .error error) :
    store.report = .unreadable raw
      ⟨error.code, "durable store exists but is not usable: " ++ error.detail⟩ := by
  unfold report
  split
  · next hnone =>
      cases hfile.symm.trans hnone
  · next hload =>
      cases h.symm.trans hload
  · next hsome hload =>
      cases hfile.symm.trans hsome
      cases h.symm.trans hload
      rfl

/-- An unusable file is there, and what it holds does not load. -/
theorem load_of_loadFrom {store : DurableStore} (h : store.loadFrom disk .whole = .error error)
    (hcode : error.code ≠ .notFound) :
    ∃ raw, disk store.path = some raw ∧ { store with file := some raw }.load = .error error := by
  cases hraw : disk store.path with
  | none =>
      rw [loadFrom_of_none hraw] at h
      cases h
      exact absurd rfl hcode
  | some raw =>
      rw [loadFrom_whole hraw] at h
      exact ⟨raw, rfl, h⟩

/-- A coordinator that does not load the file refuses it, or starts from nothing. -/
theorem restoredState_of_error (hpath : config.storePath ≠ "")
    (h : (storeOver config (some raw)).load = .error error) :
    restoredState config (storeOver config (some raw)).report =
      if config.allowInitialize then .ok none
      else failure error.code ("durable store exists but is not usable: " ++ error.detail) := by
  have hreport := @DurableStore.report_of_error raw error (storeOver config (some raw)) rfl h
  unfold restoredState
  rw [if_neg hpath, hreport]
  rfl

/-- Opening the files of a store and restoring from them is restoring from what the opening
reports of the one file at the path. -/
theorem openAndRestore_eq_restoredState
    (hadmitted : Admitted config.storePath config.limits answers)
    (hread : answers.read = .whole) :
    DurableStore.openAndRestore disk config.storePath config.limits config.allowInitialize
        answers (fun _ => false) .whole =
      restoredState config (storeOver config (disk config.storePath)).report := by
  have hspec := @storeOpened_openStore disk config.storePath config.limits
    config.allowInitialize answers
  have hpath := hadmitted.2.1
  unfold DurableStore.openAndRestore
  generalize DurableStore.openStore disk config.storePath config.limits
    config.allowInitialize answers = outcome at hspec
  cases hspec with
  | refused hrefused _ => exact absurd hadmitted hrefused
  | @kept after _ husable hagree =>
      have hafter := hagree _ path_ne_lock
      cases hraw : disk config.storePath with
      | none =>
          rw [hraw] at hafter
          simp [DurableStore.restoreFrom, Disk.reports, hafter, restoredState, storeOver,
            DurableStore.report]
      | some raw =>
          rw [hraw] at hafter
          cases hload : (storeOver config (some raw)).load with
          | ok state =>
              have hwhole := @loadFrom_whole after raw
                { path := config.storePath, limits := config.limits, file := some raw } hafter
              have hrestored := hwhole.trans hload
              rw [restoredState_of_load hpath hload]
              simp [DurableStore.restoreFrom, Disk.reports, hafter, hrestored]
          | error error =>
              have hcode : error.code ≠ .notFound := load_finds rfl error hload
              have hfails : ({ path := config.storePath, limits := config.limits } :
                  DurableStore).loadFrom disk .whole = .error error :=
                (loadFrom_whole hraw).trans hload
              rw [hread] at husable
              exact absurd ⟨error, hfails, hcode⟩ husable
  | disallowed _ hload hcode hallowed _ =>
      rw [hread] at hload
      obtain ⟨raw, hraw, hfails⟩ := load_of_loadFrom hload hcode
      have hrefused := restoredState_of_error hpath hfails
      rw [show disk config.storePath = some raw from hraw, hrefused, hallowed]
      rfl
  | @recovered locked after _ hunusable hallowed hagree hafter =>
      rw [hread] at hunusable
      obtain ⟨error, hload, hcode⟩ := hunusable
      obtain ⟨raw, hraw, hfails⟩ := load_of_loadFrom hload hcode
      have hlocked : locked config.storePath = some raw := (hagree _ path_ne_lock).trans hraw
      rw [show disk config.storePath = some raw from hraw, restoredState_of_error hpath hfails,
        hallowed]
      rcases @quarantine_path locked config.storePath answers with hmoved | hstays
      · exact restoreFrom_of_error (loadFrom_of_none (hafter ▸ hmoved))
      · have hkept : after config.storePath = some raw := by rw [hafter, hstays, hlocked]
        exact restoreFrom_of_error ((loadFrom_whole hkept).trans hfails)

end Restoring

end ConstraintRouting.Fabric
