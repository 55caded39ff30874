import ConstraintRouting.Fabric.Coordinator

/-!
# Store files

Opening, loading and saving a durable store, with every file that they touch and every
answer of the operating system: the lock file, the temporary file and the quarantine names.
-/

namespace ConstraintRouting.Fabric

/-- The files of a file system, by path. -/
abbrev Disk := String → Option (List UInt8)

namespace Disk

/-- Changes the file under one name. -/
def put (disk : Disk) (name : String) (content : Option (List UInt8)) : Disk :=
  Function.update disk name content

/-- Moves a file over whatever the target names. -/
def rename (disk : Disk) (source target : String) : Disk :=
  (disk.put source none).put target (disk source)

/-- Whether a file is reported under a name; a query that fails reports none. -/
def reports (disk : Disk) (failing : String → Bool) (name : String) : Bool :=
  !failing name && (disk name).isSome

end Disk

/-! ## Answers of the operating system -/

/-- What is answered to the request for the lock of a store. -/
inductive LockAnswer where
  | granted | badPath | cannotOpen | owned
deriving DecidableEq

def LockAnswer.status : LockAnswer → Status
  | .granted => .ok ()
  | .badPath => failure .invalidArgument "durable store path is not valid UTF-8"
  | .cannotOpen =>
      failure .persistenceUnavailable "cannot open the durable store lock file"
  | .owned =>
      failure .persistenceUnavailable
        "durable store is already owned by another open coordinator"

/-- How reading a file goes.  A file that is missed counts as one that does not exist:
outside Windows every file that cannot be opened. -/
inductive ReadAnswer where
  | whole | missed | broken
deriving DecidableEq

/-- What is answered while a store is opened. -/
structure OpenAnswers where
  lock : LockAnswer := .granted
  read : ReadAnswer := .whole
  /-- The names whose status query fails. -/
  failing : String → Bool := fun _ => false
  renamed : Bool := true

/-- What is answered to an atomic replacement, and what a failed one leaves under the
temporary name. -/
structure WriteAnswer where
  outcome : WriteOutcome := .written
  leftover : Option (List UInt8) := none

/-! ## The store -/

/-- Takes the lock file of a store, which is created when it is not there. -/
def acquireStoreLock (disk : Disk) (path : String) (answer : LockAnswer) : Disk × Status :=
  let name := path ++ ".lock"
  match answer with
  | .granted | .owned => (disk.put name (some ((disk name).getD [])), answer.status)
  | .badPath | .cannotOpen => (disk, answer.status)

/-- Writes a temporary file and renames it over the target. -/
def atomicWrite (disk : Disk) (path : String) (data : List UInt8) (answer : WriteAnswer) :
    Disk × Status :=
  let temporary := path ++ ".tmp"
  match answer.outcome with
  | .written => ((disk.put temporary none).put path (some data), .ok ())
  | .cannotCreate => (disk, answer.outcome.status)
  | .cannotWrite | .cannotFlush | .cannotReplace =>
      (disk.put temporary answer.leftover, answer.outcome.status)

namespace DurableStore

/-- Loads what is read of the store file. -/
def loadFrom (store : DurableStore) (disk : Disk) (read : ReadAnswer) :
    Result PersistentState :=
  match disk store.path, read with
  | some raw, .whole => { store with file := some raw }.load
  | some _, .broken =>
      failure .persistenceUnavailable "durable store file could not be read"
  | some _, .missed | none, _ =>
      failure .notFound "durable store file does not exist"

/-- The quarantine name of one attempt. -/
def quarantineName (path : String) (attempt : Nat) : String :=
  path ++ ".quarantine-" ++ toString attempt

/-- The names that are tried, in order. -/
def quarantineNames (path : String) : List String :=
  (List.range 64).map fun index => quarantineName path (index + 1)

/-- The first name under which no file is reported. -/
def freeName (disk : Disk) (path : String) (failing : String → Bool) : Option String :=
  (quarantineNames path).find? fun name => !disk.reports failing name

/-- Moves the store file to the first free name.  Where every name is taken, and where the
move fails, it stays. -/
def quarantine (disk : Disk) (path : String) (answers : OpenAnswers) : Disk :=
  match freeName disk path answers.failing with
  | none => disk
  | some name => if answers.renamed then disk.rename path name else disk

/-- Opens the store at a path.  A file that does not hold a valid state is quarantined when
a fresh store is allowed, and refused otherwise. -/
def openStore (disk : Disk) (path : String) (limits : Limits) (allowInitialize : Bool)
    (answers : OpenAnswers) : Disk × Result DurableStore :=
  match validateLimits limits with
  | .error why => (disk, failure .invalidArgument why)
  | .ok () =>
      if path = "" then (disk, failure .invalidArgument "durable store path is empty")
      else
        match acquireStoreLock disk path answers.lock with
        | (locked, .error error) => (locked, .error error)
        | (locked, .ok ()) =>
            let store : DurableStore := { path, limits }
            match store.loadFrom locked answers.read with
            | .ok _ => (locked, .ok { store with file := locked path })
            | .error existing =>
                if existing.code = .notFound then
                  (locked, .ok { store with file := locked path })
                else if !allowInitialize then
                  (locked, failure existing.code
                    ("durable store exists but is not usable: " ++ existing.detail))
                else
                  let moved := quarantine locked path answers
                  (moved, .ok { store with file := moved path })

/-- Validates, encodes and atomically replaces the store file. -/
def saveTo (store : DurableStore) (disk : Disk) (state : PersistentState)
    (answer : WriteAnswer) : Disk × DurableStore × Status :=
  match validatePersistentState state store.limits with
  | .error error => (disk, store, .error error)
  | .ok () =>
      let payload := encodePersistentState state
      if !listWithin payload store.limits.maxPersistenceRecordBytes then
        (disk, { store with failures := store.failures + 1 },
          failure .resourceLimit "persistent state exceeds the record size limit")
      else
        match atomicWrite disk store.path (encodeEnvelope payload) answer with
        | (written, .error error) =>
            (written, { store with failures := store.failures + 1 }, .error error)
        | (written, .ok ()) =>
            (written, { store with
              file := some (encodeEnvelope payload), writes := store.writes + 1 }, .ok ())

/-- The state that a coordinator restores from the store it opened. -/
def restoreFrom (store : DurableStore) (disk : Disk) (allowInitialize : Bool)
    (failing : String → Bool) (read : ReadAnswer) : Result (Option PersistentState) :=
  if !disk.reports failing store.path then .ok none
  else
    match store.loadFrom disk read with
    | .ok state => .ok (some state)
    | .error error => if !allowInitialize then .error error else .ok none

/-- Opens the store at a path and restores what a coordinator starts from. -/
def openAndRestore (disk : Disk) (path : String) (limits : Limits) (allowInitialize : Bool)
    (answers : OpenAnswers) (failing : String → Bool) (read : ReadAnswer) :
    Result (Option PersistentState) :=
  match openStore disk path limits allowInitialize answers with
  | (_, .error error) => .error error
  | (opened, .ok store) => store.restoreFrom opened allowInitialize failing read

end DurableStore

end ConstraintRouting.Fabric
