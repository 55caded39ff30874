import Mathlib.Algebra.Ring.Nat
import ConstraintRouting.Fabric.Lifetimes

/-!
# A store and its coordinators

Processes open one store file, serve critical sections and are stopped, in any order.  The
store has one owner as far as the lock on its lock file excludes a second one.
-/

namespace ConstraintRouting.Fabric

open Verified.Checks (isOk)
open Verified.StepMachine

/-! ## Steps at a store -/

/-- The platform, which decides what the lock excludes. -/
inductive Platform where
  | windows | posix
deriving DecidableEq

/-- An open coordinator and its process. -/
structure Hosted where
  process : Nat
  state : SystemState

/-- A store file, the process that holds the lock, and the open coordinators, the oldest
first. -/
structure Site where
  file : Option (List UInt8) := none
  holder : Option Nat := none
  coordinators : List Hosted := []

/-- What happens at a store.  Of an open or a section only the replacement of the file
outlasts the process, so one that is stopped midway was taken or it was not. -/
inductive Incident where
  | start (process : Nat) (config : CoordinatorConfig) (call : Call)
  | serve (position : Nat) (input : Input)
  | stop (position : Nat)

inductive SiteOutcome where
  | started (impl : Impl)
  | refused (error : Error)
  | served (reply : Reply)
  | stopped

/-- The coordinator with the bytes that its store file has now. -/
def SystemState.over (state : SystemState) (file : Option (List UInt8)) : SystemState :=
  { state with impl :=
      { state.impl with store := state.impl.store.map fun store => { store with file } } }

/-- The file is not there, or it can be loaded. -/
def DurableStore.loads (store : DurableStore) : Bool := store.file.isNone || isOk store.load

namespace Site

/-- The lock on the lock file is granted.  On Windows the file is opened without sharing;
elsewhere it carries a record lock, which belongs to the process and does not exclude the
process itself. -/
def grants (platform : Platform) (site : Site) (process : Nat) : Bool :=
  match platform with
  | .windows => site.coordinators.isEmpty
  | .posix => site.holder.all (· == process)

/-- The process closes the lock file, which drops its record lock whichever descriptor it
was taken through. -/
def release (site : Site) (process : Nat) : Site :=
  if site.holder = some process then { site with holder := none } else site

/-- A process opens a coordinator over the store. -/
def start (platform : Platform) (site : Site) (process : Nat) (config : CoordinatorConfig)
    (call : Call) : Site × SiteOutcome :=
  match validateLimits config.limits with
  | .error why => (site, .refused { code := .invalidArgument, detail := why })
  | .ok () =>
      if !site.grants platform process then
        (site, .refused
          { code := .persistenceUnavailable
            detail := "durable store is already owned by another open coordinator" })
      else
        match openCoordinator config (storeOver config site.file).report call with
        | .error error => (site.release process, .refused error)
        | .ok impl =>
            ({ file := impl.storeFile, holder := some process
               coordinators := site.coordinators ++ [{ process, state := { impl } }] },
             .started impl)

/-- A coordinator serves a critical section. -/
def serve (site : Site) (position : Nat) (input : Input) : Option (Site × SiteOutcome) :=
  site.coordinators[position]?.bind fun hosted =>
    (Fabric.step (hosted.state.over site.file) input).map fun (state, reply) =>
      ({ site with
         file := state.impl.storeFile
         coordinators := site.coordinators.set position { hosted with state } },
       .served reply)

/-- A coordinator is gone, and its descriptor of the lock file with it. -/
def stop (site : Site) (position : Nat) : Option (Site × SiteOutcome) :=
  site.coordinators[position]?.map fun hosted =>
    ({ site.release hosted.process with
       coordinators := site.coordinators.eraseIdx position }, .stopped)

/-- One step at a store that stays loadable: it is not opened over a file that is there and
cannot be loaded. -/
def step (platform : Platform) (path : String) (site : Site) :
    Incident → Option (Site × SiteOutcome)
  | .start process config call =>
      if config.storePath = path ∧ (storeOver config site.file).loads = true then
        some (site.start platform process config call)
      else none
  | .serve position input => site.serve position input
  | .stop position => site.stop position

end Site

/-- One step at a store that was taken. -/
abbrev SiteEvent := Verified.StepMachine.Event Site Incident SiteOutcome

/-! ## What is saved -/

/-- The state that a staged operation leaves in its store. -/
def Staged.saved {α : Type} (call : Call) : Staged α → Option PersistentState
  | .reply _ _ => none
  | .write impl next _ _ => if isOk (impl.persist next call).2 then some next else none

/-- The state that a critical section leaves in its store. -/
def SystemState.saved (state : SystemState) (input : Input) : Option PersistentState :=
  match input.action with
  | .operate operation => (operation.stage state.impl input.call).saved input.call
  | .evaluateFinish ticket =>
      match state.flights ticket with
      | some (.evaluating snapshot) =>
          (evaluateFinish state.impl snapshot input.call).bind (·.saved input.call)
      | _ => none
  | _ => none

/-- The state that a step at a store saved. -/
def savedBy (event : SiteEvent) : Option PersistentState :=
  match event.input, event.output with
  | .start _ _ _, .started impl => some impl.toState
  | .serve position input, _ =>
      event.pre.coordinators[position]?.bind fun hosted =>
        (hosted.state.over event.pre.file).saved input
  | _, _ => none

/-- The last state that was saved. -/
def lastSaved (first : Option PersistentState) (events : List SiteEvent) :
    Option PersistentState :=
  events.foldl (fun last event => savedBy event <|> last) first

theorem lastSaved_concat (first : Option PersistentState) (events : List SiteEvent)
    (event : SiteEvent) :
    lastSaved first (events ++ [event]) = (savedBy event <|> lastSaved first events) := by
  unfold lastSaved
  rw [List.foldl_append]
  rfl

end ConstraintRouting.Fabric
