/-!
# Constraint-set lifecycle

The states of a constraint set definition, the events that drive it and the
transition table.  Only `active` admits.
-/

namespace ConstraintRouting.Fabric

inductive ConstraintSetState where
  | declared | active | suspended | revalidationRequired | revoked | superseded | retired
deriving DecidableEq

inductive LifecycleEvent where
  | activate | suspend | resume | requireRevalidation | revalidated | revoke
  | supersede | retire | reinstate
deriving DecidableEq

/-- The numeric protocol value of a state. -/
def ConstraintSetState.code : ConstraintSetState → UInt8
  | .declared => 1
  | .active => 2
  | .suspended => 3
  | .revalidationRequired => 4
  | .revoked => 5
  | .superseded => 6
  | .retired => 7

/-- The numeric protocol value of an event. -/
def LifecycleEvent.code : LifecycleEvent → UInt8
  | .activate => 1
  | .suspend => 2
  | .resume => 3
  | .requireRevalidation => 4
  | .revalidated => 5
  | .revoke => 6
  | .supersede => 7
  | .retire => 8
  | .reinstate => 9

/-- The transition table: the next state, or the text of the rejection. -/
def applyLifecycleEvent : ConstraintSetState → LifecycleEvent →
    Except String ConstraintSetState
  | .declared, .activate => .ok .active
  | .declared, .revoke => .ok .revoked
  | .declared, .supersede => .ok .superseded
  | .declared, .retire => .ok .retired
  | .declared, _ =>
      .error "declared set accepts only Activate, Revoke, Supersede or Retire"
  | .active, .suspend => .ok .suspended
  | .active, .requireRevalidation => .ok .revalidationRequired
  | .active, .revoke => .ok .revoked
  | .active, .supersede => .ok .superseded
  | .active, .retire => .ok .retired
  | .active, _ =>
      .error "active set accepts only Suspend, RequireRevalidation, Revoke, Supersede or Retire"
  | .suspended, .resume => .ok .active
  | .suspended, .requireRevalidation => .ok .revalidationRequired
  | .suspended, .revoke => .ok .revoked
  | .suspended, .supersede => .ok .superseded
  | .suspended, .retire => .ok .retired
  | .suspended, _ =>
      .error "suspended set accepts only Resume, RequireRevalidation, Revoke, Supersede or Retire"
  | .revalidationRequired, .revalidated => .ok .active
  | .revalidationRequired, .suspend => .ok .suspended
  | .revalidationRequired, .revoke => .ok .revoked
  | .revalidationRequired, .supersede => .ok .superseded
  | .revalidationRequired, .retire => .ok .retired
  | .revalidationRequired, _ =>
      .error "revalidation-required set accepts only Revalidated, Suspend, Revoke, Supersede or Retire"
  | .revoked, .retire => .ok .retired
  | .revoked, .supersede => .ok .superseded
  -- Reinstatement never restores admissibility directly.
  | .revoked, .reinstate => .ok .revalidationRequired
  | .revoked, _ => .error "revoked set accepts only Reinstate, Supersede or Retire"
  | .superseded, .retire => .ok .retired
  | .superseded, _ => .error "superseded set accepts only Retire"
  | .retired, _ => .error "retired set is terminal"

/-- The state permits an admissible outcome to be published. -/
def admitsAdmissibility (state : ConstraintSetState) : Bool := state = .active

end ConstraintRouting.Fabric
