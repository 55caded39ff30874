import ConstraintRouting.Verified.Checks

/-!
# Status and result plumbing

A fallible call of the source returns a `Status` or a `Result`; both are an
`Except` over the coarse error code and its human-readable detail.
-/

namespace ConstraintRouting.Fabric

/-- Coarse failure domain of a call. -/
inductive ErrorCode where
  | invalidArgument | malformed | resourceLimit | contradictoryConstraintSet
  | duplicateIdentity | unknownConstraintKind | invalidNumericBound
  | impossibleGeneration | notFound | unauthorized | fenced | epochMismatch
  | staleGeneration | idempotentReplay | mutationAttemptConflict
  | persistenceUnavailable | persistenceCorrupt | durableWriteFailed
  | integrityMismatch | unsupportedVersion | truncated | trailingBytes
  | transportFailure | protocolViolation | notSupported | internal
deriving DecidableEq

/-- A failure: its code and its detail text. -/
structure Error where
  code : ErrorCode
  detail : String
deriving DecidableEq

/-- Result of a call that produces a value. -/
abbrev Result (α : Type) := Except Error α

/-- Status of a call without a value. -/
abbrev Status := Result Unit

/-- A failed call with its code and detail. -/
def failure {α : Type} (code : ErrorCode) (detail : String) : Result α :=
  .error ⟨code, detail⟩

/-- Fail with the code and detail when the condition holds. -/
def failIf (condition : Bool) (code : ErrorCode) (detail : String) : Status :=
  Verified.Checks.failIf condition ⟨code, detail⟩

theorem failIf_eq_ok {condition : Bool} {code : ErrorCode} {detail : String} :
    failIf condition code detail = .ok () ↔ condition = false :=
  Verified.Checks.failIf_eq_ok

end ConstraintRouting.Fabric
