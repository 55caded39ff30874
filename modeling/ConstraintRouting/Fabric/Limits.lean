import ConstraintRouting.Verified.Checks

/-!
# Resource limits

Every bound the runtime enforces, with the source's defaults, and the validation
of a limit set itself.
-/

namespace ConstraintRouting.Fabric

open Verified.Checks

/-- The bounds of one evaluation or of one coordinator. -/
structure Limits where
  maxConstraintSets : UInt32 := 64
  maxConstraintsPerSet : UInt32 := 256
  maxEntityRefsPerConstraint : UInt32 := 16
  maxFailedConstraintsPerEvaluation : UInt32 := 256
  maxCandidatesPerEvaluation : UInt32 := 64
  maxNodesPerCandidate : UInt32 := 64
  maxLinksPerCandidate : UInt32 := 64
  maxCapabilitiesPerEntity : UInt32 := 32
  maxDomainsPerEntity : UInt32 := 16
  maxLocalitiesPerEntity : UInt32 := 8
  maxPoliciesPerCandidate : UInt32 := 32
  maxExplanationReasons : UInt32 := 64
  maxBatchSize : UInt32 := 64
  maxPublishers : UInt32 := 32
  maxSessions : UInt32 := 32
  maxFrameBytes : UInt32 := (1 : UInt32) <<< 20
  maxFrameAssemblyBytes : UInt32 := (1 : UInt32) <<< 22
  maxPersistenceRecordBytes : UInt32 := (1 : UInt32) <<< 24
  maxEvaluationsRetained : UInt32 := 1024
  maxFencedBoots : UInt32 := 256
  maxMutationAttempts : UInt32 := 256
  maxNameBytes : UInt32 := 128
  maxDetailBytes : UInt32 := 512
  maxDecodedCount : UInt32 := (1 : UInt32) <<< 24
deriving DecidableEq

/-- Absolute ceiling of every count-like limit. -/
def kAbsoluteMaxLimit : UInt32 := (1 : UInt32) <<< 27

namespace Limits

/-- The named entries that `validateLimits` walks, in the source's order. -/
def entries (limits : Limits) : List (String × UInt32) :=
  [("max_constraint_sets", limits.maxConstraintSets),
   ("max_constraints_per_set", limits.maxConstraintsPerSet),
   ("max_entity_refs_per_constraint", limits.maxEntityRefsPerConstraint),
   ("max_failed_constraints_per_evaluation", limits.maxFailedConstraintsPerEvaluation),
   ("max_candidates_per_evaluation", limits.maxCandidatesPerEvaluation),
   ("max_nodes_per_candidate", limits.maxNodesPerCandidate),
   ("max_links_per_candidate", limits.maxLinksPerCandidate),
   ("max_capabilities_per_entity", limits.maxCapabilitiesPerEntity),
   ("max_domains_per_entity", limits.maxDomainsPerEntity),
   ("max_localities_per_entity", limits.maxLocalitiesPerEntity),
   ("max_policies_per_candidate", limits.maxPoliciesPerCandidate),
   ("max_explanation_reasons", limits.maxExplanationReasons),
   ("max_batch_size", limits.maxBatchSize),
   ("max_publishers", limits.maxPublishers),
   ("max_sessions", limits.maxSessions),
   ("max_frame_bytes", limits.maxFrameBytes),
   ("max_frame_assembly_bytes", limits.maxFrameAssemblyBytes),
   ("max_persistence_record_bytes", limits.maxPersistenceRecordBytes),
   ("max_evaluations_retained", limits.maxEvaluationsRetained),
   ("max_fenced_boots", limits.maxFencedBoots),
   ("max_mutation_attempts", limits.maxMutationAttempts),
   ("max_name_bytes", limits.maxNameBytes),
   ("max_detail_bytes", limits.maxDetailBytes)]

/-- One entry is positive and at most the absolute ceiling. -/
def check (entry : String × UInt32) : Except String Unit := do
  failIf (entry.2 = 0) s!"limit {entry.1} must be greater than zero"
  failIf (kAbsoluteMaxLimit < entry.2)
    s!"limit {entry.1} exceeds the absolute maximum"

end Limits

/-- Validates the limit set itself; the error is the source's `why` text. -/
def validateLimits (limits : Limits) : Except String Unit := do
  limits.entries.forM Limits.check
  failIf (limits.maxDecodedCount = 0 || kAbsoluteMaxLimit < limits.maxDecodedCount)
    "limit max_decoded_count is out of range"
  failIf (limits.maxFrameAssemblyBytes < limits.maxFrameBytes)
    "max_frame_assembly_bytes must be at least max_frame_bytes"
  failIf (limits.maxNodesPerCandidate < 2)
    "max_nodes_per_candidate must allow at least a two-node path"
  failIf (limits.maxExplanationReasons < 4)
    "max_explanation_reasons must allow at least four reasons"
  failIf (limits.maxPersistenceRecordBytes < 1024)
    "max_persistence_record_bytes must allow at least one kilobyte"

/-- Every entry of a validated limit set is positive. -/
theorem validateLimits_entry_pos {limits : Limits}
    (h : validateLimits limits = .ok ()) :
    ∀ entry ∈ limits.entries, entry.2 ≠ 0 := by
  intro entry hentry
  simp only [validateLimits, seq_eq_ok, forM_eq_ok] at h
  have hcheck := h.1 entry hentry
  simp only [Limits.check, seq_eq_ok, failIf_eq_ok] at hcheck
  simpa using hcheck.1

/-- A validated limit set keeps at least four explanation reasons. -/
theorem validateLimits_explanation {limits : Limits}
    (h : validateLimits limits = .ok ()) :
    4 ≤ limits.maxExplanationReasons := by
  simp only [validateLimits, seq_eq_ok, failIf_eq_ok, decide_eq_false_iff_not,
    UInt32.not_lt] at h
  exact h.2.2.2.2.1

end ConstraintRouting.Fabric
