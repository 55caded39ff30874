import ConstraintRouting.Fabric.Evaluation

/-!
# Deterministic candidate ordering

The ranking policy of a constraint set, the comparison of two admissible records
under it, and the admissible order of a batch.
-/

namespace ConstraintRouting.Fabric

open Verified.SortedLists

/-- Final tie-break of the ordering. -/
inductive CandidateTiebreak where
  | pathIdAscending | nodeSequenceLexicographic
deriving DecidableEq

def CandidateTiebreak.code : CandidateTiebreak → UInt8
  | .pathIdAscending => 1
  | .nodeSequenceLexicographic => 2

def CandidateTiebreak.read : ByteReader.Reader CandidateTiebreak :=
  ByteReader.enum8 [.pathIdAscending, .nodeSequenceLexicographic] CandidateTiebreak.code

/-- Explicit ordering policy. -/
structure RankingPolicy where
  consumePlannerRank : Bool := false
  consumePlannerCost : Bool := false
  preferLowerCost : Bool := true
  expectedCostModel : PlannerCostModel := .none
  tiebreak : CandidateTiebreak := .pathIdAscending
deriving DecidableEq

/-- Slot by slot: satisfied first, then the larger margin, then the larger
weight; a shorter vector first. -/
def comparePreferences : List PreferenceSlot → List PreferenceSlot → Ordering
  | [], [] => .eq
  | [], _ :: _ => .lt
  | _ :: _, [] => .gt
  | a :: as, b :: bs =>
      if a.satisfied != b.satisfied then if a.satisfied then .lt else .gt
      else if a.margin != b.margin then if b.margin < a.margin then .lt else .gt
      else if a.weight != b.weight then if b.weight < a.weight then .lt else .gt
      else comparePreferences as bs

/-- Lexicographic comparison of the traversed nodes. -/
def compareNodeSequences (a b : CandidatePath) : Ordering :=
  compare (a.nodes.map (·.node)) (b.nodes.map (·.node))

/-- Planner rank, when the policy consumes it. -/
def comparePlannerRank (a b : CandidatePath) (policy : RankingPolicy) : Ordering :=
  if !policy.consumePlannerRank then .eq
  else if a.hasPlannerRank != b.hasPlannerRank then if a.hasPlannerRank then .lt else .gt
  else if a.hasPlannerRank then compare a.plannerRank b.plannerRank
  else .eq

/-- Planner cost, when the policy consumes it. -/
def comparePlannerCost (a b : CandidatePath) (policy : RankingPolicy) : Ordering :=
  if !policy.consumePlannerCost then .eq
  else if a.hasPlannerCost != b.hasPlannerCost then if a.hasPlannerCost then .lt else .gt
  else if a.hasPlannerCost && a.plannerCost != b.plannerCost then
    let lowerIsBetter : Bool := a.plannerCost < b.plannerCost
    let firstWins := if policy.preferLowerCost then lowerIsBetter else !lowerIsBetter
    if firstWins then .lt else .gt
  else .eq

/-- The relation between two admissible records and their candidates. -/
def compareRanked (a : EvaluationRecord) (candidateA : CandidatePath)
    (b : EvaluationRecord) (candidateB : CandidatePath) (policy : RankingPolicy) :
    Ordering :=
  (comparePreferences a.preferences b.preferences).then <|
  (comparePlannerRank candidateA candidateB policy).then <|
  (comparePlannerCost candidateA candidateB policy).then <|
  (if policy.tiebreak = .nodeSequenceLexicographic then
    compareNodeSequences candidateA candidateB else .eq).then <|
  compare candidateA.path candidateB.path

/-- Orders the admissible records of a batch; `records` and `candidates` are
parallel. -/
def orderAdmissible (records : List EvaluationRecord) (candidates : List CandidatePath)
    (policy : RankingPolicy) : List RankedCandidate :=
  if records.length != candidates.length then []
  else
    let admissible := records.zipIdx.filterMap fun (record, index) =>
      if record.isAdmissible then some ⟨record.path, UInt32.ofNat index⟩ else none
    sortBy (fun a b =>
      compareRanked (records.getD a.recordIndex.toNat {}) (candidates.getD a.recordIndex.toNat {})
        (records.getD b.recordIndex.toNat {}) (candidates.getD b.recordIndex.toNat {})
        policy) admissible

def encodeRankingPolicy (policy : RankingPolicy) : List UInt8 :=
  ByteWriter.putBool policy.consumePlannerRank ++
  ByteWriter.putBool policy.consumePlannerCost ++
  ByteWriter.putBool policy.preferLowerCost ++
  ByteWriter.putU8 policy.expectedCostModel.code ++
  ByteWriter.putU8 policy.tiebreak.code ++
  ByteWriter.putU16 0

def decodeRankingPolicy : ByteReader.Reader RankingPolicy := do
  let consumePlannerRank ← ByteReader.boolean
  let consumePlannerCost ← ByteReader.boolean
  let preferLowerCost ← ByteReader.boolean
  let expectedCostModel ← PlannerCostModel.read
  let tiebreak ← CandidateTiebreak.read
  ByteReader.padding16
  return { consumePlannerRank, consumePlannerCost, preferLowerCost, expectedCostModel,
           tiebreak }

def feedRankingPolicy (policy : RankingPolicy) : List UInt8 :=
  SemanticHasher.putBool policy.consumePlannerRank ++
  SemanticHasher.putBool policy.consumePlannerCost ++
  SemanticHasher.putBool policy.preferLowerCost ++
  SemanticHasher.putU8 policy.expectedCostModel.code ++
  SemanticHasher.putU8 policy.tiebreak.code

end ConstraintRouting.Fabric
