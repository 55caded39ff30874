import ConstraintRouting.Fabric.Acknowledgement
import ConstraintRouting.Fabric.Feeds
import ConstraintRouting.Fabric.Resubmission

/-!
# Attempts that are used again

Another request under an attempt that the window retains is told apart by its payload.  The
payload of a fence covers nothing, that of a publication neither the evidence requirements
nor the ranking, and that of an evaluation not the ticks of the candidates' evidence.
-/

namespace ConstraintRouting.Fabric

open Verified.StepMachine
open SemanticHasher
open Verified.PrefixCodes

/-! ## What a payload covers -/

/-- What the payload of a request covers. -/
inductive Coverage where
  | unspecific
  | publication (setId : ConstraintSetId) (constraints : List Constraint)
  | lifecycle (setId : ConstraintSetId) (event : LifecycleEvent)
  | evidence (requirements : EvidenceRequirements)
  | invalidation (key : InvalidationKey)
  | evaluation (setId : ConstraintSetId) (expectedGeneration : ConstraintSetGeneration)
      (candidates : List CandidatePath) (topology : TopologyGeneration)
      (capability : CapabilityGeneration)
deriving DecidableEq

/-- What the payload of a mutation covers, where the evidence stands. -/
def Mutation.coverage (standing : EvidenceRequirements) : Mutation → Coverage
  | .fence _ => .unspecific
  | .publish set => .publication set.id set.constraints
  | .lifecycle setId event => .lifecycle setId event
  | .evidence requirements => .evidence requirements
  | .invalidate key => .invalidation key
  | .evaluate setId candidates expectedGeneration =>
      .evaluation setId expectedGeneration (candidates.map CandidatePath.untimed)
        standing.topology standing.capability

namespace Coverage

/-- What a payload is hashed from, under its domain label, if it is hashed. -/
def feed : Coverage → Option (String × List UInt8)
  | .unspecific => none
  | .publication setId constraints =>
      some ("crf.publish.v1", putId setId ++ putAll feedDigest constraints)
  | .lifecycle setId event => some ("crf.lifecycle.v1", putId setId ++ putU8 event.code)
  | .evidence requirements =>
      some ("crf.evidence-requirements.v1", feedEvidenceRequirements requirements)
  | .invalidation key =>
      some ("crf.invalidate-key.v1", putU8 key.kind.code ++ putU64 key.value)
  | .evaluation setId expectedGeneration candidates topology capability =>
      some ("crf.evaluate.v1", putU64 (requestDigest candidates setId expectedGeneration) ++
        putGeneration topology ++ putGeneration capability)

/-- The payload that is recorded. -/
def payload (coverage : Coverage) : Digest256 :=
  (coverage.feed.map fun (label, fed) => digestOf label fed).getD {}

/-- The payloads of different requests coincide. -/
def Collides (one other : Coverage) : Prop := one ≠ other ∧ one.payload = other.payload

end Coverage

/-- The section submits the mutation under the attempt. -/
structure Requests (event : Event) (attempt : MutationAttemptId) (mutation : Mutation) : Prop where
  asks : asks event = some (attempt, mutation)
  submits : (event.pre.submission event.input.action).isSome = true

/-- An attempt was recorded for one mutation, and is used for another while the window
retains it. -/
structure Reuses (first : Event) (between : List Event) (again : Event)
    (attempt : MutationAttemptId) (one other : Mutation) : Prop where
  recorded : Requests first attempt one
  reused : Requests again attempt other
  unseen : first.pre.impl.authority.findAttempt attempt = none
  retained : ∀ event ∈ first :: between,
    (event.post.impl.authority.findAttempt attempt).isSome = true

/-- The section is classified as a conflict, refused as one, and leaves the coordinator as it
was. -/
structure Conflicts (event : Event) : Prop where
  classified : event.pre.verdict event.input = some .conflict
  answered : some event.output = event.pre.answer .conflict event.input.action
  unchanged : event.post.impl = event.pre.impl

/-- What the payload of the later mutation covers differs from what that of the earlier one
does, and the payloads differ with it. -/
def ToldApart (first again : Event) (one other : Mutation) : Prop :=
  let before := one.coverage first.pre.impl.evidence
  let after := other.coverage again.pre.impl.evidence
  after ≠ before ∧ ¬ after.Collides before

/-! ## Payloads -/

theorem candidateDigest_untimed (candidate : CandidatePath) :
    candidateDigest candidate.untimed = candidateDigest candidate := by
  unfold candidateDigest
  rw [feedCandidate_untimed]

theorem requestDigest_untimed {setId : ConstraintSetId} {candidates : List CandidatePath}
    {expectedGeneration : ConstraintSetGeneration} :
    requestDigest candidates setId expectedGeneration =
      requestDigest (candidates.map CandidatePath.untimed) setId expectedGeneration := by
  have hitems : putAll (fun candidate =>
        putId candidate.path ++ putDigest (candidateDigest candidate)) candidates =
      putAll (fun candidate =>
        putId candidate.path ++ putDigest (candidateDigest candidate))
        (candidates.map CandidatePath.untimed) := by
    simp only [putAll, putCount, List.length_map, List.flatMap_map, candidateDigest_untimed]
    rfl
  unfold requestDigest
  rw [hitems]

/-- The payload that a mutation submits. -/
def Mutation.digest (standing : EvidenceRequirements) : Mutation → Digest256
  | .fence _ => {}
  | .publish set => publishDigest set
  | .lifecycle setId event => lifecycleDigest setId event
  | .evidence requirements => evidenceDigest requirements
  | .invalidate key => invalidateDigest key
  | .evaluate setId candidates expectedGeneration =>
      evaluateDigest standing setId candidates expectedGeneration

theorem Mutation.payload_coverage (standing : EvidenceRequirements) (mutation : Mutation) :
    (mutation.coverage standing).payload = mutation.digest standing := by
  cases mutation with
  | evaluate setId candidates expectedGeneration =>
      simp only [coverage, digest, Coverage.payload, Coverage.feed, evaluateDigest,
        Option.map_some, Option.getD_some]
      rw [← requestDigest_untimed]
  | fence => simp only [coverage, digest, Coverage.payload, Coverage.feed, Option.map_none,
      Option.getD_none]
  | publish | lifecycle | evidence | invalidate =>
      simp only [coverage, digest, Coverage.payload, Coverage.feed, publishDigest,
        lifecycleDigest, evidenceDigest, invalidateDigest, Option.map_some, Option.getD_some]

/-- The payload that a section submits is that of its mutation. -/
theorem Requests.submission {event : Event} {attempt : MutationAttemptId} {mutation : Mutation}
    (h : Requests event attempt mutation) :
    ∃ context, context.attempt = attempt ∧ event.pre.submission event.input.action =
      some (context, mutation.digest event.pre.impl.evidence) := by
  obtain ⟨hasks, hsubmits⟩ := h
  obtain ⟨pre, ⟨action, call⟩, output, post⟩ := event
  dsimp only at hasks hsubmits ⊢
  cases action with
  | evaluateFinish | revalidateRead => cases hsubmits
  | evaluateBegin context =>
      cases hasks
      exact ⟨context, rfl, rfl⟩
  | revalidateBegin ticket =>
      unfold SystemState.submission at hsubmits ⊢
      dsimp only at hsubmits ⊢
      split at hsubmits
      · next context setId population hflight =>
          simp only [Fabric.asks, evaluationAsked, hflight] at hasks
          cases hasks
          exact ⟨context, rfl, rfl⟩
      · cases hsubmits
  | operate operation =>
      cases operation with
      | registerPublisher | fenceOnSessionLoss | dropSession | observeAttempt | flush =>
          cases hasks
      | advanceFamily context family generation =>
          unfold SystemState.submission Operation.submission at hsubmits ⊢
          dsimp only at hsubmits ⊢
          simp only [Fabric.asks, Operation.asks] at hasks
          obtain ⟨requirements, hfamily, hsame⟩ := Option.map_eq_some_iff.mp hasks
          cases hsame
          refine ⟨context, rfl, ?_⟩
          split at hsubmits
          · next hrepresentable =>
              rw [if_pos hrepresentable, hfamily]
              rfl
          · cases hsubmits
      | fenceBoot context | publishConstraintSet context | applyLifecycle context
      | setEvidenceRequirements context | invalidateKey context =>
          cases hasks
          exact ⟨context, rfl, rfl⟩

/-! ## Payloads that coincide -/

namespace Coverage

/-- The collections of a request fit their counts. -/
def Fits : Coverage → Prop
  | .publication _ constraints => Counted Constraint.Fits constraints
  | .evaluation _ _ candidates _ _ => Counted CandidatePath.Fits candidates
  | _ => True

/-- The bytes that the request of an evaluation is hashed from. -/
def requestFeed (setId : ConstraintSetId) (expectedGeneration : ConstraintSetGeneration)
    (candidates : List CandidatePath) : List UInt8 :=
  putId setId ++ putGeneration expectedGeneration ++ putAll (fun candidate =>
    putId candidate.path ++ putDigest (candidateDigest candidate)) candidates

/-- Every byte string that is hashed for a payload. -/
def hashed (coverage : Coverage) : List (List UInt8) :=
  (coverage.feed.map fun (label, fed) => putString label ++ fed).toList ++
    match coverage with
    | .evaluation setId expectedGeneration candidates _ _ =>
        (putString "crf.evaluation-request.v1" ++
            requestFeed setId expectedGeneration candidates) ::
          candidates.map fun candidate =>
            putString "crf.candidate.v1" ++ feedCandidate candidate
    | _ => []

end Coverage

/-- Two lists of one image have different elements of one image, or are equal. -/
theorem eq_or_exists_of_map_eq {α β : Type} {f : α → β} {xs ys : List α}
    (h : xs.map f = ys.map f) : xs = ys ∨ ∃ x ∈ xs, ∃ y ∈ ys, x ≠ y ∧ f x = f y := by
  induction xs generalizing ys with
  | nil =>
      left
      exact (List.map_eq_nil_iff.mp h.symm).symm
  | cons x xs ih =>
      cases ys with
      | nil => cases h
      | cons y ys =>
          obtain ⟨hhead, htail⟩ := List.cons.inj h
          by_cases hsame : x = y
          · subst hsame
            rcases ih htail with rfl | ⟨a, ha, b, hb, hdiffers⟩
            · exact .inl rfl
            · exact .inr ⟨a, List.mem_cons_of_mem _ ha, b, List.mem_cons_of_mem _ hb, hdiffers⟩
          · exact .inr ⟨x, List.mem_cons_self, y, List.mem_cons_self, hsame, hhead⟩

/-- A short label and what follows it are determined by their bytes. -/
theorem putString_append_inj {label other : String} {rest rest' : List UInt8}
    (hlabel : label.toUTF8.toList.length < 2 ^ 64) (hother : other.toUTF8.toList.length < 2 ^ 64)
    (h : putString label ++ rest = putString other ++ rest') :
    label.toUTF8.toList = other.toUTF8.toList ∧ rest = rest' := by
  unfold putString putBytes at h
  rw [List.append_assoc, List.append_assoc] at h
  obtain ⟨hcount, hdata⟩ := putU64_prefixCode h
  have hlength : label.toUTF8.toList.length = other.toUTF8.toList.length := by
    have hcounts := congrArg UInt64.toNat hcount
    simpa only [UInt64.toNat_ofNat', Nat.mod_eq_of_lt hlabel, Nat.mod_eq_of_lt hother]
      using hcounts
  exact List.append_inj hdata hlength

theorem LifecycleEvent.code_injective : Function.Injective LifecycleEvent.code := by
  intro a b h
  cases a <;> cases b <;> first | rfl | exact absurd h (by decide)

namespace Coverage

/-- The labels of payloads. -/
def labels : List String :=
  ["crf.publish.v1", "crf.lifecycle.v1", "crf.evidence-requirements.v1",
    "crf.invalidate-key.v1", "crf.evaluate.v1"]

private theorem labels_apart :
    ∀ label ∈ labels, label.toUTF8.toList.length < 2 ^ 64 ∧
      ∀ other ∈ labels, label.toUTF8.toList = other.toUTF8.toList → label = other := by
  decide +kernel

theorem label_mem {coverage : Coverage} {label : String} {fed : List UInt8}
    (h : coverage.feed = some (label, fed)) : label ∈ labels := by
  cases coverage <;> cases h <;> simp [labels]

/-- The bytes that payloads are hashed from determine what they are fed with. -/
theorem feed_of_bytes {one other : Coverage} {label otherLabel : String} {fed otherFed : List UInt8}
    (hone : one.feed = some (label, fed)) (hother : other.feed = some (otherLabel, otherFed))
    (h : putString label ++ fed = putString otherLabel ++ otherFed) : one.feed = other.feed := by
  obtain ⟨hshort, hapart⟩ := labels_apart label (label_mem hone)
  have hotherShort := (labels_apart otherLabel (label_mem hother)).1
  obtain ⟨hlabels, hfed⟩ := putString_append_inj hshort hotherShort h
  rw [hone, hother, hapart otherLabel (label_mem hother) hlabels, hfed]

/-- What is fed determines what is covered, for an evaluation up to its request. -/
theorem eq_of_feed {one other : Coverage} (hone : one.Fits) (hother : other.Fits)
    (hspecific : one ≠ .unspecific) (h : one.feed = other.feed) :
    one = other ∨ ∃ setId expectedGeneration candidates setId' expectedGeneration' candidates'
      topology capability,
      one = .evaluation setId expectedGeneration candidates topology capability ∧
      other = .evaluation setId' expectedGeneration' candidates' topology capability ∧
      requestDigest candidates setId expectedGeneration =
        requestDigest candidates' setId' expectedGeneration' := by
  cases one with
  | unspecific => exact absurd rfl hspecific
  | publication setId constraints =>
      cases other with
      | publication setId' constraints' =>
          left
          simp only [feed, Option.some.injEq, Prod.mk.injEq, true_and] at h
          obtain ⟨rfl, hrest⟩ := putId_prefixCode h
          obtain ⟨rfl, -⟩ := (putAll_append_inj feedDigest_prefixCode hone hother).mp
            (congrArg (· ++ ([] : List UInt8)) hrest)
          rfl
      | _ => simp [feed] at h
  | lifecycle setId event =>
      cases other with
      | lifecycle setId' event' =>
          left
          simp only [feed, Option.some.injEq, Prod.mk.injEq, true_and] at h
          obtain ⟨rfl, hrest⟩ := putId_prefixCode h
          rw [LifecycleEvent.code_injective (putU8_prefixCode.injective hrest)]
      | _ => simp [feed] at h
  | evidence requirements =>
      cases other with
      | evidence requirements' =>
          left
          simp only [feed, Option.some.injEq, Prod.mk.injEq, true_and] at h
          rw [feedEvidenceRequirements_prefixCode.injective h]
      | _ => simp [feed] at h
  | invalidation key =>
      cases other with
      | invalidation key' =>
          left
          simp only [feed, Option.some.injEq, Prod.mk.injEq, true_and] at h
          obtain ⟨hkind, hrest⟩ := putU8_prefixCode h
          rw [InvalidationKey.ext (InvalidationKeyKind.code_injective hkind)
            (putU64_prefixCode.injective hrest)]
      | _ => simp [feed] at h
  | evaluation setId expectedGeneration candidates topology capability =>
      cases other with
      | evaluation setId' expectedGeneration' candidates' topology' capability' =>
          right
          simp only [feed, Option.some.injEq, Prod.mk.injEq, true_and, List.append_assoc] at h
          obtain ⟨hrequest, hrest⟩ := putU64_prefixCode h
          obtain ⟨rfl, hlast⟩ := putGeneration_prefixCode hrest
          obtain rfl := putGeneration_prefixCode.injective hlast
          exact ⟨_, _, _, _, _, _, _, _, rfl, rfl, hrequest⟩
      | _ => simp [feed] at h

/-- The bytes of a request determine it, up to the digests of its candidates. -/
theorem eq_of_requestFeed {setId setId' : ConstraintSetId}
    {expectedGeneration expectedGeneration' : ConstraintSetGeneration}
    {candidates candidates' : List CandidatePath} (hfits : candidates.length < 2 ^ 32)
    (hfits' : candidates'.length < 2 ^ 32)
    (h : requestFeed setId expectedGeneration candidates =
      requestFeed setId' expectedGeneration' candidates') :
    setId = setId' ∧ expectedGeneration = expectedGeneration' ∧
      candidates.map candidateDigest = candidates'.map candidateDigest := by
  have hitem : PrefixCode fun item : PathId × Digest256 => putId item.1 ++ putDigest item.2 := by
    intro a b rest rest' hcode
    simp only [List.append_assoc, putId_prefixCode.append_inj, putDigest_prefixCode.append_inj]
      at hcode
    exact ⟨Prod.ext hcode.1 hcode.2.1, hcode.2.2⟩
  have hmap : ∀ list : List CandidatePath, putAll (fun candidate =>
        putId candidate.path ++ putDigest (candidateDigest candidate)) list =
      putAll (fun item : PathId × Digest256 => putId item.1 ++ putDigest item.2)
        (list.map fun candidate => (candidate.path, candidateDigest candidate)) := by
    intro list
    simp only [putAll, putCount, List.length_map, List.flatMap_map]
  unfold requestFeed at h
  rw [List.append_assoc, List.append_assoc, hmap, hmap] at h
  obtain ⟨rfl, hrest⟩ := putId_prefixCode h
  obtain ⟨rfl, hitems⟩ := putGeneration_prefixCode hrest
  have hlists := ((putAll_append_inj hitem.on ⟨by simpa using hfits, fun _ _ => trivial⟩
    ⟨by simpa using hfits', fun _ _ => trivial⟩).mp
      (congrArg (· ++ ([] : List UInt8)) hitems)).1
  have hdigests := congrArg (List.map Prod.snd) hlists
  simp only [List.map_map] at hdigests
  exact ⟨rfl, rfl, hdigests⟩

/-- Different evaluations with one request digest hash two byte strings, of the requests or of
two candidates, to digests that agree in their first 64 bits. -/
theorem evaluations_hashed {setId setId' : ConstraintSetId}
    {expectedGeneration expectedGeneration' : ConstraintSetGeneration}
    {candidates candidates' : List CandidatePath} {topology : TopologyGeneration}
    {capability : CapabilityGeneration}
    (hdiffers : evaluation setId expectedGeneration candidates topology capability ≠
      evaluation setId' expectedGeneration' candidates' topology capability)
    (hfits : Counted CandidatePath.Fits candidates)
    (hfits' : Counted CandidatePath.Fits candidates')
    (hrequest : requestDigest candidates setId expectedGeneration =
      requestDigest candidates' setId' expectedGeneration') :
    ∃ bytes ∈ (evaluation setId expectedGeneration candidates topology capability).hashed,
      ∃ bytes' ∈ (evaluation setId' expectedGeneration' candidates' topology capability).hashed,
        bytes ≠ bytes' ∧ (Sha256.digest bytes).leadingU64 = (Sha256.digest bytes').leadingU64 := by
  by_cases hfeeds : requestFeed setId expectedGeneration candidates =
      requestFeed setId' expectedGeneration' candidates'
  · obtain ⟨rfl, rfl, hdigests⟩ := eq_of_requestFeed hfits.1 hfits'.1 hfeeds
    rcases eq_or_exists_of_map_eq hdigests with rfl | ⟨x, hx, y, hy, hother, hdigest⟩
    · exact absurd rfl hdiffers
    · refine ⟨putString "crf.candidate.v1" ++ feedCandidate x, ?_,
        putString "crf.candidate.v1" ++ feedCandidate y, ?_, ?_, ?_⟩
      · simp only [hashed, List.mem_append, List.mem_cons, List.mem_map]
        exact .inr (.inr ⟨x, hx, rfl⟩)
      · simp only [hashed, List.mem_append, List.mem_cons, List.mem_map]
        exact .inr (.inr ⟨y, hy, rfl⟩)
      · intro hbytes
        have hfed := List.append_cancel_left hbytes
        exact hother
          (feedCandidate_prefixCode.eq_of_encode_eq (hfits.2 x hx) (hfits'.2 y hy) hfed)
      · unfold candidateDigest digestOf at hdigest
        rw [hdigest]
  · refine ⟨putString "crf.evaluation-request.v1" ++
        requestFeed setId expectedGeneration candidates, ?_,
      putString "crf.evaluation-request.v1" ++
        requestFeed setId' expectedGeneration' candidates', ?_, ?_, ?_⟩
    · simp [hashed]
    · simp [hashed]
    · intro hbytes
      exact hfeeds (List.append_cancel_left hbytes)
    · unfold requestDigest digestOf at hrequest
      exact hrequest

/-- Different requests whose payloads coincide, and whose collections fit their counts, hash
two different byte strings to digests that agree in their first 64 bits. -/
theorem Collides.hashed {one other : Coverage} (h : one.Collides other) (hone : one.Fits)
    (hother : other.Fits) (hspecific : one ≠ .unspecific) (hspecific' : other ≠ .unspecific) :
    ∃ bytes ∈ one.hashed, ∃ bytes' ∈ other.hashed, bytes ≠ bytes' ∧
      (Sha256.digest bytes).leadingU64 = (Sha256.digest bytes').leadingU64 := by
  obtain ⟨hdiffers, hpayload⟩ := h
  have hfeeds : ∀ coverage : Coverage, coverage ≠ .unspecific →
      ∃ label fed, coverage.feed = some (label, fed) := by
    intro coverage hcoverage
    cases coverage with
    | unspecific => exact absurd rfl hcoverage
    | _ => exact ⟨_, _, rfl⟩
  obtain ⟨label, fed, hfeed⟩ := hfeeds one hspecific
  obtain ⟨label', fed', hfeed'⟩ := hfeeds other hspecific'
  have hmem : putString label ++ fed ∈ one.hashed := by
    simp [Coverage.hashed, hfeed]
  have hmem' : putString label' ++ fed' ∈ other.hashed := by
    simp [Coverage.hashed, hfeed']
  by_cases hbytes : putString label ++ fed = putString label' ++ fed'
  · rcases eq_of_feed hone hother hspecific (feed_of_bytes hfeed hfeed' hbytes) with
      hsame | ⟨setId, expectedGeneration, candidates, setId', expectedGeneration', candidates',
        topology, capability, rfl, rfl, hrequest⟩
    · exact absurd hsame hdiffers
    · exact evaluations_hashed hdiffers hone hother hrequest
  · refine ⟨_, hmem, _, hmem', hbytes, ?_⟩
    have hdigests : Sha256.digest (putString label ++ fed) =
        Sha256.digest (putString label' ++ fed') := by
      simpa only [payload, hfeed, hfeed', Option.map_some, Option.getD_some, digestOf]
        using hpayload
    rw [hdigests]

end Coverage

/-! ## Conflicts -/

/-- What is classified as a conflict is refused as one. -/
theorem conflicts_of_verdict {event : Event} (htaken : event.Taken step)
    (h : event.pre.verdict event.input = some .conflict) : Conflicts event := by
  obtain ⟨hanswered, hunchanged⟩ := answer_of_verdict htaken (by decide) h
  exact ⟨h, hanswered, hunchanged⟩

/-- Another use of an attempt that the window retains is a conflict exactly when its caller is
authorized and its payload tells it apart from the recorded request. -/
theorem reuse_conflicts_iff {before between after : List Event} {first again : Event}
    {last : SystemState} {attempt : MutationAttemptId} {one other : Mutation}
    (h : Execution (before ++ first :: (between ++ again :: after)) last)
    (hreuses : Reuses first between again attempt one other) :
    Conflicts again ↔
      again.pre.admits again.input.action = true ∧ ToldApart first again one other := by
  obtain ⟨hrecorded, hreused, hunseen, hretained⟩ := hreuses
  obtain ⟨context, rfl, hsubmits⟩ := hrecorded.submission
  obtain ⟨repeated, hsame, hagain⟩ := hreused.submission
  obtain ⟨hvalid, hrecalls⟩ := recalls_of_resubmits h hsubmits hunseen hretained
  rw [← hsame] at hvalid hrecalls
  have hsplit : Execution ((before ++ first :: between) ++ again :: after) last := by
    simpa using h
  have htaken := hsplit.taken
  have hverdict : again.pre.verdict again.input = some .conflict ↔
      again.pre.admits again.input.action = true ∧
        one.digest first.pre.impl.evidence ≠ other.digest again.pre.impl.evidence := by
    rw [SystemState.verdict_eq_some_iff, hagain]
    apply and_congr_right
    intro _
    constructor
    · rintro ⟨found, submitted, registry, hfound, hobserve⟩
      cases hfound
      rw [observeAttempt_of_recalls hvalid hrecalls] at hobserve
      split at hobserve
      · cases hobserve
      · next hdiffers => exact hdiffers
    · intro hdiffers
      refine ⟨_, _, again.pre.impl.authority, rfl, ?_⟩
      rw [observeAttempt_of_recalls hvalid hrecalls, if_neg hdiffers]
  have hcovers : one.digest first.pre.impl.evidence ≠ other.digest again.pre.impl.evidence ↔
      ToldApart first again one other := by
    unfold ToldApart Coverage.Collides
    rw [← Mutation.payload_coverage, ← Mutation.payload_coverage]
    constructor
    · intro hdiffers
      refine ⟨?_, ?_⟩
      · intro hcoverage
        rw [hcoverage] at hdiffers
        exact hdiffers rfl
      · intro hcollides
        exact hdiffers hcollides.2.symm
    · rintro ⟨hcoverage, hnone⟩ hdigest
      exact hnone ⟨hcoverage, hdigest.symm⟩
  rw [← hcovers, ← hverdict]
  constructor
  · exact Conflicts.classified
  · exact conflicts_of_verdict htaken

/-- Two boots are fenced under one attempt. -/
def sampleRefence : List Input :=
  [sampleInput (.operate (.fenceBoot (sampleContext 30) ⟨99⟩)),
   sampleInput (.operate (.fenceBoot (sampleContext 30) ⟨98⟩))]

/-- The sample set with other evidence requirements and another ranking. -/
def sampleRelaxed : ConstraintSet :=
  { sampleSet 5 with
    evidence := { sampleEvidence with topology := ⟨2⟩ }
    ranking := { consumePlannerRank := true } }

/-- Two definitions of a set are published under one attempt. -/
def sampleRedefine : List Input :=
  [sampleInput (.operate (.publishConstraintSet (sampleContext 30) (sampleSet 5))),
   sampleInput (.operate (.publishConstraintSet (sampleContext 30) sampleRelaxed))]

/-- Path 31 on older evidence. -/
def sampleBackdated : CandidatePath :=
  { samplePath 31 with evidence := { (samplePath 31).evidence with capturedTick := 50 } }

/-- Path 31 is evaluated on evidence of two ages under one attempt. -/
def sampleBackdate : List Input :=
  samplePublish 5 10 ++ [sampleBegin 20 5 [31], sampleFinish 0,
    sampleInput (.evaluateBegin (sampleContext 20) ⟨5⟩ [sampleBackdated] {})]

/-- The last event uses the attempt of the event at the position for another mutation, and is
taken for an exact replay. -/
private def replaysAnother (position : Nat) (attempt : MutationAttemptId) (one other : Mutation)
    (events : List Event) : Bool :=
  match events.drop position with
  | [] => false
  | first :: rest =>
      match rest.getLast? with
      | some again =>
          decide (asks first = some (attempt, one) ∧ asks again = some (attempt, other) ∧
            (first.pre.submission first.input.action).isSome = true ∧
            (again.pre.submission again.input.action).isSome = true ∧
            first.pre.impl.authority.findAttempt attempt = none ∧
            again.pre.verdict again.input = some .exactReplay) &&
          (first :: rest.dropLast).all fun event =>
            (event.post.impl.authority.findAttempt attempt).isSome
      | none => false

/-- The last event of the run uses the attempt of an earlier mutation for another one, and is
an exact replay and no conflict. -/
def TakenForReplay (inputs : List Input) (attempt : MutationAttemptId) (one other : Mutation) :
    Prop :=
  ∃ before first between again last,
    sampleRun inputs = some (before ++ first :: (between ++ [again]), last) ∧
    Execution (before ++ first :: (between ++ [again])) last ∧
    Reuses first between again attempt one other ∧ Replayed again ∧ ¬ Conflicts again

private theorem takenForReplay_of_check {inputs : List Input} {position : Nat}
    {attempt : MutationAttemptId} {one other : Mutation}
    (h : ((sampleRun inputs).any fun run =>
      replaysAnother position attempt one other run.1) = true) :
    TakenForReplay inputs attempt one other := by
  obtain ⟨events, last, hrun, hexecution, hchecked⟩ := sampleRun_execution _ _ h
  unfold replaysAnother at hchecked
  split at hchecked
  · cases hchecked
  · next first rest hdrop =>
      split at hchecked
      · next again hlast =>
          rw [Bool.and_eq_true, List.all_eq_true] at hchecked
          obtain ⟨hdecided, hretained⟩ := hchecked
          obtain ⟨hone, hother, hfirst, hagain, hunseen, hverdict⟩ := of_decide_eq_true hdecided
          obtain ⟨between, rfl⟩ := List.getLast?_eq_some_iff.mp hlast
          rw [List.dropLast_concat] at hretained
          have hevents : events = events.take position ++ first :: (between ++ [again]) := by
            rw [← hdrop, List.take_append_drop]
          rw [hevents] at hrun hexecution
          have hsplit : Execution ((events.take position ++ first :: between) ++ [again]) last := by
            simpa using hexecution
          refine ⟨_, first, between, again, last, hrun, hexecution,
            ⟨⟨hone, hfirst⟩, ⟨hother, hagain⟩, hunseen, hretained⟩,
            replayed_of_verdict hsplit.taken hverdict, ?_⟩
          intro hconflicts
          have hconflict := hconflicts.classified
          rw [hverdict] at hconflict
          cases hconflict
      · cases hchecked

private theorem sampleRefence_replays :
    TakenForReplay sampleRefence ⟨30⟩ (.fence ⟨99⟩) (.fence ⟨98⟩) := by
  have hcheck : ((sampleRun sampleRefence).any fun run =>
      replaysAnother 1 ⟨30⟩ (.fence ⟨99⟩) (.fence ⟨98⟩) run.1) = true := by
    decide +kernel
  exact takenForReplay_of_check hcheck

private theorem sampleRedefine_replays :
    TakenForReplay sampleRedefine ⟨30⟩ (.publish (sampleSet 5)) (.publish sampleRelaxed) := by
  have hcheck : ((sampleRun sampleRedefine).any fun run =>
      replaysAnother 1 ⟨30⟩ (.publish (sampleSet 5)) (.publish sampleRelaxed) run.1) = true := by
    decide +kernel
  exact takenForReplay_of_check hcheck

private theorem sampleBackdate_replays :
    TakenForReplay sampleBackdate ⟨20⟩ (.evaluate ⟨5⟩ [samplePath 31] {})
      (.evaluate ⟨5⟩ [sampleBackdated] {}) := by
  have hcheck : ((sampleRun sampleBackdate).any fun run =>
      replaysAnother 3 ⟨20⟩ (.evaluate ⟨5⟩ [samplePath 31] {})
        (.evaluate ⟨5⟩ [sampleBackdated] {}) run.1) = true := by
    decide +kernel
  exact takenForReplay_of_check hcheck

/-- The set of an evaluation that accepts evidence of ten ticks. -/
def sampleAging : EvaluationContext where
  set :=
    let set := { sampleSet 5 with state := .active }
    { set with digest := constraintSetDigest set }
  current := { sampleEvidence with maxEvidenceAgeTicks := 10 }
  nowTick := 105
  authorityVerified := true

private theorem sampleBackdated_outcome :
    (evaluationRecord sampleAging (samplePath 31)).outcome ≠
      (evaluationRecord sampleAging sampleBackdated).outcome := by
  decide +kernel

/-- Another boot to fence, another definition of a set and a candidate with another outcome
are taken for exact replays. -/
theorem another_request_replayed :
    TakenForReplay sampleRefence ⟨30⟩ (.fence ⟨99⟩) (.fence ⟨98⟩) ∧
      TakenForReplay sampleRedefine ⟨30⟩ (.publish (sampleSet 5)) (.publish sampleRelaxed) ∧
      TakenForReplay sampleBackdate ⟨20⟩ (.evaluate ⟨5⟩ [samplePath 31] {})
        (.evaluate ⟨5⟩ [sampleBackdated] {}) ∧
      (evaluationRecord sampleAging (samplePath 31)).outcome ≠
        (evaluationRecord sampleAging sampleBackdated).outcome :=
  ⟨sampleRefence_replays, sampleRedefine_replays, sampleBackdate_replays, sampleBackdated_outcome⟩

theorem reuse_conflicts_iff_sample :
    ∃ before first between again last,
      sampleRun sampleRefence = some (before ++ first :: (between ++ [again]), last) ∧
      (Conflicts again ↔ again.pre.admits again.input.action = true ∧
        ToldApart first again (.fence ⟨99⟩) (.fence ⟨98⟩)) := by
  obtain ⟨before, first, between, again, last, hrun, hexecution, hreuses, -⟩ :=
    sampleRefence_replays
  exact ⟨before, first, between, again, last, hrun, reuse_conflicts_iff hexecution hreuses⟩

end ConstraintRouting.Fabric
