import ConstraintRouting.Fabric.CandidateBytes
import ConstraintRouting.Fabric.Messages
import ConstraintRouting.Fabric.SetBytes
import ConstraintRouting.Fabric.SnapshotSpec

/-!
# The bytes of the payloads

Each decoder of a payload accepts exactly the encodings of the values that its checks pass,
and takes exactly their bytes.  The decoder of a currentness report is the exception: it
does not look at the three bytes after the authority flag.
-/

namespace ConstraintRouting.Fabric

open ByteWriter ByteReader
open Verified.Readers (Parses Reads)
open Verified.Readers.Reader (bind_eq bind_eq_some bind_iff accept_bind accept_eq_some pure_eq_some)

/-! ## Sessions -/

/-- What the server asks of a handshake. -/
structure HelloPayload.Storable (limits : Limits) (payload : HelloPayload) : Prop where
  publisher : payload.publisher.isValid = true
  workerBoot : payload.workerBoot.isValid = true
  clientName : payload.clientName.length ≤ limits.maxNameBytes.toNat

theorem decodeHello_parses (limits : Limits) :
    Parses (decodeHello limits) encodeHello (HelloPayload.Storable limits) := by
  intro input payload rest
  unfold decodeHello encodeHello
  simp only [bind_eq_some, accept_eq_some, pure_eq_some, id_eq_some, u32_eq_some,
    string_eq_some, listWithin_eq_true, Bool.and_eq_true, List.append_assoc]
  constructor
  · intro h
    obtain ⟨publisher, _, hinput, boot, _, h1, scopes, _, h2, _, _, ⟨⟨hpublisher, hboot⟩, h3⟩,
      name, _, ⟨h4, -⟩, _, _, ⟨hname, h5⟩, hout⟩ := h
    cases h3
    cases h5
    cases hout
    exact ⟨by rw [hinput, h1, h2, h4], hpublisher, hboot, hname⟩
  · intro h
    obtain ⟨hinput, hpublisher, hboot, hname⟩ := h
    have hsize := Nat.lt_of_le_of_lt hname limits.maxNameBytes.toNat_lt
    exact ⟨_, _, hinput, _, _, rfl, _, _, rfl, (), _, ⟨⟨hpublisher, hboot⟩, rfl⟩, _, _,
      ⟨rfl, hsize⟩, (), _, ⟨hname, rfl⟩, rfl⟩

theorem decodeHelloAck_parses :
    Parses decodeHelloAck encodeHelloAck fun payload => payload.epoch.Storable := by
  intro input payload rest
  unfold decodeHelloAck encodeHelloAck
  simp only [bind_eq_some, pure_eq_some, generationField_eq_some, id_eq_some, u32_eq_some,
    u16_eq_some, boolean_eq_some, padding8_eq_some, List.append_assoc]
  constructor
  · intro h
    obtain ⟨epoch, _, ⟨hinput, hepoch⟩, session, _, h1, scopes, _, h2, version, _, h3, accepted,
      _, h4, _, _, h5, hout⟩ := h
    cases hout
    exact ⟨by rw [hinput, h1, h2, h3, h4, h5], hepoch⟩
  · intro h
    exact ⟨_, _, h, _, _, rfl, _, _, rfl, _, _, rfl, _, _, rfl, (), _, rfl, rfl⟩

theorem decodeSessionFenced_parses :
    Parses decodeSessionFenced encodeSessionFenced fun payload =>
      payload.boot.isValid = true ∧ Generation.isRepresentable payload.epoch.value = true := by
  intro input payload rest
  unfold decodeSessionFenced encodeSessionFenced
  simp only [bind_eq_some, accept_eq_some, pure_eq_some, id_eq_some, generation_eq_some,
    Bool.and_eq_true, List.append_assoc]
  constructor
  · intro h
    obtain ⟨boot, _, hinput, epoch, _, h1, _, _, ⟨hvalid, h2⟩, hout⟩ := h
    cases h2
    cases hout
    exact ⟨by rw [hinput, h1], hvalid⟩
  · intro h
    exact ⟨_, _, h.1, _, _, rfl, (), _, ⟨h.2, rfl⟩, rfl⟩

/-! ## Mutations -/

theorem decodePublishAck_parses :
    Parses decodePublishAck encodePublishAck fun payload =>
      payload.setId.isValid = true ∧
        Generation.isRepresentable payload.generation.value = true := by
  intro input payload rest
  unfold decodePublishAck encodePublishAck
  simp only [bind_eq_some, accept_eq_some, pure_eq_some, id_eq_some, generation_eq_some,
    digest_eq_some, Bool.and_eq_true, List.append_assoc]
  constructor
  · intro h
    obtain ⟨setId, _, hinput, generation, _, h1, digest, _, h2, _, _, ⟨hvalid, h3⟩, hout⟩ := h
    cases h3
    cases hout
    exact ⟨by rw [hinput, h1, h2], hvalid⟩
  · intro h
    exact ⟨_, _, h.1, _, _, rfl, _, _, rfl, (), _, ⟨h.2, rfl⟩, rfl⟩

theorem LifecycleEvent.read_eq_some {input rest : List UInt8} {event : LifecycleEvent} :
    LifecycleEvent.read input = some (event, rest) ↔ input = putU8 event.code ++ rest :=
  enum8_exact (by cases event <;> rfl)

theorem decodeLifecycleRequest_parses :
    Parses decodeLifecycleRequest encodeLifecycleRequest fun payload =>
      payload.setId.isValid = true := by
  intro input payload rest
  unfold decodeLifecycleRequest encodeLifecycleRequest
  simp only [bind_eq_some, accept_eq_some, pure_eq_some, id_eq_some,
    LifecycleEvent.read_eq_some, padding8_eq_some, padding16_eq_some, padding32_eq_some,
    List.append_assoc]
  constructor
  · intro h
    obtain ⟨setId, _, hinput, event, _, h1, _, _, h2, _, _, h3, _, _, h4, _, _, ⟨hvalid, h5⟩,
      hout⟩ := h
    cases h5
    cases hout
    exact ⟨by rw [hinput, h1, h2, h3, h4], hvalid⟩
  · intro h
    exact ⟨_, _, h.1, _, _, rfl, (), _, rfl, (), _, rfl, (), _, rfl, (), _, ⟨h.2, rfl⟩, rfl⟩

/-- What the server asks of an evaluation request. -/
structure EvaluateCandidatesPayload.Storable (limits : Limits)
    (payload : EvaluateCandidatesPayload) : Prop where
  setId : payload.setId.isValid = true
  expectedGeneration : payload.expectedGeneration.Storable
  count : payload.candidates.length ≤ limits.maxCandidatesPerEvaluation.toNat
  candidates : ∀ candidate ∈ payload.candidates, candidate.Storable limits ∧
    validateCandidate candidate limits = .ok ()

theorem decodeEvaluateRequest_parses (limits : Limits) :
    Parses (decodeEvaluateRequest limits) encodeEvaluateRequest
      (EvaluateCandidatesPayload.Storable limits) := by
  intro input payload rest
  unfold decodeEvaluateRequest encodeEvaluateRequest
  simp only [bind_eq_some, accept_eq_some, pure_eq_some, id_eq_some, generationField_eq_some,
    all_parses (decodeCandidate_parses limits) _ _ _ _, List.append_assoc]
  constructor
  · intro h
    obtain ⟨setId, _, hinput, generation, _, ⟨h1, hgeneration⟩, _, _, ⟨hvalid, h2⟩, candidates,
      _, ⟨h3, hcount, hcandidates⟩, hout⟩ := h
    cases h2
    cases hout
    exact ⟨by rw [hinput, h1, h3], hvalid, hgeneration, hcount, hcandidates⟩
  · intro h
    obtain ⟨hinput, hvalid, hgeneration, hcount, hcandidates⟩ := h
    exact ⟨_, _, hinput, _, _, ⟨rfl, hgeneration⟩, (), _, ⟨hvalid, rfl⟩, _, _,
      ⟨rfl, hcount, hcandidates⟩, rfl⟩

theorem decodeQuery_parses :
    Parses decodeQuery putId fun setId => setId.isValid = true := by
  intro input setId rest
  unfold decodeQuery
  simp only [bind_eq_some, accept_eq_some, pure_eq_some, id_eq_some]
  constructor
  · intro h
    obtain ⟨_, _, hinput, _, _, ⟨hvalid, h1⟩, hout⟩ := h
    cases h1
    cases hout
    exact ⟨hinput, hvalid⟩
  · intro h
    exact ⟨_, _, h.1, (), _, ⟨h.2, rfl⟩, rfl⟩

/-- Every payload of a session other than the reports is accepted in exactly one form: a
decoder accepts the encodings of the values that pass its checks and no other bytes. -/
theorem session_payloads_exact (limits : Limits) :
    Parses (decodeHello limits) encodeHello (HelloPayload.Storable limits) ∧
    Parses decodeHelloAck encodeHelloAck (fun payload => payload.epoch.Storable) ∧
    Parses (decodeConstraintSet limits) encodeConstraintSet (fun set =>
      set.Storable limits ∧ verifyCanonicalConstraintSet set limits = .ok ()) ∧
    Parses decodePublishAck encodePublishAck (fun payload =>
      payload.setId.isValid = true ∧
        Generation.isRepresentable payload.generation.value = true) ∧
    Parses decodeLifecycleRequest encodeLifecycleRequest (fun payload =>
      payload.setId.isValid = true) ∧
    Parses (decodeEvaluateRequest limits) encodeEvaluateRequest
      (EvaluateCandidatesPayload.Storable limits) ∧
    Parses decodeQuery putId (fun setId => setId.isValid = true) ∧
    Parses decodeSessionFenced encodeSessionFenced (fun payload =>
      payload.boot.isValid = true ∧ Generation.isRepresentable payload.epoch.value = true) :=
  ⟨decodeHello_parses limits, decodeHelloAck_parses, decodeConstraintSet_parses limits,
    decodePublishAck_parses, decodeLifecycleRequest_parses, decodeEvaluateRequest_parses limits,
    decodeQuery_parses, decodeSessionFenced_parses⟩

/-! ## Reports -/

theorem readFound_parses : Parses readFound writeFound fun _ => True := by
  intro input found rest
  unfold readFound writeFound
  simp only [bind_eq_some, pure_eq_some, boolean_eq_some, padding8_eq_some, padding16_eq_some,
    padding32_eq_some, List.append_assoc, and_true]
  constructor
  · intro h
    obtain ⟨_, _, hinput, _, _, h1, _, _, h2, _, _, h3, hout⟩ := h
    cases hout
    rw [hinput, h1, h2, h3]
  · intro h
    exact ⟨_, _, h, (), _, rfl, (), _, rfl, (), _, rfl, rfl⟩

/-- What the decoder asks of a snapshot of a definition. -/
structure DefinitionsSnapshot.Storable (limits : Limits) (snapshot : DefinitionsSnapshot) :
    Prop where
  generation : snapshot.generation.Storable
  count : snapshot.constraints.length ≤ limits.maxConstraintsPerSet.toNat
  constraints : ∀ constraint ∈ snapshot.constraints, constraint.generation.Storable ∧
    constraint.EntitiesAscending ∧ validateConstraint constraint limits = .ok ()
  evidence : snapshot.evidence.Storable

theorem decodeDefinitionsSnapshot_parses (limits : Limits) :
    Parses (decodeDefinitionsSnapshot limits) encodeDefinitionsSnapshot
      (DefinitionsSnapshot.Storable limits) := by
  intro input snapshot rest
  unfold decodeDefinitionsSnapshot encodeDefinitionsSnapshot
  simp only [bind_eq_some, pure_eq_some, id_eq_some, generationField_eq_some,
    ConstraintSetState.read_eq_some, padding8_eq_some, padding16_eq_some, padding32_eq_some,
    all_parses (decodeConstraint_parses limits) _ _ _ _, decodeEvidenceRequirements_parses _ _ _,
    decodeRankingPolicy_parses _ _ _, digest_eq_some, and_true, List.append_assoc]
  constructor
  · intro h
    obtain ⟨id, _, hinput, setId, _, h1, generation, _, ⟨h2, hgeneration⟩, state, _, h3, h⟩ := h
    obtain ⟨_, _, h4, _, _, h5, _, _, h6, constraints, _, ⟨h7, hcount, hconstraints⟩, h⟩ := h
    obtain ⟨evidence, _, ⟨h8, hevidence⟩, ranking, _, h9, digest, _, h10, hout⟩ := h
    cases hout
    exact ⟨by rw [hinput, h1, h2, h3, h4, h5, h6, h7, h8, h9, h10], hgeneration, hcount,
      hconstraints, hevidence⟩
  · intro h
    obtain ⟨hinput, hgeneration, hcount, hconstraints, hevidence⟩ := h
    exact ⟨_, _, hinput, _, _, rfl, _, _, ⟨rfl, hgeneration⟩, _, _, rfl, (), _, rfl, (), _, rfl,
      (), _, rfl, _, _, ⟨rfl, hcount, hconstraints⟩, _, _, ⟨rfl, hevidence⟩, _, _, rfl, _, _,
      rfl, rfl⟩

/-- A report that is not found carries nothing; one that is found carries what its decoder
accepts. -/
structure DefinitionsReportPayload.Storable (limits : Limits)
    (payload : DefinitionsReportPayload) : Prop where
  missing : payload.found = false → payload.snapshot = {}
  found : payload.found = true → payload.snapshot.Storable limits

theorem decodeDefinitionsReport_parses (limits : Limits) :
    Parses (decodeDefinitionsReport limits) encodeDefinitionsReport
      (DefinitionsReportPayload.Storable limits) := by
  intro input payload rest
  unfold decodeDefinitionsReport encodeDefinitionsReport
  rw [readFound_parses.bind_eq_some]
  constructor
  · intro h
    obtain ⟨found, middle, ⟨hinput, -⟩, h⟩ := h
    cases found with
    | false =>
        cases h
        exact ⟨hinput, fun _ => rfl, (fun hfound => nomatch hfound)⟩
    | true =>
        obtain ⟨snapshot, last, ⟨hmiddle, hsnapshot⟩, hout⟩ :=
          (decodeDefinitionsSnapshot_parses limits).bind_eq_some.mp h
        cases hout
        exact ⟨by rw [hinput, hmiddle, List.append_assoc]; rfl, (fun hfound => nomatch hfound),
          fun _ => hsnapshot⟩
  · intro h
    obtain ⟨hinput, hmissing, hfound⟩ := h
    rw [List.append_assoc] at hinput
    refine ⟨payload.found, _, ⟨hinput, trivial⟩, ?_⟩
    obtain ⟨found, snapshot⟩ := payload
    cases found with
    | false =>
        have hempty : snapshot = {} := hmissing rfl
        rw [hempty]
        rfl
    | true =>
        exact (decodeDefinitionsSnapshot_parses limits).bind_eq_some.mpr
          ⟨snapshot, rest, ⟨rfl, hfound rfl⟩, rfl⟩

/-! ## Currentness -/

theorem CurrentnessCause.read_eq_some {input rest : List UInt8} {cause : CurrentnessCause} :
    CurrentnessCause.read input = some (cause, rest) ↔
      input = putU8 cause.code ++ rest ∧ cause ≠ .none := by
  unfold CurrentnessCause.read
  rw [enum8_eq_some]
  refine and_congr_right fun _ => ?_
  cases cause
  case none => exact iff_of_false (by decide) (fun hne => hne rfl)
  all_goals exact iff_of_true rfl (by decide)

theorem readCause_parses : Parses readCause writeCause fun cause => cause ≠ .none := by
  intro input cause rest
  unfold readCause writeCause
  simp only [bind_eq_some, pure_eq_some, CurrentnessCause.read_eq_some, padding8_eq_some,
    padding16_eq_some, padding32_eq_some, List.append_assoc]
  constructor
  · intro h
    obtain ⟨_, _, ⟨hinput, hcause⟩, _, _, h1, _, _, h2, _, _, h3, hout⟩ := h
    cases hout
    exact ⟨by rw [hinput, h1, h2, h3], hcause⟩
  · intro h
    exact ⟨_, _, h, (), _, rfl, (), _, rfl, (), _, rfl, rfl⟩

/-- What the decoder asks of a currentness report. -/
structure CurrentnessReport.Storable (report : CurrentnessReport) : Prop where
  setGeneration : report.setGeneration.Storable
  evaluationGeneration : report.evaluationGeneration.Storable
  requiredEvidence : report.requiredEvidence.Storable
  publishedEvidence : report.publishedEvidence.Storable
  currentResults : report.currentResults < 2 ^ 64
  revalidationRequired : report.revalidationRequired < 2 ^ 64
  recoveredUnproven : report.recoveredUnproven < 2 ^ 64
  count : report.causes.length ≤ 64
  causes : ∀ cause ∈ report.causes, cause ≠ .none

/-- The bytes of a report with these bytes for the padding after the authority flag. -/
def encodeCurrentnessWith (padding8 : UInt8) (padding16 : UInt16) (report : CurrentnessReport) :
    List UInt8 :=
  putId report.setId ++
  putGeneration report.setGeneration ++
  putU8 report.state.code ++
  putU8 0 ++
  putU16 0 ++
  putU32 0 ++
  putGeneration report.evaluationGeneration ++
  encodeEvidenceRequirements report.requiredEvidence ++
  encodeEvidenceRequirements report.publishedEvidence ++
  putU64 (UInt64.ofNat report.currentResults) ++
  putU64 (UInt64.ofNat report.revalidationRequired) ++
  putU64 (UInt64.ofNat report.recoveredUnproven) ++
  putBool report.publisherAuthorityLive ++
  putU8 padding8 ++
  putU16 padding16 ++
  putAll writeCause report.causes

theorem decodeCurrentness_eq_some {input rest : List UInt8} {report : CurrentnessReport} :
    decodeCurrentness input = some (report, rest) ↔
      (∃ padding8 padding16, input = encodeCurrentnessWith padding8 padding16 report ++ rest) ∧
        report.Storable := by
  unfold decodeCurrentness encodeCurrentnessWith
  simp only [bind_eq_some, pure_eq_some, id_eq_some, generationField_eq_some,
    ConstraintSetState.read_eq_some, padding8_eq_some, padding16_eq_some, padding32_eq_some,
    decodeEvidenceRequirements_parses _ _ _, u64_eq_some, u8_eq_some, u16_eq_some,
    boolean_eq_some, all_parses readCause_parses _ _ _ _, List.append_assoc]
  constructor
  · intro h
    obtain ⟨setId, _, hinput, set, _, ⟨h1, hset⟩, state, _, h2, _, _, h3, _, _, h4, _, _, h5,
      h⟩ := h
    obtain ⟨generation, _, ⟨h6, hgeneration⟩, required, _, ⟨h7, hrequired⟩, published, _,
      ⟨h8, hpublished⟩, h⟩ := h
    obtain ⟨current, _, h9, revalidation, _, h10, recovered, _, h11, live, _, h12, h⟩ := h
    obtain ⟨padding8, _, h13, padding16, _, h14, causes, _, ⟨h15, hcount, hcauses⟩, hout⟩ := h
    cases hout
    refine ⟨⟨padding8, padding16, ?_⟩, hset, hgeneration, hrequired, hpublished,
      current.toNat_lt, revalidation.toNat_lt, recovered.toNat_lt, hcount, hcauses⟩
    simp only [UInt64.ofNat_toNat]
    rw [hinput, h1, h2, h3, h4, h5, h6, h7, h8, h9, h10, h11, h12, h13, h14, h15]
  · intro h
    obtain ⟨⟨padding8, padding16, hinput⟩, hset, hgeneration, hrequired, hpublished, hcurrent,
      hrevalidation, hrecovered, hcount, hcauses⟩ := h
    refine ⟨_, _, hinput, _, _, ⟨rfl, hset⟩, _, _, rfl, (), _, rfl, (), _, rfl, (), _, rfl,
      _, _, ⟨rfl, hgeneration⟩, _, _, ⟨rfl, hrequired⟩, _, _, ⟨rfl, hpublished⟩, _, _, rfl,
      _, _, rfl, _, _, rfl, _, _, rfl, _, _, rfl, _, _, rfl, _, _, ⟨rfl, hcount, hcauses⟩, ?_⟩
    have hnat : ∀ count : Nat, count < 2 ^ 64 → (UInt64.ofNat count).toNat = count := by
      intro count hlt
      rw [UInt64.toNat_ofNat', Nat.mod_eq_of_lt hlt]
    rw [hnat _ hcurrent, hnat _ hrevalidation, hnat _ hrecovered]

/-- A report that is not found carries nothing. -/
structure CurrentnessReportPayload.Storable (payload : CurrentnessReportPayload) : Prop where
  missing : payload.found = false → payload.report = {}
  found : payload.found = true → payload.report.Storable

/-- The bytes of an answer with these bytes for the padding after the authority flag. -/
def encodeCurrentnessReportWith (padding8 : UInt8) (padding16 : UInt16)
    (payload : CurrentnessReportPayload) : List UInt8 :=
  writeFound payload.found ++
  if payload.found then encodeCurrentnessWith padding8 padding16 payload.report else []

theorem decodeCurrentnessReport_eq_some {input rest : List UInt8}
    {payload : CurrentnessReportPayload} :
    decodeCurrentnessReport input = some (payload, rest) ↔
      (∃ padding8 padding16,
        input = encodeCurrentnessReportWith padding8 padding16 payload ++ rest) ∧
        payload.Storable := by
  unfold decodeCurrentnessReport encodeCurrentnessReportWith
  rw [readFound_parses.bind_eq_some]
  constructor
  · intro h
    obtain ⟨found, middle, ⟨hinput, -⟩, h⟩ := h
    cases found with
    | false =>
        cases h
        exact ⟨⟨0, 0, by rw [hinput]; rfl⟩, fun _ => rfl, (fun hfound => nomatch hfound)⟩
    | true =>
        obtain ⟨report, last, hreport, hout⟩ := bind_eq_some.mp h
        obtain ⟨⟨padding8, padding16, hmiddle⟩, hstorable⟩ :=
          decodeCurrentness_eq_some.mp hreport
        cases hout
        exact ⟨⟨padding8, padding16, by rw [hinput, hmiddle, List.append_assoc]; rfl⟩,
          (fun hfound => nomatch hfound), fun _ => hstorable⟩
  · intro h
    obtain ⟨⟨padding8, padding16, hinput⟩, hmissing, hfound⟩ := h
    rw [List.append_assoc] at hinput
    refine ⟨payload.found, _, ⟨hinput, trivial⟩, ?_⟩
    obtain ⟨found, report⟩ := payload
    cases found with
    | false =>
        have hempty : report = {} := hmissing rfl
        rw [hempty]
        rfl
    | true =>
        exact bind_eq_some.mpr ⟨report, rest, decodeCurrentness_eq_some.mpr
          ⟨⟨padding8, padding16, rfl⟩, hfound rfl⟩, rfl⟩

/-- A report on a definition is accepted in exactly one form.  A report on currentness is
accepted in the forms that differ in the three bytes after the authority flag, and one of
these is the encoding. -/
theorem reports_exact (limits : Limits) :
    Parses (decodeDefinitionsReport limits) encodeDefinitionsReport
      (DefinitionsReportPayload.Storable limits) ∧
    (∀ input payload rest, decodeCurrentnessReport input = some (payload, rest) ↔
      (∃ padding8 padding16,
        input = encodeCurrentnessReportWith padding8 padding16 payload ++ rest) ∧
        payload.Storable) ∧
    ∀ payload, encodeCurrentnessReport payload = encodeCurrentnessReportWith 0 0 payload :=
  ⟨decodeDefinitionsReport_parses limits, fun _ _ _ => decodeCurrentnessReport_eq_some,
    fun _ => rfl⟩

/-! ## Reports that are read back -/

section Reads

variable {limits : Limits} {rest : List UInt8}

theorem readFound_bind {α : Type} (found : Bool) (next : Bool → Reader α) :
    (readFound >>= next) (writeFound found ++ rest) = next found rest := by
  unfold readFound writeFound
  simp only [bind_assoc, pure_bind, List.append_assoc, boolean_bind, padding8_bind,
    padding16_bind, padding32_bind]

theorem decodeDefinitionsSnapshot_reads (limits : Limits) :
    Reads (2 ^ 32) (decodeDefinitionsSnapshot limits) encodeDefinitionsSnapshot
      (DefinitionsSnapshot.Storable limits) := by
  intro snapshot rest out hsize
  unfold encodeDefinitionsSnapshot at hsize
  simp only [List.length_append] at hsize
  have hconstraints := @all_bind _ DefinitionsSnapshot _ _ _ (decodeConstraint_reads limits)
    encodeConstraint_ne_nil limits.maxConstraintsPerSet snapshot.constraints
  have hevidence := fun rest => @bind_iff _ _ DefinitionsSnapshot _ _ _ _ _
    (fun out => decodeEvidenceRequirements_reads snapshot.evidence rest out (by omega))
  unfold decodeDefinitionsSnapshot encodeDefinitionsSnapshot
  simp (disch := omega) only [decodeRankingPolicy, encodeRankingPolicy, List.append_assoc,
    bind_assoc, pure_bind, id_bind, boolean_bind, generationField_bind,
    ConstraintSetState.read_bind, PlannerCostModel.read_bind, CandidateTiebreak.read_bind,
    padding8_bind, padding16_bind, padding32_bind, digest_bind, pure_eq_some, and_assoc,
    hevidence, hconstraints]
  constructor
  · intro h
    obtain ⟨hgeneration, hcount, hconstraints, hevidence, hout⟩ := h
    exact ⟨⟨hgeneration, hcount, hconstraints, hevidence⟩, hout⟩
  · intro h
    obtain ⟨hstorable, hout⟩ := h
    exact ⟨hstorable.generation, hstorable.count, hstorable.constraints, hstorable.evidence,
      hout⟩

theorem decodeResultsSnapshot_reads (limits : Limits) :
    Reads (2 ^ 32) (decodeResultsSnapshot limits) encodeResultsSnapshot fun snapshot =>
      snapshot.Storable limits := by
  intro snapshot rest out hsize
  unfold encodeResultsSnapshot at hsize
  simp only [List.length_append] at hsize
  have hentries := @all_bind _ ResultsSnapshot _ _ _ (readEntry_reads (2 ^ 32))
    (fun _ => List.cons_ne_nil _ _) limits.maxEvaluationsRetained snapshot.entries
  unfold decodeResultsSnapshot encodeResultsSnapshot
  simp (disch := omega) only [List.append_assoc, id_bind, generationField_bind, accept_bind,
    digest_bind, pure_eq_some, and_assoc, hentries]
  constructor
  · intro h
    obtain ⟨hset, hgeneration, hcount, hentries, hascending, hout⟩ := h
    exact ⟨⟨hset, hgeneration, hcount, hentries, hascending⟩, hout⟩
  · intro h
    obtain ⟨hstorable, hout⟩ := h
    exact ⟨hstorable.setGeneration, hstorable.evaluationGeneration, hstorable.count,
      hstorable.entries, hstorable.ascending, hout⟩

theorem readCause_reads (bound : Nat) :
    Reads bound readCause writeCause fun cause => cause ≠ .none := by
  intro cause rest out _
  by_cases hnone : cause = .none
  · subst hnone
    exact iff_of_false (fun h => nomatch h) (fun h => h.1 rfl)
  · rw [(readCause_parses _ cause rest).mpr ⟨rfl, hnone⟩, Option.some.injEq]
    exact (and_iff_right hnone).symm

/-- A report on currentness whose counts fit their fields is read back when it is storable. -/
theorem decodeCurrentness_encoded {report : CurrentnessReport}
    {out : CurrentnessReport × List UInt8} (hlength : report.causes.length < 2 ^ 32)
    (hcurrent : report.currentResults < 2 ^ 64)
    (hrevalidation : report.revalidationRequired < 2 ^ 64)
    (hrecovered : report.recoveredUnproven < 2 ^ 64) :
    decodeCurrentness (encodeCurrentness report ++ rest) = some out ↔
      report.Storable ∧ (report, rest) = out := by
  have hnat : ∀ count : Nat, count < 2 ^ 64 → (UInt64.ofNat count).toNat = count := by
    intro count hlt
    rw [UInt64.toNat_ofNat', Nat.mod_eq_of_lt hlt]
  have hevidence := fun (evidence : EvidenceRequirements) rest =>
    @bind_iff _ _ CurrentnessReport _ _ _ _ _
      (fun out => decodeEvidenceRequirements_reads evidence rest out (by
        unfold encodeEvidenceRequirements
        simp only [List.length_append, length_putGeneration, length_putU64]
        decide))
  have hu8 : ∀ rest (next : UInt8 → Reader CurrentnessReport),
      (u8 >>= next) (putU8 0 ++ rest) = next 0 rest :=
    fun rest next => bind_eq (u8_putU8 0 rest) next
  have hu16 : ∀ rest (next : UInt16 → Reader CurrentnessReport),
      (u16 >>= next) (putU16 0 ++ rest) = next 0 rest :=
    fun rest next => bind_eq (u16_putU16 0 rest) next
  have hcauses := fun rest next out => @all_bind_of_length _ CurrentnessReport _ _ _
    64 report.causes rest next out
    (fun cause _ rest out => readCause_reads _ cause rest out (Nat.lt_succ_self _)) hlength
  unfold decodeCurrentness encodeCurrentness
  simp only [List.append_assoc, id_bind, u64_bind, boolean_bind, generationField_bind,
    ConstraintSetState.read_bind, padding8_bind, padding16_bind, padding32_bind, pure_eq_some,
    and_assoc, hevidence, hu8, hu16, hcauses, hnat _ hcurrent, hnat _ hrevalidation,
    hnat _ hrecovered]
  constructor
  · intro h
    obtain ⟨hset, hgeneration, hrequired, hpublished, hcount, hcauses, hout⟩ := h
    exact ⟨⟨hset, hgeneration, hrequired, hpublished, hcurrent, hrevalidation, hrecovered,
      hcount, hcauses⟩, hout⟩
  · intro h
    obtain ⟨hstorable, hout⟩ := h
    exact ⟨hstorable.setGeneration, hstorable.evaluationGeneration, hstorable.requiredEvidence,
      hstorable.publishedEvidence, hstorable.count, hstorable.causes, hout⟩

end Reads

end ConstraintRouting.Fabric
