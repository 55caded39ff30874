import ConstraintRouting.Fabric.Server
import ConstraintRouting.Fabric.SnapshotSpec

/-!
# What queries disclose

A query asks for no scope.  Two coordinators that differ in their stored records answer a
query about results differently as soon as the records that it shows differ.
-/

namespace ConstraintRouting.Fabric

open ByteWriter
open Verified.PrefixCodes
open Verified.SortedLists
open Verified.StepMachine
open Verified.Checks (isOk_iff seq_eq_ok failIf_eq_ok)

/-! ## Report payloads are unambiguous -/

section Codes

/-- A code that a reader undoes is a prefix code. -/
theorem prefixCode_of_reads {α : Type} {read : ByteReader.Reader α} {encode : α → List UInt8}
    (h : ∀ a rest, (read >>= pure) (encode a ++ rest) = some (a, rest)) :
    PrefixCode encode := by
  intro a b rest rest' hcode
  have hread := h a rest
  rw [hcode, h b rest'] at hread
  cases hread
  exact ⟨rfl, rfl⟩

theorem outcome_prefixCode : PrefixCode fun outcome : Outcome => putU16 outcome.code :=
  prefixCode_of_reads fun _ _ => Outcome.read_bind ..

theorem reasonCode_prefixCode : PrefixCode fun code : ReasonCode => putU16 code.code :=
  prefixCode_of_reads fun _ _ => ReasonCode.read_bind ..

theorem resultState_prefixCode : PrefixCode fun state : ResultState => putU8 state.code :=
  prefixCode_of_reads fun _ _ => ResultState.read_bind ..

theorem writeEntry_prefixCode : PrefixCode writeEntry := by
  intro a b rest rest' h
  simp only [writeEntry, List.append_assoc, putId_prefixCode.append_inj,
    putGeneration_prefixCode.append_inj, outcome_prefixCode.append_inj,
    reasonCode_prefixCode.append_inj, resultState_prefixCode.append_inj,
    List.append_cancel_left_eq, putDigest_prefixCode.append_inj] at h
  cases a
  cases b
  simp_all

theorem length_writeEntry (entry : CandidateResultView) : (writeEntry entry).length = 72 := by
  have hdigest := entry.digest.size
  simp [writeEntry, putRaw, hdigest]

theorem CurrentnessCause.code_injective : Function.Injective CurrentnessCause.code := by
  intro a b h
  cases a <;> cases b <;> first | rfl | cases h

theorem writeCause_prefixCode : PrefixCode writeCause := by
  intro a b rest rest' h
  simp only [writeCause, List.append_assoc, putU8_prefixCode.append_inj, true_and,
    List.append_cancel_left_eq] at h
  exact ⟨CurrentnessCause.code_injective h.1, h.2⟩

end Codes

/-! ## Reports that say the same -/

/-- The views of the set's records, in the order of a snapshot. -/
def shownViews (evaluations : List EvaluationRecord) (setId : ConstraintSetId) :
    List CandidateResultView :=
  sortBy compareEntry ((evaluations.filter (·.setId == setId)).map resultView)

/-- The two counts show alike: they agree on the wire, and in being zero. -/
def AlikeCounts (first second : Nat) : Prop :=
  UInt64.ofNat first = UInt64.ofNat second ∧ (first = 0 ↔ second = 0)

/-- The coordinator with other stored records, under whatever index of them. -/
def Impl.withRecords (impl : Impl) (evaluations : List EvaluationRecord)
    (current : Std.ExtTreeMap (UInt64 × UInt64) ConstraintEvaluationId resultKeyCompare)
    (index : InvalidationIndex) : Impl :=
  { impl with evaluations, current, index }

section Reports

variable {impl : Impl} {evaluations : List EvaluationRecord}
  {current : Std.ExtTreeMap (UInt64 × UInt64) ConstraintEvaluationId resultKeyCompare}
  {index : InvalidationIndex} {setId : ConstraintSetId} {set : ConstraintSet}

theorem definitionsReport_withRecords :
    definitionsReport (impl.withRecords evaluations current index) setId =
      definitionsReport impl setId := rfl

theorem resultsReport_eq_iff (hset : findSet impl.sets setId = some set) :
    resultsReport impl setId =
        resultsReport (impl.withRecords evaluations current index) setId ↔
      shownViews impl.evaluations setId = shownViews evaluations setId := by
  have hreport : ∀ records : List EvaluationRecord,
      resultsReport (impl.withRecords records current index) setId =
        encodeResultsReport ⟨true, Fabric.snapshotResults setId set.generation
          impl.lastGeneration ((records.filter (·.setId == setId)).map resultView)⟩ := by
    intro records
    have hfound : findSet (impl.withRecords records current index).sets setId = some set := hset
    unfold resultsReport Impl.snapshotResults
    rw [hfound]
    rfl
  have hown : resultsReport impl setId =
      resultsReport (impl.withRecords impl.evaluations current index) setId := rfl
  rw [hown, hreport, hreport]
  constructor
  · intro h
    simp only [encodeResultsReport, encodeResultsSnapshot, Fabric.snapshotResults, putAll,
      putCount, if_true, List.append_assoc, List.append_cancel_left_eq,
      putId_prefixCode.append_inj, putU32_prefixCode.append_inj] at h
    obtain ⟨-, -, -, hentries⟩ := h
    exact (writeEntry_prefixCode.flatMap_of_length length_writeEntry (by decide)
      ((Digest256.size _).trans (Digest256.size _).symm) hentries).1
  · intro h
    unfold shownViews at h
    simp only [Fabric.snapshotResults, h]

/-- The causes that stored records give, and those of the families that moved, are
different. -/
private theorem advancedCause_ne (family : EvidenceFamily) :
    advancedCause family ≠ some .noCurrentResult ∧
      advancedCause family ≠ some .dependencyInvalidated ∧
      advancedCause family ≠ some .recoveredUnproven := by
  cases family <;> decide

private theorem mem_causes (count : ResultState → Nat) :
    (.noCurrentResult ∈ impl.currentnessCauses set count ↔ count .current = 0) ∧
      (.dependencyInvalidated ∈ impl.currentnessCauses set count ↔
        count .revalidationRequired ≠ 0) ∧
      (.recoveredUnproven ∈ impl.currentnessCauses set count ↔
        count .recoveredUnproven ≠ 0) := by
  simp [Impl.currentnessCauses, advancedCause_ne, Nat.pos_iff_ne_zero]

/-- Equal causes come from counts that are zero together. -/
private theorem zero_iff_of_causes {count other : ResultState → Nat}
    (h : sortUnique (compareOn (·.code)) (impl.currentnessCauses set count) =
      sortUnique (compareOn (·.code)) (impl.currentnessCauses set other)) :
    ∀ state ∈ [ResultState.current, .revalidationRequired, .recoveredUnproven],
      (count state = 0 ↔ other state = 0) := by
  have hmem : ∀ cause, cause ∈ impl.currentnessCauses set count ↔
      cause ∈ impl.currentnessCauses set other := by
    intro cause
    rw [← mem_sortUnique, h, mem_sortUnique]
  obtain ⟨hnone, hdependency, hrecovered⟩ := @mem_causes impl set count
  obtain ⟨hnone', hdependency', hrecovered'⟩ := @mem_causes impl set other
  intro state hstate
  simp only [List.mem_cons, List.not_mem_nil, or_false] at hstate
  rcases hstate with rfl | rfl | rfl
  · exact hnone.symm.trans ((hmem _).trans hnone')
  · exact not_iff_not.mp (hdependency.symm.trans ((hmem _).trans hdependency'))
  · exact not_iff_not.mp (hrecovered.symm.trans ((hmem _).trans hrecovered'))

/-- Counts that are zero together give the same causes. -/
private theorem causes_of_zero_iff {count other : ResultState → Nat}
    (h : ∀ state ∈ [ResultState.current, .revalidationRequired, .recoveredUnproven],
      (count state = 0 ↔ other state = 0)) :
    impl.currentnessCauses set count = impl.currentnessCauses set other := by
  have hcurrent := h .current (by simp)
  have hdependency := h .revalidationRequired (by simp)
  have hrecovered := h .recoveredUnproven (by simp)
  simp only [Impl.currentnessCauses, Nat.pos_iff_ne_zero, ne_eq, hcurrent, hdependency,
    hrecovered]

theorem currentnessReport_eq_iff (hset : findSet impl.sets setId = some set) :
    currentnessReport impl setId =
        currentnessReport (impl.withRecords evaluations current index) setId ↔
      ∀ state ∈ [ResultState.current, .revalidationRequired, .recoveredUnproven],
        AlikeCounts (countResults impl.evaluations setId state)
          (countResults evaluations setId state) := by
  have hreport : ∀ records : List EvaluationRecord,
      currentnessReport (impl.withRecords records current index) setId =
        encodeCurrentnessReport
          ⟨true, impl.reportCurrentness set setId (countResults records setId)⟩ := by
    intro records
    have hfound : findSet (impl.withRecords records current index).sets setId = some set := hset
    unfold currentnessReport Impl.currentness
    rw [hfound]
    rfl
  have hown : currentnessReport impl setId =
      currentnessReport (impl.withRecords impl.evaluations current index) setId := rfl
  rw [hown, hreport, hreport]
  generalize countResults impl.evaluations setId = count
  generalize countResults evaluations setId = other
  constructor
  · intro h
    simp only [encodeCurrentnessReport, encodeCurrentness, Impl.reportCurrentness, putAll,
      putCount, if_true, List.append_assoc, List.append_cancel_left_eq,
      putU64_prefixCode.append_inj, putU32_prefixCode.append_inj] at h
    obtain ⟨-, hcurrent, hdependency, hrecovered, -, hcauses⟩ := h
    have hended := congrArg (· ++ []) hcauses
    have hsame := (writeCause_prefixCode.flatMap_of_length (fun _ => rfl) (by decide) rfl
      hended).1
    have hzero := zero_iff_of_causes hsame
    intro state hstate
    refine ⟨?_, hzero state hstate⟩
    simp only [List.mem_cons, List.not_mem_nil, or_false] at hstate
    rcases hstate with rfl | rfl | rfl
    · exact hcurrent
    · exact hdependency
    · exact hrecovered
  · intro h
    have hcauses := @causes_of_zero_iff impl set count other fun state hstate =>
      (h state hstate).2
    have hcurrent := (h .current (by simp)).1
    have hdependency := (h .revalidationRequired (by simp)).1
    have hrecovered := (h .recoveredUnproven (by simp)).1
    simp only [encodeCurrentnessReport, encodeCurrentness, Impl.reportCurrentness, hcauses,
      hcurrent, hdependency, hrecovered]

/-- A set that is not known is reported as not found, whatever is stored. -/
theorem reports_unknown (hset : findSet impl.sets setId = none) :
    resultsReport impl setId =
        resultsReport (impl.withRecords evaluations current index) setId ∧
      currentnessReport impl setId =
        currentnessReport (impl.withRecords evaluations current index) setId := by
  have hother : findSet (impl.withRecords evaluations current index).sets setId = none := hset
  unfold resultsReport currentnessReport Impl.snapshotResults Impl.currentness
  rw [hset, hother]
  exact ⟨rfl, rfl⟩

end Reports

/-! ## Lengths of reports -/

section Lengths

variable {impl : Impl} {setId : ConstraintSetId} {set : ConstraintSet}

/-- The bytes of a results report on that many records. -/
def resultsReportLength (records : Nat) : Nat := 76 + 72 * records

/-- The bytes of a currentness report with that many causes. -/
def currentnessReportLength (causes : Nat) : Nat := 200 + 8 * causes

private theorem length_writeFound (found : Bool) : (writeFound found).length = 8 := rfl

private theorem length_putDigest (digest : Digest256) : (putRaw digest.bytes).length = 32 :=
  digest.size

theorem length_resultsReport (hset : findSet impl.sets setId = some set) :
    (resultsReport impl setId).length =
      resultsReportLength (impl.evaluations.filter (·.setId == setId)).length := by
  unfold resultsReport Impl.snapshotResults
  rw [hset]
  simp only [encodeResultsReport, encodeResultsSnapshot, Fabric.snapshotResults, if_true,
    List.length_append, length_writeFound, length_putId, length_putGeneration, length_putAll,
    length_flatMap_of_const length_writeEntry, length_sortBy, List.length_map,
    length_putDigest, resultsReportLength]
  omega

private theorem length_encodeEvidenceRequirements (evidence : EvidenceRequirements) :
    (encodeEvidenceRequirements evidence).length = 64 := rfl

theorem length_currentnessReport (hset : findSet impl.sets setId = some set) :
    (currentnessReport impl setId).length =
      currentnessReportLength (sortUnique (compareOn (·.code)) (impl.currentnessCauses set
        (countResults impl.evaluations setId))).length := by
  have hcause : ∀ cause, (writeCause cause).length = 8 := fun _ => rfl
  unfold currentnessReport Impl.currentness
  rw [hset]
  simp only [encodeCurrentnessReport, encodeCurrentness, Impl.reportCurrentness, if_true,
    List.length_append, length_writeFound, length_putId, length_putGeneration, length_putAll,
    length_flatMap_of_const hcause, length_putU8, length_putU16, length_putU32, length_putU64,
    length_putBool, length_encodeEvidenceRequirements, currentnessReportLength]
  omega

end Lengths

/-! ## Requests that tell nothing -/

/-- The kinds of frame that ask for a report. -/
def MessageId.queries : MessageId → Bool
  | .queryDefinitions | .queryResults | .queryCurrentness => true
  | _ => false

/-- The session is registered, without the scope to read results. -/
structure Unscoped (state : ServerState) : Prop where
  registered : state.session.registered = true
  unscoped : hasScope state.session.scopes .readResults = false
  running : state.running = true

/-- The results reports on the set are alike, or neither fits a frame. -/
def AlikeResults (config : ServerConfig) (impl : Impl) (evaluations : List EvaluationRecord)
    (setId : ConstraintSetId) : Prop :=
  let tooLong (records : List EvaluationRecord) : Prop :=
    config.limits.maxFrameBytes.toNat <
      resultsReportLength (records.filter (·.setId == setId)).length
  shownViews impl.evaluations setId = shownViews evaluations setId ∨
    tooLong impl.evaluations ∧ tooLong evaluations

/-- The currentness reports on the set are alike, or neither fits a frame. -/
def AlikeCurrentness (config : ServerConfig) (impl : Impl)
    (evaluations : List EvaluationRecord) (setId : ConstraintSetId) (set : ConstraintSet) :
    Prop :=
  let tooLong (records : List EvaluationRecord) : Prop :=
    config.limits.maxFrameBytes.toNat <
      currentnessReportLength (sortUnique (compareOn (·.code))
        (impl.currentnessCauses set (countResults records setId))).length
  (∀ state ∈ [ResultState.current, .revalidationRequired, .recoveredUnproven],
    AlikeCounts (countResults impl.evaluations setId state)
      (countResults evaluations setId state)) ∨
    tooLong impl.evaluations ∧ tooLong evaluations

/-- The frame is no request about the records of a known set, or it asks for a report that
the other records do not change. -/
def Indistinct (config : ServerConfig) (state : ServerState)
    (evaluations : List EvaluationRecord) (frame : Frame) : Prop :=
  identityMatches state.session frame.header = true →
    ∀ setId, decodeQuery.toEnd frame.payload = some setId →
      ∀ set, findSet state.system.impl.sets setId = some set →
        (frame.header.message = .queryResults →
          AlikeResults config state.system.impl evaluations setId) ∧
        (frame.header.message = .queryCurrentness →
          AlikeCurrentness config state.system.impl evaluations setId set)

/-- The frames that answer each request, where the connection handles nothing else. -/
def repliesTo (config : ServerConfig) (state : ServerState)
    (requests : List (Frame × Surroundings)) : Option (List (List Frame)) :=
  (exec (serveStep config) state (requests.map fun request =>
    .frame request.1 request.2)).map fun run => run.1.map (·.output)

/-! ## Replies -/

section Replies

variable {config : ServerConfig} {state : ServerState} {frame : Frame}
  {evaluations : List EvaluationRecord}
  {current : Std.ExtTreeMap (UInt64 × UInt64) ConstraintEvaluationId resultKeyCompare}
  {index : InvalidationIndex}

theorem ServerConfig.sends_iff {answer : Frame} (hmessage : answer.header.message ≠ .invalid) :
    config.sends answer = true ↔ answer.payload.length ≤ config.limits.maxFrameBytes.toNat := by
  have hdecide : config.sends answer = true ↔
      listWithin answer.payload config.limits.maxFrameBytes = true := by
    unfold ServerConfig.sends encodeFrame
    simp only [isOk_iff, seq_eq_ok, failIf_eq_ok, Bool.not_eq_false', decide_eq_false hmessage]
    constructor
    · intro h
      obtain ⟨_, hwithin, -⟩ := h
      exact hwithin
    · intro h
      exact ⟨_, h, trivial, rfl⟩
  rw [hdecide]
  exact decide_eq_true_iff

/-- Two answers to a request are received alike when they are the same, or both too long. -/
theorem replies_answer_eq_iff {other : ServerState} {header : FrameHeader}
    {message : MessageId} {first second : List UInt8} (hmessage : message ≠ .invalid)
    (hsession : other.session = state.session)
    (hepoch : other.system.impl.authority.epoch = state.system.impl.authority.epoch) :
    (state.answer header message first).replies config =
        (other.answer header message second).replies config ↔
      first = second ∨ config.limits.maxFrameBytes.toNat < first.length ∧
        config.limits.maxFrameBytes.toNat < second.length := by
  have hframe : ∀ payload, sendFrame other.system.impl message other.session header payload =
      sendFrame state.system.impl message state.session header payload := by
    intro payload
    unfold sendFrame
    rw [hsession, hepoch]
  have hsends : ∀ payload,
      config.sends (sendFrame state.system.impl message state.session header payload) = true ↔
        payload.length ≤ config.limits.maxFrameBytes.toNat :=
    fun payload => ServerConfig.sends_iff hmessage
  unfold Handled.replies ServerState.answer
  dsimp only
  rw [hframe]
  by_cases hfirst : first.length ≤ config.limits.maxFrameBytes.toNat <;>
    by_cases hsecond : second.length ≤ config.limits.maxFrameBytes.toNat
  · rw [List.filter_cons_of_pos ((hsends _).mpr hfirst),
      List.filter_cons_of_pos ((hsends _).mpr hsecond)]
    have hpayload : sendFrame state.system.impl message state.session header first =
        sendFrame state.system.impl message state.session header second ↔ first = second := by
      simp [sendFrame]
    simp only [List.filter_nil, List.cons.injEq, and_true, hpayload]
    constructor
    · intro h
      exact .inl h
    · intro h
      exact h.resolve_right (by omega)
  · have hdiffer : first ≠ second := fun h => hsecond (h ▸ hfirst)
    rw [List.filter_cons_of_pos ((hsends _).mpr hfirst),
      List.filter_cons_of_neg (mt (hsends _).mp hsecond)]
    exact iff_of_false (by simp) fun h => h.elim hdiffer (by omega)
  · have hdiffer : first ≠ second := fun h => hfirst (h ▸ hsecond)
    rw [List.filter_cons_of_neg (mt (hsends _).mp hfirst),
      List.filter_cons_of_pos ((hsends _).mpr hsecond)]
    exact iff_of_false (by simp) fun h => h.elim hdiffer (by omega)
  · rw [List.filter_cons_of_neg (mt (hsends _).mp hfirst),
      List.filter_cons_of_neg (mt (hsends _).mp hsecond)]
    exact iff_of_true rfl (.inr (by omega))

/-- The report that a query asks for. -/
def reportFor : MessageId → Impl → ConstraintSetId → List UInt8
  | .queryResults => resultsReport
  | .queryCurrentness => currentnessReport
  | _ => definitionsReport

/-- How a query frame of a registered session is handled, whatever surrounds it. -/
theorem handleFrame_query (hquery : frame.header.message.queries = true) :
    ∃ message malformed, message ≠ .invalid ∧ ∀ state, Unscoped state → ∀ surroundings,
      handleFrame config state frame surroundings =
        if identityMatches state.session frame.header then
          some (handleQuery config state frame message (reportFor frame.header.message)
            malformed)
        else
          some (state.refuse config frame.header .fenced .fencedWorkerBoot
            "frame identity does not match the registered session identity" false) := by
  have hhello : frame.header.message ≠ .hello := by
    intro hmessage
    rw [hmessage] at hquery
    cases hquery
  unfold handleFrame
  dsimp only
  simp only [if_neg hhello]
  cases hmessage : frame.header.message with
  | queryDefinitions =>
      refine ⟨.definitionsReport, "definitions query payload is malformed", by decide, ?_⟩
      intro state h surroundings
      rw [h.registered]
      cases identityMatches state.session frame.header <;> rfl
  | queryResults =>
      refine ⟨.resultsReport, "results query payload is malformed", by decide, ?_⟩
      intro state h surroundings
      rw [h.registered]
      cases identityMatches state.session frame.header <;> rfl
  | queryCurrentness =>
      refine ⟨.currentnessReport, "currentness query payload is malformed", by decide, ?_⟩
      intro state h surroundings
      rw [h.registered]
      cases identityMatches state.session frame.header <;> rfl
  | _ => simp [hmessage, MessageId.queries] at hquery

/-- The frames that answer a request. -/
def answerTo (config : ServerConfig) (state : ServerState) (request : Frame × Surroundings) :
    List Frame :=
  (handleFrame config state request.1 request.2).elim [] (·.replies config)

/-- A query of a registered session is answered and leaves everything as it is. -/
theorem serveStep_query (h : Unscoped state) {request : Frame × Surroundings}
    (hquery : request.1.header.message.queries = true) :
    serveStep config state (.frame request.1 request.2) =
      some (state, answerTo config state request) := by
  obtain ⟨message, malformed, -, hhandle⟩ := @handleFrame_query config _ hquery
  unfold serveStep answerTo
  dsimp only
  rw [h.running, hhandle state h request.2]
  cases identityMatches state.session request.1.header with
  | false => rfl
  | true =>
      unfold handleQuery
      cases decodeQuery.toEnd request.1.payload <;> rfl

theorem repliesTo_queries (h : Unscoped state) {requests : List (Frame × Surroundings)}
    (hqueries : ∀ request ∈ requests, request.1.header.message.queries = true) :
    repliesTo config state requests = some (requests.map (answerTo config state)) := by
  unfold repliesTo
  induction requests with
  | nil => rfl
  | cons first rest ih =>
      have hrest := ih fun request hmem => hqueries request (List.mem_cons_of_mem _ hmem)
      have hstep := @serveStep_query config _ h _ (hqueries first List.mem_cons_self)
      rw [List.map_cons, List.map_cons, exec, hstep]
      simp only [Option.map_eq_some_iff] at hrest ⊢
      obtain ⟨run, hrun, houtputs⟩ := hrest
      exact ⟨_, ⟨run, hrun, rfl⟩, by simp [houtputs]⟩

/-- The reports on a set say the same exactly when the records that they show are alike. -/
theorem reportFor_alike_iff {setId : ConstraintSetId}
    (hquery : frame.header.message.queries = true) :
    (let report := reportFor frame.header.message
     let other := state.system.impl.withRecords evaluations current index
     report state.system.impl setId = report other setId ∨
       config.limits.maxFrameBytes.toNat < (report state.system.impl setId).length ∧
         config.limits.maxFrameBytes.toNat < (report other setId).length) ↔
      ∀ set, findSet state.system.impl.sets setId = some set →
        (frame.header.message = .queryResults →
          AlikeResults config state.system.impl evaluations setId) ∧
        (frame.header.message = .queryCurrentness →
          AlikeCurrentness config state.system.impl evaluations setId set) := by
  cases hset : findSet state.system.impl.sets setId with
  | none =>
      have hunknown := @reports_unknown _ evaluations current index _ hset
      refine iff_of_true (.inl ?_) (by simp)
      cases hmessage : frame.header.message with
      | queryResults => exact hunknown.1
      | queryCurrentness => exact hunknown.2
      | _ => rfl
  | some set =>
      have hother : findSet (state.system.impl.withRecords evaluations current index).sets
          setId = some set := hset
      simp only [Option.some.injEq, forall_eq']
      cases hmessage : frame.header.message with
      | queryResults =>
          simp only [reportFor, resultsReport_eq_iff hset, length_resultsReport hset,
            length_resultsReport hother]
          exact ⟨fun h => ⟨fun _ => h, nofun⟩, fun h => h.1 trivial⟩
      | queryCurrentness =>
          simp only [reportFor, currentnessReport_eq_iff hset, length_currentnessReport hset,
            length_currentnessReport hother]
          exact ⟨fun h => ⟨nofun, fun _ => h⟩, fun h => h.2 trivial⟩
      | queryDefinitions =>
          exact iff_of_true (.inl definitionsReport_withRecords.symm) (by simp)
      | _ => simp [hmessage, MessageId.queries] at hquery

theorem answerTo_eq_iff (h : Unscoped state) {request : Frame × Surroundings}
    (hquery : request.1.header.message.queries = true) :
    answerTo config state request =
        answerTo config
          (state.withImpl (state.system.impl.withRecords evaluations current index)) request ↔
      Indistinct config state evaluations request.1 := by
  have hother : Unscoped
      (state.withImpl (state.system.impl.withRecords evaluations current index)) :=
    ⟨h.registered, h.unscoped, h.running⟩
  obtain ⟨message, malformed, hmessage, hhandle⟩ := @handleFrame_query config _ hquery
  unfold answerTo Indistinct
  rw [hhandle _ h, hhandle _ hother]
  show _ ↔ (identityMatches state.session request.1.header = true → _)
  cases hidentity : identityMatches state.session request.1.header with
  | false =>
      have hsame : identityMatches (state.withImpl
          (state.system.impl.withRecords evaluations current index)).session
            request.1.header = false := hidentity
      rw [hsame]
      exact iff_of_true rfl (by simp)
  | true =>
      have hsame : identityMatches (state.withImpl
          (state.system.impl.withRecords evaluations current index)).session
            request.1.header = true := hidentity
      rw [hsame]
      unfold handleQuery
      cases decodeQuery.toEnd request.1.payload with
      | none => exact iff_of_true rfl (by simp)
      | some setId =>
          simp only [if_true, Option.elim_some, Option.some.injEq, forall_eq', true_imp_iff]
          exact (replies_answer_eq_iff hmessage rfl rfl).trans (reportFor_alike_iff hquery)

/-- A session without the scope to read results is answered alike by two coordinators that
differ in stored records exactly when none of its requests shows a difference. -/
theorem undisclosed_iff_indistinct (h : Unscoped state)
    (requests : List (Frame × Surroundings))
    (hqueries : ∀ request ∈ requests, request.1.header.message.queries = true) :
    repliesTo config state requests =
        repliesTo config
          (state.withImpl (state.system.impl.withRecords evaluations current index)) requests ↔
      ∀ request ∈ requests, Indistinct config state evaluations request.1 := by
  have hother : Unscoped
      (state.withImpl (state.system.impl.withRecords evaluations current index)) :=
    ⟨h.registered, h.unscoped, h.running⟩
  rw [repliesTo_queries h hqueries, repliesTo_queries hother hqueries, Option.some.injEq,
    List.map_inj_left]
  constructor
  · intro hsame request hmem
    exact (answerTo_eq_iff h (hqueries request hmem)).mp (hsame request hmem)
  · intro hindistinct request hmem
    exact (answerTo_eq_iff h (hqueries request hmem)).mpr (hindistinct request hmem)

end Replies

/-- The query of a worker about set five. -/
def sampleQuery (message : MessageId) : Frame :=
  { header := { message, epoch := ⟨1⟩, publisher := ⟨1⟩, workerBoot := ⟨4243⟩, request := ⟨8⟩ }
    payload := putId (⟨5⟩ : ConstraintSetId) }

/-- Another caller evaluates a set; then a worker asks for the scope to publish alone. -/
def sampleDisclosure : List Activity :=
  (sampleRegister :: sampleOnce).map .elsewhere ++
    [sampleHandled { sampleHello ⟨1⟩ ⟨4243⟩ 21 with
      payload := encodeHello { publisher := ⟨1⟩, workerBoot := ⟨4243⟩, requestedScopes := 1 } }]

private def unscoped (state : ServerState) : Bool :=
  state.session.registered && !hasScope state.session.scopes .readResults && state.running

private theorem unscoped_sound {state : ServerState} (h : unscoped state = true) :
    Unscoped state := by
  simp only [unscoped, Bool.and_eq_true, Bool.not_eq_true'] at h
  exact ⟨h.1.1, h.1.2, h.2⟩

/-- The session may not read results, and a stored record of the set is shown to it. -/
private def discloses (state : ServerState) : Bool :=
  unscoped state && identityMatches state.session (sampleQuery .queryResults).header &&
    (findSet state.system.impl.sets ⟨5⟩).isSome &&
    state.system.impl.evaluations.any (·.setId == ⟨5⟩)

private theorem sampleDisclosure_discloses :
    ((sampleServe sampleConfig sampleDisclosure).any fun run => discloses run.2) = true := by
  decide +kernel

theorem undisclosed_iff_indistinct_sample :
    ∃ events state, sampleServe sampleConfig sampleDisclosure = some (events, state) ∧
      repliesTo {} state [(sampleQuery .queryDefinitions, ⟨sampleCall, sampleCall, [], 0, true⟩)] =
        repliesTo {} (state.withImpl (state.system.impl.withRecords [] ∅ {}))
          [(sampleQuery .queryDefinitions, ⟨sampleCall, sampleCall, [], 0, true⟩)] := by
  obtain ⟨⟨events, state⟩, hrun, hcheck⟩ := (Option.any_eq_true _ _).mp sampleDisclosure_discloses
  simp only [discloses, Bool.and_eq_true] at hcheck
  have hunscoped := unscoped_sound hcheck.1.1.1
  refine ⟨events, state, hrun, (undisclosed_iff_indistinct hunscoped _ ?_).mpr ?_⟩
  · intro request hmem
    rw [List.mem_singleton.mp hmem]
    rfl
  · intro request hmem _ setId _ set _
    rw [List.mem_singleton.mp hmem]
    exact ⟨nofun, nofun⟩

/-- A worker that may not read results is answered a query about results by the stored
records. -/
theorem results_disclosed :
    ∃ events state, sampleServe sampleConfig sampleDisclosure = some (events, state) ∧
      Unscoped state ∧
      repliesTo {} state [(sampleQuery .queryResults, ⟨sampleCall, sampleCall, [], 0, true⟩)] ≠
        repliesTo {} (state.withImpl (state.system.impl.withRecords [] ∅ {}))
          [(sampleQuery .queryResults, ⟨sampleCall, sampleCall, [], 0, true⟩)] := by
  obtain ⟨⟨events, state⟩, hrun, hcheck⟩ := (Option.any_eq_true _ _).mp sampleDisclosure_discloses
  simp only [discloses, Bool.and_eq_true] at hcheck
  obtain ⟨⟨⟨hchecked, hidentity⟩, hknown⟩, hrecord⟩ := hcheck
  have hunscoped := unscoped_sound hchecked
  have hqueries : ∀ request ∈
      [(sampleQuery .queryResults, (⟨sampleCall, sampleCall, [], 0, true⟩ : Surroundings))],
        request.1.header.message.queries = true := by
    intro request hmem
    rw [List.mem_singleton.mp hmem]
    rfl
  have hother : Unscoped (state.withImpl (state.system.impl.withRecords [] ∅ {})) :=
    ⟨hunscoped.registered, hunscoped.unscoped, hunscoped.running⟩
  refine ⟨events, state, hrun, hunscoped, ?_⟩
  rw [repliesTo_queries hunscoped hqueries, repliesTo_queries hother hqueries]
  intro hsame
  have hanswer := List.head_eq_of_cons_eq (Option.some.inj hsame)
  obtain ⟨set, hset⟩ := Option.isSome_iff_exists.mp hknown
  have halike := ((answerTo_eq_iff hunscoped rfl).mp hanswer hidentity ⟨5⟩ rfl set hset).1 rfl
  rcases halike with hviews | ⟨-, hlong⟩
  · have hcount := congrArg List.length hviews
    obtain ⟨record, hmem, hset⟩ := List.any_eq_true.mp hrecord
    have hfound : 0 < (state.system.impl.evaluations.filter
        fun record => record.setId == (⟨5⟩ : ConstraintSetId)).length :=
      List.length_pos_of_mem (List.mem_filter.mpr ⟨hmem, hset⟩)
    simp only [shownViews, length_sortBy, List.length_map, List.filter_nil, List.map_nil,
      List.length_nil] at hcount
    omega
  · exact absurd hlong (by decide)

end ConstraintRouting.Fabric
