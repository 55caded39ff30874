import ConstraintRouting.Fabric.Exchanges

/-!
# Queries over the wire

A query of a connected client returns exactly what the coordinator's own query returns at
that moment, or nothing: it fails where the answer does not fit the limits of one side or
holds a value that the decoder refuses.
-/

namespace ConstraintRouting.Fabric

open ByteWriter ByteReader
open Verified.Checks (bind_eq_ok)
open Verified.Readers.Reader (bind_iff)
open Verified.SortedLists

/-! ## Reports -/

section Reports

variable {impl : Impl} {setId : ConstraintSetId} {limits : Limits}

/-- What can be read of a report that was found is the whole of it, or nothing. -/
theorem shows_found {α β : Type} {read : Reader α} (mk : α → β) (found : β → Bool)
    (shown : β → α) (storable : α → Prop) {own a : α} {bytes : List UInt8}
    (hreads : ∀ out, read (bytes ++ []) = some out ↔ storable own ∧ (own, []) = out)
    (hfound : ∀ a, found (mk a) = true) (hshown : ∀ a, shown (mk a) = a) :
    (∃ out, (read >>= fun a => pure (mk a)) bytes = some out ∧ found out.1 = true ∧
        shown out.1 = a) ↔ (Except.ok own : Result α) = .ok a ∧ storable a := by
  rw [List.append_nil] at hreads
  constructor
  · intro h
    obtain ⟨out, hread, -, rfl⟩ := h
    obtain ⟨hstorable, hout⟩ := (bind_iff hreads _).mp hread
    cases hout
    exact ⟨congrArg Except.ok (hshown own).symm, (hshown own).symm ▸ hstorable⟩
  · intro h
    obtain ⟨hsame, hstorable⟩ := h
    cases hsame
    exact ⟨_, (bind_iff hreads _).mpr ⟨hstorable, rfl⟩, hfound own, hshown own⟩

theorem definitionsReport_shows {snapshot : DefinitionsSnapshot}
    (hsize : (definitionsReport impl setId).length < 2 ^ 32) :
    (∃ out, decodeDefinitionsReport limits (definitionsReport impl setId) = some out ∧
        out.1.found = true ∧ out.1.snapshot = snapshot) ↔
      impl.snapshotDefinitions setId = .ok snapshot ∧ snapshot.Storable limits := by
  unfold definitionsReport at hsize ⊢
  cases hown : impl.snapshotDefinitions setId with
  | error error =>
      refine iff_of_false (fun h => ?_) (fun h => nomatch h.1)
      obtain ⟨out, hread, hfound, -⟩ := h
      cases (Option.some.inj hread : ({}, []) = out)
      cases hfound
  | ok own =>
      rw [hown] at hsize
      unfold encodeDefinitionsReport at hsize ⊢
      rw [if_pos rfl, List.length_append] at hsize
      dsimp only at hsize ⊢
      unfold decodeDefinitionsReport
      rw [if_pos rfl, readFound_bind]
      exact shows_found (DefinitionsReportPayload.mk true) DefinitionsReportPayload.found
        DefinitionsReportPayload.snapshot (fun snapshot => snapshot.Storable limits)
        (fun out => decodeDefinitionsSnapshot_reads limits own [] out (by omega))
        (fun _ => rfl) (fun _ => rfl)

theorem resultsReport_shows {snapshot : ResultsSnapshot}
    (hsize : (resultsReport impl setId).length < 2 ^ 32) :
    (∃ out, decodeResultsReport limits (resultsReport impl setId) = some out ∧
        out.1.found = true ∧ out.1.snapshot = snapshot) ↔
      impl.snapshotResults setId = .ok snapshot ∧ snapshot.Storable limits := by
  unfold resultsReport at hsize ⊢
  cases hown : impl.snapshotResults setId with
  | error error =>
      refine iff_of_false (fun h => ?_) (fun h => nomatch h.1)
      obtain ⟨out, hread, hfound, -⟩ := h
      cases (Option.some.inj hread : ({}, []) = out)
      cases hfound
  | ok own =>
      rw [hown] at hsize
      unfold encodeResultsReport at hsize ⊢
      rw [if_pos rfl, List.length_append] at hsize
      dsimp only at hsize ⊢
      unfold decodeResultsReport
      rw [if_pos rfl, readFound_bind]
      exact shows_found (ResultsReportPayload.mk true) ResultsReportPayload.found
        ResultsReportPayload.snapshot (fun snapshot => snapshot.Storable limits)
        (fun out => decodeResultsSnapshot_reads limits own [] out (by omega))
        (fun _ => rfl) (fun _ => rfl)

/-- A report on currentness lists few causes, and each of them is one. -/
theorem causes_reportCurrentness (set : ConstraintSet) (count : ResultState → Nat) :
    (impl.reportCurrentness set setId count).causes.length ≤ 64 ∧
      ∀ cause ∈ (impl.reportCurrentness set setId count).causes, cause ≠ .none := by
  have hadvanced : ∀ family : EvidenceFamily, advancedCause family ≠ some .none := by
    intro family
    cases family <;> decide
  have hwhen : ∀ (condition : Prop) [Decidable condition] (cause : CurrentnessCause),
      (if condition then [cause] else []).length ≤ 1 := by
    intro condition _ cause
    split
    · exact Nat.le_refl 1
    · exact Nat.zero_le 1
  constructor
  · have hfamilies : kFamilies.length = 7 := rfl
    refine Nat.le_trans (length_sortUnique_le _ _) ?_
    unfold Impl.currentnessCauses
    have hlast := Nat.le_trans (List.length_filterMap_le advancedCause _)
      (List.length_filter_le (fun family =>
        decide (generationFor impl.evidence family < impl.watermarks.family family)) kFamilies)
    simp only [List.length_append]
    have h1 := hwhen (set.state ≠ .active) .constraintSetStateChanged
    have h2 := hwhen (set.evidence ≠ impl.evidence) .evidenceRequirementChanged
    have h3 := hwhen (0 < count .revalidationRequired) .dependencyInvalidated
    have h4 := hwhen (0 < count .recoveredUnproven) .recoveredUnproven
    have h5 := hwhen (count .current = 0) .noCurrentResult
    omega
  · intro cause hmem hnone
    subst hnone
    have hcause : CurrentnessCause.none ∈ impl.currentnessCauses set count :=
      mem_sortUnique.mp hmem
    unfold Impl.currentnessCauses at hcause
    simp only [List.mem_append, List.mem_filterMap, List.mem_ite_nil_right, List.mem_singleton,
      reduceCtorEq, and_false, false_or] at hcause
    obtain ⟨family, -, hfamily⟩ := hcause
    exact hadvanced family hfamily

/-- The counts of a report fit their fields where the number of the records does. -/
theorem counted_of_currentness {report : CurrentnessReport}
    (hrecords : impl.evaluations.length < 2 ^ 64) (h : impl.currentness setId = .ok report) :
    report.currentResults < 2 ^ 64 ∧ report.revalidationRequired < 2 ^ 64 ∧
      report.recoveredUnproven < 2 ^ 64 ∧ report.causes.length < 2 ^ 32 := by
  have hcount : ∀ state, countResults impl.evaluations setId state < 2 ^ 64 :=
    fun state => Nat.lt_of_le_of_lt List.countP_le_length hrecords
  unfold Impl.currentness at h
  split at h
  · cases h
  · next set _ =>
      cases h
      have hcauses := (@causes_reportCurrentness impl setId set
        (countResults impl.evaluations setId)).1
      exact ⟨hcount _, hcount _, hcount _, by omega⟩

theorem currentnessReport_shows {report : CurrentnessReport}
    (hrecords : impl.evaluations.length < 2 ^ 64) :
    (∃ out, decodeCurrentnessReport (currentnessReport impl setId) = some out ∧
        out.1.found = true ∧ out.1.report = report) ↔
      impl.currentness setId = .ok report ∧ report.Storable := by
  unfold currentnessReport
  cases hown : impl.currentness setId with
  | error error =>
      refine iff_of_false (fun h => ?_) (fun h => nomatch h.1)
      obtain ⟨out, hread, hfound, -⟩ := h
      cases (Option.some.inj hread : ({}, []) = out)
      cases hfound
  | ok own =>
      obtain ⟨hcurrent, hrevalidation, hrecovered, hcauses⟩ :=
        counted_of_currentness hrecords hown
      unfold decodeCurrentnessReport encodeCurrentnessReport
      rw [if_pos rfl, readFound_bind]
      exact shows_found (CurrentnessReportPayload.mk true) CurrentnessReportPayload.found
        CurrentnessReportPayload.report CurrentnessReport.Storable
        (fun out => decodeCurrentness_encoded hcauses hcurrent hrevalidation hrecovered)
        (fun _ => rfl) (fun _ => rfl)

end Reports

/-! ## Queries -/

section Queries

variable {config : ServerConfig} {client : WorkerClient} {message answer : MessageId}
  {setId : ConstraintSetId} {state : ServerState} {surroundings : Surroundings}
  {handled : Handled} {arrivals : List (List UInt8)}

theorem decodeQuery_putId (setId : ConstraintSetId) :
    decodeQuery.toEnd (putId setId) = if setId.isValid then some setId else none := by
  have hread := fun rest => Verified.Readers.Reader.bind_eq (id_putId setId rest)
    (fun found : ConstraintSetId => do
      Verified.Readers.Reader.accept found.isValid
      return found)
  unfold Verified.Readers.Reader.toEnd decodeQuery
  rw [← List.append_nil (putId setId), hread]
  cases setId.isValid <;> rfl

theorem WorkerClient.reported_eq_ok {α β : Type} {read : Reader α} {found : α → Bool}
    {shown : α → β} {response : Frame} {b : β} :
    reported read found shown response = .ok b ↔
      ∃ out, read response.payload = some out ∧ found out.1 = true ∧ shown out.1 = b := by
  unfold reported
  cases read response.payload with
  | none => exact iff_of_false (fun h => nomatch h) (fun h => nomatch h)
  | some out =>
      cases hfound : found out.1 with
      | false => simp [hfound, failure]
      | true => simp [hfound]

/-- A query returns what can be read of the server's report. -/
theorem RemoteCall.query_eq_ok {α β : Type} {report : Impl → ConstraintSetId → List UInt8}
    {malformed : String} {read : Reader α} {found : α → Bool} {shown : α → β} {b : β}
    {own : Prop}
    (h : RemoteCall config client message (putId setId) state surroundings handled arrivals)
    (hhandled : handleFrame config state (client.request message (putId setId)).normalized
      surroundings = some (handleQuery config state
        (client.request message (putId setId)).normalized answer report malformed))
    (hknown : answer ≠ .invalid) (hreport : answer ≠ .errorReport)
    (hshows : (report state.system.impl setId).length < 2 ^ 32 →
      ((∃ out, read (report state.system.impl setId) = some out ∧ found out.1 = true ∧
        shown out.1 = b) ↔ own)) :
    (client.roundTrip message (putId setId) arrivals >>=
      WorkerClient.reported read found shown) = .ok b ↔
      setId.isValid = true ∧ handled.Arrives config client.limits ∧ own := by
  obtain ⟨hserved, -⟩ := h.handles
  rw [hhandled] at hserved
  obtain rfl := Option.some.inj hserved
  have hpayload : (client.request message (putId setId)).normalized.payload = putId setId := rfl
  have hquery : handleQuery config state (client.request message (putId setId)).normalized
      answer report malformed = if setId.isValid then
        state.answer (client.request message (putId setId)).normalized.header answer
          (report state.system.impl setId)
      else state.refuse config (client.request message (putId setId)).normalized.header
        .malformed .malformedFrame malformed true := by
    unfold handleQuery
    rw [hpayload, decodeQuery_putId]
    cases setId.isValid <;> rfl
  cases hvalid : setId.isValid with
  | false =>
      rw [hvalid] at hquery
      obtain ⟨reply, hanswers⟩ := h.paired.answered h.request h.handles.1
      have hrefused : reply.header.message = .errorReport := by
        have hone := hanswers.answers
        rw [hquery] at hone
        rw [← List.head_eq_of_cons_eq hone]
        rfl
      refine iff_of_false (fun hreturned => ?_) (fun hall => nomatch hall.1)
      obtain ⟨response, hresponse, -⟩ := bind_eq_ok.mp hreturned
      exact ((h.roundTrip_eq_ok hanswers).mp hresponse).2.1 hrefused
  | true =>
      rw [hvalid] at hquery
      have hanswers : (handleQuery config state
          (client.request message (putId setId)).normalized answer report malformed).Answers
          client (sendFrame state.system.impl answer state.session
            (client.request message (putId setId)).normalized.header
            (report state.system.impl setId)) := by
        rw [hquery]
        exact ⟨rfl, rfl, hknown⟩
      rw [bind_eq_ok]
      constructor
      · intro hreturned
        obtain ⟨response, hresponse, hreported⟩ := hreturned
        obtain ⟨harrives, -, rfl⟩ := (h.roundTrip_eq_ok hanswers).mp hresponse
        exact ⟨rfl, harrives, (hshows (hanswers.size harrives)).mp
          (WorkerClient.reported_eq_ok.mp hreported)⟩
      · intro hall
        obtain ⟨-, harrives, hown⟩ := hall
        exact ⟨_, (h.roundTrip_eq_ok hanswers).mpr ⟨harrives, hreport, rfl⟩,
          WorkerClient.reported_eq_ok.mpr ((hshows (hanswers.size harrives)).mpr hown)⟩

end Queries

/-! ## Queries over the wire -/

section Faithful

variable {config : ServerConfig} {client : WorkerClient} {message : MessageId}
  {setId : ConstraintSetId} {state : ServerState}

/-- A query of a paired client reaches its handler. -/
theorem Paired.handleFrame_query (h : Paired client state.session)
    (surroundings : Surroundings) (setId : ConstraintSetId) :
    handleFrame config state (client.request .queryDefinitions (putId setId)).normalized
        surroundings =
      some (handleQueryDefinitions config state
        (client.request .queryDefinitions (putId setId)).normalized) ∧
    handleFrame config state (client.request .queryResults (putId setId)).normalized
        surroundings =
      some (handleQueryResults config state
        (client.request .queryResults (putId setId)).normalized) ∧
    handleFrame config state (client.request .queryCurrentness (putId setId)).normalized
        surroundings =
      some (handleQueryCurrentness config state
        (client.request .queryCurrentness (putId setId)).normalized) := by
  refine ⟨?_, ?_, ?_⟩
  all_goals
    unfold handleFrame
    dsimp only
    rw [if_neg (by intro hhello; cases hhello), h.registered, h.identityMatches]
    rfl

/-- A query over the wire returns exactly what the coordinator's own query returns, when the
answer fits the limits of both sides and the client can store it; it returns nothing else. -/
theorem queries_faithful (config : ServerConfig) (client : WorkerClient)
    (setId : ConstraintSetId) (state : ServerState) (surroundings : Surroundings)
    (handled : Handled) (arrivals : List (List UInt8)) :
    (RemoteCall config client .queryDefinitions (putId setId) state surroundings handled
        arrivals → ∀ snapshot,
      (client.queryDefinitions setId arrivals = .ok snapshot ↔
        setId.isValid = true ∧ handled.Arrives config client.limits ∧
        state.system.impl.snapshotDefinitions setId = .ok snapshot ∧
        snapshot.Storable client.limits)) ∧
    (RemoteCall config client .queryResults (putId setId) state surroundings handled
        arrivals → ∀ snapshot,
      (client.queryResults setId arrivals = .ok snapshot ↔
        setId.isValid = true ∧ handled.Arrives config client.limits ∧
        state.system.impl.snapshotResults setId = .ok snapshot ∧
        snapshot.Storable client.limits)) ∧
    (RemoteCall config client .queryCurrentness (putId setId) state surroundings handled
        arrivals → state.system.impl.evaluations.length < 2 ^ 64 → ∀ report,
      (client.queryCurrentness setId arrivals = .ok report ↔
        setId.isValid = true ∧ handled.Arrives config client.limits ∧
        state.system.impl.currentness setId = .ok report ∧ report.Storable)) := by
  refine ⟨?_, ?_, ?_⟩
  · intro h snapshot
    exact h.query_eq_ok (h.paired.handleFrame_query surroundings setId).1 (by decide)
      (by decide) definitionsReport_shows
  · intro h snapshot
    exact h.query_eq_ok (h.paired.handleFrame_query surroundings setId).2.1 (by decide)
      (by decide) resultsReport_shows
  · intro h hrecords report
    exact h.query_eq_ok (h.paired.handleFrame_query surroundings setId).2.2 (by decide)
      (by decide) fun _ => currentnessReport_shows hrecords

end Faithful

/-- The sample worker asks about a set that another caller published. -/
theorem queries_faithful_sample :
    ∃ events state, sampleServe sampleConfig sampleConnected = some (events, state) ∧
      (∃ handled : Handled, ∃ arrivals, ∀ snapshot,
        (sampleWorker.queryDefinitions ⟨5⟩ arrivals = .ok snapshot ↔
          (⟨5⟩ : ConstraintSetId).isValid = true ∧ handled.Arrives {} sampleWorker.limits ∧
          state.system.impl.snapshotDefinitions ⟨5⟩ = .ok snapshot ∧
          snapshot.Storable sampleWorker.limits)) ∧
      ∃ handled : Handled, ∃ arrivals, ∀ snapshot,
        (sampleWorker.queryResults ⟨5⟩ arrivals = .ok snapshot ↔
          (⟨5⟩ : ConstraintSetId).isValid = true ∧ handled.Arrives {} sampleWorker.limits ∧
          state.system.impl.snapshotResults ⟨5⟩ = .ok snapshot ∧
          snapshot.Storable sampleWorker.limits) := by
  obtain ⟨events, state, hrun, hsession⟩ := sampleConnected_paired
  have hpaired : Paired sampleWorker state.session := hsession ▸ sampleWorker_paired
  have hepoch : sampleWorker.epoch.Storable := by
    show (1 : UInt64) ≤ Generation.kMaxGeneration
    decide
  have hsize : (putId (⟨5⟩ : ConstraintSetId)).length ≤ ({} : Limits).maxFrameBytes.toNat := by
    decide
  have hqueries := @Paired.handleFrame_query {} sampleWorker state hpaired sampleAround ⟨5⟩
  obtain ⟨first, hfirst⟩ := remoteCall_of_handled rfl hpaired (by decide) (by decide) hepoch
    hsize hsize hqueries.1
  obtain ⟨second, hsecond⟩ := remoteCall_of_handled rfl hpaired (by decide) (by decide) hepoch
    hsize hsize hqueries.2.1
  exact ⟨events, state, hrun, ⟨_, first, (queries_faithful {} _ _ _ _ _ _).1 hfirst⟩, _, second,
    (queries_faithful {} _ _ _ _ _ _).2.1 hsecond⟩

end ConstraintRouting.Fabric
