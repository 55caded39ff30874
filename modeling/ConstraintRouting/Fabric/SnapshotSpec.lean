import ConstraintRouting.Fabric.DecodeSpec
import ConstraintRouting.Fabric.ExecutionSpec
import ConstraintRouting.Fabric.Queries

/-!
# Snapshots over the wire

The decoder of a snapshot of results accepts strictly ascending paths, and the snapshot
sorts its entries by path and then by evaluation generation, so it reads back exactly when
no path is repeated.
-/

namespace ConstraintRouting.Fabric

open ByteReader
open Verified.Readers (Reads)
open Verified.Readers.Reader (bind_eq_some pure_eq_some accept_bind accept_eq_some)
open Verified.SortedLists

/-! ## Entries -/

/-- What the decoder asks of an entry. -/
structure CandidateResultView.Storable (entry : CandidateResultView) : Prop where
  path : entry.path.isValid = true
  authorityGeneration : entry.authorityGeneration.Storable
  evaluationGeneration : entry.evaluationGeneration.Storable

theorem readEntry_reads (bound : Nat) :
    Reads bound readEntry writeEntry CandidateResultView.Storable := by
  intro entry rest out _
  unfold readEntry writeEntry
  simp only [List.append_assoc, id_bind, generationField_bind, Outcome.read_bind,
    ReasonCode.read_bind, ResultState.read_bind, padding8_bind, padding16_bind, digest_bind,
    accept_bind, pure_eq_some]
  constructor
  · intro h
    obtain ⟨hauthority, hgeneration, hpath, hout⟩ := h
    exact ⟨⟨hpath, hauthority, hgeneration⟩, hout⟩
  · intro h
    obtain ⟨hstorable, hout⟩ := h
    exact ⟨hstorable.authorityGeneration, hstorable.evaluationGeneration, hstorable.path, hout⟩

/-! ## Snapshots -/

/-- What the decoder asks of a snapshot. -/
structure ResultsSnapshot.Storable (snapshot : ResultsSnapshot) (limits : Limits) : Prop where
  setGeneration : snapshot.setGeneration.Storable
  evaluationGeneration : snapshot.evaluationGeneration.Storable
  count : snapshot.entries.length ≤ limits.maxEvaluationsRetained.toNat
  entries : ∀ entry ∈ snapshot.entries, entry.Storable
  ascending : strictlyAscending (compareOn (·.path)) snapshot.entries = true

/-- A snapshot is read back exactly when the decoder can store it. -/
theorem decodeResultsSnapshot_iff (limits : Limits) (snapshot : ResultsSnapshot) :
    decodeResultsSnapshot limits (encodeResultsSnapshot snapshot) = some (snapshot, []) ↔
      snapshot.Storable limits := by
  have hentries := fun left => @all_putAll _ _ _ _ readEntry_reads
    limits.maxEvaluationsRetained snapshot.entries
    (ByteWriter.putRaw snapshot.digest.bytes) left
  have hdigest := read_digest snapshot.digest []
  rw [List.append_nil] at hdigest
  unfold decodeResultsSnapshot encodeResultsSnapshot
  simp only [List.append_assoc, id_bind, generationField_bind]
  constructor
  · intro h
    obtain ⟨hset, hevaluation, h⟩ := h
    simp only [bind_eq_some, accept_eq_some, pure_eq_some] at h
    obtain ⟨entries, left, hread, -, -, ⟨hascending, hsame⟩, digest, rest, -, hout⟩ := h
    obtain rfl : entries = snapshot.entries :=
      congrArg (fun out : ResultsSnapshot × List UInt8 => out.1.entries) hout
    obtain ⟨⟨hcount, hstorable⟩, -⟩ := (hentries left).mp hread
    exact ⟨hset, hevaluation, hcount, hstorable, hascending⟩
  · intro h
    have hread := (hentries _).mpr ⟨⟨h.count, h.entries⟩, rfl⟩
    refine ⟨h.setGeneration, h.evaluationGeneration, ?_⟩
    simp only [bind_eq_some, accept_eq_some, pure_eq_some]
    exact ⟨_, _, hread, (), _, ⟨h.ascending, rfl⟩, _, _, hdigest, rfl⟩

/-! ## Results of a set -/

/-- The stored records of the set show each path once, with identities and generations that
the wire can carry, and no more of them than may be retained. -/
structure Presentable (impl : Impl) (set : ConstraintSet) : Prop where
  setGeneration : set.generation.Storable
  lastGeneration : impl.lastGeneration.Storable
  count : (impl.evaluations.filter (·.setId == set.id)).length ≤
    impl.config.limits.maxEvaluationsRetained.toNat
  paths : ((impl.evaluations.filter (·.setId == set.id)).map (·.path)).Nodup
  record : ∀ record ∈ impl.evaluations, record.setId = set.id →
    record.path.isValid = true ∧ record.authorityGeneration.Storable ∧
      record.generation.Storable

/-- The snapshot of a known set's results is read back under the coordinator's limits. -/
def ReadsBack (impl : Impl) (setId : ConstraintSetId) : Prop :=
  ∃ snapshot, impl.snapshotResults setId = .ok snapshot ∧
    decodeResultsSnapshot impl.config.limits (encodeResultsSnapshot snapshot) =
      some (snapshot, [])

/-- How the set's records show in its snapshot. -/
private def setViews (impl : Impl) (set : ConstraintSet) : List CandidateResultView :=
  (impl.evaluations.filter (·.setId == set.id)).map resultView

private theorem entries_storable_iff {impl : Impl} {set : ConstraintSet} :
    (∀ entry ∈ sortBy compareEntry (setViews impl set), entry.Storable) ↔
      ∀ record ∈ impl.evaluations, record.setId = set.id →
        record.path.isValid = true ∧ record.authorityGeneration.Storable ∧
          record.generation.Storable := by
  constructor
  · intro h record hmem hown
    have hview := h (resultView record) (mem_sortBy.mpr (List.mem_map_of_mem
      (List.mem_filter.mpr ⟨hmem, beq_iff_eq.mpr hown⟩)))
    exact ⟨hview.path, hview.authorityGeneration, hview.evaluationGeneration⟩
  · intro h entry hmem
    obtain ⟨record, hrecord, rfl⟩ := List.mem_map.mp (mem_sortBy.mp hmem)
    obtain ⟨hmem, hown⟩ := List.mem_filter.mp hrecord
    obtain ⟨hpath, hauthority, hgeneration⟩ := h record hmem (beq_iff_eq.mp hown)
    exact ⟨hpath, hauthority, hgeneration⟩

/-- The decoder can store the snapshot of a set exactly when its records are
presentable. -/
theorem storable_iff_presentable {impl : Impl} {set : ConstraintSet} :
    (Fabric.snapshotResults set.id set.generation impl.lastGeneration
      (setViews impl set)).Storable impl.config.limits ↔ Presentable impl set := by
  have hlength : (sortBy compareEntry (setViews impl set)).length =
      (impl.evaluations.filter (·.setId == set.id)).length := by
    rw [length_sortBy, setViews, List.length_map]
  have hpaths : (setViews impl set).map (·.path) =
      (impl.evaluations.filter (·.setId == set.id)).map (·.path) := by
    rw [setViews, List.map_map]
    rfl
  have hascending : strictlyAscending (compareOn (·.path))
      (sortBy compareEntry (setViews impl set)) = true ↔
        ((setViews impl set).map (·.path)).Nodup := strictlyAscending_sortBy_iff
  constructor
  · intro h
    exact ⟨h.setGeneration, h.evaluationGeneration, hlength ▸ h.count,
      hpaths ▸ hascending.mp h.ascending, entries_storable_iff.mp h.entries⟩
  · intro h
    exact ⟨h.setGeneration, h.lastGeneration, hlength.trans_le h.count,
      entries_storable_iff.mpr h.record, hascending.mpr (hpaths.symm ▸ h.paths)⟩

/-- The round trip of a known set's results asks what the decoder asks. -/
theorem readsBack_iff_storable {impl : Impl} {setId : ConstraintSetId} {set : ConstraintSet}
    (hset : findSet impl.sets setId = some set) :
    ReadsBack impl setId ↔
      (Fabric.snapshotResults set.id set.generation impl.lastGeneration
        (setViews impl set)).Storable impl.config.limits := by
  have hid : set.id = setId := by
    unfold findSet at hset
    simpa using List.find?_some hset
  subst hid
  have hsnapshot : impl.snapshotResults set.id =
      .ok (Fabric.snapshotResults set.id set.generation impl.lastGeneration
        (setViews impl set)) := by
    unfold Impl.snapshotResults
    rw [hset]
    rfl
  unfold ReadsBack
  rw [hsnapshot]
  simp only [Except.ok.injEq, exists_eq_left', decodeResultsSnapshot_iff]

/-- The results of a known set are read back exactly when its records are presentable. -/
theorem readsBack_iff_presentable {impl : Impl} {setId : ConstraintSetId} {set : ConstraintSet}
    (hset : findSet impl.sets setId = some set) :
    ReadsBack impl setId ↔ Presentable impl set :=
  (readsBack_iff_storable hset).trans storable_iff_presentable

/-- One path, evaluated once. -/
def sampleOnce : List Input := samplePublish 5 10 ++ [sampleBegin 20 5 [31], sampleFinish 0]

/-- The condition of the round trip, evaluated. -/
private def presentable (event : Event) : Bool :=
  let impl := event.post.impl
  let own : List EvaluationRecord := impl.evaluations.filter (·.setId == (⟨5⟩ : ConstraintSetId))
  (findSet impl.sets ⟨5⟩).any fun set =>
    set.id == ⟨5⟩ && set.generation.value ≤ Generation.kMaxGeneration &&
      impl.lastGeneration.value ≤ Generation.kMaxGeneration &&
      own.length ≤ impl.config.limits.maxEvaluationsRetained.toNat &&
      decide (own.map (·.path)).Nodup &&
      own.all fun record => record.path.isValid &&
        record.authorityGeneration.value ≤ Generation.kMaxGeneration &&
        record.generation.value ≤ Generation.kMaxGeneration

private theorem presentable_sound {event : Event} (h : presentable event = true) :
    ∃ set, findSet event.post.impl.sets ⟨5⟩ = some set ∧
      Presentable event.post.impl set := by
  obtain ⟨set, hset, hcheck⟩ := (Option.any_eq_true _ _).mp h
  simp only [Bool.and_eq_true, decide_eq_true_eq, List.all_eq_true, beq_iff_eq] at hcheck
  obtain ⟨⟨⟨⟨⟨hid, hgeneration⟩, hlast⟩, hcount⟩, hpaths⟩, hrecord⟩ := hcheck
  rw [← hid] at hcount hpaths hrecord
  refine ⟨set, hset, hgeneration, hlast, hcount, hpaths, fun record hmem hown => ?_⟩
  obtain ⟨⟨hpath, hauthority⟩, hrecordGeneration⟩ :=
    hrecord record (List.mem_filter.mpr ⟨hmem, beq_iff_eq.mpr hown⟩)
  exact ⟨hpath, hauthority, hrecordGeneration⟩

private theorem sampleOnce_presentable :
    ((sampleRun sampleOnce).any fun run => run.1.getLast?.any presentable) = true := by
  decide +kernel

theorem readsBack_iff_presentable_sample :
    ∃ events last, sampleRun sampleOnce = some (events, last) ∧ Execution events last ∧
      ReadsBack last.impl ⟨5⟩ := by
  obtain ⟨events, last, hrun, hexecution, hcheck⟩ := sampleRun_execution sampleOnce
    (fun events => events.getLast?.any presentable) sampleOnce_presentable
  obtain ⟨event, hlast, hevent⟩ := (Option.any_eq_true _ _).mp hcheck
  obtain ⟨set, hset, hpresentable⟩ := presentable_sound hevent
  rw [hexecution.post_of_getLast? hlast] at hset hpresentable
  exact ⟨events, last, hrun, hexecution, (readsBack_iff_presentable hset).mpr hpresentable⟩

/-! ## A path with a history -/

/-- The topology advances, and the path is evaluated again at the new generation. -/
def sampleReassessed : List Input :=
  sampleOnce ++
    [sampleInput (.operate (.advanceFamily (sampleContext 21) .topology 4)),
     sampleInput (.evaluateBegin (sampleContext 22) ⟨5⟩
       [{ samplePath 31 with evidence.topology := ⟨4⟩ }] {}),
     sampleFinish 1]

private def repeatsPath (event : Event) : Bool :=
  (findSet event.post.impl.sets ⟨5⟩).any fun set =>
    !decide ((event.post.impl.evaluations.filter (·.setId == set.id)).map (·.path)).Nodup

private theorem sampleReassessed_repeats :
    ((sampleRun sampleReassessed).any fun run => run.1.getLast?.any repeatsPath) = true := by
  decide +kernel

/-- The superseded record and the current one are both in the snapshot, which the decoder
then refuses. -/
theorem history_refused :
    ∃ events last set, sampleRun sampleReassessed = some (events, last) ∧
      Execution events last ∧ findSet last.impl.sets ⟨5⟩ = some set ∧
      ¬ ReadsBack last.impl ⟨5⟩ := by
  obtain ⟨events, last, hrun, hexecution, hcheck⟩ := sampleRun_execution sampleReassessed
    (fun events => events.getLast?.any repeatsPath) sampleReassessed_repeats
  obtain ⟨event, hlast, hevent⟩ := (Option.any_eq_true _ _).mp hcheck
  obtain ⟨set, hset, hrepeats⟩ := (Option.any_eq_true _ _).mp hevent
  simp only [Bool.not_eq_true', decide_eq_false_iff_not] at hrepeats
  rw [hexecution.post_of_getLast? hlast] at hset hrepeats
  refine ⟨events, last, set, hrun, hexecution, hset, fun hreads => ?_⟩
  have hstorable := (readsBack_iff_storable hset).mp hreads
  exact hrepeats (storable_iff_presentable.mp hstorable).paths

end ConstraintRouting.Fabric
