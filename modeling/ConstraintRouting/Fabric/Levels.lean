import ConstraintRouting.Fabric.Currentness
import ConstraintRouting.Fabric.DurableWrites
import ConstraintRouting.Fabric.Progress

/-!
# Watermarks and required evidence

A request that moves the required evidence advances the watermarks before it writes.  As
long as no such write fails, no watermark is past the evidence that is required, and the
check of a record against the watermarks tells which admissible records are current.
-/

namespace ConstraintRouting.Fabric

open Verified.StepMachine

/-- No watermark of a family is past the evidence that is required. -/
def Level (watermarks : Watermarks) (evidence : EvidenceRequirements) : Prop :=
  ∀ family ∈ kFamilies, watermarks.family family ≤ generationFor evidence family

instance (watermarks : Watermarks) (evidence : EvidenceRequirements) :
    Decidable (Level watermarks evidence) :=
  inferInstanceAs (Decidable (∀ family ∈ kFamilies, _))

/-! ## Advances -/

section Advances

variable {watermarks : Watermarks} {evidence requirements : EvidenceRequirements}

theorem Watermarks.advanceFamily_above {family : EvidenceFamily} {generation : UInt64}
    (hbehind : watermarks.family family < generation) :
    watermarks.advanceFamily family generation =
      some { watermarks with families := watermarks.families.insert family generation } := by
  unfold Watermarks.advanceFamily
  apply if_neg
  intro hrefused
  obtain ⟨stored, hstored, hle⟩ := (Option.any_eq_true ..).mp hrefused
  have hfamily : watermarks.family family = stored := by
    unfold Watermarks.family
    rw [Std.ExtTreeMap.getD_eq_getD_getElem?, hstored]
    rfl
  rw [hfamily] at hbehind
  exact UInt64.lt_irrefl _ (UInt64.lt_of_lt_of_le hbehind (of_decide_eq_true hle))

/-- Watermarks that are behind all advance, and the others stay. -/
theorem advanceWatermarks_above {families : List EvidenceFamily} (hnodup : families.Nodup)
    (hbehind : ∀ family ∈ families,
      watermarks.family family < generationFor requirements family) :
    ∃ advanced, advanceWatermarks requirements families watermarks = (advanced, true) ∧
      ∀ family, advanced.family family =
        if family ∈ families then generationFor requirements family
        else watermarks.family family := by
  induction families generalizing watermarks with
  | nil => exact ⟨watermarks, rfl, fun family => (if_neg List.not_mem_nil).symm⟩
  | cons first rest ih =>
      rw [List.nodup_cons] at hnodup
      have hfirst := Watermarks.advanceFamily_above (hbehind first List.mem_cons_self)
      generalize hraised : { watermarks with
        families := watermarks.families.insert first (generationFor requirements first) } =
          raised at hfirst
      have hread : ∀ family, raised.family family =
          if family = first then generationFor requirements first
          else watermarks.family family := by
        intro family
        rw [← hraised]
        unfold Watermarks.family
        rw [Std.ExtTreeMap.getD_insert]
        by_cases hsame : family = first
        · rw [if_pos hsame, if_pos (by rw [hsame]; exact Std.ReflCmp.compare_self)]
        · rw [if_neg hsame, if_neg]
          intro hequal
          exact hsame (Std.LawfulEqCmp.compare_eq_iff_eq.mp hequal).symm
      have hrest : ∀ family ∈ rest,
          raised.family family < generationFor requirements family := by
        intro family hmem
        have hother : family ≠ first := fun hsame => hnodup.1 (hsame ▸ hmem)
        rw [hread, if_neg hother]
        exact hbehind family (List.mem_cons_of_mem _ hmem)
      obtain ⟨advanced, hadvanced, hlater⟩ := ih hnodup.2 hrest
      refine ⟨advanced, ?_, ?_⟩
      · rw [advanceWatermarks, hfirst]
        exact hadvanced
      · intro family
        rw [hlater, hread]
        by_cases hsame : family = first
        · rw [hsame, if_neg hnodup.1, if_pos rfl, if_pos List.mem_cons_self]
        · by_cases hmem : family ∈ rest
          · rw [if_pos hmem, if_pos (List.mem_cons_of_mem _ hmem)]
          · rw [if_neg hmem, if_neg hsame, if_neg (by simp [hsame, hmem])]

/-- Level watermarks follow the required evidence forward. -/
theorem Level.advanced (hlevel : Level watermarks evidence)
    (hforward : ∀ family ∈ kFamilies,
      generationFor evidence family ≤ generationFor requirements family) :
    ∃ advanced, advanceWatermarks requirements (advancedFamilies evidence requirements)
        watermarks = (advanced, true) ∧ Level advanced requirements := by
  have hnodup : (advancedFamilies evidence requirements).Nodup := by
    have hfamilies : kFamilies.Nodup := by decide
    exact hfamilies.filter _
  have hbehind : ∀ family ∈ advancedFamilies evidence requirements,
      watermarks.family family < generationFor requirements family := by
    intro family hmem
    obtain ⟨hknown, hless⟩ := List.mem_filter.mp hmem
    exact UInt64.lt_of_le_of_lt (hlevel family hknown) (of_decide_eq_true hless)
  obtain ⟨advanced, hadvanced, hread⟩ := advanceWatermarks_above hnodup hbehind
  refine ⟨advanced, hadvanced, ?_⟩
  intro family hknown
  rw [hread]
  split
  · exact UInt64.le_refl _
  · exact UInt64.le_trans (hlevel family hknown) (hforward family hknown)

end Advances

/-! ## Steps -/

/-- What a request stages for the watermarks: it leaves those of the families, or writes the
evidence that they follow. -/
inductive Staged.Levels {α : Type} (impl : Impl) : Staged α → Prop
  | kept {staged : Staged α} :
      staged.watermarks.families = impl.watermarks.families → Levels impl staged
  | advanced {after : Impl} {next : PersistentState} {value : α} :
      Level after.watermarks next.evidence → Levels impl (.write after next true value)

theorem Staged.Levels.map {α β : Type} {impl : Impl} {staged : Staged α}
    (h : staged.Levels impl) (f : α → β) : (staged.map f).Levels impl := by
  cases h with
  | kept hsame => exact .kept (by rw [Staged.map_watermarks, hsame])
  | advanced hlevel => exact .advanced hlevel

section Requests

variable {impl : Impl} {context : AuthorityContext} {call : Call}

theorem applyEvidenceRequirements_levels {requirements : EvidenceRequirements}
    (hlevel : Level impl.watermarks impl.evidence) :
    (applyEvidenceRequirements impl context requirements call).Levels impl := by
  unfold applyEvidenceRequirements
  split
  · exact .kept rfl
  · exact .kept rfl
  · next fresh hadmitted =>
      obtain ⟨authority, rfl, -, -⟩ := admit_fresh hadmitted
      split
      · exact .kept rfl
      · next hforward =>
          have hforward : ∀ family ∈ kFamilies,
              generationFor impl.evidence family ≤ generationFor requirements family := by
            intro family hknown
            apply UInt64.not_lt.mp
            intro hless
            exact hforward (List.any_eq_true.mpr ⟨family, hknown, decide_eq_true hless⟩)
          obtain ⟨advanced, hadvanced, hafter⟩ := hlevel.advanced hforward
          dsimp only
          rw [hadvanced]
          exact .advanced hafter

theorem advanceFamily_levels {family : EvidenceFamily} {generation : UInt64}
    (hlevel : Level impl.watermarks impl.evidence) :
    (advanceFamily impl context family generation call).Levels impl := by
  unfold advanceFamily
  split
  · exact .kept rfl
  · split
    · exact .kept rfl
    · exact applyEvidenceRequirements_levels hlevel

theorem invalidateKey_levels {key : InvalidationKey} :
    (invalidateKey impl context key call).Levels impl := by
  unfold invalidateKey
  split
  · exact .kept rfl
  · exact .kept rfl
  · next fresh hadmitted =>
      obtain ⟨authority, rfl, -, -⟩ := admit_fresh hadmitted
      dsimp only
      split
      · exact .kept rfl
      · next hadvanced =>
          rw [Watermarks.advanceKey_eq] at hadvanced
          obtain ⟨keys, -, rfl⟩ := Option.map_eq_some_iff.mp hadvanced
          exact .kept rfl

theorem Operation.stage_levels (operation : Operation) (impl : Impl) (call : Call)
    (hlevel : Level impl.watermarks impl.evidence) :
    (operation.stage impl call).Levels impl := by
  cases operation <;> unfold Operation.stage
  case registerPublisher => exact .map (.kept (by rw [registerPublisher_watermarks])) _
  case fenceBoot => exact .map (.kept (by rw [fenceBoot_watermarks])) _
  case fenceOnSessionLoss => exact .map (.kept (by rw [fenceOnSessionLoss_watermarks])) _
  case dropSession => exact .map (.kept (by rw [dropSession_watermarks])) _
  case observeAttempt => exact .map (.kept (by rw [observeAttempt_watermarks])) _
  case publishConstraintSet => exact .map (.kept (by rw [publishConstraintSet_watermarks])) _
  case applyLifecycle => exact .map (.kept (by rw [applyLifecycle_watermarks])) _
  case setEvidenceRequirements => exact .map (applyEvidenceRequirements_levels hlevel) _
  case advanceFamily => exact .map (advanceFamily_levels hlevel) _
  case invalidateKey => exact .map invalidateKey_levels _
  case flush => exact .kept rfl

end Requests

/-- A section whose write does not fail keeps the watermarks level. -/
theorem level_of_taken {event : Event} (htaken : event.Taken step) (hsound : Sound event.pre)
    (hwritten : ¬ WriteFails event)
    (hlevel : Level event.pre.impl.watermarks event.pre.impl.evidence) :
    Level event.post.impl.watermarks event.post.impl.evidence := by
  have hforward := evidence_of_transition (step_transition hsound.limits htaken)
  have hkept (hsame : event.post.impl.watermarks.families =
      event.pre.impl.watermarks.families) :
      Level event.post.impl.watermarks event.post.impl.evidence := by
    intro family hknown
    have hfamily : event.post.impl.watermarks.family family =
        event.pre.impl.watermarks.family family := by
      unfold Watermarks.family
      rw [hsame]
    rw [hfamily]
    exact UInt64.le_trans (hlevel family hknown) (hforward family)
  by_cases hevaluates : ∀ operation, event.input.action ≠ .operate operation
  · apply hkept
    rw [watermarks_of_evaluation htaken hevaluates]
  · obtain ⟨operation, haction⟩ := not_forall_not.mp hevaluates
    have hwatermarks := watermarks_of_operation htaken haction
    have hsucceeds : (operation.stage event.pre.impl event.input.call).writeFails
        event.input.call = false := by
      rw [Bool.eq_false_iff]
      intro hfails
      exact hwritten (.operated operation haction hfails)
    have hpost := impl_of_operation htaken haction
    have hlevels := operation.stage_levels event.pre.impl event.input.call hlevel
    generalize operation.stage event.pre.impl event.input.call = staged at *
    cases hlevels with
    | kept hsame => exact hkept (by rw [hwatermarks, hsame])
    | @advanced after next value hafter =>
        have hsaved : (after.persist next event.input.call).2 = .ok () := by
          cases hstatus : (after.persist next event.input.call).2 with
          | ok _ => rfl
          | error error =>
              unfold Staged.writeFails at hsucceeds
              dsimp only at hsucceeds
              rw [hstatus] at hsucceeds
              cases hsucceeds
        have hsettled : ((Staged.write after next true value).settle event.input.call).1 =
            (after.persist next event.input.call).1.applyState next := by
          rcases (Staged.write after next true value).settle_cases event.input.call with
            ⟨_, _, hreply, -⟩ | ⟨_, _, _, _, hwrite, hends⟩
          · cases hreply
          · cases hwrite
            rcases hends with ⟨error, herror, -⟩ | ⟨-, hsettle⟩
            · rw [hsaved] at herror
              cases herror
            · rw [hsettle]
              rfl
        rw [hwatermarks, hpost, hsettled]
        exact hafter

/-! ## Runs -/

theorem level_of_run {start last : SystemState} {events : List Event}
    (hsound : Sound start) (hrun : Run step start events last)
    (hwritten : ∀ event ∈ events, ¬ WriteFails event)
    (hlevel : Level start.impl.watermarks start.impl.evidence) :
    Level last.impl.watermarks last.impl.evidence := by
  have hinv : (fun state => Sound state ∧
      Level state.impl.watermarks state.impl.evidence) last := by
    apply hrun.invariant ⟨hsound, hlevel⟩
    intro event hmem htaken hbefore
    obtain ⟨hpre, hkept⟩ := hbefore
    have htransition := step_transition hpre.limits htaken
    exact ⟨htransition.sound hpre, level_of_taken htaken hpre (hwritten event hmem) hkept⟩
  exact hinv.2

/-- In a run of a coordinator whose watermarks are level when it opens, whose writes
succeed, and whose evidence requests find the populations of the records that they concern,
the watermarks stay level, and the check of an admissible record against them is true
exactly of the current ones. -/
theorem evaluationCurrent_iff_current {start last : SystemState} {events : List Event}
    (hopened : Opened start) (hrun : Run step start events last)
    (hlevel : Level start.impl.watermarks start.impl.evidence)
    (hwritten : ∀ event ∈ events, ¬ WriteFails event)
    (hfinds : ∀ event ∈ events, FindsPopulations event) :
    Level last.impl.watermarks last.impl.evidence ∧
      ∀ record ∈ last.impl.evaluations, record.isAdmissible = true →
        (evaluationCurrent record last.impl.watermarks = true ↔ record.state = .current) := by
  have hafter := level_of_run hopened.sound hrun hwritten hlevel
  have hexecution : Execution events last := ⟨start, hopened, hrun⟩
  have htracked := hexecution.tracked hfinds
  refine ⟨hafter, ?_⟩
  intro record hmem hadmissible
  unfold evaluationCurrent
  rw [Bool.and_eq_true, decide_eq_true_eq]
  refine and_iff_left_of_imp ?_
  intro hcurrent
  rw [List.all_eq_true]
  intro family hknown
  cases hconsults : consults record.consulted family with
  | false => rfl
  | true =>
      have hbound := (htracked.current record hmem hcurrent hadmissible).evidence family hknown
        hconsults
      have hbehind : ¬ evidenceGenerationOf record.evidence family <
          last.impl.watermarks.family family := by
        rw [hbound]
        exact UInt64.not_lt.mpr (hafter family hknown)
      simp [hbehind]

private def answersWell (event : Event) : Bool :=
  match event.output with
  | .operated (.error _) | .evaluated (.error _) => false
  | _ => true

private theorem not_writeFails_of_answersWell {event : Event} (htaken : event.Taken step)
    (h : answersWell event = true) : ¬ WriteFails event := by
  intro hfails
  unfold answersWell at h
  obtain ⟨error, houtput | houtput⟩ := hfails.reportsFailure htaken
  · rw [houtput] at h
    cases h
  · rw [houtput] at h
    cases h

private def advancesLevel : List Event → Bool
  | [] => false
  | first :: rest => decide (Level first.pre.impl.watermarks first.pre.impl.evidence) &&
      (first :: rest).all fun event => findsPopulations event && answersWell event

private theorem sampleAdvance_advancesLevel :
    ((sampleRun sampleAdvance).any fun run => advancesLevel run.1) = true := by
  decide +kernel

theorem evaluationCurrent_iff_current_sample :
    ∃ events last, sampleRun sampleAdvance = some (events, last) ∧
      Level last.impl.watermarks last.impl.evidence ∧
      ∀ record ∈ last.impl.evaluations, record.isAdmissible = true →
        (evaluationCurrent record last.impl.watermarks = true ↔ record.state = .current) := by
  obtain ⟨events, last, hrun, ⟨start, hopened, hsteps⟩, hcheck⟩ :=
    sampleRun_execution sampleAdvance advancesLevel sampleAdvance_advancesLevel
  cases events with
  | nil => cases hcheck
  | cons first rest =>
      unfold advancesLevel at hcheck
      rw [Bool.and_eq_true, decide_eq_true_eq, List.all_eq_true] at hcheck
      obtain ⟨hlevel, hevents⟩ := hcheck
      have hstart : start = first.pre := by
        cases hsteps
        rfl
      rw [← hstart] at hlevel
      have hwritten : ∀ event ∈ first :: rest, ¬ WriteFails event := by
        intro event hmem
        have hanswers := (Bool.and_eq_true_iff.mp (hevents event hmem)).2
        obtain ⟨before, after, hsplit⟩ := List.append_of_mem hmem
        rw [hsplit] at hsteps
        exact not_writeFails_of_answersWell hsteps.split_event.2.1 hanswers
      have hfinds : ∀ event ∈ first :: rest, FindsPopulations event :=
        fun event hmem => findsPopulations_sound (Bool.and_eq_true_iff.mp (hevents event hmem)).1
      exact ⟨_, last, hrun,
        evaluationCurrent_iff_current hopened hsteps hlevel hwritten hfinds⟩

end ConstraintRouting.Fabric
