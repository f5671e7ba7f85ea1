import Mathlib.Data.String.Basic
import NetHop.Benchmark.Worker
import NetHop.Runs

/-!
# Calls that are on time

`Sound` is what holds of a running benchmark at any time: its counts, and how the
times it has measured lie within the time since the operation started.  `OnTime`
is a condition on one call of `reap_node_benchmark`: how long the call has before
it ends.  A call that is on time passes both `expect`s and keeps `Sound`.
-/

namespace NetHop.Benchmark

open FaultIo Stopwatch Generation Nat BenchmarkControlTiming List BenchmarkReport

variable {r : RunningNodeBenchmark} {a : ReapAnswers} {c : Clock} {w : BenchmarkWorker}

/-! ## Running benchmarks -/

/-- A job whose report, if one comes, is valid and measured within the job. -/
structure BenchmarkJob.Sound (job : BenchmarkJob) : Prop where
  generation : job.generation ≠ 0
  report : ∀ report, job.thread.report = some report →
    report.validate = .ok () ∧
      1000 * report.timing.totalUs + job.started ≤ job.thread.instant

structure RunningNodeBenchmark.Sound (r : RunningNodeBenchmark) (instant : Nat) : Prop where
  operationId : validBenchmarkOperationId r.operationId = true
  generation : r.generation ≠ 0
  candidates : 0 < r.orderedNodeIds.length ∧ r.orderedNodeIds.length ≤ maxNodeBenchmarkCandidates
  outcomes : r.partialOutcomes.length = r.orderedNodeIds.length
  admission : 1000 * r.admissionUs + r.operationStarted ≤ r.job.started
  started : r.job.started ≤ instant
  charged : 1000 * r.fast.timing.totalUs + r.operationStarted ≤ instant
  balanced : r.fast.timing.Balanced
  job : r.job.Sound
  selection : r.fastSelection.validate = .ok ()

variable {instant : Nat}

theorem RunningNodeBenchmark.Sound.mono {later : Nat} (h : r.Sound instant)
    (hle : instant ≤ later) : r.Sound later :=
  { h with
    started := le_trans h.started hle
    charged := le_trans h.charged hle }

/-- One call of `reap_node_benchmark`, begun with the clock at `c`, ends early
enough: in any case before a minute, before the deadline of the benchmark while
its fast selection is pending, and before the deadline of the fast selection when
it can still switch. -/
structure OnTime (r : RunningNodeBenchmark) (c : Clock) (a : ReapAnswers) : Prop where
  total : durationUs (c.finish - r.operationStarted) ≤ maxNodeBenchmarkTimingUs
  decided : r.fastSelection.isPending = true →
    durationUs (c.finish - r.operationStarted) ≤ nodeBenchmarkDeadlineMs * 1000
  switched : r.fastSelection.isPending = true →
    c.time < r.operationStarted + fastSelectionDeadline → a.apply.Switches →
      durationUs (c.finish - r.operationStarted) ≤ nodeBenchmarkFastSelectionDeadlineMs * 1000

/-- Inside a call that began with the clock at `c` and is on time. -/
structure InCall (c : Clock) (a : ReapAnswers) (r : RunningNodeBenchmark) (w : BenchmarkWorker) :
    Prop where
  onTime : OnTime r c a
  later : c.Later w.clock
  sound : r.Sound w.clock.time

def Safely {α : Type} (P : BenchmarkWorker → Prop) (m : BenchmarkIo α)
    (Q : α → BenchmarkWorker → Prop) : Prop :=
  Io.Triple P m Q (fun _ _ => False) fun _ => False

theorem InCall.tick (h : InCall c a r w) : InCall c a r { w with clock := w.clock.tick } :=
  ⟨h.onTime, h.later.trans w.clock.later_tick, h.sound.mono w.clock.later_tick.time_le⟩

theorem safely_readClock :
    Safely (InCall c a r) readClock fun instant w => instant = w.clock.time ∧ InCall c a r w :=
  fun _ h => ⟨rfl, h.tick⟩

theorem safely_publish (events : List BenchmarkEvent) :
    Safely (InCall c a r) (publish events) fun _ => InCall c a r :=
  fun _ h => ⟨h.onTime, h.later, h.sound⟩

/-! ## Decisions -/

variable {f : NodeBenchmarkFastSelection}

theorem NodeBenchmarkFastSelection.isPending_of_metrics {m : FastMetrics} (h : f.metrics = some m) :
    f.isPending = false := by
  cases f with
  | pending => cases h
  | _ => rfl

theorem OnTime.settle (h : OnTime r c a) {r' : RunningNodeBenchmark}
    (hstarted : r'.operationStarted = r.operationStarted)
    (hpending : r'.fastSelection.isPending = false) : OnTime r' c a := by
  refine ⟨?_, fun h' => ?_, fun h' => ?_⟩
  · rw [hstarted]
    exact h.total
  · rw [hpending] at h'
    cases h'
  · rw [hpending] at h'
    cases h'

variable {selection : FastMetrics → NodeBenchmarkFastSelection}

theorem safely_decide (hmetrics : ∀ m, (selection m).metrics = some m)
    (hlimit : OnTime r c a → ∀ m,
      durationUs (c.finish - r.operationStarted) ≤ (selection m).elapsedLimitMs * 1000) :
    Safely (InCall c a r) (r.decide selection)
      fun r' w => InCall c a r' w ∧ r'.fastSelection.isPending = false ∧ r'.job = r.job := by
  intro w h
  have hcall := h.tick
  let m := r.fastMetrics w.clock.tick.time
  have hpending : (selection m).isPending = false :=
    NodeBenchmarkFastSelection.isPending_of_metrics (hmetrics m)
  have helapsed : m.elapsedUs ≤ durationUs (c.finish - r.operationStarted) :=
    durationUs_mono (Nat.sub_le_sub_right hcall.later.time_le_finish _)
  have hvalid : (selection m).validate = .ok () := by
    refine NodeBenchmarkFastSelection.validate_iff.mpr fun m' hm' => ?_
    rw [hmetrics] at hm'
    cases hm'
    exact ⟨⟨h.sound.candidates.1, h.sound.candidates.2,
        (length_filterMap_le _ _).trans_eq h.sound.outcomes⟩,
      le_trans helapsed (hlimit h.onTime m)⟩
  exact ⟨⟨h.onTime.settle rfl hpending, hcall.later, { hcall.sound with selection := hvalid }⟩,
    hpending, rfl⟩

theorem OnTime.limit (h : OnTime r c a) (hpending : r.fastSelection.isPending = true)
    (hf : ∀ m selection, f ≠ .switched m selection) :
    durationUs (c.finish - r.operationStarted) ≤ f.elapsedLimitMs * 1000 := by
  cases f with
  | switched m selection => exact absurd rfl (hf m selection)
  | _ => exact h.decided hpending

/-! ## Control calls -/

theorem InCall.withFast (h : InCall c a r w) {s : Timed FastControl}
    (hcharged : FastCharged ⟨w.clock, r.fast⟩ s) :
    InCall c a { r with fast := s.record } { w with clock := s.clock } := by
  have hsound := h.sound.mono hcharged.later.time_le
  refine ⟨⟨h.onTime.total, h.onTime.decided, h.onTime.switched⟩, h.later.trans hcharged.later, ?_⟩
  refine { hsound with charged := ?_, balanced := hcharged.balanced h.sound.balanced }
  have hspent := hcharged.charged
  have hbefore := h.sound.charged
  dsimp only at hspent ⊢
  omega

variable {P : BenchmarkWorker → Prop}

/-- The rule of a control call: it returns a result, and puts the clock on. -/
theorem safely_callControl {τ α : Type} {m : Control τ α} {record : τ} {Q : α → Prop}
    (hm : m.Yields Q) {R : Except OperationalControlError α × τ → BenchmarkWorker → Prop}
    (h : ∀ w, P w → ∀ s o, m ⟨w.clock, record⟩ = (o, s) → ∀ result,
      (∀ value, result = .ok value → o = .done value) →
      R (result, s.record) { w with clock := s.clock }) :
    Safely P (callControl m record) R := by
  intro w hw
  have hreturns := hm.ne_crashed ⟨w.clock, record⟩
  have hrule := h w hw
  unfold callControl
  rcases hrun : m ⟨w.clock, record⟩ with ⟨o, s⟩
  rw [hrun] at hreturns
  have hended := hrule s o hrun
  cases o with
  | done value =>
    refine hended (.ok value) ?_
    intro value' hvalue
    cases hvalue
    rfl
  | error e =>
    refine hended (.error e) ?_
    intro value' hvalue
    cases hvalue
  | crashed => exact absurd rfl hreturns

theorem safely_callContext :
    Safely (InCall c a r) (callControl (fastSelectionContext a.context) r.fast)
      fun called => InCall c a { r with fast := called.2 } := by
  refine safely_callControl yields_fastSelectionContext fun w h s o hrun result _ => ?_
  have hcharged := fastCharged_fastSelectionContext (a := a.context) ⟨w.clock, r.fast⟩
  rw [hrun] at hcharged
  exact h.withFast hcharged

theorem safely_callApply :
    Safely (InCall c a r) (callControl (applyFastSelection r.fastInput a.apply) r.fast)
      fun called w => InCall c a { r with fast := called.2 } w ∧
        ∀ selection, called.1 = .ok (.switched selection) →
          c.time < r.operationStarted + fastSelectionDeadline ∧ a.apply.Switches := by
  have hyields : Io.Yields _ (applyFastSelection r.fastInput a.apply) :=
    yields_applyFastSelection r.fastInput
  refine safely_callControl hyields fun w h s o hrun result hdone => ?_
  have hcharged := fastCharged_applyFastSelection (a := a.apply) r.fastInput ⟨w.clock, r.fast⟩
  rw [hrun] at hcharged
  refine ⟨h.withFast hcharged, fun selection hselection => ?_⟩
  rw [hdone _ hselection] at hrun
  have hbegun := lt_deadline_of_applyFastSelection hrun
  exact ⟨lt_of_le_of_lt h.later.time_le hbegun, hyields.of_done hrun selection rfl⟩

/-! ## The selection loop -/

theorem fastSelectionPolicy_ne_needCurrent {elapsed candidates completed successful : Nat}
    {state : CurrentCandidateState} (hstate : state ≠ .unknown) :
    fastSelectionPolicy elapsed candidates completed successful state ≠ .needCurrent := by
  simp only [fastSelectionPolicy]
  cases state with
  | unknown => exact absurd rfl hstate
  | _ => split_ifs <;> simp

theorem RunningNodeBenchmark.fastPolicy_ne_needCurrent (h : r.fastContextLoaded = true)
    (instant : Nat) : r.fastPolicy instant ≠ .needCurrent := by
  refine fastSelectionPolicy_ne_needCurrent ?_
  unfold currentCandidateState
  rw [if_neg (by simp [h])]
  split
  · simp
  · split <;> simp

/-- How a round of a call that is on time ends; it goes round again only to load
the context. -/
def Round.Sound (c : Clock) (a : ReapAnswers) (loaded : Bool) (round : Round)
    (w : BenchmarkWorker) : Prop :=
  match round with
  | .returned r => InCall c a r w
  | .again r => InCall c a r w ∧ r.fastSelection.isPending = true ∧ r.fastContextLoaded = true ∧
      loaded = false
  | .decided r => InCall c a r w ∧ r.fastSelection.isPending = false

variable {loaded : Bool}

theorem safely_decided (hmetrics : ∀ m, (selection m).metrics = some m)
    (hlimit : OnTime r c a → ∀ m,
      durationUs (c.finish - r.operationStarted) ≤ (selection m).elapsedLimitMs * 1000) :
    Safely (InCall c a r) (.decided <$> r.decide selection) (Round.Sound c a loaded) :=
  .bind (safely_decide hmetrics hlimit) fun _ => .ret fun _ h => ⟨h.1, h.2.1⟩

theorem safely_loadContextRound (hpending : r.fastSelection.isPending = true)
    (hloaded : loaded = false) :
    Safely (InCall c a r) (loadContextRound a r) (Round.Sound c a loaded) := by
  refine .bind safely_callContext fun called => ?_
  obtain ⟨context, fast⟩ := called
  cases context with
  | ok context =>
    cases context with
    | auto currentNodeId =>
      refine .ret fun w h => ⟨⟨?_, h.later, ?_⟩, hpending, rfl, hloaded⟩
      · exact ⟨h.onTime.total, h.onTime.decided, h.onTime.switched⟩
      · exact { h.sound with }
    | manual =>
      refine safely_decided (fun _ => rfl) fun h m => ?_
      exact h.limit hpending fun _ _ => nofun
  | error e =>
    refine safely_decided (fun _ => rfl) fun h m => ?_
    exact h.limit hpending fun _ _ => nofun

theorem metrics_appliedSelection (result : Except OperationalControlError FastSelectionApply)
    (m : FastMetrics) : (appliedSelection result m).metrics = some m := by
  cases result with
  | ok applied => cases applied <;> rfl
  | error e => rfl

section

variable (hpending : r.fastSelection.isPending = true)

include hpending

theorem safely_evaluateRound :
    Safely (InCall c a r) (evaluateRound a r) (Round.Sound c a loaded) := by
  refine .bind safely_callApply fun called => ?_
  obtain ⟨result, fast⟩ := called
  intro w h
  obtain ⟨hin, hswitched⟩ := h
  refine safely_decided (metrics_appliedSelection result) (fun hon m => ?_) w hin
  cases result with
  | ok applied =>
    cases applied with
    | switched selection =>
      obtain ⟨hbegun, hswitches⟩ := hswitched selection rfl
      exact hon.switched hpending hbegun hswitches
    | kept | notApplicable => exact hon.decided hpending
  | error e => exact hon.decided hpending

theorem safely_selectionRound :
    Safely (InCall c a r) (selectionRound a r) (Round.Sound c a r.fastContextLoaded) := by
  refine .bind safely_readClock fun instant => ?_
  refine .bind (.look (Q := fun _ => InCall c a r) fun w h => h.2) fun w => ?_
  have hdefer : ∀ reason : FastSelectionDeferredReason,
      Safely (InCall c a r) (.decided <$> r.decide (.deferred · reason))
        (Round.Sound c a r.fastContextLoaded) := by
    intro reason
    exact safely_decided (fun _ => rfl) fun h m => h.limit hpending fun _ _ => nofun
  cases hpolicy : r.fastPolicy instant with
  | wait => exact .ret fun _ h => h
  | needCurrent =>
    cases w.operationalControl with
    | false => exact hdefer .controlError
    | true =>
      refine safely_loadContextRound hpending (Bool.eq_false_iff.mpr fun hloaded => ?_)
      exact r.fastPolicy_ne_needCurrent hloaded instant hpolicy
  | evaluate =>
    cases w.operationalControl with
    | false => exact hdefer .controlError
    | true => exact safely_evaluateRound hpending
  | defer reason => exact hdefer reason

end

/-- The loop ends in its second round: the context is loaded by then, and a round only goes
again to load it. -/
theorem triple_selectionRounds {P : RunningNodeBenchmark → BenchmarkWorker → Prop}
    {Q : Bool → Round → BenchmarkWorker → Prop} {E : Empty → BenchmarkWorker → Prop}
    {C : BenchmarkWorker → Prop}
    (hround : ∀ r, Io.Triple (P r) (selectionRound a r) (Q r.fastContextLoaded) E C)
    (hagain : ∀ loaded r w, Q loaded (.again r) w →
      P r w ∧ r.fastContextLoaded = true ∧ loaded = false)
    (hreturned : ∀ loaded r w, Q loaded (.returned r) w → Q true (.returned r) w)
    (hdecided : ∀ loaded r w, Q loaded (.decided r) w → Q true (.decided r) w) :
    Io.Triple (P r) (selectionRounds a 2 r) (Q true) E C := by
  refine .bind (hround r) fun round => ?_
  cases round with
  | returned r' => exact .ret (hreturned _ r')
  | decided r' => exact .ret (hdecided _ r')
  | again r' =>
    intro w h
    obtain ⟨hin, hloaded, -⟩ := hagain _ r' w h
    refine Io.Triple.bind (hround r') (fun round => ?_) w hin
    rw [hloaded]
    cases round with
    | returned r'' => exact .ret fun _ h => h
    | again r'' => exact fun w h => nomatch (hagain _ r'' w h).2.2
    | decided r'' => exact .ret fun _ h => h

theorem safely_selectionRounds (hpending : r.fastSelection.isPending = true) :
    Safely (InCall c a r) (selectionRounds a 2 r) (Round.Sound c a true) :=
  (triple_selectionRounds (P := fun r w => r.fastSelection.isPending = true ∧ InCall c a r w)
    (fun _ => .assuming fun hpending => safely_selectionRound hpending)
    (fun _ _ _ h => ⟨⟨h.2.1, h.1⟩, h.2.2⟩) (fun _ _ _ h => h) fun _ _ _ h => h).pre
    fun _ h => ⟨hpending, h⟩

theorem safely_publishMilestone (hpending : r.fastSelection.isPending = false) :
    Safely (InCall c a r) (publishMilestone r) fun _ => InCall c a r := by
  intro w h
  have hvalid : (NodeBenchmarkSelection.mk r.operationId r.generation r.fastSelection).validate =
      .ok () :=
    NodeBenchmarkSelection.validate_iff.mpr
      ⟨h.sound.operationId, h.sound.generation, hpending, h.sound.selection⟩
  simp only [publishMilestone, hvalid]
  cases r.fastSelection with
  | switched m selection | _ => exact safely_publish _ w h

variable (currentGeneration : Option Nat)

theorem safely_advanceFastNodeSelection :
    Safely (InCall c a r) (advanceFastNodeSelection currentGeneration a r)
      fun r' => InCall c a r' := by
  unfold advanceFastNodeSelection
  by_cases hpending : r.fastSelection.isPending = false
  · rw [if_pos hpending]
    exact .ret fun _ h => h
  rw [if_neg hpending]
  rw [Bool.not_eq_false] at hpending
  by_cases hgeneration : currentGeneration ≠ some r.generation
  · rw [if_pos hgeneration]
    refine (safely_decide (fun _ => rfl) fun h m => ?_).post fun _ _ h => h.1
    exact h.limit hpending fun _ _ => nofun
  · rw [if_neg hgeneration]
    refine .bind (safely_selectionRounds hpending) fun round => ?_
    cases round with
    | returned r' => exact .ret fun _ h => h
    | again r' => exact fun _ h => nomatch h.2.2.2
    | decided r' =>
      intro w h
      refine Io.Triple.bind (safely_publishMilestone h.2) (fun _ => ?_) w h.1
      exact .ret fun _ h => h

/-! ## The terminal report -/

def Arrived (r : RunningNodeBenchmark) (report : BenchmarkReport) (instant : Nat) : Prop :=
  report.validate = .ok () ∧ 1000 * report.timing.totalUs + r.job.started ≤ instant

variable {report : BenchmarkReport}

theorem Arrived.mono {later : Nat} (h : Arrived r report instant) (hle : instant ≤ later) :
    Arrived r report later := ⟨h.1, le_trans h.2 hle⟩

theorem safely_giveUp : Safely (InCall c a r) (BenchmarkJob.tryComplete.giveUp r.job)
      fun completed w => InCall c a r w ∧ ∀ report ∈ completed, Arrived r report w.clock.time := by
  intro w h
  refine ⟨h.tick, fun report hreport => ?_⟩
  cases hreport
  have htotal := totalUs_internalError r.job.trigger r.job.generation
    (w.clock.tick.time - r.job.started)
  have hstarted := h.tick.sound.started
  refine ⟨validate_internalError _ h.sound.job.generation _, ?_⟩
  change r.job.started ≤ w.clock.tick.time at hstarted
  change 1000 * (internalError r.job.trigger r.job.generation
    (durationMs (w.clock.tick.time - r.job.started))).timing.totalUs + r.job.started ≤
      w.clock.tick.time
  omega

theorem safely_tryComplete : Safely (InCall c a r) r.job.tryComplete
      fun completed w => InCall c a r w ∧ ∀ report ∈ completed, Arrived r report w.clock.time := by
  refine .bind safely_readClock fun instant => ?_
  by_cases hended : r.job.thread.instant ≤ instant
  · rw [if_pos hended]
    cases hreport : r.job.thread.report with
    | none => exact fun w h => safely_giveUp w h.2
    | some report =>
      refine .ret fun w h => ⟨h.2, fun received hreceived => ?_⟩
      cases hreceived
      obtain ⟨hvalid, htotal⟩ := h.2.sound.job.report report hreport
      exact ⟨hvalid, le_trans htotal (h.1 ▸ hended)⟩
  · rw [if_neg hended]
    refine .bind (Q := fun _ => InCall c a r) (fun w h => h.2.tick) fun elapsed => ?_
    by_cases hearly : elapsed - r.job.started < operationDeadline
    · rw [if_pos hearly]
      exact .ret fun w h => ⟨h, fun _ hreport => nomatch hreport⟩
    · rw [if_neg hearly]
      exact safely_giveUp

/-- After the selection of the terminal report: the job and the control call that
followed it have taken disjoint parts of the time since the job started. -/
structure Completed (r : RunningNodeBenchmark) (report : BenchmarkReport) (jobElapsedUs : Nat)
    (control : BenchmarkControlTiming) (instant : Nat) : Prop where
  valid : report.validate = .ok ()
  total : report.timing.totalUs ≤ jobElapsedUs
  balanced : control.Balanced
  spent : 1000 * (jobElapsedUs + control.totalUs) + r.job.started ≤ instant

theorem BenchmarkControlTiming.balanced_zero : BenchmarkControlTiming.zero.Balanced :=
  .inl (le_refl _)

variable {control : BenchmarkControlTiming}

theorem Completed.mono {jobElapsedUs later : Nat}
    (h : Completed r report jobElapsedUs control instant) (hle : instant ≤ later) :
    Completed r report jobElapsedUs control later := { h with spent := le_trans h.spent hle }

variable {jobElapsedUs : Nat}

theorem safely_completeSelection :
    Safely (fun w => InCall c a r w ∧ Completed r report jobElapsedUs .zero w.clock.time)
      (completeSelection currentGeneration a r report) fun completed w => InCall c a r w ∧
        Completed r completed.1 jobElapsedUs completed.2.2 w.clock.time ∧
          completed.1.timing = report.timing := by
  refine .bind (.look (Q := fun _ w => InCall c a r w ∧
    Completed r report jobElapsedUs .zero w.clock.time) fun w h => h) fun w => ?_
  by_cases hgeneration : currentGeneration ≠ some r.generation
  · rw [if_pos hgeneration]
    exact .ret fun w h => ⟨h.1, ⟨h.2.valid, h.2.total, h.2.balanced, h.2.spent⟩, rfl⟩
  rw [if_neg hgeneration]
  cases w.operationalControl with
  | false => exact .ret fun w h => ⟨h.1, h.2, rfl⟩
  | true =>
    have hyields : Io.Yields _ (completeBenchmarkWithCommitTimed report r.orderedNodeIds
        r.toleranceMs r.deadline r.fast.mutationCommitted a.complete) :=
      yields_completeBenchmarkWithCommitTimed _ _ _ _ _
    refine .bind (Q := fun called w => InCall c a r w ∧
      Completed r report jobElapsedUs called.2 w.clock.time) ?_ fun called => ?_
    · refine safely_callControl hyields fun w h s o hrun result _ => ?_
      obtain ⟨hlater, hspent, hbalanced⟩ := charged_completeBenchmarkWithCommitTimed
        report r.orderedNodeIds r.toleranceMs r.deadline r.fast.mutationCommitted
        ⟨w.clock, .zero⟩ (congrArg Prod.snd hrun)
      have hbefore := h.2.spent
      refine ⟨⟨h.1.onTime, h.1.later.trans hlater, h.1.sound.mono hlater.time_le⟩,
        h.2.valid, h.2.total, hbalanced, ?_⟩
      dsimp only at hspent ⊢
      omega
    · exact .ret fun w h => ⟨h.1, h.2, rfl⟩

theorem div_le_of_durationUs_le {d bound : Nat} (h : durationUs d ≤ bound)
    (hbound : bound < u64Max) : d / 1000 ≤ bound ∧ durationUs d = d / 1000 := by
  simp only [durationUs] at h ⊢
  omega

theorem BenchmarkControlTiming.Balanced.validate {t : BenchmarkControlTiming} (h : t.Balanced)
    (htotal : t.totalUs ≤ maxNodeBenchmarkTimingUs) : t.validate = .ok () := by
  refine validate_iff.mpr ⟨?_, htotal⟩
  rcases h with hstages | hfull
  · exact hstages
  · have : maxNodeBenchmarkTimingUs < u64Max := by decide
    omega

theorem validate_terminalTiming (h : InCall c a r w)
    (hcompleted : Completed r report jobElapsedUs control w.clock.time) :
    BenchmarkTerminalTiming.validate
      { admissionUs := r.admissionUs
        workerReapUs := jobElapsedUs - report.timing.totalUs
        fastControl := r.fast.timing
        terminalControl := control
        operationTotalUs := durationUs (w.clock.time - r.operationStarted) } report = .ok () := by
  have hfull : maxNodeBenchmarkTimingUs < u64Max := by decide
  have hoperation : durationUs (w.clock.time - r.operationStarted) ≤ maxNodeBenchmarkTimingUs :=
    Nat.le_trans (durationUs_mono (Nat.sub_le_sub_right h.later.time_le_finish _)) h.onTime.total
  obtain ⟨-, htotal⟩ := div_le_of_durationUs_le hoperation hfull
  have hadmission := h.sound.admission
  have hcharged := h.sound.charged
  have hspent := hcompleted.spent
  have hreport := hcompleted.total
  refine BenchmarkTerminalTiming.validate_iff.mpr ⟨?_, ?_, ?_, ?_, hoperation⟩
  · exact h.sound.balanced.validate (by omega)
  · exact hcompleted.balanced.validate (by omega)
  · dsimp only
    omega
  · dsimp only
    omega

theorem safely_publishTerminal {terminal : NodeBenchmarkTerminalReport}
    (h : ∀ w, P w → terminal.validate = .ok ()) :
    Safely P (publishTerminal terminal) fun _ _ => True := by
  intro w hw
  simp only [publishTerminal, h w hw]
  trivial

theorem safely_settleSelection :
    Safely (fun w => InCall c a r w ∧ Completed r report jobElapsedUs .zero w.clock.time)
      (settleSelection r) fun r' w => InCall c a r' w ∧ r'.fastSelection.isPending = false ∧
        Completed r' report jobElapsedUs .zero w.clock.time := by
  unfold settleSelection
  cases hpending : r.fastSelection.isPending with
  | false => exact .ret fun w h => ⟨h.1, hpending, h.2⟩
  | true =>
    have hdecide : Safely (InCall c a r) (r.decide .notNeeded) _ :=
      safely_decide (fun _ => rfl) fun h m => h.limit hpending fun _ _ => nofun
    have hframe := hdecide.frame
      (I := fun w => Completed r report jobElapsedUs .zero w.clock.time)
      fun w h => h.mono w.clock.later_tick.time_le
    refine (hframe.stops (fun _ _ h => h.1) fun _ h => h.1).post ?_
    rintro r' w ⟨⟨hin, hsettled, hjob⟩, hcompleted⟩
    refine ⟨hin, hsettled, { hcompleted with spent := ?_ }⟩
    rw [hjob]
    exact hcompleted.spent

theorem safely_reportTerminal (hsettled : r.fastSelection.isPending = false) :
    Safely (fun w => InCall c a r w ∧ Completed r report jobElapsedUs .zero w.clock.time)
      (reportTerminal currentGeneration a r report jobElapsedUs) fun _ _ => True := by
  refine .bind (safely_completeSelection currentGeneration) fun completed => ?_
  obtain ⟨report', selection, terminalControl⟩ := completed
  refine .bind (Q := fun ended w => ended = w.clock.time ∧ InCall c a r w ∧
      Completed r report' jobElapsedUs terminalControl w.clock.time ∧
        report'.timing = report.timing) ?_ fun ended => ?_
  · rintro w ⟨hin, hcompleted, htiming⟩
    exact ⟨rfl, hin.tick, hcompleted.mono w.clock.later_tick.time_le, htiming⟩
  · refine safely_publishTerminal ?_
    rintro w ⟨rfl, hin, hcompleted, htiming⟩
    rw [← htiming]
    exact NodeBenchmarkTerminalReport.validate_iff.mpr ⟨hin.sound.operationId, hcompleted.valid,
      hsettled, hin.sound.selection, validate_terminalTiming hin hcompleted⟩

/-! ## One call -/

/-- A program that does not look at the benchmark the worker holds. -/
abbrev KeepsTaken {α : Type} (m : BenchmarkIo α) : Prop :=
  m.Keeps fun w => w.nodeBenchmark = none

theorem keepsTaken_callControl {τ α : Type} (m : Control τ α) (record : τ) :
    KeepsTaken (callControl m record) := by
  intro w h
  unfold callControl
  dsimp only
  split <;> exact h

theorem keepsTaken_settleSelection (r : RunningNodeBenchmark) : KeepsTaken (settleSelection r) := by
  unfold settleSelection
  cases r.fastSelection.isPending with
  | false => exact .ret _
  | true => exact .bind (fun _ h => h) fun _ => .ret _

theorem keepsTaken_publishTerminal (terminal : NodeBenchmarkTerminalReport) :
    KeepsTaken (publishTerminal terminal) := by
  unfold publishTerminal
  cases terminal.validate with
  | error e => exact fun _ h => h
  | ok _ => exact .modify fun _ h => h

theorem keepsTaken_completeSelection (a : ReapAnswers)
    (r : RunningNodeBenchmark) (report : BenchmarkReport) :
    KeepsTaken (completeSelection currentGeneration a r report) := by
  refine .bind (.look _) fun w => ?_
  by_cases hgeneration : currentGeneration ≠ some r.generation
  · rw [if_pos hgeneration]
    exact .ret _
  rw [if_neg hgeneration]
  cases w.operationalControl with
  | false => exact .ret _
  | true => exact .bind (keepsTaken_callControl _ _) fun _ => .ret _

theorem InCall.completed (h : InCall c a r w) (harrived : Arrived r report w.clock.time) :
    Completed r report (durationUs (w.clock.time - r.job.started)) .zero w.clock.time := by
  have hfull : maxNodeBenchmarkTimingUs < u64Max := by decide
  have hfinish := h.later.time_le_finish
  have hadmission := h.sound.admission
  have htotal := harrived.2
  have hjob : durationUs (w.clock.time - r.job.started) ≤ maxNodeBenchmarkTimingUs := by
    refine le_trans (durationUs_mono ?_) h.onTime.total
    omega
  obtain ⟨-, hdiv⟩ := div_le_of_durationUs_le hjob hfull
  have hzero : zero.totalUs = 0 := rfl
  refine ⟨harrived.1, ?_, balanced_zero, ?_⟩
  · omega
  · omega

theorem safely_finishBenchmark (report : BenchmarkReport) :
    Safely (fun w => InCall c a r w ∧ Arrived r report w.clock.time)
      (finishBenchmark currentGeneration a r report) fun _ w => w.nodeBenchmark = none := by
  refine .bind (Q := fun reaped w => reaped = w.clock.time ∧ InCall c a r w ∧
    Arrived r report w.clock.time) ?_ fun reaped => ?_
  · rintro w ⟨hin, harrived⟩
    exact ⟨rfl, hin.tick, harrived.mono w.clock.later_tick.time_le⟩
  refine .bind (Q := fun _ w => (InCall c a r w ∧
    Completed r report (durationUs (reaped - r.job.started)) .zero w.clock.time) ∧
      w.nodeBenchmark = none) ?_ fun _ => ?_
  · rintro w ⟨rfl, hin, harrived⟩
    have hcompleted := hin.completed harrived
    exact ⟨⟨⟨hin.onTime, hin.later, hin.sound⟩, hcompleted⟩, rfl⟩
  have hreport : Safely (fun w => InCall c a r w ∧
      Completed r report (durationUs (reaped - r.job.started)) .zero w.clock.time)
      (settleSelection r >>= fun r' => reportTerminal currentGeneration a r' report
        (durationUs (reaped - r.job.started))) fun _ _ => True := by
    refine .bind safely_settleSelection fun r' => ?_
    rintro w ⟨hin, hsettled, hcompleted⟩
    exact safely_reportTerminal currentGeneration hsettled w ⟨hin, hcompleted⟩
  have hkeeps : KeepsTaken (settleSelection r >>= fun r' => reportTerminal currentGeneration a r'
      report (durationUs (reaped - r.job.started))) :=
    .bind (keepsTaken_settleSelection r) fun r' => .bind (keepsTaken_completeSelection _ _ _ _)
      fun _ => .bind (fun _ h => h) fun _ => keepsTaken_publishTerminal _
  exact ((hreport.frame hkeeps).post fun _ _ h => h.2).stops (fun _ _ h => h.1) fun _ h => h.1

def BenchmarkWorker.Sound (w : BenchmarkWorker) : Prop :=
  ∀ r, w.nodeBenchmark = some r → r.Sound w.clock.time

theorem InCall.drain (h : InCall c a r w) (instant : Nat) :
    InCall c a { r with job := (r.job.drainProgress instant).2 } w := by
  have hjob : (r.job.drainProgress instant).2.Sound := ⟨h.sound.job.generation, h.sound.job.report⟩
  refine ⟨⟨h.onTime.total, h.onTime.decided, h.onTime.switched⟩, h.later, ?_⟩
  exact { h.sound with job := hjob }

theorem InCall.recordProgress (outcomes : List NodeProbeOutcome) (h : InCall c a r w) :
    InCall c a (r.recordProgress outcomes) w := by
  induction outcomes generalizing r with
  | nil => exact h
  | cons o outcomes ih =>
    refine ih (r := r.recordOutcome o) ?_
    unfold RunningNodeBenchmark.recordOutcome
    split
    · exact h
    · refine ⟨⟨h.onTime.total, h.onTime.decided, h.onTime.switched⟩, h.later, ?_⟩
      refine { h.sound with outcomes := ?_ }
      rw [length_modify]
      exact h.sound.outcomes

theorem safely_reapRunning :
    Safely (InCall c a r) (reapRunning currentGeneration a r) fun _ w => w.Sound := by
  refine .bind (Q := fun _ => InCall c a r) (fun _ h => h.tick) fun drained => ?_
  let drainedRun := { r with job := (r.job.drainProgress drained).2 }.recordProgress
    (r.job.drainProgress drained).1
  refine .bind (Q := fun _ => InCall c a drainedRun) ?_ fun _ => ?_
  · intro w h
    exact safely_publish _ w ((h.drain drained).recordProgress _)
  refine .bind (Q := fun r' => InCall c a r') ?_ fun r' => ?_
  · intro w h
    refine safely_advanceFastNodeSelection currentGeneration w ?_
    exact ⟨⟨h.onTime.total, h.onTime.decided, h.onTime.switched⟩, h.later, { h.sound with }⟩
  refine .bind safely_tryComplete fun completed => ?_
  cases completed with
  | none =>
    rintro w ⟨hin, -⟩ r'' hr''
    cases hr''
    exact hin.sound
  | some report =>
    have hfinish : Safely _ (finishBenchmark currentGeneration a r' report) _ :=
      safely_finishBenchmark (c := c) currentGeneration report
    refine (hfinish.pre fun w h => ⟨h.1, h.2 report rfl⟩).post ?_
    intro _ w hnone r'' hr''
    rw [hnone] at hr''
    cases hr''

theorem safely_reapNodeBenchmark (a : ReapAnswers) :
    Safely (fun w => w.Sound ∧ ∀ r, w.nodeBenchmark = some r → OnTime r w.clock a)
      (reapNodeBenchmark currentGeneration a) fun _ w => w.Sound := by
  refine .bind (Q := fun v w => v = w ∧ w.Sound ∧
    ∀ r, w.nodeBenchmark = some r → OnTime r w.clock a) (.look fun w h => ⟨rfl, h⟩) fun v => ?_
  cases hrunning : v.nodeBenchmark with
  | none => exact .ret fun w h => h.2.1
  | some r =>
    rintro w ⟨rfl, hsound, honTime⟩
    have hin : InCall v.clock a r v := ⟨honTime r hrunning, .refl _, hsound r hrunning⟩
    exact safely_reapRunning currentGeneration v hin

/-! ## Starting -/

theorem hexDigit_spec (n : Nat) :
    lowerHexDigit (hexDigit n) = true ∧ (hexDigit n).utf8Size = 1 := by
  have hdigits : ∀ i < 16, lowerHexDigit (hexDigit i) = true ∧ (hexDigit i).utf8Size = 1 := by
    decide
  have hmod : hexDigit n = hexDigit (n % 16) := by
    unfold hexDigit
    rw [mod_mod]
  rw [hmod]
  exact hdigits _ (mod_lt _ (by decide))

theorem utf8Len_map_hexDigit (l : List Nat) : String.utf8Len (l.map hexDigit) = l.length := by
  induction l with
  | nil => rfl
  | cons n l ih =>
    rw [map_cons, String.utf8Len_cons, ih, (hexDigit_spec n).2, length_cons]

theorem validBenchmarkOperationId_operationId (sequence : Nat) :
    validBenchmarkOperationId (operationId sequence) = true := by
  have hsplit : (range 29).reverse.map (fun i => hexDigit (sequence / 16 ^ i)) =
      ((range 29).reverse.map fun i => sequence / 16 ^ i).map hexDigit := by
    rfl
  simp only [validBenchmarkOperationId, operationId, hsplit, Bool.and_eq_true, beq_iff_eq]
  refine ⟨⟨?_, ?_⟩, ?_⟩
  · simp only [String.utf8ByteSize_append, String.utf8ByteSize_ofList, utf8Len_map_hexDigit,
      length_map, length_reverse, length_range]
    decide
  · simp [Text.startsWith]
  · have hdrop : ∀ l : List Char, ("bench_".toList ++ l).drop 6 = l := fun l => rfl
    rw [String.toList_append, String.toList_ofList (l := map hexDigit _), hdrop,
      all_map, all_eq_true]
    exact fun n _ => (hexDigit_spec n).1

variable {candidates : List BenchmarkCandidate}

theorem validateCandidates_eq_ok (h : validateCandidates candidates = .ok ()) :
    0 < candidates.length ∧ candidates.length ≤ maxNodeBenchmarkCandidates := by
  simp only [validateCandidates, bind_eq_ok, ensure_eq_ok, Bool.and_eq_true, decide_eq_true_eq] at h
  obtain ⟨_, ⟨hne, hle⟩, -⟩ := h
  exact ⟨length_pos_iff.mpr hne, hle⟩

theorem sound_installed (q : StartRequest) (generation : GenerationId)
    {sequence operationStarted admitted started : Nat} (run : ThreadRun)
    (hcandidates : validateCandidates candidates = .ok ()) (hadmitted : operationStarted ≤ admitted)
    (hstarted : admitted ≤ started) (hinstant : started ≤ instant) :
    (installed q candidates generation.get sequence operationStarted admitted
      ⟨started, q.trigger, generation.get,
        run.ends candidates q.trigger generation.get started⟩).Sound instant := by
  have hgeneration : generation.get ≠ 0 := pos_iff_ne_zero.mp generation.pos
  have hadmission := durationUs_le (admitted - operationStarted)
  constructor
  case operationId => exact validBenchmarkOperationId_operationId sequence
  case generation => exact hgeneration
  case candidates => simpa [installed] using validateCandidates_eq_ok hcandidates
  case outcomes => simp [installed]
  case admission =>
    simp only [installed]
    omega
  case started => exact hinstant
  case charged =>
    simp only [installed, BenchmarkControlTiming.zero]
    omega
  case balanced => exact balanced_zero
  case job => exact ⟨hgeneration, fun _ h => run.ends_report hgeneration h⟩
  case selection => rfl

theorem BenchmarkWorker.sound_of_none (h : w.nodeBenchmark = none) : w.Sound := by
  intro r hr
  rw [h] at hr
  cases hr

/-- A job that was spawned after `admitted`. -/
structure Spawned (candidates : List BenchmarkCandidate) (trigger : BenchmarkTrigger)
    (generation admitted instant : Nat) (job : BenchmarkJob) : Prop where
  valid : validateCandidates candidates = .ok ()
  started : admitted ≤ job.started ∧ job.started ≤ instant
  job : ∃ run : ThreadRun, job = ⟨job.started, trigger, generation,
    run.ends candidates trigger generation job.started⟩

theorem safely_spawnBenchmarkWithWake (candidates : List BenchmarkCandidate)
    (trigger : BenchmarkTrigger) (generation : Nat) (run : Option ThreadRun) {admitted : Nat} :
    Safely (fun w => admitted ≤ w.clock.time ∧ w.nodeBenchmark = none)
      (spawnBenchmarkWithWake candidates trigger generation run)
      fun spawned w => w.nodeBenchmark = none ∧ ∀ job, spawned = .ok job →
        Spawned candidates trigger generation admitted w.clock.time job := by
  unfold spawnBenchmarkWithWake
  cases hcandidates : validateCandidates candidates with
  | error e => exact .ret fun w h => ⟨h.2, fun _ hjob => nomatch hjob⟩
  | ok _ =>
    refine .bind (Q := fun started w => (admitted ≤ started ∧ started ≤ w.clock.time) ∧
      w.nodeBenchmark = none) ?_ fun started => ?_
    · rintro w ⟨hadmitted, hnone⟩
      exact ⟨⟨le_trans hadmitted w.clock.later_tick.time_le, le_refl _⟩, hnone⟩
    cases run with
    | none => exact .ret fun w h => ⟨h.2, fun _ hjob => nomatch hjob⟩
    | some run =>
      refine .ret fun w h => ⟨h.2, fun job hjob => ?_⟩
      cases hjob
      exact ⟨hcandidates, h.1, run, rfl⟩

theorem safely_admitBenchmark (q : StartRequest) (candidates : List BenchmarkCandidate)
    (generation : GenerationId) {operationStarted : Nat} :
    Safely (fun w => operationStarted ≤ w.clock.time ∧ w.nodeBenchmark = none)
      (admitBenchmark q candidates generation operationStarted) fun _ w => w.Sound := by
  refine .bind (Q := fun admitted w => operationStarted ≤ admitted ∧
    admitted ≤ w.clock.time ∧ w.nodeBenchmark = none) ?_ fun admitted => ?_
  · rintro w ⟨hstarted, hnone⟩
    exact ⟨le_trans hstarted w.clock.later_tick.time_le, le_refl _, hnone⟩
  rintro w ⟨hadmitted, hrest⟩
  refine Io.Triple.bind (safely_spawnBenchmarkWithWake candidates q.trigger generation.get q.run)
    (fun spawned => ?_) w hrest
  cases spawned with
  | error e => exact .ret fun w h => BenchmarkWorker.sound_of_none h.1
  | ok job =>
    rintro w ⟨-, hjob⟩ r hr
    obtain ⟨hcandidates, ⟨hbefore, hafter⟩, run, hspawned⟩ := hjob job rfl
    cases hr
    rw [hspawned]
    exact sound_installed q generation run hcandidates hadmitted hbefore hafter

/-- Starting returns too: a benchmark that is running stays, a new one is sound. -/
theorem safely_startNodeBenchmark (q : StartRequest) :
    Safely BenchmarkWorker.Sound (startNodeBenchmark q) fun _ w => w.Sound := by
  refine .bind (Q := fun operationStarted w => operationStarted ≤ w.clock.time ∧ w.Sound) ?_
    fun operationStarted => ?_
  · exact fun w h => ⟨le_refl _, fun r hr => (h r hr).mono w.clock.later_tick.time_le⟩
  refine .bind (Q := fun v w => v = w ∧ operationStarted ≤ w.clock.time ∧ w.Sound)
    (.look fun w h => ⟨rfl, h⟩) fun v => ?_
  have hstay : ∀ result : Except StartFailure NodeBenchmarkOperationAck,
      Safely (fun w => v = w ∧ operationStarted ≤ w.clock.time ∧ w.Sound) (pure result)
        fun _ w => w.Sound := fun result => .ret fun w h => h.2.2
  cases hrunning : v.nodeBenchmark with
  | some running => exact hstay _
  | none =>
    cases q.generation with
    | none => exact hstay _
    | some generation =>
      cases v.operationalControl with
      | false => exact hstay _
      | true =>
        cases q.plan with
        | error e => exact hstay _
        | ok candidates =>
          rintro w ⟨rfl, hstarted, -⟩
          exact safely_admitBenchmark q candidates generation v ⟨hstarted, hrunning⟩

end NetHop.Benchmark
