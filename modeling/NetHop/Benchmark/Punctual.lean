import NetHop.Benchmark.OnTime

/-!
# A punctual worker does not panic

A run of the worker is a list of calls, each with the time that passes before it
and the delays of its clock readings.  When every call of a run is on time, none of
them kills the worker.  A call that comes after the deadline of the benchmark while
the fast selection is pending does, whatever the probes and the control plane
answer.
-/

namespace NetHop.Benchmark

open FaultIo Stopwatch Generation NodeBenchmarkSelection

variable {r : RunningNodeBenchmark} {a : ReapAnswers} {w : BenchmarkWorker}

/-! ## Runs -/

inductive BenchmarkAction where
  | start (q : StartRequest)
  | reap (generation : Option GenerationId) (answers : ReapAnswers)

structure BenchmarkCall where
  /-- The time between the last call and this one. -/
  idle : Nat
  delays : List Nat
  action : BenchmarkAction

def BenchmarkCall.begin (call : BenchmarkCall) (w : BenchmarkWorker) : BenchmarkWorker :=
  { w with clock := ⟨w.clock.time + call.idle, call.delays⟩ }

def BenchmarkAction.program : BenchmarkAction → BenchmarkIo Unit
  | .start q => do
    let _ ← startNodeBenchmark q
    pure ()
  | .reap generation answers => reapNodeBenchmark (generation.map (·.get)) answers

def perform (w : BenchmarkWorker) (call : BenchmarkCall) : Outcome Empty Unit × BenchmarkWorker :=
  call.action.program (call.begin w)

def next (w : BenchmarkWorker) (call : BenchmarkCall) : BenchmarkWorker := (perform w call).2

/-- The call returns: neither `expect` panics. -/
def Survives (w : BenchmarkWorker) (call : BenchmarkCall) : Prop := (perform w call).1 = .done ()

/-- A call of `reap_node_benchmark` ends early enough for the benchmark that is
running. -/
def CallOnTime (w : BenchmarkWorker) (call : BenchmarkCall) : Prop :=
  match call.action with
  | .start _ => True
  | .reap _ answers => ∀ r, w.nodeBenchmark = some r → OnTime r (call.begin w).clock answers

theorem perform_onTime {call : BenchmarkCall} (h : w.Sound) (honTime : CallOnTime w call) :
    Survives w call ∧ (next w call).Sound := by
  have hprogram : Safely (fun v => v = call.begin w) call.action.program fun _ v => v.Sound := by
    have hbegin : (call.begin w).Sound := fun r hr => (h r hr).mono (Nat.le_add_right _ _)
    cases haction : call.action with
    | start q =>
      refine .bind (Q := fun _ v => v.Sound) ?_ fun _ => .ret fun _ hv => hv
      rintro v rfl
      exact safely_startNodeBenchmark q _ hbegin
    | reap generation answers =>
      rintro v rfl
      simp only [CallOnTime, haction] at honTime
      exact safely_reapNodeBenchmark _ answers _ ⟨hbegin, honTime⟩
  have hrun := hprogram (call.begin w) rfl
  simp only [Survives, next, perform]
  rcases hended : call.action.program (call.begin w) with ⟨o, v⟩
  rw [hended] at hrun
  cases o with
  | done u => exact ⟨rfl, hrun⟩
  | error e => exact e.elim
  | crashed => exact hrun.elim

/-- Every run of calls that are on time survives all of them. -/
theorem run_onTime_survives (hidle : w.nodeBenchmark = none) (calls : List BenchmarkCall)
    (honTime : Runs.Guarded next CallOnTime w calls) : Runs.Guarded next Survives w calls :=
  honTime.ensures (I := BenchmarkWorker.Sound) (fun _ _ hw hcall => perform_onTime hw hcall)
    (BenchmarkWorker.sound_of_none hidle)

/-! ## Late calls -/

def Late (r : RunningNodeBenchmark) (instant : Nat) : Prop :=
  operationDeadline + 1000 ≤ instant - r.operationStarted

def DecidedLate (f : NodeBenchmarkFastSelection) : Prop :=
  ∃ m, f.metrics = some m ∧ nodeBenchmarkDeadlineMs * 1000 < m.elapsedUs

variable {instant : Nat}

theorem Late.mono {later : Nat} (h : Late r instant) (hle : instant ≤ later) :
    Late r later := Nat.le_trans h (Nat.sub_le_sub_right hle _)

theorem operationDeadline_eq : operationDeadline = 4900000000 := by decide

theorem Late.elapsedUs (h : Late r instant) :
    nodeBenchmarkDeadlineMs * 1000 < durationUs (instant - r.operationStarted) := by
  have hdeadline : nodeBenchmarkDeadlineMs * 1000 = 4900000 := by decide
  have hfull : 4900000 < u64Max := by decide
  rw [Late, operationDeadline_eq] at h
  rw [hdeadline, durationUs]
  omega

theorem DecidedLate.validate_ne {f : NodeBenchmarkFastSelection} (h : DecidedLate f) :
    f.validate ≠ .ok () := by
  obtain ⟨m, hm, hlate⟩ := h
  intro hvalid
  have hlimit := (NodeBenchmarkFastSelection.validate_iff.mp hvalid m hm).2
  have hkind : f.elapsedLimitMs ≤ nodeBenchmarkDeadlineMs := by
    cases f with
    | switched m selection => exact (by decide : 3000 ≤ 4900)
    | _ => exact Nat.le_refl _
  omega

theorem Late.fastPolicy_ne_wait (h : Late r instant) : r.fastPolicy instant ≠ .wait := by
  rw [Late, operationDeadline_eq] at h
  have hearliest : ¬ instant - r.operationStarted < fastSelectionEarliest := by
    change ¬ _ < 2000000000
    omega
  have hlatest : fastSelectionLatest ≤ instant - r.operationStarted := by
    change 2800000000 ≤ _
    omega
  simp only [RunningNodeBenchmark.fastPolicy, fastSelectionPolicy, if_neg hearliest, hlatest,
    decide_true, if_true]
  split_ifs
  · simp
  · simp
  · cases r.currentCandidateState <;> simp

/-- A program that, from `P`, either dies or ends in `Q`. -/
def Ends {α : Type} (P : BenchmarkWorker → Prop) (m : BenchmarkIo α)
    (Q : α → BenchmarkWorker → Prop) : Prop :=
  Io.Triple P m Q (fun _ _ => True) fun _ => True

def Round.Late (loaded : Bool) (round : Round) (w : BenchmarkWorker) : Prop :=
  match round with
  | .returned _ => False
  | .again r => Benchmark.Late r w.clock.time ∧ r.fastContextLoaded = true ∧ loaded = false
  | .decided r => DecidedLate r.fastSelection

variable {loaded : Bool}

variable (loaded) in
theorem ends_decided {selection : FastMetrics → NodeBenchmarkFastSelection}
    (hmetrics : ∀ m, (selection m).metrics = some m) :
    Ends (fun w => Late r w.clock.time) (.decided <$> r.decide selection) (Round.Late loaded) := by
  intro w h
  exact ⟨_, hmetrics _, (h.mono w.clock.later_tick.time_le).elapsedUs⟩

theorem ends_deferred (reason : FastSelectionDeferredReason) : Ends (fun w => Late r w.clock.time)
      (.decided <$> r.decide (.deferred · reason)) (Round.Late loaded) :=
  ends_decided _ fun _ => rfl

theorem ends_callControl {τ α : Type} (m : Control τ α) (record : τ)
    (hlater : ∀ s : Timed τ, s.clock.Later (m s).2.clock) :
    Ends (fun w => Late r w.clock.time) (callControl m record) fun _ w => Late r w.clock.time := by
  intro w h
  have htime := (hlater ⟨w.clock, record⟩).time_le
  unfold callControl
  rcases hrun : m ⟨w.clock, record⟩ with ⟨o, s⟩
  rw [hrun] at htime
  cases o with
  | done value | error e => exact h.mono htime
  | crashed => trivial

theorem ends_loadContextRound (hloaded : loaded = false) :
    Ends (fun w => Late r w.clock.time) (loadContextRound a r) (Round.Late loaded) := by
  refine .bind (ends_callControl _ _ fun s => (fastCharged_fastSelectionContext s).later)
    fun called => ?_
  obtain ⟨context, fast⟩ := called
  cases context with
  | ok context =>
    cases context with
    | auto currentNodeId => exact .ret fun _ h => ⟨h, rfl, hloaded⟩
    | manual =>
      refine ends_decided loaded ?_
      exact fun _ => rfl
  | error e => exact @ends_deferred _ loaded .controlError

theorem ends_selectionRound :
    Ends (fun w => Late r w.clock.time) (selectionRound a r) (Round.Late r.fastContextLoaded) := by
  refine .bind (Q := fun instant w => Late r instant ∧ Late r w.clock.time) ?_ fun instant => ?_
  · intro w h
    have hlate := h.mono w.clock.later_tick.time_le
    exact ⟨hlate, hlate⟩
  refine .assuming fun hlate => ?_
  refine .bind (Q := fun _ w => Late r w.clock.time) (.look fun _ h => h) fun v => ?_
  cases hpolicy : r.fastPolicy instant with
  | wait => exact absurd hpolicy hlate.fastPolicy_ne_wait
  | needCurrent =>
    cases v.operationalControl with
    | false => exact ends_deferred .controlError
    | true =>
      refine ends_loadContextRound (Bool.eq_false_iff.mpr fun hloaded => ?_)
      exact r.fastPolicy_ne_needCurrent hloaded instant hpolicy
  | evaluate =>
    cases v.operationalControl with
    | false => exact ends_deferred .controlError
    | true =>
      refine .bind (ends_callControl _ _ fun s => (fastCharged_applyFastSelection _ s).later)
        fun called => ?_
      exact ends_decided r.fastContextLoaded (metrics_appliedSelection called.1)
  | defer reason => exact ends_deferred reason

theorem ends_selectionRounds :
    Ends (fun w => Late r w.clock.time) (selectionRounds a 2 r) (Round.Late true) :=
  triple_selectionRounds (P := fun r w => Late r w.clock.time) (fun _ => ends_selectionRound)
    (fun _ _ _ h => h) (fun _ _ _ h => h) fun _ _ _ h => h

def Dies {α : Type} (P : BenchmarkWorker → Prop) (m : BenchmarkIo α) : Prop :=
  Ends P m fun _ _ => False

theorem dies_publishMilestone (hlate : DecidedLate r.fastSelection)
    (P : BenchmarkWorker → Prop) : Dies P (publishMilestone r) := by
  have hvalid : (mk r.operationId r.generation r.fastSelection).validate ≠
      .ok () := fun h => hlate.validate_ne (validate_iff.mp h).2.2.2
  intro w _
  cases hmilestone : (mk r.operationId r.generation r.fastSelection).validate with
  | error e =>
    simp only [publishMilestone, hmilestone]
    trivial
  | ok u => exact absurd hmilestone hvalid

theorem dies_advanceFastNodeSelection (hpending : r.fastSelection.isPending = true) :
    Dies (fun w => Late r w.clock.time) (advanceFastNodeSelection (some r.generation) a r) := by
  unfold advanceFastNodeSelection
  rw [if_neg (by simp [hpending]), if_neg (by simp)]
  refine .bind ends_selectionRounds fun round => ?_
  cases round with
  | returned r' => exact fun _ h => h.elim
  | again r' => exact fun _ h => nomatch h.2.2
  | decided r' =>
    intro w h
    refine Io.Triple.bind (dies_publishMilestone h fun _ => True) (fun _ => ?_) w trivial
    exact fun _ h => h.elim

theorem recordProgress_same (outcomes : List NodeProbeOutcome) (r : RunningNodeBenchmark) :
    (r.recordProgress outcomes).operationStarted = r.operationStarted ∧
      (r.recordProgress outcomes).generation = r.generation ∧
      (r.recordProgress outcomes).fastSelection = r.fastSelection := by
  induction outcomes generalizing r with
  | nil => exact ⟨rfl, rfl, rfl⟩
  | cons o outcomes ih =>
    have hrecord : (r.recordOutcome o).operationStarted = r.operationStarted ∧
        (r.recordOutcome o).generation = r.generation ∧
        (r.recordOutcome o).fastSelection = r.fastSelection := by
      unfold RunningNodeBenchmark.recordOutcome
      split <;> exact ⟨rfl, rfl, rfl⟩
    obtain ⟨hstarted, hgeneration, hselection⟩ := ih (r.recordOutcome o)
    exact ⟨hstarted.trans hrecord.1, hgeneration.trans hrecord.2.1, hselection.trans hrecord.2.2⟩

theorem dies_reapRunning (hpending : r.fastSelection.isPending = true) :
    Dies (fun w => Late r w.clock.time) (reapRunning (some r.generation) a r) := by
  refine .bind (Q := fun _ w => Late r w.clock.time) ?_ fun drained => ?_
  · exact fun w h => h.mono w.clock.later_tick.time_le
  obtain ⟨hstarted, hgeneration, hselection⟩ := recordProgress_same
    (r.job.drainProgress drained).1 { r with job := (r.job.drainProgress drained).2 }
  have hpublish : ∀ events, Ends (fun w => Late r w.clock.time) (publish events)
      fun _ w => Late r w.clock.time := fun _ _ h => h
  refine .bind (hpublish _) fun _ => ?_
  refine .bind (Q := fun _ _ => False) ?_ fun _ _ h => h.elim
  have hdies : ∀ r' : RunningNodeBenchmark, r'.operationStarted = r.operationStarted →
      r'.generation = r.generation → r'.fastSelection = r.fastSelection →
      Dies (fun w => Late r w.clock.time) (advanceFastNodeSelection (some r.generation) a r') := by
    intro r' hstarted' hgeneration' hselection'
    rw [← hgeneration']
    refine (dies_advanceFastNodeSelection (hselection' ▸ hpending)).pre ?_
    intro w h
    rwa [Late, hstarted']
  exact hdies _ hstarted hgeneration hselection

/-- A call that comes late while the fast selection is pending kills the worker. -/
theorem reapNodeBenchmark_late (hrunning : w.nodeBenchmark = some r)
    (hpending : r.fastSelection.isPending = true) (hlate : Late r w.clock.time) :
    (reapNodeBenchmark (some r.generation) a w).1 = .crashed := by
  have hdies := dies_reapRunning (a := a) hpending w hlate
  have hreap : reapNodeBenchmark (some r.generation) a w =
      reapRunning (some r.generation) a r w := by
    simp [reapNodeBenchmark, hrunning]
  rw [hreap]
  rcases hrun : reapRunning (some r.generation) a r w with ⟨o, v⟩
  rw [hrun] at hdies
  cases o with
  | done u => exact hdies.elim
  | error e => exact e.elim
  | crashed => rfl

/-! ## Two runs -/

def silent : ControlAnswers :=
  ⟨.error .unavailable, .error .unavailable, fun _ => .error .unavailable,
    fun _ => .error .unavailable, .error .unavailable⟩

/-- `reap_node_benchmark` after some time, with no delay in the call itself. -/
def reapAfter (idle : Nat) : BenchmarkCall :=
  ⟨idle, [], .reap (some .first) ⟨silent, silent, silent⟩⟩

/-- A benchmark of one node whose thread joins no probe before the cutoff. -/
def sampleStart : BenchmarkCall where
  idle := 0
  delays := []
  action := .start
    { trigger := .manual
      generation := some .first
      plan := .ok [⟨"nh1s-0123456789abcdef", "proxy"⟩]
      toleranceMs := 50
      run := some ⟨[4500000000], true, [], false⟩ }

def idleWorker : BenchmarkWorker := ⟨⟨0, []⟩, true, 1, none, none, []⟩

def startedWorker : BenchmarkWorker := next idleWorker sampleStart

def deferredWorker : BenchmarkWorker := next startedWorker (reapAfter 2900000000)

theorem callOnTime_reapAfter {idle : Nat}
    (hstarted : w.nodeBenchmark.map (·.operationStarted) = some 0)
    (hlimit : durationUs (w.clock.time + idle) ≤ nodeBenchmarkDeadlineMs * 1000) :
    CallOnTime w (reapAfter idle) := by
  intro r hr
  have hzero : r.operationStarted = 0 := by
    rw [hr] at hstarted
    exact Option.some.inj hstarted
  have hfinish : ((reapAfter idle).begin w).clock.finish - r.operationStarted =
      w.clock.time + idle := by
    rw [hzero]
    rfl
  refine ⟨?_, fun _ => ?_, fun _ _ hswitches => ?_⟩
  · rw [hfinish]
    exact Nat.le_trans hlimit (by decide)
  · rw [hfinish]
    exact hlimit
  · cases hswitches.intent

theorem sampleRun_survives :
    (next deferredWorker (reapAfter 1700000000)).completedNodeBenchmark.isSome = true ∧
      Runs.Guarded next Survives idleWorker
        [sampleStart, reapAfter 2900000000, reapAfter 1700000000] := by
  refine ⟨by decide +kernel, run_onTime_survives rfl _ ⟨trivial, ?_, ?_, trivial⟩⟩ <;>
    exact callOnTime_reapAfter (by decide +kernel) (by decide +kernel)

/-- The worker comes back six seconds after the start, as after a long update; or,
with the fast selection decided in time, more than a minute later. -/
theorem late_worker_dies : (perform startedWorker (reapAfter 6000000000)).1 = .crashed ∧
      (perform deferredWorker (reapAfter 60000000000)).1 = .crashed := by
  constructor
  · decide +kernel
  · decide +kernel

theorem startedWorker_dies_late : ∃ r, startedWorker.nodeBenchmark = some r ∧
      (reapNodeBenchmark (some r.generation) ⟨silent, silent, silent⟩
        { startedWorker with clock := ⟨6000000000, []⟩ }).1 = .crashed := by
  have hstart : startedWorker.nodeBenchmark.any
      (fun r => r.fastSelection.isPending && r.operationStarted == 0) = true := by
    decide +kernel
  obtain ⟨r, hr, hstart⟩ := (Option.any_eq_true _ _).mp hstart
  rw [Bool.and_eq_true, beq_iff_eq] at hstart
  refine ⟨r, hr, @reapNodeBenchmark_late r _ { startedWorker with clock := _ } hr hstart.1 ?_⟩
  simp [Late, hstart.2, operationDeadline_eq]

end NetHop.Benchmark
