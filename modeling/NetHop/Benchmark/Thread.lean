import NetHop.Benchmark.Protocol
import NetHop.Stopwatch

/-!
# The probing thread

A benchmark probes its candidates on a thread of its own and sends the outcomes
and, at the end, a report to the worker.  What happens on the thread is given by a
`ThreadRun`: the delays before its clock readings and the probes in the order in
which they are joined, up to the cutoff.  A panic inside the run is caught and
turned into a report of an internal error.

The worker sees the two channels: what was sent by the instant it looks.  A run
that the worker cancels is one whose report it no longer reads.
-/

namespace NetHop.Benchmark

open FaultIo Stopwatch BenchmarkReport NodeProbeOutcome

def operationDeadline : Nat := nodeBenchmarkDeadlineMs * 1000000

structure BenchmarkCandidate where
  nodeId : String
  internalTag : String

inductive BenchmarkError where
  | invalidCandidates
  | runtime
  | panicked

variable (candidates : List BenchmarkCandidate)

def validateCandidates : Except BenchmarkError Unit := do
  ensure (candidates ≠ [] && candidates.length ≤ maxNodeBenchmarkCandidates) .invalidCandidates
  ensure ((candidates.map (·.nodeId)).Nodup && (candidates.map (·.internalTag)).Nodup)
    .invalidCandidates

/-! ## Probes -/

inductive ProbeResult where
  | answered (delayMs : Nat)
  | failed (state : NodeProbeState)
  | unauthorized

/-- A probe task that ended, with the two times it measured. -/
structure ProbeEvent where
  nodeId : String
  result : ProbeResult
  requestElapsed : Nat
  completedAt : Nat

inductive TaskEnd where
  | outcome (o : NodeProbeOutcome)
  | unauthorized
  | panicked

/-- The end of a probe task; an `expect` that fails is a join error. -/
def ProbeEvent.join (e : ProbeEvent) : TaskEnd :=
  let timed (built : Except ProtocolError NodeProbeOutcome) : TaskEnd :=
    match built.bind (·.withTiming (durationUs e.requestElapsed) (durationUs e.completedAt)) with
    | .ok o => .outcome o
    | .error _ => .panicked
  match e.result with
  | .answered delayMs => timed (successOf e.nodeId delayMs)
  | .failed state => timed (failed e.nodeId state)
  | .unauthorized => .unauthorized

/-- The outcomes sent to the worker, each with the instant it was sent at. -/
abbrev Progress : Type := List (Nat × NodeProbeOutcome)

/-- A program on the thread; a panic is an error here because it is caught. -/
abbrev ThreadIo (α : Type) : Type := Io (Timed Progress) BenchmarkError α

/-- The loop over the tasks: the outcomes, and whether a probe was refused. -/
def joinProbes : List ProbeEvent → List NodeProbeOutcome →
    ThreadIo (List NodeProbeOutcome × Bool)
  | [], outcomes => pure (outcomes, false)
  | e :: events, outcomes => do
    let joined ← now
    match e.join with
    | .outcome o =>
      update fun progress => progress ++ [(joined, o)]
      joinProbes events (outcomes ++ [o])
    | .unauthorized => pure (outcomes, true)
    | .panicked => joinProbes events outcomes

def summarizeProbe (outcomes : List NodeProbeOutcome)
    (candidateCount probeUs probeFinishedAtUs : Nat) : BenchmarkProbeSummary :=
  let summary := BenchmarkProbeSummary.completed outcomes
  let cutoffPending := candidateCount - outcomes.length
  { summary with
    cutoffPending
    cutoffTailUs :=
      if cutoffPending = 0 then 0
      else (summary.lastResultUs.map fun last => min (probeFinishedAtUs - last) probeUs).getD
        probeUs }

/-- The outcome of every candidate, a timeout for one that was not joined. -/
def assembleOutcomes (candidateIds : List String) (outcomes : List NodeProbeOutcome)
    (probeUs probeFinishedAtUs : Nat) : Except ProtocolError (List NodeProbeOutcome) :=
  candidateIds.mapM fun nodeId =>
    match outcomes.reverse.find? (·.nodeId == nodeId) with
    | some o => .ok o
    | none => do
      let timeout ← failed nodeId .timeout
      timeout.withTiming (min probeUs probeFinishedAtUs) probeFinishedAtUs

def elapsedUs (started : Nat) : ThreadIo Nat := do
  let t ← now
  pure (durationUs (t - started))

def expect {α : Type} (r : Except ProtocolError α) : ThreadIo α :=
  match r with
  | .ok a => pure a
  | .error _ => Io.throw .panicked

/-! ## The run -/

structure ThreadRun where
  delays : List Nat
  runtimeBuilt : Bool
  events : List ProbeEvent
  lost : Bool

variable (trigger : BenchmarkTrigger)

def runAsync (generation started threadSpawnUs runtimeInitUs : Nat) (events : List ProbeEvent) :
    ThreadIo BenchmarkReport := do
  let bootstrapMs := durationMs (saturatingAdd threadSpawnUs runtimeInitUs * 1000)
  let dispatchStarted ← now
  let candidateDispatchUs ← elapsedUs dispatchStarted
  let probeStarted ← now
  let (outcomes, unauthorized) ← joinProbes events []
  let probeUs ← elapsedUs probeStarted
  let probeFinishedAtUs ← elapsedUs started
  let probe := summarizeProbe outcomes candidates.length probeUs probeFinishedAtUs
  let assemblyStarted ← now
  let nodes ← expect
    (assembleOutcomes (candidates.map (·.nodeId)) outcomes probeUs probeFinishedAtUs)
  let resultAssemblyUs ← elapsedUs assemblyStarted
  let totalUs ← elapsedUs started
  let report ← expect
    (fromTimedOutcomesWithProbeSummary trigger generation bootstrapMs
      (durationMs (totalUs * 1000))
      { threadSpawnUs, runtimeInitUs, candidateDispatchUs, probeUs, resultAssemblyUs, totalUs }
      probe nodes)
  if unauthorized then
    pure { report with status := .failed, diagnostic := some .unauthorized }
  else
    pure report

def runBenchmarkFrom (generation started threadSpawnUs : Nat) (run : ThreadRun) :
    ThreadIo BenchmarkReport := do
  Io.ofExcept (validateCandidates candidates)
  let runtimeStarted ← now
  if run.runtimeBuilt then
    let runtimeInitUs ← elapsedUs runtimeStarted
    runAsync candidates trigger generation started threadSpawnUs runtimeInitUs run.events
  else
    Io.throw .runtime

/-- The closure the thread runs, up to the `send` of its report. -/
def benchmarkThread (generation started : Nat) (run : ThreadRun) : ThreadIo BenchmarkReport := do
  let threadSpawnUs ← elapsedUs started
  match ← Io.attempt (runBenchmarkFrom candidates trigger generation started threadSpawnUs run) with
  | .ok report => pure report
  | .error _ =>
    let t ← now
    pure (.internalError trigger generation (durationMs (t - started)))

structure ThreadEnd where
  /-- The instant of the `send`, or of the end without one. -/
  instant : Nat
  report : Option BenchmarkReport
  progress : Progress

def ThreadRun.ends (run : ThreadRun) (candidates : List BenchmarkCandidate)
    (trigger : BenchmarkTrigger) (generation started : Nat) : ThreadEnd :=
  let ended := benchmarkThread candidates trigger generation started run
    ⟨⟨started, run.delays⟩, []⟩
  { instant := ended.2.clock.tick.time
    report :=
      match ended.1 with
      | .done report => if run.lost then none else some report
      | _ => none
    progress := ended.2.record }

/-! ## What the worker is sent -/

variable {timing : BenchmarkEngineTiming} {probe : BenchmarkProbeSummary}
  {nodes : List NodeProbeOutcome} {report : BenchmarkReport}

section

variable {started generation : Nat} {candidates : List BenchmarkCandidate}
  {trigger : BenchmarkTrigger}

def Since (started : Nat) (s : Timed Progress) : Prop := started ≤ s.clock.time

def Proceeds {α : Type} (started : Nat) (m : ThreadIo α) : Prop :=
  Io.Triple (Since started) m (fun _ => Since started) (fun _ => Since started) fun _ => False

theorem proceeds_now : Proceeds started now :=
  fun s hs => Nat.le_trans hs s.clock.later_tick.time_le

theorem proceeds_elapsedUs (since : Nat) : Proceeds started (elapsedUs since) :=
  .bind proceeds_now fun _ => .ret fun _ => id

theorem proceeds_expect {α : Type} (r : Except ProtocolError α) : Proceeds started (expect r) := by
  cases r with
  | ok a => exact .ret fun _ => id
  | error e => exact .fail fun _ => id

theorem proceeds_joinProbes (events : List ProbeEvent) (outcomes : List NodeProbeOutcome) :
    Proceeds started (joinProbes events outcomes) := by
  induction events generalizing outcomes with
  | nil => exact .ret fun _ => id
  | cons e events ih =>
    refine .bind proceeds_now fun joined => ?_
    cases e.join with
    | outcome o => exact .bind (Q := fun _ => Since started) (fun _ hs => hs) fun _ => ih _
    | unauthorized => exact .ret fun _ => id
    | panicked => exact ih _

/-- A report the protocol accepts, whose total is no more than the time since
the start of the thread. -/
def Sendable (started : Nat) (report : BenchmarkReport) (s : Timed Progress) : Prop :=
  report.validate = .ok () ∧ 1000 * report.timing.totalUs + started ≤ s.clock.time

variable {bootstrapMs elapsedMs : Nat}

theorem validate_of_fromTimedOutcomes
    (h : fromTimedOutcomesWithProbeSummary trigger generation bootstrapMs elapsedMs timing probe
      nodes = .ok report) :
    report.validate = .ok () ∧ report.timing = timing := by
  simp only [fromTimedOutcomesWithProbeSummary, bind_eq_ok] at h
  obtain ⟨_, hvalidate, hreport⟩ := h
  cases hreport
  exact ⟨hvalidate, rfl⟩

theorem triple_totalUs (started : Nat) : Io.Triple (Since started) (elapsedUs started)
      (fun totalUs s => 1000 * totalUs + started ≤ s.clock.time) (fun _ => Since started)
      fun _ => False := by
  intro s hs
  have htick := s.clock.later_tick.time_le
  have hspent := durationUs_le (s.clock.tick.time - started)
  change 1000 * durationUs (s.clock.tick.time - started) + started ≤ s.clock.tick.time
  change started ≤ s.clock.time at hs
  omega

theorem triple_report (totalUs : Nat) (htiming : timing.totalUs = totalUs) :
    Io.Triple (fun s => 1000 * totalUs + started ≤ s.clock.time)
      (expect (fromTimedOutcomesWithProbeSummary trigger generation bootstrapMs
        elapsedMs timing probe nodes))
      (Sendable started) (fun _ => Since started) fun _ => False := by
  cases hreport : fromTimedOutcomesWithProbeSummary trigger generation bootstrapMs
    elapsedMs timing probe nodes with
  | ok report =>
    obtain ⟨hvalidate, rfl⟩ := validate_of_fromTimedOutcomes hreport
    refine .ret fun s hs => ⟨hvalidate, ?_⟩
    rwa [htiming]
  | error e => exact .fail fun s hs => Nat.le_trans (Nat.le_add_left _ _) hs

theorem triple_runAsync (threadSpawnUs runtimeInitUs : Nat) (events : List ProbeEvent) :
    Io.Triple (Since started)
      (runAsync candidates trigger generation started threadSpawnUs runtimeInitUs events)
      (Sendable started) (fun _ => Since started) fun _ => False := by
  refine .bind proceeds_now fun _ => ?_
  refine .bind (proceeds_elapsedUs _) fun _ => ?_
  refine .bind proceeds_now fun _ => ?_
  refine .bind (proceeds_joinProbes _ _) fun joined => ?_
  obtain ⟨outcomes, unauthorized⟩ := joined
  refine .bind (proceeds_elapsedUs _) fun probeUs => ?_
  refine .bind (proceeds_elapsedUs _) fun probeFinishedAtUs => ?_
  refine .bind proceeds_now fun _ => ?_
  refine .bind (proceeds_expect _) fun nodes => ?_
  refine .bind (proceeds_elapsedUs _) fun _ => ?_
  refine .bind (triple_totalUs started) fun totalUs => ?_
  refine .bind (triple_report totalUs rfl) fun report => ?_
  cases unauthorized with
  | false | true => exact .ret fun _ => id

theorem triple_runBenchmarkFrom (threadSpawnUs : Nat) (run : ThreadRun) : Io.Triple (Since started)
      (runBenchmarkFrom candidates trigger generation started threadSpawnUs run)
      (Sendable started) (fun _ => Since started) fun _ => False := by
  have hvalidate : Proceeds started (Io.ofExcept (validateCandidates candidates)) := by
    cases validateCandidates candidates with
    | ok _ => exact .ret fun _ => id
    | error e => exact .fail fun _ => id
  refine .bind hvalidate fun _ => ?_
  refine .bind proceeds_now fun runtimeStarted => ?_
  cases run.runtimeBuilt with
  | true => exact .bind (proceeds_elapsedUs _) fun _ => triple_runAsync _ _ _
  | false => exact .fail fun _ => id

def Attempted (started : Nat) (r : Except BenchmarkError BenchmarkReport) (s : Timed Progress) :
    Prop :=
  match r with
  | .ok report => Sendable started report s
  | .error _ => Since started s

theorem triple_benchmarkThread (hgeneration : generation ≠ 0) (run : ThreadRun) :
    Io.Triple (Since started) (benchmarkThread candidates trigger generation started run)
      (Sendable started) (fun _ _ => False) fun _ => False := by
  refine .bind (Q := fun _ => Since started) ?_ fun threadSpawnUs => ?_
  · exact fun s hs => Nat.le_trans hs s.clock.later_tick.time_le
  refine .bind (Q := Attempted started) (.attempt (triple_runBenchmarkFrom _ run)) fun r => ?_
  cases r with
  | ok report => exact .ret fun _ => id
  | error e =>
    intro s hs
    have htick := s.clock.later_tick.time_le
    have htotal := totalUs_internalError trigger generation (s.clock.tick.time - started)
    refine ⟨validate_internalError trigger hgeneration _, ?_⟩
    change started ≤ s.clock.time at hs
    change 1000 * (internalError trigger generation
      (durationMs (s.clock.tick.time - started))).timing.totalUs + started ≤ s.clock.tick.time
    omega

/-- Every report the worker can receive is valid, and its total is no more than
the time from the start of the job to its arrival. -/
theorem ThreadRun.ends_report (hgeneration : generation ≠ 0) (run : ThreadRun)
    (h : (run.ends candidates trigger generation started).report = some report) :
    report.validate = .ok () ∧ 1000 * report.timing.totalUs + started ≤
      (run.ends candidates trigger generation started).instant := by
  have hthread : Io.Triple (Since started)
      (benchmarkThread candidates trigger generation started run) (Sendable started)
      (fun _ _ => False) (fun _ => False) := triple_benchmarkThread hgeneration run
  have hrun := hthread ⟨⟨started, run.delays⟩, []⟩ (Nat.le_refl started)
  simp only [ends] at h ⊢
  cases hend : benchmarkThread candidates trigger generation started run
      ⟨⟨started, run.delays⟩, []⟩ with
  | mk o s =>
    rw [hend] at hrun h
    cases o with
    | done sent =>
      cases hlost : run.lost with
      | true => simp [hlost] at h
      | false =>
        simp only [hlost, Bool.false_eq_true, if_false, Option.some.injEq] at h
        cases h
        exact ⟨hrun.1, Nat.le_trans hrun.2 s.clock.later_tick.time_le⟩
    | error e | crashed => exact hrun.elim

end

end NetHop.Benchmark
