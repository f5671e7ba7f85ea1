import NetHop.Benchmark.Control
import NetHop.Benchmark.Thread
import NetHop.Generation.Candidate

/-!
# The worker's side of a benchmark

`start_node_benchmark` installs a running benchmark; `reap_node_benchmark`, called
at every `run_ready`, records what the thread has sent, advances the fast selection
and, once there is a report, builds the terminal report.  An `expect` that fails
kills the worker.

The worker reads its clock at each of the places where the source does; the
channels are looked at at an instant of their own.
-/

namespace NetHop.Benchmark

open FaultIo Stopwatch Generation

def fastSelectionEarliest : Nat := nodeBenchmarkFastSelectionEarliestMs * 1000000

def fastSelectionLatest : Nat := nodeBenchmarkFastSelectionLatestMs * 1000000

def fastSelectionDeadline : Nat := nodeBenchmarkFastSelectionDeadlineMs * 1000000

/-! ## State -/

structure BenchmarkJob where
  started : Nat
  trigger : BenchmarkTrigger
  generation : Nat
  /-- The end of the thread; its progress is what was not drained yet. -/
  thread : ThreadEnd

structure RunningNodeBenchmark where
  operationId : String
  job : BenchmarkJob
  operationStarted : Nat
  admissionUs : Nat
  orderedNodeIds : List String
  generation : Nat
  toleranceMs : Nat
  deadline : Nat
  trigger : BenchmarkTrigger
  completed : Nat
  partialOutcomes : List (Option NodeProbeOutcome)
  fastContextLoaded : Bool
  fastCurrentNodeId : Option String
  fastSelection : NodeBenchmarkFastSelection
  /-- `fast_mutation_committed` and `fast_control_timing`. -/
  fast : FastControl

inductive BenchmarkEvent where
  | progress (document : NodeBenchmarkProgress)
  | selection (document : NodeBenchmarkSelection)
  | completed (document : NodeBenchmarkTerminalReport)
  | nodeActive (selection : NodeSelectionSnapshot)

structure BenchmarkWorker where
  clock : Clock
  operationalControl : Bool
  /-- `BENCHMARK_SEQUENCE` -/
  sequence : Nat
  nodeBenchmark : Option RunningNodeBenchmark
  completedNodeBenchmark : Option NodeBenchmarkTerminalReport
  published : List BenchmarkEvent

/-- A program of the worker; it has no errors, only panics. -/
abbrev BenchmarkIo (α : Type) : Type := Io BenchmarkWorker Empty α

def readClock : BenchmarkIo Nat :=
  fun w => (.done w.clock.tick.time, { w with clock := w.clock.tick })

def publish (events : List BenchmarkEvent) : BenchmarkIo Unit :=
  .modify fun w => { w with published := w.published ++ events }

def callControl {τ α : Type} (m : Control τ α) (record : τ) :
    BenchmarkIo (Except OperationalControlError α × τ) := fun w =>
  let called := m ⟨w.clock, record⟩
  let w' := { w with clock := called.2.clock }
  match called.1 with
  | .done a => (.done (.ok a, called.2.record), w')
  | .error e => (.done (.error e, called.2.record), w')
  | .crashed => (.crashed, w')

/-! ## Starting -/

def hexDigit (n : Nat) : Char := "0123456789abcdef".toList.getD (n % 16) '0'

/-- `bench_` and the number in 29 hexadecimal digits. -/
def operationId (sequence : Nat) : String :=
  "bench_" ++ String.ofList ((List.range 29).reverse.map fun i => hexDigit (sequence / 16 ^ i))

inductive StartFailure where
  | benchmarkUnavailable
  | benchmarkFailed

structure NodeBenchmarkOperationAck where
  operationId : String
  joinedExisting : Bool
  trigger : BenchmarkTrigger
  candidateCount : Nat
  fastSelection : NodeBenchmarkFastSelection

variable (currentGeneration : Option Nat) (a : ReapAnswers) (running : RunningNodeBenchmark)

def nodeBenchmarkAck (joinedExisting : Bool) : NodeBenchmarkOperationAck where
  operationId := running.operationId
  joinedExisting := joinedExisting
  trigger := running.trigger
  candidateCount := running.orderedNodeIds.length
  fastSelection := running.fastSelection

/-- A request for a benchmark and what is answered to it: the plan of the
control plane, the configured tolerance and what the thread does, when it can be
spawned. -/
structure StartRequest where
  trigger : BenchmarkTrigger
  generation : Option GenerationId
  plan : Except OperationalControlError (List BenchmarkCandidate)
  toleranceMs : Nat
  run : Option ThreadRun

def spawnBenchmarkWithWake (candidates : List BenchmarkCandidate) (trigger : BenchmarkTrigger)
    (generation : Nat) (run : Option ThreadRun) :
    BenchmarkIo (Except BenchmarkError BenchmarkJob) :=
  match validateCandidates candidates with
  | .error e => pure (.error e)
  | .ok _ => do
    let started ← readClock
    match run with
    | none => pure (.error .runtime)
    | some run =>
      pure (.ok ⟨started, trigger, generation,
        run.ends candidates trigger generation started⟩)

def installed (q : StartRequest) (candidates : List BenchmarkCandidate) (generation sequence : Nat)
    (operationStarted admitted : Nat) (job : BenchmarkJob) : RunningNodeBenchmark where
  operationId := operationId sequence
  job := job
  operationStarted := operationStarted
  admissionUs := durationUs (admitted - operationStarted)
  orderedNodeIds := candidates.map (·.nodeId)
  generation := generation
  toleranceMs := q.toleranceMs
  deadline := job.started + operationDeadline
  trigger := q.trigger
  completed := 0
  partialOutcomes := List.replicate candidates.length none
  fastContextLoaded := false
  fastCurrentNodeId := none
  fastSelection := .pending
  fast := ⟨false, .zero⟩

/-- `start_node_benchmark` with a plan. -/
def admitBenchmark (q : StartRequest) (candidates : List BenchmarkCandidate)
    (generation : GenerationId) (operationStarted : Nat) :
    BenchmarkIo (Except StartFailure NodeBenchmarkOperationAck) := do
  let admitted ← readClock
  match ← spawnBenchmarkWithWake candidates q.trigger generation.get q.run with
  | .error _ => pure (.error .benchmarkFailed)
  | .ok job => do
    let w ← .gets id
    let running := installed q candidates generation.get w.sequence operationStarted admitted job
    .modify fun w => { w with
      sequence := (w.sequence + 1) % 2 ^ 64
      completedNodeBenchmark := none
      nodeBenchmark := some running }
    pure (.ok (nodeBenchmarkAck running false))

def startNodeBenchmark (q : StartRequest) :
    BenchmarkIo (Except StartFailure NodeBenchmarkOperationAck) := do
  let operationStarted ← readClock
  let w ← .gets id
  match w.nodeBenchmark, q.generation, w.operationalControl, q.plan with
  | some running, _, _, _ => pure (.ok (nodeBenchmarkAck running true))
  | none, some generation, true, .ok candidates =>
    admitBenchmark q candidates generation operationStarted
  | none, _, _, _ => pure (.error .benchmarkUnavailable)

/-! ## Fast selection -/

inductive CurrentCandidateState where
  | unknown
  | notInPool
  | pending
  | completed

inductive FastSelectionPolicyDecision where
  | wait
  | needCurrent
  | evaluate
  | defer (reason : FastSelectionDeferredReason)

def fastSelectionPolicy (elapsed candidateCount completedCount successfulCount : Nat)
    (currentState : CurrentCandidateState) : FastSelectionPolicyDecision :=
  if elapsed < fastSelectionEarliest then
    .wait
  else
    let latest := decide (fastSelectionLatest ≤ elapsed)
    let threshold :=
      if latest then (candidateCount + 1) / 2 else (candidateCount * 2 + 2) / 3
    if completedCount < threshold then
      if latest then .defer .insufficientCoverage else .wait
    else if successfulCount = 0 then
      if latest then .defer .noSuccess else .wait
    else
      match currentState with
      | .unknown => .needCurrent
      | .pending => if latest then .defer .currentPending else .wait
      | .notInPool => .evaluate
      | .completed => .evaluate

namespace RunningNodeBenchmark

variable (r : RunningNodeBenchmark)

def recordOutcome (o : NodeProbeOutcome) : RunningNodeBenchmark :=
  match r.orderedNodeIds.idxOf? o.nodeId with
  | none => r
  | some index =>
    { r with partialOutcomes := r.partialOutcomes.modify index fun p => some (p.getD o) }

def recordProgress (outcomes : List NodeProbeOutcome) :
    RunningNodeBenchmark := outcomes.foldl recordOutcome r

def partialResults : List NodeProbeOutcome :=
  r.partialOutcomes.filterMap id

def currentCandidateState : CurrentCandidateState :=
  if r.fastContextLoaded = false then
    .unknown
  else
    match r.fastCurrentNodeId.bind (r.orderedNodeIds.idxOf? ·) with
    | none => .notInPool
    | some index => if (r.partialOutcomes[index]?.join).isSome then .completed else .pending

def fastPolicy (instant : Nat) : FastSelectionPolicyDecision :=
  fastSelectionPolicy (instant - r.operationStarted) r.orderedNodeIds.length
    r.partialResults.length (r.partialResults.countP (·.succeeded)) r.currentCandidateState

def fastMetrics (instant : Nat) : FastMetrics where
  completed := r.partialResults.length
  candidateCount := r.orderedNodeIds.length
  elapsedUs := durationUs (instant - r.operationStarted)

def decide (selection : FastMetrics → NodeBenchmarkFastSelection) :
    BenchmarkIo RunningNodeBenchmark := do
  let instant ← readClock
  pure { r with fastSelection := selection (r.fastMetrics instant) }

def fastInput : FastSelectionInput where
  outcomes := r.partialResults
  orderedNodeIds := r.orderedNodeIds
  currentNodeId := r.fastCurrentNodeId
  toleranceMs := r.toleranceMs
  deadline := r.operationStarted + fastSelectionDeadline

end RunningNodeBenchmark

/-- What the control plane answers during one call of `reap_node_benchmark`. -/
structure ReapAnswers where
  context : ControlAnswers
  apply : ControlAnswers
  complete : ControlAnswers

/-- A round of the loop in `advance_fast_node_selection`: it returns, goes round
again, or breaks with a decision. -/
inductive Round where
  | returned (running : RunningNodeBenchmark)
  | again (running : RunningNodeBenchmark)
  | decided (running : RunningNodeBenchmark)

def appliedSelection (result : Except OperationalControlError FastSelectionApply)
    (m : FastMetrics) : NodeBenchmarkFastSelection :=
  match result with
  | .ok (.switched selection) => .switched m selection
  | .ok .kept => .kept m
  | .ok .notApplicable => .notApplicable m
  | .error _ => .deferred m .controlError

def loadContextRound : BenchmarkIo Round := do
  let (context, fast) ← callControl (fastSelectionContext a.context) running.fast
  let running := { running with fast }
  match context with
  | .ok (.auto currentNodeId) =>
    pure (.again { running with
      fastContextLoaded := true
      fastCurrentNodeId := currentNodeId })
  | .ok .manual => .decided <$> running.decide .notApplicable
  | .error _ => .decided <$> running.decide (.deferred · .controlError)

def evaluateRound : BenchmarkIo Round := do
  let (result, fast) ← callControl (applyFastSelection running.fastInput a.apply) running.fast
  .decided <$> { running with fast }.decide (appliedSelection result)

def selectionRound : BenchmarkIo Round := do
  let instant ← readClock
  let w ← .gets id
  match running.fastPolicy instant, w.operationalControl with
  | .wait, _ => pure (.returned running)
  | .needCurrent, true => loadContextRound a running
  | .evaluate, true => evaluateRound a running
  | .needCurrent, false => .decided <$> running.decide (.deferred · .controlError)
  | .evaluate, false => .decided <$> running.decide (.deferred · .controlError)
  | .defer reason, _ => .decided <$> running.decide (.deferred · reason)

def selectionRounds (a : ReapAnswers) : Nat → RunningNodeBenchmark → BenchmarkIo Round
  | 0, running => pure (.again running)
  | rounds + 1, running => do
    match ← selectionRound a running with
    | .again running => selectionRounds a rounds running
    | ended => pure ended

def publishMilestone : BenchmarkIo Unit :=
  let milestone : NodeBenchmarkSelection :=
    ⟨running.operationId, running.generation, running.fastSelection⟩
  match milestone.validate, running.fastSelection with
  | .error _, _ => Io.abort
  | .ok _, .switched _ selection => publish [.selection milestone, .nodeActive selection]
  | .ok _, _ => publish [.selection milestone]

/-- `advance_fast_node_selection`.  A round that goes round again has loaded the
context, so the loop ends in its second round. -/
def advanceFastNodeSelection : BenchmarkIo RunningNodeBenchmark :=
  if running.fastSelection.isPending = false then
    pure running
  else if currentGeneration ≠ some running.generation then
    running.decide .superseded
  else do
    match ← selectionRounds a 2 running with
    | .returned running => pure running
    | .decided running => do
      publishMilestone running
      pure running
    | .again _ => Io.abort

/-! ## Reaping -/

/-- `drain_progress` at an instant: what was sent by then, and the job without it. -/
def BenchmarkJob.drainProgress (job : BenchmarkJob) (instant : Nat) :
    List NodeProbeOutcome × BenchmarkJob :=
  ((job.thread.progress.takeWhile (·.1 ≤ instant)).map (·.2),
    { job with thread := { job.thread with
      progress := job.thread.progress.dropWhile (·.1 ≤ instant) } })

def benchmarkProgressDocuments (currentGeneration : Option Nat) (running : RunningNodeBenchmark) :
    List NodeProbeOutcome → Nat → List BenchmarkEvent × Nat
  | [], completed => ([], completed)
  | o :: outcomes, completed =>
    let rest := benchmarkProgressDocuments currentGeneration running outcomes (completed + 1)
    if currentGeneration = some running.generation then
      (.progress ⟨running.operationId, running.generation, completed + 1,
        running.orderedNodeIds.length, o⟩ :: rest.1, rest.2)
    else
      rest

def BenchmarkJob.tryComplete (job : BenchmarkJob) : BenchmarkIo (Option BenchmarkReport) := do
  let instant ← readClock
  if job.thread.instant ≤ instant then
    match job.thread.report with
    | some report => pure (some report)
    | none => giveUp
  else
    let elapsed ← readClock
    if elapsed - job.started < operationDeadline then
      pure none
    else
      giveUp
where
  giveUp : BenchmarkIo (Option BenchmarkReport) := do
    let instant ← readClock
    pure (some (.internalError job.trigger job.generation (durationMs (instant - job.started))))

/-- The selection part of the terminal report. -/
def completeSelection (report : BenchmarkReport) :
    BenchmarkIo (BenchmarkReport × Option NodeSelectionSnapshot × BenchmarkControlTiming) := do
  let w ← .gets id
  if currentGeneration ≠ some running.generation then
    pure ({ report with status := .superseded }, none, .zero)
  else if w.operationalControl then
    let (selection, timing) ← callControl
      (completeBenchmarkWithCommitTimed report running.orderedNodeIds running.toleranceMs
        running.deadline running.fast.mutationCommitted a.complete) .zero
    pure (report, selection.toOption, timing)
  else
    pure (report, none, .zero)

def publishTerminal (terminal : NodeBenchmarkTerminalReport) : BenchmarkIo Unit :=
  match terminal.validate with
  | .error _ => Io.abort
  | .ok _ => .modify fun w => { w with
      published := w.published ++ .completed terminal ::
        (terminal.selection.map BenchmarkEvent.nodeActive).toList
      completedNodeBenchmark := some terminal }

def settleSelection : BenchmarkIo RunningNodeBenchmark :=
  if running.fastSelection.isPending then running.decide .notNeeded else pure running

/-- The terminal report of a benchmark that was taken out of the worker. -/
def reportTerminal (report : BenchmarkReport) (jobElapsedUs : Nat) : BenchmarkIo Unit := do
  let workerReapUs := jobElapsedUs - report.timing.totalUs
  let (report, selection, terminalControl) ← completeSelection currentGeneration a running report
  let ended ← readClock
  publishTerminal
    { operationId := running.operationId
      report
      selection
      fastSelection := running.fastSelection
      timing :=
        { admissionUs := running.admissionUs
          workerReapUs
          fastControl := running.fast.timing
          terminalControl
          operationTotalUs := durationUs (ended - running.operationStarted) } }

def finishBenchmark (report : BenchmarkReport) : BenchmarkIo Unit := do
  let reaped ← readClock
  let jobElapsedUs := durationUs (reaped - running.job.started)
  .modify fun w => { w with nodeBenchmark := none }
  let running ← settleSelection running
  reportTerminal currentGeneration a running report jobElapsedUs

def reapRunning : BenchmarkIo Unit := do
  let drained ← readClock
  let (progress, job) := running.job.drainProgress drained
  let running := { running with job }.recordProgress progress
  let (documents, completed) :=
    benchmarkProgressDocuments currentGeneration running progress running.completed
  publish documents
  let running ← advanceFastNodeSelection currentGeneration a { running with completed }
  match ← running.job.tryComplete with
  | none => .modify fun w => { w with nodeBenchmark := some running }
  | some report => finishBenchmark currentGeneration a running report

def reapNodeBenchmark : BenchmarkIo Unit := do
  let w ← .gets id
  match w.nodeBenchmark with
  | none => pure ()
  | some running => reapRunning currentGeneration a running

end NetHop.Benchmark
