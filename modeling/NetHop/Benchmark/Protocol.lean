import Mathlib.Algebra.Order.BigOperators.Group.List
import Mathlib.Algebra.Order.Group.Nat
import NetHop.Checked
import NetHop.Text

/-!
# Benchmark documents

The documents of a node benchmark with the checks the protocol crate makes on
them: probe outcomes, the report of the probing thread, the selection milestone
and the terminal report.  Counters are `u64` microseconds, so every sum is
checked or saturates.  A selection is kept as the snapshot it was serialized
from; `toValue` is the JSON value the checks read.
-/

namespace NetHop.Benchmark

open List

inductive ProtocolError where
  | invalidEnvelope

def maxNodeBenchmarkCandidates : Nat := 64

def nodeBenchmarkFastSelectionEarliestMs : Nat := 2000

def nodeBenchmarkFastSelectionLatestMs : Nat := 2800

def nodeBenchmarkFastSelectionDeadlineMs : Nat := 3000

def nodeBenchmarkDeadlineMs : Nat := 4900

def maxNodeBenchmarkTimingUs : Nat := 60000000

def maxWebuiArrayItems : Nat := 10000

def maxWebuiStringBytes : Nat := 64 * 1024

def u64Max : Nat := 2 ^ 64 - 1

def saturatingAdd (a b : Nat) : Nat := min (a + b) u64Max

def checkedAdd (a b : Nat) : Option Nat := if a + b ≤ u64Max then some (a + b) else none

/-- `duration_us` on nanoseconds. -/
def durationUs (d : Nat) : Nat := min (d / 1000) u64Max

/-- `duration_ms` on nanoseconds. -/
def durationMs (d : Nat) : Nat := min (d / 1000000) (2 ^ 32 - 1)

def checkedTimingSum (values : List Nat) : Option Nat := values.foldlM checkedAdd 0

/-! ## JSON values -/

inductive Value where
  | null
  | bool (value : Bool)
  | number (value : Nat)
  | string (value : String)
  | array (values : List Value)
  | object (fields : List (String × Value))

def validateWebuiValue (value : Value) (depth : Nat) : Except ProtocolError Unit := do
  ensure (depth ≤ 32) .invalidEnvelope
  match value with
  | .string text => ensure (text.utf8ByteSize ≤ maxWebuiStringBytes) .invalidEnvelope
  | .array values =>
    ensure (values.length ≤ maxWebuiArrayItems) .invalidEnvelope
    values.attach.forM fun v => validateWebuiValue v.1 (depth + 1)
  | .object fields =>
    ensure (fields.length ≤ 2048) .invalidEnvelope
    fields.attach.forM fun f => validateWebuiValue f.1.2 (depth + 1)
  | _ => .ok ()
termination_by sizeOf value
decreasing_by
  · have := sizeOf_lt_of_mem v.2
    simp only [Value.array.sizeOf_spec]
    omega
  · have hfield := sizeOf_lt_of_mem f.2
    have hvalue : sizeOf f.1.2 < sizeOf f.1 := by
      cases f.1
      simp only [Prod.mk.sizeOf_spec]
      omega
    simp only [Value.object.sizeOf_spec]
    omega

/-! ## Node identifiers and selections -/

/-- `is_ascii_hexdigit` and not `is_ascii_uppercase`. -/
def lowerHexDigit (c : Char) : Bool := c.isDigit || ('a' ≤ c && c ≤ 'f')

def validStableNodeId (value : String) : Bool :=
  value.utf8ByteSize == 21 && Text.startsWith value "nh1s-" &&
    (value.toList.drop 5).all lowerHexDigit

def validBenchmarkOperationId (value : String) : Bool :=
  value.utf8ByteSize == 35 && Text.startsWith value "bench_" &&
    (value.toList.drop 6).all lowerHexDigit

structure StableNodeId where
  value : String
  valid : validStableNodeId value = true
  deriving DecidableEq

inductive NodeSelectionIntent where
  | auto
  | manual (id : StableNodeId)
  deriving DecidableEq

inductive SelectionDiagnosticCode where
  | subscriptionModeMismatch
  | singleSourceNotUnique
  | noActiveSource
  | lastActiveSource
  | targetNotReady
  | modeTargetRequired
  | nodeSelectionStale
  | activeNodeUnresolved
  | nodeTestPartial

def SelectionDiagnosticCode.wire : SelectionDiagnosticCode → String
  | .subscriptionModeMismatch => "NH-SUB-MODE-MISMATCH"
  | .singleSourceNotUnique => "NH-SUB-SINGLE-NOT-UNIQUE"
  | .noActiveSource => "NH-SUB-NO-ACTIVE-SOURCE"
  | .lastActiveSource => "NH-SUB-LAST-ACTIVE"
  | .targetNotReady => "NH-SUB-TARGET-NOT-READY"
  | .modeTargetRequired => "NH-SUB-MODE-TARGET-REQUIRED"
  | .nodeSelectionStale => "NH-NODE-SELECTION-STALE"
  | .activeNodeUnresolved => "NH-NODE-ACTIVE-UNRESOLVED"
  | .nodeTestPartial => "NH-NODE-TEST-PARTIAL"

inductive ActiveTerminalSnapshot where
  | node (id : StableNodeId)
  | direct
  | block
  | unresolved (reason : SelectionDiagnosticCode)

structure NodeSelectionSnapshot where
  version : Nat
  intent : NodeSelectionIntent
  activeTerminal : ActiveTerminalSnapshot
  changedAt : Nat

def NodeSelectionSnapshot.activeNodeId (s : NodeSelectionSnapshot) : Option String :=
  match s.activeTerminal with
  | .node id => some id.value
  | _ => none

def NodeSelectionIntent.toValue : NodeSelectionIntent → Value
  | .auto => .object [("mode", .string "auto")]
  | .manual id => .object [("mode", .string "manual"), ("node_id", .string id.value)]

def ActiveTerminalSnapshot.toValue : ActiveTerminalSnapshot → Value
  | .node id => .object [("kind", .string "node"), ("node_id", .string id.value)]
  | .direct => .object [("kind", .string "direct")]
  | .block => .object [("kind", .string "block")]
  | .unresolved reason =>
    .object [("kind", .string "unresolved"), ("reason", .string reason.wire)]

def NodeSelectionSnapshot.toValue (s : NodeSelectionSnapshot) : Value :=
  .object [("version", .number s.version), ("intent", s.intent.toValue),
    ("active_terminal", s.activeTerminal.toValue), ("changed_at", .number s.changedAt)]

/-! ## Probe outcomes -/

inductive BenchmarkTrigger where
  | manual
  | periodic

inductive NodeProbeState where
  | success
  | timeout
  | unavailable
  | protocolError
  deriving DecidableEq

inductive BenchmarkDiagnostic where
  | unauthorized

inductive BenchmarkStatus where
  | success
  | partially
  | failed
  | internalError
  | superseded

structure NodeProbeOutcome where
  nodeId : String
  state : NodeProbeState
  latencyMs : Option Nat
  requestElapsedUs : Nat
  completedAtUs : Nat

namespace NodeProbeOutcome

variable (o : NodeProbeOutcome)

def succeeded : Bool := o.state == .success

def timedOut : Bool := o.state == .timeout

def validate : Except ProtocolError Unit :=
  ensure
    (validStableNodeId o.nodeId && (o.succeeded == o.latencyMs.isSome) &&
      o.latencyMs.all (fun delay => 0 < delay && delay ≤ 65535) &&
      o.requestElapsedUs ≤ maxNodeBenchmarkTimingUs &&
      o.completedAtUs ≤ maxNodeBenchmarkTimingUs && o.requestElapsedUs ≤ o.completedAtUs)
    .invalidEnvelope

/-- `NodeProbeOutcome::success`. -/
def successOf (nodeId : String) (latencyMs : Nat) : Except ProtocolError NodeProbeOutcome := do
  let outcome : NodeProbeOutcome := ⟨nodeId, .success, some latencyMs, 0, 0⟩
  outcome.validate
  return outcome

def failed (nodeId : String) (state : NodeProbeState) :
    Except ProtocolError NodeProbeOutcome := do
  let outcome : NodeProbeOutcome := ⟨nodeId, state, none, 0, 0⟩
  outcome.validate
  return outcome

def withTiming (requestElapsedUs completedAtUs : Nat) : Except ProtocolError NodeProbeOutcome := do
  let outcome := { o with requestElapsedUs, completedAtUs }
  outcome.validate
  return outcome

end NodeProbeOutcome

/-! ## Reports -/

structure BenchmarkEngineTiming where
  threadSpawnUs : Nat
  runtimeInitUs : Nat
  candidateDispatchUs : Nat
  probeUs : Nat
  resultAssemblyUs : Nat
  totalUs : Nat

namespace BenchmarkEngineTiming

def aggregate (bootstrapMs elapsedMs : Nat) : BenchmarkEngineTiming where
  threadSpawnUs := 0
  runtimeInitUs := bootstrapMs * 1000
  candidateDispatchUs := 0
  probeUs := (elapsedMs - bootstrapMs) * 1000
  resultAssemblyUs := 0
  totalUs := elapsedMs * 1000

def stages (t : BenchmarkEngineTiming) : List Nat :=
  [t.threadSpawnUs, t.runtimeInitUs, t.candidateDispatchUs, t.probeUs, t.resultAssemblyUs]

def validate (t : BenchmarkEngineTiming) (bootstrapMs elapsedMs : Nat) :
    Except ProtocolError Unit := do
  let accounted ← okOr (checkedTimingSum t.stages) .invalidEnvelope
  let bootstrapUs ← okOr (checkedAdd t.threadSpawnUs t.runtimeInitUs) .invalidEnvelope
  ensure
    ((t.stages ++ [t.totalUs]).all (· ≤ maxNodeBenchmarkTimingUs) && accounted ≤ t.totalUs &&
      t.totalUs / 1000 == elapsedMs && bootstrapUs / 1000 == bootstrapMs)
    .invalidEnvelope

end BenchmarkEngineTiming

structure BenchmarkProbeSummary where
  firstResultUs : Option Nat
  lastResultUs : Option Nat
  lastSuccessUs : Option Nat
  completedWithin500ms : Nat
  completedWithin1s : Nat
  completedWithin2s : Nat
  completedWithin3s : Nat
  completedBeforeCutoff : Nat
  cutoffPending : Nat
  cutoffTailUs : Nat

namespace BenchmarkProbeSummary

def completed (nodes : List NodeProbeOutcome) : BenchmarkProbeSummary where
  firstResultUs := (nodes.map (·.completedAtUs)).min?
  lastResultUs := (nodes.map (·.completedAtUs)).max?
  lastSuccessUs := ((nodes.filter (·.succeeded)).map (·.completedAtUs)).max?
  completedWithin500ms := nodes.countP (·.completedAtUs ≤ 500000)
  completedWithin1s := nodes.countP (·.completedAtUs ≤ 1000000)
  completedWithin2s := nodes.countP (·.completedAtUs ≤ 2000000)
  completedWithin3s := nodes.countP (·.completedAtUs ≤ 3000000)
  completedBeforeCutoff := nodes.length
  cutoffPending := 0
  cutoffTailUs := 0

def empty : BenchmarkProbeSummary := completed []

variable (p : BenchmarkProbeSummary)

def counts : List Nat :=
  [p.completedWithin500ms, p.completedWithin1s, p.completedWithin2s, p.completedWithin3s,
    p.completedBeforeCutoff]

def notAfter (a b : Option Nat) : Bool := a.all fun x => b.all (x ≤ ·)

def results : List Nat :=
  p.firstResultUs.toList ++ p.lastResultUs.toList ++ p.lastSuccessUs.toList

def validate (tested succeeded : Nat)
    (timing : BenchmarkEngineTiming) : Except ProtocolError Unit :=
  let hasCompleted := decide (0 < p.completedBeforeCutoff)
  ensure
    ((p.counts.zip p.counts.tail).all (fun pair => pair.1 ≤ pair.2) &&
      checkedAdd p.completedBeforeCutoff p.cutoffPending == some tested &&
      p.firstResultUs.isSome == hasCompleted && p.lastResultUs.isSome == hasCompleted &&
      p.lastSuccessUs.isSome == decide (0 < succeeded) &&
      notAfter p.firstResultUs p.lastResultUs && notAfter p.lastSuccessUs p.lastResultUs &&
      p.results.all (· ≤ timing.totalUs) && p.cutoffTailUs ≤ timing.probeUs &&
      (p.cutoffPending != 0 || p.cutoffTailUs == 0) &&
      (p.lastResultUs.bind (checkedAdd · p.cutoffTailUs)).all (· ≤ timing.totalUs))
    .invalidEnvelope

end BenchmarkProbeSummary

structure BenchmarkReport where
  status : BenchmarkStatus
  trigger : BenchmarkTrigger
  generation : Nat
  bootstrapMs : Nat
  elapsedMs : Nat
  timing : BenchmarkEngineTiming
  probe : BenchmarkProbeSummary
  tested : Nat
  succeeded : Nat
  timedOut : Nat
  failed : Nat
  diagnostic : Option BenchmarkDiagnostic
  nodes : List NodeProbeOutcome

namespace BenchmarkReport

def validate (r : BenchmarkReport) : Except ProtocolError Unit := do
  ensure
    (r.generation != 0 && r.elapsedMs ≤ nodeBenchmarkDeadlineMs &&
      r.bootstrapMs ≤ r.elapsedMs && r.nodes.length ≤ maxNodeBenchmarkCandidates &&
      r.tested == r.nodes.length && r.succeeded + r.timedOut + r.failed == r.tested)
    .invalidEnvelope
  r.nodes.forM (·.validate)
  r.timing.validate r.bootstrapMs r.elapsedMs
  r.probe.validate r.tested r.succeeded r.timing
  ensure (r.nodes.all (·.completedAtUs ≤ r.timing.totalUs)) .invalidEnvelope
  let succeeded := r.nodes.countP (·.succeeded)
  let timedOut := r.nodes.countP (·.timedOut)
  ensure
    ((r.nodes.map (·.nodeId)).Nodup && succeeded == r.succeeded && timedOut == r.timedOut &&
      r.nodes.length - (succeeded + timedOut) == r.failed)
    .invalidEnvelope

def fromTimedOutcomesWithProbeSummary (trigger : BenchmarkTrigger)
    (generation bootstrapMs elapsedMs : Nat) (timing : BenchmarkEngineTiming)
    (probe : BenchmarkProbeSummary) (nodes : List NodeProbeOutcome) :
    Except ProtocolError BenchmarkReport := do
  let succeeded := nodes.countP (·.succeeded)
  let timedOut := nodes.countP (·.timedOut)
  let failed := nodes.length - (succeeded + timedOut)
  let status :=
    if succeeded = nodes.length then BenchmarkStatus.success
    else if 0 < succeeded then .partially
    else .failed
  let report : BenchmarkReport :=
    { status, trigger, generation, bootstrapMs, elapsedMs, timing, probe,
      tested := nodes.length, succeeded, timedOut, failed, diagnostic := none, nodes }
  report.validate
  return report

def internalError (trigger : BenchmarkTrigger) (generation elapsedMs : Nat) :
    BenchmarkReport where
  status := .internalError
  trigger := trigger
  generation := generation
  bootstrapMs := 0
  elapsedMs := min elapsedMs nodeBenchmarkDeadlineMs
  timing := .aggregate 0 (min elapsedMs nodeBenchmarkDeadlineMs)
  probe := .empty
  tested := 0
  succeeded := 0
  timedOut := 0
  failed := 0
  diagnostic := none
  nodes := []

end BenchmarkReport

/-! ## Timings -/

structure BenchmarkControlTiming where
  intentLoadUs : Nat
  currentSnapshotUs : Nat
  decisionUs : Nat
  targetResolveUs : Nat
  selectorApplyUs : Nat
  finalSnapshotUs : Nat
  totalUs : Nat

namespace BenchmarkControlTiming

def zero : BenchmarkControlTiming := ⟨0, 0, 0, 0, 0, 0, 0⟩

def stages (t : BenchmarkControlTiming) : List Nat :=
  [t.intentLoadUs, t.currentSnapshotUs, t.decisionUs, t.targetResolveUs, t.selectorApplyUs,
    t.finalSnapshotUs]

def validate (t : BenchmarkControlTiming) : Except ProtocolError Unit := do
  let accounted ← okOr (checkedTimingSum t.stages) .invalidEnvelope
  ensure
    ((t.stages ++ [t.totalUs]).all (· ≤ maxNodeBenchmarkTimingUs) && accounted ≤ t.totalUs)
    .invalidEnvelope

end BenchmarkControlTiming

structure BenchmarkTerminalTiming where
  admissionUs : Nat
  workerReapUs : Nat
  fastControl : BenchmarkControlTiming
  terminalControl : BenchmarkControlTiming
  operationTotalUs : Nat

def BenchmarkTerminalTiming.validate (t : BenchmarkTerminalTiming) (report : BenchmarkReport) :
    Except ProtocolError Unit := do
  t.fastControl.validate
  t.terminalControl.validate
  let accounted ← okOr
    (checkedTimingSum [t.admissionUs, report.timing.totalUs, t.workerReapUs,
      t.terminalControl.totalUs]) .invalidEnvelope
  ensure
    (t.admissionUs ≤ maxNodeBenchmarkTimingUs && t.workerReapUs ≤ maxNodeBenchmarkTimingUs &&
      t.operationTotalUs ≤ maxNodeBenchmarkTimingUs &&
      t.fastControl.totalUs ≤ t.operationTotalUs && accounted ≤ t.operationTotalUs)
    .invalidEnvelope

/-! ## Fast selection -/

inductive FastSelectionDeferredReason where
  | insufficientCoverage
  | currentPending
  | noSuccess
  | controlError

structure FastMetrics where
  completed : Nat
  candidateCount : Nat
  elapsedUs : Nat

inductive NodeBenchmarkFastSelection where
  | pending
  | switched (metrics : FastMetrics) (selection : NodeSelectionSnapshot)
  | kept (metrics : FastMetrics)
  | deferred (metrics : FastMetrics) (reason : FastSelectionDeferredReason)
  | notApplicable (metrics : FastMetrics)
  | superseded (metrics : FastMetrics)
  | notNeeded (metrics : FastMetrics)

namespace NodeBenchmarkFastSelection

def isPending : NodeBenchmarkFastSelection → Bool
  | .pending => true
  | _ => false

def metrics : NodeBenchmarkFastSelection → Option FastMetrics
  | .pending => none
  | .switched m _ => some m
  | .kept m => some m
  | .deferred m _ => some m
  | .notApplicable m => some m
  | .superseded m => some m
  | .notNeeded m => some m

def elapsedLimitMs : NodeBenchmarkFastSelection → Nat
  | .switched _ _ => nodeBenchmarkFastSelectionDeadlineMs
  | _ => nodeBenchmarkDeadlineMs

def validate (f : NodeBenchmarkFastSelection) : Except ProtocolError Unit := do
  match f.metrics with
  | none => .ok ()
  | some m =>
    ensure
      (m.candidateCount != 0 && m.candidateCount ≤ maxNodeBenchmarkCandidates &&
        m.completed ≤ m.candidateCount && m.elapsedUs ≤ f.elapsedLimitMs * 1000)
      .invalidEnvelope
    match f with
    | .switched _ selection => validateWebuiValue selection.toValue 0
    | _ => .ok ()

end NodeBenchmarkFastSelection

structure NodeBenchmarkSelection where
  operationId : String
  generation : Nat
  fastSelection : NodeBenchmarkFastSelection

def NodeBenchmarkSelection.validate (s : NodeBenchmarkSelection) : Except ProtocolError Unit := do
  ensure
    (validBenchmarkOperationId s.operationId && s.generation != 0 && !s.fastSelection.isPending)
    .invalidEnvelope
  s.fastSelection.validate

structure NodeBenchmarkProgress where
  operationId : String
  generation : Nat
  completed : Nat
  candidateCount : Nat
  outcome : NodeProbeOutcome

structure NodeBenchmarkTerminalReport where
  operationId : String
  report : BenchmarkReport
  selection : Option NodeSelectionSnapshot
  fastSelection : NodeBenchmarkFastSelection
  timing : BenchmarkTerminalTiming

def NodeBenchmarkTerminalReport.validate (t : NodeBenchmarkTerminalReport) :
    Except ProtocolError Unit := do
  ensure (validBenchmarkOperationId t.operationId) .invalidEnvelope
  t.report.validate
  ensure (!t.fastSelection.isPending) .invalidEnvelope
  t.fastSelection.validate
  t.timing.validate t.report
  match t.selection with
  | some selection => validateWebuiValue selection.toValue 0
  | none => .ok ()

/-! ## What the checks accept -/

theorem durationUs_le (d : Nat) : 1000 * durationUs d ≤ d := by
  have : durationUs d ≤ d / 1000 := Nat.min_le_left _ _
  omega

theorem durationUs_mono {d e : Nat} (h : d ≤ e) : durationUs d ≤ durationUs e := by
  simp only [durationUs]
  omega

variable {values : List Nat}

theorem foldlM_checkedAdd {start : Nat} (h : start + values.sum ≤ u64Max) :
    values.foldlM checkedAdd start = some (start + values.sum) := by
  induction values generalizing start with
  | nil => rfl
  | cons v values ih =>
    rw [sum_cons] at h
    have hstep : checkedAdd start v = some (start + v) := if_pos (by omega)
    rw [foldlM_cons, hstep]
    change values.foldlM checkedAdd (start + v) = _
    rw [ih (by omega), sum_cons, Nat.add_assoc]

theorem eq_of_foldlM_checkedAdd {start total : Nat}
    (h : values.foldlM checkedAdd start = some total) : total = start + values.sum := by
  induction values generalizing start with
  | nil =>
    cases h
    rfl
  | cons v values ih =>
    rw [foldlM_cons] at h
    by_cases hfits : start + v ≤ u64Max
    · have hstep : checkedAdd start v = some (start + v) := if_pos hfits
      rw [hstep] at h
      rw [ih h, sum_cons, Nat.add_assoc]
    · have hstep : checkedAdd start v = none := if_neg hfits
      rw [hstep] at h
      cases h

theorem checkedTimingSum_iff {bound : Nat} (hbound : bound ≤ u64Max) :
    (∃ total, checkedTimingSum values = some total ∧ total ≤ bound) ↔ values.sum ≤ bound := by
  constructor
  · rintro ⟨total, hsum, hle⟩
    rw [eq_of_foldlM_checkedAdd hsum] at hle
    omega
  · intro h
    refine ⟨values.sum, ?_, h⟩
    have hsum : checkedTimingSum values = some (0 + values.sum) := foldlM_checkedAdd (by omega)
    rwa [Nat.zero_add] at hsum

theorem maxNodeBenchmarkTimingUs_le_u64Max : maxNodeBenchmarkTimingUs ≤ u64Max := by decide

/-- A control timing is valid when its stages fit into its total and the total
is within the limit: no stage can then exceed it. -/
theorem BenchmarkControlTiming.validate_iff {t : BenchmarkControlTiming} : t.validate = .ok () ↔
      t.stages.sum ≤ t.totalUs ∧ t.totalUs ≤ maxNodeBenchmarkTimingUs := by
  simp only [validate, bind_eq_ok, okOr_eq_ok, ensure_eq_ok, Bool.and_eq_true,
    decide_eq_true_eq, all_eq_true, mem_append, mem_singleton]
  constructor
  · rintro ⟨accounted, hsum, hall, hle⟩
    have htotal := hall t.totalUs (.inr rfl)
    refine ⟨?_, htotal⟩
    exact (checkedTimingSum_iff (htotal.trans maxNodeBenchmarkTimingUs_le_u64Max)).mp
      ⟨accounted, hsum, hle⟩
  · rintro ⟨hstages, htotal⟩
    obtain ⟨accounted, hsum, hle⟩ :=
      (checkedTimingSum_iff (htotal.trans maxNodeBenchmarkTimingUs_le_u64Max)).mpr hstages
    refine ⟨accounted, hsum, ?_, hle⟩
    rintro value (hstage | rfl)
    · exact (le_sum_of_mem hstage).trans (hstages.trans htotal)
    · exact htotal

/-- Likewise the whole operation: its disjoint parts fit into its total. -/
theorem BenchmarkTerminalTiming.validate_iff {t : BenchmarkTerminalTiming}
    {report : BenchmarkReport} : t.validate report = .ok () ↔
      t.fastControl.validate = .ok () ∧ t.terminalControl.validate = .ok () ∧
        t.admissionUs + report.timing.totalUs + t.workerReapUs + t.terminalControl.totalUs ≤
          t.operationTotalUs ∧ t.fastControl.totalUs ≤ t.operationTotalUs ∧
        t.operationTotalUs ≤ maxNodeBenchmarkTimingUs := by
  simp only [validate, bind_eq_ok, okOr_eq_ok, ensure_eq_ok, Bool.and_eq_true,
    decide_eq_true_eq, Unique.exists_iff, PUnit.default_eq_unit]
  constructor
  · rintro ⟨hfast, hterminal, accounted, hsum, ⟨⟨-, hoperation⟩, hfastTotal⟩, hle⟩
    have hparts := (checkedTimingSum_iff
      (hoperation.trans maxNodeBenchmarkTimingUs_le_u64Max)).mp ⟨accounted, hsum, hle⟩
    simp only [sum_cons, sum_nil] at hparts
    exact ⟨hfast, hterminal, by omega, hfastTotal, hoperation⟩
  · rintro ⟨hfast, hterminal, hparts, hfastTotal, hoperation⟩
    obtain ⟨accounted, hsum, hle⟩ := (checkedTimingSum_iff
      (hoperation.trans maxNodeBenchmarkTimingUs_le_u64Max)).mpr
      (show [t.admissionUs, report.timing.totalUs, t.workerReapUs,
        t.terminalControl.totalUs].sum ≤ t.operationTotalUs by
          simp only [sum_cons, sum_nil]
          omega)
    exact ⟨hfast, hterminal, accounted, hsum, ⟨⟨⟨by omega, by omega⟩, hoperation⟩, hfastTotal⟩, hle⟩

theorem utf8ByteSize_of_validStableNodeId {value : String} (h : validStableNodeId value = true) :
    value.utf8ByteSize = 21 := by
  simp only [validStableNodeId, Bool.and_eq_true, beq_iff_eq] at h
  exact h.1.1

theorem validateWebuiValue_string {text : String} {depth : Nat} (hdepth : depth ≤ 32)
    (htext : text.utf8ByteSize ≤ maxWebuiStringBytes) :
    validateWebuiValue (.string text) depth = .ok () := by
  simp [validateWebuiValue, hdepth, htext]

theorem validateWebuiValue_object {fields : List (String × Value)} {depth : Nat}
    (hdepth : depth ≤ 32) (hlength : fields.length ≤ 2048)
    (hfields : ∀ f ∈ fields, validateWebuiValue f.2 (depth + 1) = .ok ()) :
    validateWebuiValue (.object fields) depth = .ok () := by
  simp only [validateWebuiValue, bind_eq_ok, ensure_eq_ok, decide_eq_true_eq]
  refine ⟨(), hdepth, (), hlength, forM_eq_ok.mpr fun f _ => hfields f.1 f.2⟩

/-- A selection snapshot is a small value: its texts are node identifiers and
fixed words. -/
theorem NodeSelectionSnapshot.validateWebuiValue_toValue (s : NodeSelectionSnapshot) :
    validateWebuiValue s.toValue 0 = .ok () := by
  have hword : ∀ word ∈ ["auto", "manual", "node", "direct", "block", "unresolved"],
      validateWebuiValue (.string word) 2 = .ok () := by
    intro word hword
    refine validateWebuiValue_string (by decide) ?_
    revert word
    decide
  have hnode : ∀ id : StableNodeId, validateWebuiValue (.string id.value) 2 = .ok () := by
    intro id
    refine validateWebuiValue_string (by decide) ?_
    rw [utf8ByteSize_of_validStableNodeId id.valid]
    decide
  have hintent : validateWebuiValue s.intent.toValue 1 = .ok () := by
    cases s.intent with
    | auto => exact validateWebuiValue_object (by decide) (by simp) (by simp [hword])
    | manual id =>
      exact validateWebuiValue_object (by decide) (by simp) (by simp [hword, hnode])
  have hterminal : validateWebuiValue s.activeTerminal.toValue 1 = .ok () := by
    cases s.activeTerminal with
    | node id =>
      exact validateWebuiValue_object (by decide) (by simp) (by simp [hword, hnode])
    | direct | block => exact validateWebuiValue_object (by decide) (by simp) (by simp [hword])
    | unresolved reason =>
      have hreason : validateWebuiValue (.string reason.wire) 2 = .ok () :=
        validateWebuiValue_string (by decide) (by cases reason <;> decide)
      exact validateWebuiValue_object (by decide) (by simp) (by simp [hword, hreason])
  refine validateWebuiValue_object (by decide) (by simp) ?_
  simp [hintent, hterminal, validateWebuiValue]

/-- A decided fast selection is valid when its counts are those of a benchmark
and it was decided in time. -/
theorem NodeBenchmarkFastSelection.validate_iff {f : NodeBenchmarkFastSelection} :
    f.validate = .ok () ↔ ∀ m ∈ f.metrics,
      (0 < m.candidateCount ∧ m.candidateCount ≤ maxNodeBenchmarkCandidates ∧
        m.completed ≤ m.candidateCount) ∧ m.elapsedUs ≤ f.elapsedLimitMs * 1000 := by
  cases f <;>
    simp [validate, metrics, NodeSelectionSnapshot.validateWebuiValue_toValue,
      Nat.ne_zero_iff_zero_lt, and_assoc]

theorem NodeBenchmarkSelection.validate_iff {s : NodeBenchmarkSelection} : s.validate = .ok () ↔
      validBenchmarkOperationId s.operationId = true ∧ s.generation ≠ 0 ∧
        s.fastSelection.isPending = false ∧ s.fastSelection.validate = .ok () := by
  simp [validate, and_assoc]

theorem NodeBenchmarkTerminalReport.validate_iff {t : NodeBenchmarkTerminalReport} :
    t.validate = .ok () ↔
      validBenchmarkOperationId t.operationId = true ∧ t.report.validate = .ok () ∧
        t.fastSelection.isPending = false ∧ t.fastSelection.validate = .ok () ∧
        t.timing.validate t.report = .ok () := by
  cases hselection : t.selection with
  | none => simp [validate, hselection, Unique.exists_iff]
  | some selection =>
    simp [validate, hselection, NodeSelectionSnapshot.validateWebuiValue_toValue, Unique.exists_iff]

theorem BenchmarkEngineTiming.validate_aggregate {elapsedMs : Nat}
    (h : elapsedMs ≤ nodeBenchmarkDeadlineMs) :
    (aggregate 0 elapsedMs).validate 0 elapsedMs = .ok () := by
  simp only [nodeBenchmarkDeadlineMs] at h
  have hstages : (aggregate 0 elapsedMs).stages.sum = elapsedMs * 1000 := by
    simp [aggregate, stages]
  have hsum : checkedTimingSum (aggregate 0 elapsedMs).stages =
      some (0 + (aggregate 0 elapsedMs).stages.sum) := by
    refine foldlM_checkedAdd ?_
    rw [u64Max]
    omega
  simp only [validate, bind_eq_ok, okOr_eq_ok, ensure_eq_ok]
  refine ⟨_, hsum, 0, rfl, ?_⟩
  have hlimit : elapsedMs * 1000 ≤ maxNodeBenchmarkTimingUs := by
    rw [maxNodeBenchmarkTimingUs]
    omega
  simp [aggregate, stages, hlimit]

theorem BenchmarkProbeSummary.validate_empty (timing : BenchmarkEngineTiming) :
    empty.validate 0 0 timing = .ok () := by
  simp [validate, empty, completed, counts, results, notAfter, checkedAdd]

theorem BenchmarkReport.validate_internalError (trigger : BenchmarkTrigger) {generation : Nat}
    (hgeneration : generation ≠ 0) (elapsedMs : Nat) :
    (internalError trigger generation elapsedMs).validate = .ok () := by
  have hle : min elapsedMs nodeBenchmarkDeadlineMs ≤ nodeBenchmarkDeadlineMs := Nat.min_le_right _ _
  have htiming := BenchmarkEngineTiming.validate_aggregate hle
  have hprobe := BenchmarkProbeSummary.validate_empty
    (.aggregate 0 (min elapsedMs nodeBenchmarkDeadlineMs))
  simp [validate, internalError, hgeneration, htiming, hprobe]

theorem BenchmarkReport.totalUs_internalError (trigger : BenchmarkTrigger)
    (generation spent : Nat) :
    1000 * (internalError trigger generation (durationMs spent)).timing.totalUs ≤ spent := by
  have hms : durationMs spent ≤ spent / 1000000 := Nat.min_le_left _ _
  change 1000 * (min (durationMs spent) nodeBenchmarkDeadlineMs * 1000) ≤ spent
  omega

end NetHop.Benchmark
