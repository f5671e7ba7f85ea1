import NetHop.Benchmark.Protocol
import NetHop.Stopwatch

/-!
# Operational control

The calls a benchmark makes on the control plane: loading the selection context,
applying the fast selection and completing the benchmark.  Each call measures its
stages and its total.  `ControlAnswers` is what the selection store, the node
registry and the core answer to one call.
-/

namespace NetHop.Benchmark

open FaultIo Stopwatch Economical

inductive ControlStage where
  | intentLoad
  | currentSnapshot
  | decision
  | targetResolve
  | selectorApply
  | finalSnapshot

namespace BenchmarkControlTiming

variable (t : BenchmarkControlTiming)

def get : ControlStage → Nat
  | .intentLoad => t.intentLoadUs
  | .currentSnapshot => t.currentSnapshotUs
  | .decision => t.decisionUs
  | .targetResolve => t.targetResolveUs
  | .selectorApply => t.selectorApplyUs
  | .finalSnapshot => t.finalSnapshotUs

def set (us : Nat) : ControlStage → BenchmarkControlTiming
  | .intentLoad => { t with intentLoadUs := us }
  | .currentSnapshot => { t with currentSnapshotUs := us }
  | .decision => { t with decisionUs := us }
  | .targetResolve => { t with targetResolveUs := us }
  | .selectorApply => { t with selectorApplyUs := us }
  | .finalSnapshot => { t with finalSnapshotUs := us }

variable (stage : ControlStage)

/-- `*slot = duration_us(..)`. -/
def record (spent : Nat) (t : BenchmarkControlTiming) :
    BenchmarkControlTiming := t.set (durationUs spent) stage

/-- `*slot = slot.saturating_add(duration_us(..))`. -/
def accumulate (spent : Nat) (t : BenchmarkControlTiming) :
    BenchmarkControlTiming := t.set (saturatingAdd (t.get stage) (durationUs spent)) stage

theorem sum_stages_set (us : Nat) (stage : ControlStage) :
    (t.set us stage).stages.sum + t.get stage = t.stages.sum + us := by
  cases stage <;> simp only [set, get, stages, List.sum_cons, List.sum_nil] <;> omega

@[simp] theorem totalUs_set (us : Nat) (stage : ControlStage) :
    (t.set us stage).totalUs = t.totalUs := by
  cases stage <;> rfl

theorem sum_stages_record (spent : Nat) (t : BenchmarkControlTiming) :
    1000 * (t.record stage spent).stages.sum ≤ 1000 * t.stages.sum + spent := by
  have hset := t.sum_stages_set (durationUs spent) stage
  have := durationUs_le spent
  rw [record]
  omega

theorem sum_stages_accumulate (spent : Nat) (t : BenchmarkControlTiming) :
    1000 * (t.accumulate stage spent).stages.sum ≤ 1000 * t.stages.sum + spent := by
  have hset := t.sum_stages_set (saturatingAdd (t.get stage) (durationUs spent)) stage
  have hsaturating : saturatingAdd (t.get stage) (durationUs spent) ≤
      t.get stage + durationUs spent := Nat.min_le_left _ _
  have := durationUs_le spent
  rw [accumulate]
  omega

end BenchmarkControlTiming

/-! ## Choosing a node -/

inductive AutoSelectionDecision where
  | keep
  | switch (nodeId : String)
  deriving DecidableEq

variable (report : BenchmarkReport) (orderedNodeIds : List String)

def delayOf (outcomes : List NodeProbeOutcome) (nodeId : String) : Option Nat :=
  (outcomes.find? fun o => o.nodeId == nodeId && o.succeeded).bind (·.latencyMs)

def better (delay : String → Option Nat) (toleranceMs : Nat) (selected : Option (String × Nat))
    (nodeId : String) : Option (String × Nat) :=
  match delay nodeId, selected with
  | none, _ => selected
  | some candidateDelay, none => some (nodeId, candidateDelay)
  | some candidateDelay, some (_, selectedDelay) =>
    if min (candidateDelay + toleranceMs) (2 ^ 32 - 1) < selectedDelay then
      some (nodeId, candidateDelay)
    else
      selected

def chooseAutoTarget (outcomes : List NodeProbeOutcome)
    (currentNodeId : Option String) (toleranceMs : Nat) : AutoSelectionDecision :=
  let current := currentNodeId.bind fun nodeId => (delayOf outcomes nodeId).map (nodeId, ·)
  match orderedNodeIds.foldl (better (delayOf outcomes) toleranceMs) current with
  | some (nodeId, _) => if some nodeId = currentNodeId then .keep else .switch nodeId
  | none => .keep

/-! ## Control calls -/

/-- Errors of a control call; those of the store, the registry and the core are
one case here, no caller tells them apart. -/
inductive OperationalControlError where
  | benchmarkDeadline
  | unavailable

structure ControlAnswers where
  /-- `selection_store.load()` -/
  intent : Except OperationalControlError NodeSelectionIntent
  /-- The selection of `node_snapshot()`. -/
  current : Except OperationalControlError NodeSelectionSnapshot
  /-- The internal tag of a node in the current registry. -/
  target : String → Except OperationalControlError String
  /-- `select_node_before` -/
  select : String → Except OperationalControlError Unit
  selection : Except OperationalControlError NodeSelectionSnapshot

variable (input : FastSelectionInput) (toleranceMs deadline : Nat) (mutationCommitted : Bool)
  (a : ControlAnswers)

structure ControlAnswers.Switches : Prop where
  intent : a.intent = .ok .auto
  select : ∃ nodeId tag, a.target nodeId = .ok tag ∧ a.select tag = .ok ()
  selection : ∃ selection, a.selection = .ok selection

inductive FastSelectionContext where
  | auto (currentNodeId : Option String)
  | manual

inductive FastSelectionApply where
  | switched (selection : NodeSelectionSnapshot)
  | kept
  | notApplicable

structure FastSelectionInput where
  outcomes : List NodeProbeOutcome
  orderedNodeIds : List String
  currentNodeId : Option String
  toleranceMs : Nat
  deadline : Nat

structure FastControl where
  mutationCommitted : Bool
  timing : BenchmarkControlTiming

open FastControl

namespace FastControl

def accumulate (stage : ControlStage) (spent : Nat) (f : FastControl) : FastControl :=
  { f with timing := f.timing.accumulate stage spent }

def accumulateTotal (spent : Nat) (f : FastControl) : FastControl :=
  { f with timing :=
    { f.timing with totalUs := saturatingAdd f.timing.totalUs (durationUs spent) } }

def commit (f : FastControl) : FastControl := { f with mutationCommitted := true }

end FastControl

abbrev Control (τ α : Type) : Type := Io (Timed τ) OperationalControlError α

def measureResultAccumulated {α : Type} (stage : ControlStage) (m : Control FastControl α) :
    Control FastControl α := measure (accumulate stage) m

def measureResult {α : Type} (stage : ControlStage) (m : Control BenchmarkControlTiming α) :
    Control BenchmarkControlTiming α := measure (BenchmarkControlTiming.record stage) m

def loadFastContext : Control FastControl FastSelectionContext := do
  let intent ← measureResultAccumulated .intentLoad (.ofExcept a.intent)
  if intent = .auto then
    let snapshot ← measureResultAccumulated .currentSnapshot (.ofExcept a.current)
    pure (.auto snapshot.activeNodeId)
  else
    pure .manual

def fastSelectionContext : Control FastControl FastSelectionContext :=
  measure accumulateTotal (loadFastContext a)

/-- The part of `apply_fast_selection` that moves the selector. -/
def switchFast (nodeId : String) : Control FastControl FastSelectionApply := do
  let tag ← measureResultAccumulated .targetResolve (.ofExcept (a.target nodeId))
  measureResultAccumulated .selectorApply (.ofExcept (a.select tag))
  update commit
  let checked ← now
  if input.deadline ≤ checked then
    Io.throw .benchmarkDeadline
  else
    let selection ← measureResultAccumulated .finalSnapshot (.ofExcept a.selection)
    pure (.switched selection)

/-- The measured body of `apply_fast_selection`. -/
def decideFast : Control FastControl FastSelectionApply := do
  let intent ← measureResultAccumulated .intentLoad (.ofExcept a.intent)
  if intent = .auto then
    let decision ← measureResultAccumulated .decision
      (pure (chooseAutoTarget input.orderedNodeIds input.outcomes input.currentNodeId
        input.toleranceMs))
    match decision with
    | .keep => pure .kept
    | .switch nodeId => switchFast input a nodeId
  else
    pure .notApplicable

def applyFastSelection : Control FastControl FastSelectionApply := do
  let checked ← now
  if input.deadline ≤ checked then
    Io.throw .benchmarkDeadline
  else
    measure accumulateTotal (decideFast input a)

/-- What `complete_benchmark_inner` does with an automatic selection that the
benchmark has not moved yet. -/
def selectBest : Control BenchmarkControlTiming Unit := do
  let current ← measureResult .currentSnapshot
    (pure (a.current.toOption.bind (·.activeNodeId)))
  let decision ← measureResult .decision
    (pure (chooseAutoTarget orderedNodeIds report.nodes current toleranceMs))
  match decision with
  | .keep => pure ()
  | .switch nodeId =>
    let tag ← measureResult .targetResolve (.ofExcept (a.target nodeId))
    measureResult .selectorApply (.ofExcept (a.select tag))

/-- The end of `complete_benchmark_inner`. -/
def takeFinalSnapshot : Control BenchmarkControlTiming NodeSelectionSnapshot := do
  let checked ← now
  if deadline ≤ checked then
    Io.throw .benchmarkDeadline
  else
    measureResult .finalSnapshot (.ofExcept a.selection)

def completeBenchmarkInner : Control BenchmarkControlTiming NodeSelectionSnapshot := do
  let checked ← now
  if deadline ≤ checked then
    Io.throw .benchmarkDeadline
  else
    let intent ← measureResult .intentLoad (.ofExcept a.intent)
    if intent = .auto ∧ mutationCommitted = false then
      selectBest report orderedNodeIds toleranceMs a
      takeFinalSnapshot deadline a
    else
      takeFinalSnapshot deadline a

def completeBenchmarkWithCommitTimed : Control BenchmarkControlTiming NodeSelectionSnapshot := do
  update fun _ => .zero
  measure (fun spent t => { t with totalUs := durationUs spent })
    (completeBenchmarkInner report orderedNodeIds toleranceMs deadline mutationCommitted a)

/-! ## What the calls charge -/

section

variable {α : Type} {a : ControlAnswers}

/-- The stages of a fast selection charge no more than the time they take. -/
def FastEconomical (m : Control FastControl α) : Prop :=
  Economical 1000 (fun f : FastControl => f.timing.stages.sum)
    (fun f : FastControl => f.timing.totalUs) m

/-- The stages of a terminal control call charge no more than the time they take. -/
def TerminalEconomical (m : Control BenchmarkControlTiming α) : Prop :=
  Economical 1000 (fun t : BenchmarkControlTiming => t.stages.sum)
    (fun t : BenchmarkControlTiming => t.totalUs) m

variable (stage : ControlStage) (r : Except OperationalControlError α)

theorem FastEconomical.answered : FastEconomical (measureResultAccumulated stage (.ofExcept r)) :=
  .measure (.ofExcept r) (fun spent f => f.timing.sum_stages_accumulate stage spent)
    fun _ f => f.timing.totalUs_set _ stage

theorem FastEconomical.computed (value : α) :
    FastEconomical (measureResultAccumulated stage (pure value)) := answered stage (.ok value)

theorem TerminalEconomical.answered : TerminalEconomical (measureResult stage (.ofExcept r)) :=
  .measure (.ofExcept r) (fun spent t => t.sum_stages_record stage spent)
    fun _ t => t.totalUs_set _ stage

theorem TerminalEconomical.computed (value : α) :
    TerminalEconomical (measureResult stage (pure value)) := answered stage (.ok value)

theorem fastEconomical_loadFastContext : FastEconomical (loadFastContext a) := by
  refine bind (FastEconomical.answered _ _) fun intent => ?_
  refine .branch (fun _ => ?_) fun _ => .ret _
  exact bind (FastEconomical.answered _ _) fun _ => .ret _

theorem fastEconomical_switchFast (nodeId : String) :
    FastEconomical (switchFast input a nodeId) := by
  refine bind (FastEconomical.answered _ _) fun tag => ?_
  refine bind (FastEconomical.answered _ _) fun _ => ?_
  refine .bind (.updating (fun _ => rfl) fun _ => rfl) fun _ => ?_
  refine .bind .reading fun checked => ?_
  refine .branch (fun _ => .fail _) fun _ => ?_
  exact bind (FastEconomical.answered _ _) fun _ => .ret _

theorem fastEconomical_decideFast : FastEconomical (decideFast input a) := by
  refine bind (FastEconomical.answered _ _) fun intent => ?_
  refine .branch (fun _ => ?_) fun _ => .ret _
  refine bind (FastEconomical.computed _ _) fun decision => ?_
  cases decision with
  | keep => exact .ret _
  | switch nodeId => exact fastEconomical_switchFast input nodeId

theorem terminalEconomical_selectBest :
    TerminalEconomical (selectBest report orderedNodeIds toleranceMs a) := by
  refine bind (TerminalEconomical.computed _ _) fun current => ?_
  refine bind (TerminalEconomical.computed _ _) fun decision => ?_
  cases decision with
  | keep => exact .ret _
  | switch nodeId =>
    exact bind (TerminalEconomical.answered _ _) fun tag =>
      TerminalEconomical.answered _ _

theorem terminalEconomical_takeFinalSnapshot :
    TerminalEconomical (takeFinalSnapshot deadline a) := by
  refine .bind .reading fun checked => ?_
  refine .branch (fun _ => .fail _) fun _ => ?_
  exact TerminalEconomical.answered _ _

theorem terminalEconomical_completeBenchmarkInner :
    TerminalEconomical (completeBenchmarkInner report orderedNodeIds toleranceMs deadline
      mutationCommitted a) := by
  refine .bind .reading fun checked => ?_
  refine .branch (fun _ => .fail _) fun _ => ?_
  refine bind (TerminalEconomical.answered _ _) fun intent => ?_
  refine .branch (fun _ => ?_) fun _ => terminalEconomical_takeFinalSnapshot deadline
  exact .bind (terminalEconomical_selectBest _ _ _) fun _ =>
    terminalEconomical_takeFinalSnapshot deadline

variable (t : BenchmarkControlTiming)

/-- A timing whose stages fit into its total.  A total that reached the end of
its range says nothing. -/
def BenchmarkControlTiming.Balanced : Prop :=
  t.stages.sum ≤ t.totalUs ∨ u64Max ≤ t.totalUs

/-- A fast control call: its total grows by no more than the time it takes, and
its stages stay within the total. -/
structure FastCharged (s s' : Timed FastControl) : Prop where
  later : s.clock.Later s'.clock
  charged : 1000 * s'.record.timing.totalUs + s.clock.time ≤
    1000 * s.record.timing.totalUs + s'.clock.time
  balanced : s.record.timing.Balanced → s'.record.timing.Balanced

theorem FastCharged.trans {s s' s'' : Timed FastControl} (h : FastCharged s s')
    (h' : FastCharged s' s'') : FastCharged s s'' := by
  refine ⟨h.later.trans h'.later, ?_, h'.balanced ∘ h.balanced⟩
  have := h.charged
  have := h'.charged
  omega

theorem FastEconomical.fastCharged_measure {m : Control FastControl α} (hm : FastEconomical m)
    (s : Timed FastControl) : FastCharged s (measure accumulateTotal m s).2 := by
  obtain ⟨spent, r, hrecord, htotal, hstages, hlater, htime⟩ := measured hm accumulateTotal s
  have hspent := durationUs_le spent
  refine ⟨hlater, ?_, ?_⟩
  · rw [hrecord]
    have hsaturating : saturatingAdd r.timing.totalUs (durationUs spent) ≤
        r.timing.totalUs + durationUs spent := Nat.min_le_left _ _
    change 1000 * saturatingAdd r.timing.totalUs (durationUs spent) + _ ≤ _
    omega
  · intro hbalanced
    rw [hrecord]
    change r.timing.stages.sum ≤ saturatingAdd r.timing.totalUs (durationUs spent) ∨
      u64Max ≤ saturatingAdd r.timing.totalUs (durationUs spent)
    simp only [BenchmarkControlTiming.Balanced, saturatingAdd, durationUs] at hbalanced ⊢
    omega

theorem fastCharged_fastSelectionContext (s : Timed FastControl) :
    FastCharged s (fastSelectionContext a s).2 :=
  fastEconomical_loadFastContext.fastCharged_measure s

theorem fastCharged_applyFastSelection (s : Timed FastControl) :
    FastCharged s (applyFastSelection input a s).2 := by
  have hreading : FastCharged s s.tick := by
    have htick := s.clock.later_tick
    exact ⟨htick, Nat.add_le_add_left htick.time_le _, id⟩
  change FastCharged s ((if input.deadline ≤ s.tick.clock.time then
    Io.throw .benchmarkDeadline else measure accumulateTotal (decideFast input a) :
      Control FastControl FastSelectionApply) s.tick).2
  by_cases hlate : input.deadline ≤ s.tick.clock.time
  · rw [if_pos hlate]
    exact hreading
  · rw [if_neg hlate]
    exact hreading.trans ((fastEconomical_decideFast input).fastCharged_measure s.tick)

/-- A terminal control call: its total is no more than the time it takes, and
its stages are within the total. -/
theorem charged_completeBenchmarkWithCommitTimed (s : Timed BenchmarkControlTiming)
    {s' : Timed BenchmarkControlTiming}
    (h : (completeBenchmarkWithCommitTimed report orderedNodeIds toleranceMs deadline
      mutationCommitted a s).2 = s') :
    s.clock.Later s'.clock ∧ 1000 * s'.record.totalUs + s.clock.time ≤ s'.clock.time ∧
      s'.record.Balanced := by
  have hinner := terminalEconomical_completeBenchmarkInner (a := a) report orderedNodeIds
    toleranceMs deadline mutationCommitted
  obtain ⟨spent, r, hrecord, -, hstages, hlater, htime⟩ := measured hinner
    (fun spent t => { t with totalUs := durationUs spent }) { s with record := .zero }
  change (measure (fun spent t => { t with totalUs := durationUs spent })
    (completeBenchmarkInner report orderedNodeIds toleranceMs deadline mutationCommitted a)
    { s with record := .zero }).2 = s' at h
  rw [h] at hrecord hlater htime
  refine ⟨hlater, ?_, ?_⟩
  · have hspent := durationUs_le spent
    rw [hrecord]
    change 1000 * durationUs spent + _ ≤ _
    change s.clock.time + spent ≤ _ at htime
    omega
  · have hzero : BenchmarkControlTiming.zero.stages.sum = 0 := rfl
    simp only [hzero] at hstages
    rw [hrecord]
    change r.stages.sum ≤ durationUs spent ∨ u64Max ≤ durationUs spent
    simp only [durationUs]
    omega

/-! ## How the calls end -/

theorem yields_answered : Io.Yields (r = .ok ·) (measureResultAccumulated stage (.ofExcept r)) :=
  yields_measure (.ofExcept r)

theorem yields_answeredOnce :
    Io.Yields (r = .ok ·) (measureResult stage (.ofExcept r)) := yields_measure (.ofExcept r)

theorem yields_fastSelectionContext : Io.Yields (fun _ => True) (fastSelectionContext a) := by
  refine yields_measure (.bind (yields_answered _ _) fun intent _ => ?_)
  refine .branch (fun _ => ?_) fun _ => .ret trivial
  exact .bind (yields_answered _ _) fun _ _ => .ret trivial

theorem yields_switchFast (nodeId : String) (hauto : a.intent = .ok .auto) :
    Io.Yields (fun _ => a.Switches) (switchFast input a nodeId) := by
  refine .bind (yields_answered _ _) fun tag htag => ?_
  refine .bind (yields_answered _ _) fun _ hselect => ?_
  refine .bind (.modify _) fun _ _ => ?_
  refine .bind yields_now fun checked _ => ?_
  refine .branch (fun _ => .fail _) fun _ => ?_
  refine .bind (yields_answered _ _) fun selection hselection => .ret ?_
  exact ⟨hauto, ⟨nodeId, tag, htag, hselect⟩, ⟨selection, hselection⟩⟩

theorem yields_decideFast : Io.Yields (fun r => ∀ selection, r = .switched selection → a.Switches)
      (decideFast input a) := by
  refine .bind (yields_answered _ _) fun intent hintent => ?_
  refine .branch (fun hauto => ?_) fun _ => .ret fun _ h => nomatch h
  refine .bind (yields_answered _ (.ok _)) fun decision _ => ?_
  cases decision with
  | keep => exact .ret fun _ h => nomatch h
  | switch nodeId =>
    rw [hauto] at hintent
    exact (yields_switchFast input nodeId hintent).mono fun _ h _ _ => h

theorem yields_applyFastSelection :
    Io.Yields (fun r => ∀ selection, r = .switched selection → a.Switches)
      (applyFastSelection input a) := by
  refine .bind yields_now fun checked _ => ?_
  refine .branch (fun _ => .fail _) fun _ => ?_
  exact yields_measure (yields_decideFast input)

theorem lt_deadline_of_applyFastSelection {input : FastSelectionInput} {s s' : Timed FastControl}
    {r : FastSelectionApply} (h : applyFastSelection input a s = (.done r, s')) :
    s.clock.time < input.deadline := by
  obtain ⟨checked, s₁, hnow, hrest⟩ := Io.bind_eq_done.mp h
  cases hnow
  by_cases hlate : input.deadline ≤ s.tick.clock.time
  · rw [if_pos hlate] at hrest
    cases hrest
  · have := s.clock.later_tick.time_le
    change ¬ input.deadline ≤ s.clock.tick.time at hlate
    omega

theorem yields_takeFinalSnapshot : Io.Yields (fun _ => True) (takeFinalSnapshot deadline a) := by
  refine .bind yields_now fun checked _ => ?_
  refine .branch (fun _ => .fail _) fun _ => ?_
  exact (yields_answeredOnce _ _).mono fun _ _ => trivial

theorem yields_selectBest :
    Io.Yields (fun _ => True) (selectBest report orderedNodeIds toleranceMs a) := by
  refine .bind (yields_answeredOnce _ (.ok _)) fun current _ => ?_
  refine .bind (yields_answeredOnce _ (.ok _)) fun decision _ => ?_
  cases decision with
  | keep => exact .ret trivial
  | switch nodeId =>
    exact .bind (yields_answeredOnce _ _) fun tag _ =>
      (yields_answeredOnce _ _).mono fun _ _ => trivial

theorem yields_completeBenchmarkWithCommitTimed :
    Io.Yields (fun _ => True) (completeBenchmarkWithCommitTimed report orderedNodeIds toleranceMs
      deadline mutationCommitted a) := by
  refine .bind (.modify _) fun _ _ => yields_measure ?_
  refine .bind yields_now fun checked _ => ?_
  refine .branch (fun _ => .fail _) fun _ => ?_
  refine .bind (yields_answeredOnce _ _) fun intent _ => ?_
  refine .branch (fun _ => ?_) fun _ => yields_takeFinalSnapshot deadline
  exact .bind (yields_selectBest _ _ _) fun _ _ => yields_takeFinalSnapshot deadline

end

end NetHop.Benchmark
