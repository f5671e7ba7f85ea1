import NetHop.Worker.Update

/-!
# An update and the service it interrupts

A worker that is not running a core is still in service as long as something
will start one: a restart deadline, a start that is pending or queued, or a
circuit the restart budget opened.  `updateInner_served_iff` says for which
answers an update that returns keeps a running worker in service.
-/

namespace NetHop.Worker

open FaultIo Generation

variable {Policy : Type} {a : Answers} {p : Prepared} {now : Nat}
  {accounting : GenerationBuildAccounting} {w w' : WorkerApplication Policy}

/-- A core runs, something will start one, or there is no generation to start. -/
inductive WorkerApplication.Served (w : WorkerApplication Policy) : Prop
  | running (h : w.active.isSome = true)
  | deadline (h : w.restartAt.isSome = true)
  | startPending (h : w.startPending = true)
  | startQueued (h : ControlCommand.start ∈ w.pending)
  | circuitOpen (h : w.snapshot.state = .circuitOpen)
  | noGeneration (h : w.files.current = none)

/-- The restart of a worker that nothing else will start again: the configuration on
disk was seen to have changed and the new core was dropped, or `start` was asked for
the current generation and answered that there is none. -/
structure Abandons (a : Answers) (w : WorkerApplication Policy) (p : Prepared) : Prop where
  applies : Applies a w p
  restarts : ¬ (p.exposesSealed = true ∧ Reloads a w)
  down : a.BringsUp p.config ∧ a.DropsCore ∨ a.recover = none ∧ ¬ a.Installs p.config
  notQueued : ControlCommand.start ∉ w.pending
  generation : ¬ a.Switches p.config → w.files.current ≠ none

theorem Started.served (h : Started w) : w.Served := by
  cases h with
  | up r c hactive => exact .running (by rw [hactive]; rfl)
  | down _ hreason =>
    rcases hreason with h | h | h
    · exact .deadline h
    · exact .circuitOpen h
    · exact .noGeneration h

theorem Answers.Installs.not_drops (h : a.Installs p.config) : ¬ a.DropsCore := by
  obtain ⟨-, hrecovered, -, hcommitted⟩ := h
  rintro (hno | ⟨-, hno⟩)
  · cases hno.symm.trans hrecovered
  · cases hno.symm.trans hcommitted

theorem Idle.served_iff (h : Idle w w') :
    w'.Served ↔ ControlCommand.start ∈ w.pending ∨ w'.files.current = none := by
  constructor
  · intro hserved
    cases hserved with
    | running hactive => rw [h.active] at hactive; cases hactive
    | deadline hat => rw [h.restartAt] at hat; cases hat
    | startPending hpending => rw [h.startPending] at hpending; cases hpending
    | startQueued hqueued => exact .inl (h.pending ▸ hqueued)
    | circuitOpen hstate => rw [h.state] at hstate; cases hstate
    | noGeneration hnone => exact .inr hnone
  · rintro (hqueued | hnone)
    · exact .startQueued (h.pending.symm ▸ hqueued)
    · exact .noGeneration hnone

theorem RestartEnds.served_iff (happ : Applies a w p)
    (hrestarts : ¬ (p.exposesSealed = true ∧ Reloads a w))
    (h : RestartEnds a p (w.addSealed p) w' (.done ())) : w'.Served ↔ ¬ Abandons a w p := by
  cases h with
  | started hstarted hrecover hnot =>
    refine iff_of_true hstarted.served fun hab => ?_
    rcases hab.down with hboth | ⟨hno, -⟩
    · exact hnot hboth
    · exact hrecover hno
  | installed r hinstalls hactive =>
    refine iff_of_true (.running (by rw [hactive]; rfl)) fun hab => ?_
    rcases hab.down with ⟨-, hdrops⟩ | ⟨-, hno⟩
    · exact hinstalls.not_drops hdrops
    · exact hno hinstalls
  | down hidle hdown hcurrent =>
    rw [hidle.served_iff, hcurrent]
    constructor
    · rintro (hqueued | ⟨hno, hnone⟩) hab
      · exact hab.notQueued hqueued
      · exact hab.generation hno hnone
    · intro hnot
      by_contra hunserved
      rw [not_or] at hunserved
      exact hnot ⟨happ, hrestarts, hdown, hunserved.1, fun hno hnone => hunserved.2 ⟨hno, hnone⟩⟩

theorem UpdateEnds.served_iff (hrunning : w.active.isSome = true)
    (h : UpdateEnds a w w' (.done ())) : w'.Served ↔ ∀ p, ¬ Abandons a w p := by
  have hkept : w'.active.isSome = true → (∀ p, ¬ Abandons a w p) →
      (w'.Served ↔ ∀ p, ¬ Abandons a w p) := fun hactive hnot =>
    iff_of_true (.running hactive) hnot
  cases h with
  | quiet hquiet hnot =>
    exact hkept (by rw [hquiet.active]; exact hrunning) fun p hab => hnot p hab.applies
  | restarted p happ hnot hends =>
    rw [hends.served_iff happ hnot]
    refine ⟨fun hno q hab => ?_, fun hno => hno p⟩
    obtain rfl := happ.unique hab.applies
    exact hno hab
  | unstaged p happ hexp hrel _ v hrefused hactive =>
    refine hkept ?_ fun q hab => ?_
    · rw [hactive]
      cases hrefused.failed with
      | unchanged hw | torn old _ _ hw => rw [hw]; exact hrunning
    · obtain rfl := happ.unique hab.applies
      exact hab.restarts ⟨hexp, hrel⟩
  | reloaded p happ hexp hrel old _ _ _ r _ hends =>
    refine hkept ?_ fun q hab => ?_
    · cases hends with
      | undone _ hactive | committed _ _ hactive | refused _ _ _ hactive => rw [hactive]; rfl
    · obtain rfl := happ.unique hab.applies
      exact hab.restarts ⟨hexp, hrel⟩

/-- An update that returns keeps a running worker in service unless it drops the
core it has just brought up, or finds no generation to go back to. -/
theorem updateInner_served_iff [DecidableEq Policy] (hrunning : w.active.isSome = true)
    (hrun : updateInner a now accounting w = (.done (), w')) :
    w'.Served ↔ ∀ p, ¬ Abandons a w p :=
  (updateInner_ends hrun nofun).served_iff hrunning

/-! ## A configuration that is saved while the new core starts -/

def sampleLaunch : Launch := ⟨true, true, .none, true, .runningTproxy⟩

def sampleGeneration : GenerationId := .first

def sampleNext : Prepared := ⟨.second, [2], false⟩

def sampleAnswers : Answers where
  prepare := some sampleNext
  serviceEnabled := true
  isCurrent := true
  matchesBefore := true
  matchesStaged := true
  matchesRecovered := true
  matchesCommitted := true
  discard := .none
  commit := .none
  supportsReload := true
  sealedFound := true
  checks := true
  coreRunning := true
  sourceValid := true
  stageWrite := .none
  stageSignal := true
  restoreWrite := .none
  coreHealthy := true
  dataPlaneHealthy := true
  rollbackWrite := .none
  rollbackSignal := true
  rollbackCoreHealthy := true
  rollbackDataPlaneHealthy := true
  stopRuntime := true
  recoverGeneration := some sampleLaunch
  stopActive := true
  recover := some sampleLaunch

def sampleWorker : WorkerApplication Unit where
  runtime := some ⟨some ⟨sampleGeneration, .runningTproxy, (), none⟩, .runningTproxy⟩
  policy := ()
  restartBudget := ⟨60, []⟩
  restartAt := none
  startPending := false
  pending := []
  snapshot := ⟨.runningTproxy, some sampleGeneration, .never⟩
  dryRun := false
  files := ⟨some [1], Dir.empty.set sampleGeneration [1], some sampleGeneration⟩

/-- The worker after an update, whatever the update returned. -/
def sampleAfter (a : Answers) : WorkerApplication Unit :=
  (updateInner a 0 .subscriptionRefresh sampleWorker).2

theorem sampleAnswers_served : (sampleAfter sampleAnswers).Served := by
  have hrun : updateInner sampleAnswers 0 .subscriptionRefresh sampleWorker =
      (.done (), sampleAfter sampleAnswers) := rfl
  refine (updateInner_served_iff rfl hrun).mpr fun p hab => ?_
  rcases hab.down with ⟨-, h | ⟨-, h⟩⟩ | ⟨h, -⟩
  · cases h
  · cases h
  · cases h

/-- The configuration changes while the new core comes up: the update returns, the
core is stopped again, and nothing will start another one. -/
theorem sampleChanged_unserved :
    (updateInner { sampleAnswers with matchesRecovered := false } 0 .subscriptionRefresh
      sampleWorker).1 = .done () ∧
      ¬ (sampleAfter { sampleAnswers with matchesRecovered := false }).Served := by
  refine ⟨rfl, fun hserved => ?_⟩
  cases hserved with
  | running h
  | deadline h
  | startPending h
  | startQueued h
  | circuitOpen h
  | noGeneration h => cases h

end NetHop.Worker
