import NetHop.Supervisor.Process

/-!
# The worker supervisor

`WorkerSupervisor` with its restart policy: it starts a worker, watches it, restarts it
after a growing delay and opens a circuit after too many failures.  Durations are in
nanoseconds.
-/

namespace NetHop.Supervisor

open FaultIo Io

def durationMax : Nat := (2 ^ 64 - 1) * 1000000000 + 999999999

def saturatingAdd (a b : Nat) : Nat := min (a + b) durationMax

def seconds (n : Nat) : Nat := n * 1000000000

def maxFailureWindow : Nat := seconds (5 * 60)
def maxRecoveryDelay : Nat := seconds 60
def maxStopTimeout : Nat := seconds 30
def restartDelays : List Nat := [seconds 1, seconds 2, seconds 4]

/-- A policy within the bounded limits. -/
structure RestartPolicy where
  failureWindow : Nat
  recoveryDelay : Nat
  stopTimeout : Nat
  bounded : 0 < failureWindow ∧ failureWindow ≤ maxFailureWindow ∧
    0 < recoveryDelay ∧ recoveryDelay ≤ maxRecoveryDelay ∧
    0 < stopTimeout ∧ stopTimeout ≤ maxStopTimeout

def RestartPolicy.default : RestartPolicy where
  failureWindow := maxFailureWindow
  recoveryDelay := maxRecoveryDelay
  stopTimeout := seconds 3
  bounded := by decide

inductive SupervisorState where
  | idle
  | running
  | backingOff
  | circuitOpen
  | stopped
  deriving DecidableEq

inductive SupervisorEvent where
  | started (identity : ProcessIdentity)
  | running
  | workerExited (exit : WorkerExit)
  | startFailed
  | restartScheduled (delay : Nat)
  | circuitOpened
  | recoveryProbeScheduled (delay : Nat)
  | signalForwarded (signal : WorkerSignal)
  | stopped

structure WorkerSupervisor where
  policy : RestartPolicy
  state : SupervisorState := .idle
  active : Option SystemWorkerProcess := none
  failures : List Nat := []
  nextAction : Option Nat := some 0

/-- The supervisor and the processes it has started. -/
structure World where
  supervisor : WorkerSupervisor
  host : Host := {}

/-- What the backend answers during a tick: `poll` to `try_exit`, `spawned` to `start`. -/
structure TickAnswers where
  poll : Poll := {}
  spawned : Option Child := none

namespace WorkerSupervisor

def recordFailure (self : WorkerSupervisor) (now : Nat) (exit : Option WorkerExit) :
    SupervisorEvent × WorkerSupervisor :=
  let failures := self.failures.filter (now - · ≤ self.policy.failureWindow) ++ [now]
  if restartDelays.length < failures.length then
    (exit.elim .circuitOpened .workerExited,
      { self with
        failures
        state := .circuitOpen
        nextAction := some (saturatingAdd now self.policy.recoveryDelay) })
  else
    (exit.elim .startFailed .workerExited,
      { self with
        failures
        state := .backingOff
        nextAction := some (saturatingAdd now (restartDelays.getD (failures.length - 1) 0)) })

/-- The event of a tick that comes too early for the next start. -/
def scheduled (self : WorkerSupervisor) (now : Nat) : SupervisorEvent :=
  match self.state with
  | .circuitOpen => .recoveryProbeScheduled (self.nextAction.getD now - now)
  | _ => .restartScheduled (self.nextAction.getD now - now)

@[simp] theorem recordFailure_active (self : WorkerSupervisor) (now : Nat)
    (exit : Option WorkerExit) : (self.recordFailure now exit).2.active = self.active := by
  unfold recordFailure
  dsimp only
  split_ifs <;> rfl

end WorkerSupervisor

namespace World

def onHost {α : Type} (m : Io Host SupervisorError α) : Io World SupervisorError α :=
  zoom World.host (fun h w => { w with host := h }) m

def recordFailure (now : Nat) (exit : Option WorkerExit) :
    Io World SupervisorError SupervisorEvent := do
  let self ← gets World.supervisor
  modify fun w => { w with supervisor := (self.recordFailure now exit).2 }
  pure (self.recordFailure now exit).1

def watch (now : Nat) (process : SystemWorkerProcess) (poll : Poll) :
    Io World SupervisorError SupervisorEvent := do
  match ← onHost (process.tryExit poll) with
  | some exit => do
    modify fun w => { w with supervisor := { w.supervisor with active := none } }
    recordFailure now (some exit)
  | none => do
    modify fun w => { w with supervisor := { w.supervisor with state := .running } }
    pure .running

def launch (now : Nat) (spawned : Option Child) : Io World SupervisorError SupervisorEvent := do
  match ← attempt (onHost (start spawned)) with
  | .ok process => do
    modify fun w =>
      { w with
        supervisor :=
          { w.supervisor with active := some process, state := .running, nextAction := none } }
    pure (.started process.identity)
  | .error .startFailed => recordFailure now none
  | .error e => throw e

def tick (now : Nat) (answers : TickAnswers) : Io World SupervisorError SupervisorEvent := do
  let self ← gets World.supervisor
  if self.state = .stopped then pure .stopped
  else
    match self.active with
    | some process => watch now process answers.poll
    | none =>
      if self.nextAction.any (now < ·) then pure (self.scheduled now)
      else launch now answers.spawned

def forwardSignal (signal : WorkerSignal) (answer : SignalAnswer) :
    Io World SupervisorError SupervisorEvent := do
  let self ← gets World.supervisor
  match self.active with
  | none => throw .noWorker
  | some process => do
    onHost (process.signal signal answer)
    pure (.signalForwarded signal)

/-- Stops the worker that `stop` took from the supervisor. -/
def release (taken : Option SystemWorkerProcess) (timeout : Nat) (answers : StopAnswers) :
    Io World SupervisorError Unit :=
  match taken with
  | some process => onHost (process.stop timeout answers)
  | none => pure ()

/-- `self.active.take()` comes before the worker is stopped. -/
def stop (answers : StopAnswers) : Io World SupervisorError SupervisorEvent := do
  let self ← gets World.supervisor
  modify fun w => { w with supervisor := { w.supervisor with active := none } }
  release self.active self.policy.stopTimeout answers
  modify fun w =>
    { w with supervisor := { w.supervisor with state := .stopped, nextAction := none } }
  pure .stopped

end World

end NetHop.Supervisor
