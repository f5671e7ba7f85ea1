import NetHop.FaultIo.Outcome
import NetHop.Generation.Candidate

/-!
# The worker application

The part of `worker_application.rs` that starts, stops and updates the core: its
state, the files it shares with the core and the generation store, and
`update_inner` with everything it calls.  What the updater, the recovery source,
the data plane and the configuration answer in one call of `update_inner` is the
record `Answers`; a call that changes a file carries a `Fault`.

Events, timings and the selector are left out: nothing below reads them.
-/

namespace NetHop.Worker

open FaultIo Generation Io

abbrev Config := List UInt8

def maxRuntimeConfigBytes : Nat := 16 * 1024 * 1024

inductive RuntimeState where
  | init
  | probing
  | startingCore
  | runningTproxy
  | startingTun
  | runningTun
  | degraded
  | backoff
  | circuitOpen
  | failOpenDirect
  | stopping

inductive ControlCommand where
  | start
  | stop
  | probe
  | update
  | rebuildGeneration
  | updateSource (source : String)
  | ruleSetUpdate

inductive UpdateStatus where
  | never
  | succeeded
  | failed

inductive GenerationBuildAccounting where
  | subscriptionRefresh
  | cachedRebuild

inductive WorkerServiceError where
  | control
  | taskFailed
  | shutdownFailed

inductive RuntimeReloadError where
  | unsupported
  | policyChanged
  | invalidGeneration
  | coreCheck
  | stage
  | coreHealth
  | dataPlaneHealth
  | rollbackFailed

structure ControlSnapshot where
  state : RuntimeState
  generation : Option GenerationId
  lastUpdate : UpdateStatus

/-! ## The restart budget -/

/-- `RESTART_DELAYS`, in seconds. -/
def restartDelays : List Nat := [1, 2, 4]

inductive RestartDecision where
  | retryAfter (delay : Nat)
  | circuitOpen

structure RestartBudget where
  failureWindow : Nat
  failures : List Nat

namespace RestartBudget

def recent (b : RestartBudget) (now : Nat) : List Nat :=
  b.failures.dropWhile fun failure => decide (b.failureWindow ≤ now - failure)

def registerFailure (b : RestartBudget) (now : Nat) : RestartDecision × RestartBudget :=
  match restartDelays[(b.recent now).length]? with
  | none => (.circuitOpen, { b with failures := b.recent now })
  | some delay => (.retryAfter delay, { b with failures := b.recent now ++ [now] })

def clear (b : RestartBudget) : RestartBudget := { b with failures := [] }

end RestartBudget

/-! ## State -/

/-- A running core: the generation it is recorded to run, how it is attached, the
policy it was started with and the configuration a staged reload would go back to. -/
structure ActiveRuntime (Policy : Type) where
  generation : GenerationId
  state : RuntimeState
  policy : Policy
  pendingReload : Option Config

open ActiveRuntime

structure WorkerRuntime (Policy : Type) where
  active : Option (ActiveRuntime Policy)
  state : RuntimeState

/-- The configuration file of the core, the sealed generations and the pointer. -/
structure Files where
  coreFile : Option Config
  generations : Dir GenerationId Config
  current : Option GenerationId

structure WorkerApplication (Policy : Type) where
  runtime : Option (WorkerRuntime Policy)
  policy : Policy
  restartBudget : RestartBudget
  restartAt : Option Nat
  startPending : Bool
  pending : List ControlCommand
  snapshot : ControlSnapshot
  dryRun : Bool
  files : Files

open WorkerApplication

/-- What `prepare` of the updater hands out; `exposesSealed` is
`sealed_generation(..).is_some()`. -/
structure Prepared where
  generation : GenerationId
  config : Config
  exposesSealed : Bool

/-- One start of a core: whether the store hands out the generation, the checks
before the core is launched, the write of its configuration, and whether it comes up. -/
structure Launch where
  found : Bool
  ready : Bool
  write : Fault
  comesUp : Bool
  attachedAs : RuntimeState

structure Answers where
  prepare : Option Prepared
  serviceEnabled : Bool
  isCurrent : Bool
  /-- `disk_matches_current`, at the four places it is asked. -/
  matchesBefore : Bool
  matchesStaged : Bool
  matchesRecovered : Bool
  matchesCommitted : Bool
  discard : Fault
  commit : Fault
  supportsReload : Bool
  sealedFound : Bool
  checks : Bool
  coreRunning : Bool
  sourceValid : Bool
  stageWrite : Fault
  stageSignal : Bool
  restoreWrite : Fault
  coreHealthy : Bool
  dataPlaneHealthy : Bool
  rollbackWrite : Fault
  rollbackSignal : Bool
  rollbackCoreHealthy : Bool
  rollbackDataPlaneHealthy : Bool
  stopRuntime : Bool
  /-- `recover_generation`; `none` is `Ok(None)`. -/
  recoverGeneration : Option Launch
  stopActive : Bool
  /-- `recover`; `none` is `Ok(None)`, whatever the pointer says. -/
  recover : Option Launch

variable {Policy : Type}

namespace WorkerApplication

def active (w : WorkerApplication Policy) : Option (ActiveRuntime Policy) :=
  w.runtime.bind WorkerRuntime.active

def modifyActive (f : ActiveRuntime Policy → ActiveRuntime Policy)
    (w : WorkerApplication Policy) : WorkerApplication Policy :=
  { w with runtime := w.runtime.map fun r => { r with active := r.active.map f } }

def setPending (previous : Option Config) : WorkerApplication Policy → WorkerApplication Policy :=
  modifyActive fun r => { r with pendingReload := previous }

def setCore (file : Option Config) (w : WorkerApplication Policy) : WorkerApplication Policy :=
  { w with files := { w.files with coreFile := file } }

variable (p : Prepared) (g : GenerationId) (w : WorkerApplication Policy)

def addSealed : WorkerApplication Policy :=
  { w with files := { w.files with generations := w.files.generations.set p.generation p.config } }

def dropSealed : WorkerApplication Policy :=
  { w with files := { w.files with generations := w.files.generations.del p.generation } }

def setCurrent : WorkerApplication Policy :=
  { w with files := { w.files with current := some g } }

end WorkerApplication

abbrev Call (Policy ε α : Type) := Io (WorkerApplication Policy) ε α

abbrev Service (Policy α : Type) := Call Policy WorkerServiceError α

/-! ## The core process -/

/-- `atomic_write` of the core's configuration file: the rename is its effect, the
flush of the directory may still fail. -/
def atomicWrite (φ : Fault) (bytes : Config) : Call Policy Unit Unit :=
  step φ () fun _ => some [setCore (some bytes)]

def publishRuntimeConfig (φ : Fault) (g : GenerationId) : Call Policy Unit Unit := do
  match ← gets fun w : WorkerApplication Policy => w.files.generations.get g with
  | none => throw ()
  | some bytes =>
    if bytes.isEmpty || decide (maxRuntimeConfigBytes < bytes.length) then throw ()
    else atomicWrite φ bytes

variable (a : Answers) (g : GenerationId)

def stageConfig (previous : Config) : Call Policy Unit Unit := do
  publishRuntimeConfig a.stageWrite g
  if a.stageSignal then modify (setPending (some previous))
  else do
    ignore (atomicWrite a.restoreWrite previous)
    throw ()

def stageProcessReload : Call Policy Unit Unit := do
  let staged ← gets fun w : WorkerApplication Policy =>
    (w.active.bind pendingReload).isSome
  if staged || !a.supportsReload || !a.coreRunning || !a.sourceValid then throw ()
  else do
    match ← gets fun w : WorkerApplication Policy => w.files.coreFile with
    | none => throw ()
    | some previous => stageConfig a g previous

def rollbackProcessReload : Call Policy Unit Unit := do
  match ← gets fun w : WorkerApplication Policy => w.active.bind pendingReload with
  | none => throw ()
  | some previous => do
    modify (setPending none)
    atomicWrite a.rollbackWrite previous
    if a.rollbackSignal then pure () else throw ()

/-- `commit_reload`: the reload is no longer pending, the generation is recorded. -/
def commitReload : Call Policy Unit Unit := do
  match ← gets fun w : WorkerApplication Policy => w.active.bind pendingReload with
  | none => throw ()
  | some _ => modify (modifyActive fun r =>
    { r with pendingReload := none, generation := g })

/-! ## The recovery source -/

/-- What `stage_reload` answers when the new configuration is not healthy: the
error of the health check, or that the old one could not be put back. -/
def undoStage (error : RuntimeReloadError) : Call Policy RuntimeReloadError Unit := do
  if ← succeeds (rollbackProcessReload a) then throw error else throw .rollbackFailed

/-- `wait_reload_healthy`, with the rollback of `stage_reload`. -/
def awaitStaged : Call Policy RuntimeReloadError Unit :=
  if !a.coreHealthy then undoStage a .coreHealth
  else if !a.dataPlaneHealthy then undoStage a .dataPlaneHealth
  else pure ()

variable (w : WorkerApplication Policy)

def sealedExists : Bool :=
  a.sealedFound && (w.files.generations.get g).isSome

/-- The part of `stage_reload` that is reached if the core can reload. -/
def stageSealed : Call Policy RuntimeReloadError Unit := do
  let found ← gets (sealedExists a g)
  if !found then throw .invalidGeneration
  else if !a.checks then throw .coreCheck
  else do
    mapError (fun _ => .stage) (stageProcessReload a g)
    awaitStaged a

def stageReload [DecidableEq Policy] (a : Answers) (g : GenerationId) :
    Call Policy RuntimeReloadError Unit := do
  let samePolicy ← gets fun w : WorkerApplication Policy =>
    decide (w.active.map ActiveRuntime.policy = some w.policy)
  if !samePolicy then throw .policyChanged
  else if !a.supportsReload then throw .unsupported
  else stageSealed a g

def rollbackReload : Call Policy RuntimeReloadError Unit := do
  mapError (fun _ => .rollbackFailed) (rollbackProcessReload a)
  if a.rollbackCoreHealthy && a.rollbackDataPlaneHealthy then pure ()
  else throw .rollbackFailed

def recoverSealed (l : Launch) (g : GenerationId) : Call Policy Unit (ActiveRuntime Policy) := do
  if l.ready then do
    publishRuntimeConfig l.write g
    if l.comesUp then do
      let policy ← gets policy
      pure ⟨g, l.attachedAs, policy, none⟩
    else throw ()
  else throw ()

/-- `recover`: the generation the pointer names. -/
def recover (l : Option Launch) : Call Policy Unit (Option (ActiveRuntime Policy)) :=
  match l with
  | none => pure none
  | some l => do
    if l.found then
      match ← gets fun w : WorkerApplication Policy => w.files.current with
      | none => pure none
      | some g => do
        let active ← recoverSealed l g
        pure (some active)
    else throw ()

def recoverGeneration (l : Option Launch) (g : GenerationId) :
    Call Policy Unit (Option (ActiveRuntime Policy)) :=
  match l with
  | none => pure none
  | some l => do
    if l.found then
      let active ← recoverSealed l g
      pure (some active)
    else throw ()

/-! ## The updater -/

/-- `prepare`: the candidate is sealed under a number that is not taken. -/
def prepareUpdate : Call Policy Unit Prepared := do
  match a.prepare with
  | none => throw ()
  | some p => do
    let taken ← gets fun w : WorkerApplication Policy =>
      (w.files.generations.get p.generation).isSome
    if taken then throw ()
    else do
      modify (addSealed p)
      pure p

variable (accounting : GenerationBuildAccounting) (p : Prepared)

/-- `discard`: the store refuses to drop the generation the pointer names. -/
def discardUpdate : Call Policy Unit Unit :=
  step a.discard () fun w =>
    if w.files.current = some p.generation then none
    else some [dropSealed p]

/-- The switch of the pointer, whose flush may fail after the rename. -/
def switchPointer : Call Policy Unit Unit :=
  step a.commit () fun _ => some [setCurrent p.generation]

/-- `commit`: a candidate that cannot be committed is discarded. -/
def commitUpdate : Call Policy Unit Unit := do
  if ← succeeds (switchPointer a p) then pure ()
  else do
    ignore (discardUpdate a p)
    throw ()

/-! ## Starting, stopping and updating -/

def publishSnapshot (state : RuntimeState) (generation : Option GenerationId) :
    Service Policy Unit :=
  modify fun w => { w with snapshot := { w.snapshot with
    state := state, generation := generation } }

/-- `publish_update_status`, on the state and generation of the runtime. -/
def publishUpdateStatus (status : UpdateStatus) : Service Policy Unit :=
  modify fun w => { w with snapshot :=
    { state := (w.runtime.map WorkerRuntime.state).getD w.snapshot.state
      generation := w.active.map generation
      lastUpdate := status } }

def publishBuildStatus (status : UpdateStatus) : Service Policy Unit :=
  match accounting with
  | .subscriptionRefresh => publishUpdateStatus status
  | .cachedRebuild => pure ()

/-- `self.runtime = Some(WorkerRuntime::new(..))` after the budget is cleared. -/
def install (active : ActiveRuntime Policy) : Service Policy Unit :=
  modify fun w => { w with
    restartBudget := w.restartBudget.clear
    runtime := some ⟨some active, active.state⟩ }

/-- The failed start is put on the restart budget. -/
def registerStartFailure (now : Nat) : Service Policy Unit := do
  let (decision, budget) ← gets fun w : WorkerApplication Policy =>
    w.restartBudget.registerFailure now
  modify fun w => { w with restartBudget := budget }
  match decision with
  | .retryAfter delay => do
    modify fun w => { w with restartAt := some (now + delay) }
    publishSnapshot .backoff none
  | .circuitOpen => publishSnapshot .circuitOpen none

def start (l : Option Launch) (now : Nat) : Service Policy Unit := do
  let running ← gets fun w : WorkerApplication Policy => w.runtime.isSome
  if running then pure ()
  else do
    modify fun w => { w with restartAt := none }
    match ← attempt (recover l) with
    | .ok (some active) => do
      install active
      publishSnapshot active.state (some active.generation)
    | .ok none => publishSnapshot .failOpenDirect none
    | .error _ => registerStartFailure now

/-- `stop`: the runtime goes whether or not it stopped cleanly. -/
def stop (stops : Bool) : Service Policy Unit := do
  let running ← gets fun w : WorkerApplication Policy => w.active.isSome
  modify fun w => { w with restartAt := none, startPending := false, runtime := none }
  publishSnapshot .failOpenDirect none
  if running && !stops then throw .shutdownFailed else pure ()

/-- `let _ = self.updater.discard(prepared)` and the failed status. -/
def dropCandidate : Service Policy Unit := do
  ignore (discardUpdate a p)
  publishBuildStatus accounting .failed

/-- The core runs the new generation in place of the old one. -/
def recordReload : Service Policy Unit := do
  modify fun w => { w with restartBudget := w.restartBudget.clear }
  let state ← gets fun w : WorkerApplication Policy =>
    (w.runtime.map WorkerRuntime.state).getD .failOpenDirect
  publishBuildStatus accounting .succeeded
  publishSnapshot state (some p.generation)

def finishReload : Service Policy Unit := do
  if !a.matchesStaged then do
    ignore (rollbackReload a)
    dropCandidate a accounting p
  else do
    if ← succeeds (commitUpdate a p) then
      if ← succeeds (commitReload p.generation) then recordReload accounting p
      else
        publishBuildStatus accounting .failed
        throw .taskFailed
    else
      let undone ← succeeds (rollbackReload a)
      publishBuildStatus accounting .failed
      if undone then pure () else throw .shutdownFailed

/-- `active.stop(..)` of a core that is not installed, with the two ways out. -/
def dropRecovered (next : Service Policy Unit) : Service Policy Unit :=
  if a.stopActive then next else throw .shutdownFailed

/-- The new core is up: commit, and install it if the configuration is still the
one it was built for. -/
def finishRestart (now : Nat) (accounting : GenerationBuildAccounting)
    (p : Prepared) (active : ActiveRuntime Policy) : Service Policy Unit := do
  if !a.matchesRecovered then do
    dropCandidate a accounting p
    dropRecovered a (pure ())
  else do
    if ← succeeds (commitUpdate a p) then
      if !a.matchesCommitted then
        publishBuildStatus accounting .failed
        dropRecovered a (pure ())
      else
        install active
        publishBuildStatus accounting .succeeded
        publishSnapshot active.state (some p.generation)
    else
      publishBuildStatus accounting .failed
      dropRecovered a (start a.recover now)

/-- The update did not come up: discard it and start what is current. -/
def fallBack (now : Nat) (accounting : GenerationBuildAccounting) (p : Prepared) :
    Service Policy Unit := do
  dropCandidate a accounting p
  start a.recover now

def restartUpdate (now : Nat) (accounting : GenerationBuildAccounting)
    (p : Prepared) : Service Policy Unit := do
  if ← succeeds (stop a.stopRuntime) then
    match ← attempt (recoverGeneration a.recoverGeneration p.generation) with
    | .ok (some active) => finishRestart a now accounting p active
    | .ok none => fallBack a now accounting p
    | .error _ => fallBack a now accounting p
  else
    dropCandidate a accounting p
    throw .shutdownFailed

/-- `expect("running worker has an active runtime")`, then `stage_reload`. -/
def reloadUpdate [DecidableEq Policy] (a : Answers) (now : Nat)
    (accounting : GenerationBuildAccounting) (p : Prepared) : Service Policy Unit := do
  let running ← gets fun w : WorkerApplication Policy => w.active.isSome
  if !running then abort
  else do
    match ← attempt (stageReload a p.generation) with
    | .ok _ => finishReload a accounting p
    | .error .unsupported => restartUpdate a now accounting p
    | .error .policyChanged => restartUpdate a now accounting p
    | .error _ => dropCandidate a accounting p

def dryUpdate : Service Policy Unit := do
  let discarded ← succeeds (discardUpdate a p)
  publishBuildStatus accounting (if discarded then .succeeded else .failed)
  if discarded then pure () else throw .taskFailed

def applyUpdate [DecidableEq Policy] (a : Answers) (now : Nat)
    (accounting : GenerationBuildAccounting) (p : Prepared) : Service Policy Unit := do
  let dry ← gets fun w : WorkerApplication Policy => w.dryRun
  let running ← gets fun w : WorkerApplication Policy => w.runtime.isSome
  if dry then dryUpdate a accounting p
  else if p.exposesSealed && running then reloadUpdate a now accounting p
  else restartUpdate a now accounting p

def updateInner [DecidableEq Policy] (a : Answers) (now : Nat)
    (accounting : GenerationBuildAccounting) : Service Policy Unit := do
  match ← attempt (prepareUpdate a) with
  | .error _ => publishBuildStatus accounting .failed
  | .ok p =>
    if !a.serviceEnabled || !a.isCurrent then do
      ignore (discardUpdate a p)
      publishSnapshot .failOpenDirect none
    else if !a.matchesBefore then dropCandidate a accounting p
    else applyUpdate a now accounting p

end NetHop.Worker
