import NetHop.Worker.Application

/-!
# Watching a running data plane

`tick` of a `WorkerRuntime` polls the core and checks the network; drift is repaired or
the runtime is torn down.  What is answered to each call is a parameter; the calls on the
network and on its verifier are listed.
-/

namespace NetHop.Drift

open Worker

inductive RuntimeFailureCode where
  | coreExited
  | coreObserveFailed
  | driftRepairFailed
  | driftPersisted
  | tunUnhealthy

inductive RuntimeTick where
  | idle
  | healthy
  | reconciled
  | repaired
  /-- `RestartScheduled` or `CircuitOpen`, as the restart budget decides. -/
  | failed (decision : RestartDecision) (failure : RuntimeFailureCode) (cleanupFailed : Bool)

inductive WorkerRuntimeError where
  | nonMonotonicTime
  | notRunning

/-- How the core is attached; the capture is enabled while there is a receipt. -/
structure RuntimeAttachment where
  tun : Bool
  captureEnabled : Bool

structure WorkerRuntime where
  active : Option RuntimeAttachment
  state : RuntimeState
  corePollInterval : Nat
  reconcileInterval : Nat
  lastTick : Nat
  nextCorePoll : Nat
  nextReconcile : Nat

structure Answers where
  /-- `none` if the core could not be observed. -/
  isRunning : Option Bool
  check : Bool
  withdraw : Bool
  reapply : Bool
  recheck : Bool
  stopNetwork : Bool
  stopCore : Bool
  waitStopped : Bool
  registerFailure : RestartDecision

inductive Call where
  | verify (ok : Bool)
  | verifyCaptureDisabled (ok : Bool)
  | rollback (ok : Bool)
  | apply (ok : Bool)
  | waitStopped (ok : Bool)

/-- What a tick answers, the runtime it leaves and its calls. -/
abbrev Ticked := RuntimeTick × WorkerRuntime × List Call

variable (a : Answers) (r : RuntimeAttachment) (w : WorkerRuntime) (now : Nat)

/-- The check for what the switch asks for. -/
def asked (ok : Bool) : Call :=
  if r.captureEnabled then .verify ok else .verifyCaptureDisabled ok

/-- `ActiveRuntime::stop`: whether the clean-up failed. -/
def stop : Bool × List Call :=
  (r.captureEnabled && !a.stopNetwork || !a.stopCore || !a.waitStopped,
    (if r.captureEnabled then [.rollback a.stopNetwork] else []) ++ [.waitStopped a.waitStopped])

def rebuildNetwork : Bool × List Call :=
  if !r.captureEnabled then (true, [])
  else if !a.withdraw then (false, [.rollback false])
  else (a.reapply, [.rollback true, .apply a.reapply])

def failRuntime (failure : RuntimeFailureCode) (calls : List Call) : Ticked :=
  let state := match a.registerFailure with
    | .retryAfter _ => .backoff
    | .circuitOpen => .circuitOpen
  (.failed a.registerFailure failure (stop a r).1, { w with active := none, state },
    calls ++ (stop a r).2)

def reconcile : Ticked :=
  let (rebuilt, calls) := rebuildNetwork a r
  -- the second check is for rules in place, whatever the switch says
  let calls' := asked r a.check :: calls ++ [.verify a.recheck]
  if a.check then (.reconciled, w, [asked r true])
  else if r.tun then failRuntime a r w .tunUnhealthy [asked r false]
  else if !rebuilt then failRuntime a r w .driftRepairFailed (asked r false :: calls)
  else if !a.recheck then failRuntime a r w .driftPersisted calls'
  else (.repaired, w, calls')

def tick : Except WorkerRuntimeError Ticked :=
  if now < w.lastTick then .error .nonMonotonicTime else
  match w.active with
  | none => .error .notRunning
  | some r =>
    let polls := w.nextCorePoll ≤ now
    let polled := { w with
      lastTick := now
      nextCorePoll := if polls then now + w.corePollInterval else w.nextCorePoll }
    if ¬ polls ∧ now < w.nextReconcile then .ok (.idle, polled, [])
    else if polls ∧ a.isRunning = none then .ok (failRuntime a r polled .coreObserveFailed [])
    else if polls ∧ a.isRunning = some false then .ok (failRuntime a r polled .coreExited [])
    else if now < w.nextReconcile then .ok (.healthy, polled, [])
    else .ok (reconcile a r { polled with nextReconcile := now + w.reconcileInterval })

/-- A repair ends with the check that the switch asks for, and a runtime whose capture is
off is neither given rules nor torn down after a failed check for rules. -/
def RespectsSwitch (r : RuntimeAttachment) : Ticked → Prop
  | (tick, w, calls) => (tick = .repaired → calls.getLast? = some (asked r true)) ∧
    (r.captureEnabled = false →
      (∀ ok, .apply ok ∉ calls) ∧ (w.active = none → .verify false ∉ calls))

def Reconciles : Prop :=
  w.lastTick ≤ now ∧ w.nextReconcile ≤ now ∧ (w.nextCorePoll ≤ now → a.isRunning = some true)

variable {a r w now}

theorem failRuntime_respectsSwitch {failure : RuntimeFailureCode} {calls : List Call}
    (h : r.captureEnabled = false → (∀ ok, .apply ok ∉ calls) ∧ .verify false ∉ calls) :
    RespectsSwitch r (failRuntime a r w failure calls) := by
  refine ⟨nofun, fun hoff => ?_⟩
  simp [stop, hoff, h hoff]

theorem reconcile_respectsSwitch_iff : RespectsSwitch r (reconcile a r w) ↔
      ¬ (r.tun = false ∧ r.captureEnabled = false ∧ a.check = false) := by
  dsimp only [reconcile]
  by_cases hcheck : a.check = true
  · cases hon : r.captureEnabled <;> simp [RespectsSwitch, asked, hcheck, hon]
  rw [if_neg hcheck]
  by_cases htun : r.tun = true
  · rw [if_pos htun]
    exact iff_of_true (failRuntime_respectsSwitch fun hoff => by simp [asked, hoff])
      (by simp [htun])
  rw [if_neg htun]
  cases hon : r.captureEnabled with
  | false =>
    -- nothing is rebuilt
    cases hrecheck : a.recheck <;> simp_all [rebuildNetwork, failRuntime, RespectsSwitch, asked]
  | true =>
    refine iff_of_true ?_ (by simp)
    split
    · exact failRuntime_respectsSwitch (by simp [hon])
    split
    · exact failRuntime_respectsSwitch (by simp [hon])
    · simp_all [RespectsSwitch, asked, List.getLast?_cons]

/-- A tick respects the switch unless a check for absent rules fails in TPROXY mode. -/
theorem tick_respectsSwitch_iff (a : Answers) (now : Nat) (w : WorkerRuntime) :
    (∀ r ∈ w.active, ∀ t, tick a w now = .ok t → RespectsSwitch r t) ↔
      ¬ (w.active = some ⟨false, false⟩ ∧ Reconciles a w now ∧ a.check = false) := by
  by_cases hreached : Reconciles a w now
  · cases hactive : w.active with
    | none => simp
    | some r =>
      have htick : ∃ w', tick a w now = .ok (reconcile a r w') := by
        obtain ⟨htime, hdue, hrunning⟩ := hreached
        by_cases hpoll : w.nextCorePoll ≤ now <;>
          simp [tick, hactive, hpoll, hrunning, Nat.not_lt.mpr htime, Nat.not_lt.mpr hdue]
      obtain ⟨w', htick⟩ := htick
      cases r
      simp [htick, reconcile_respectsSwitch_iff, hreached, and_assoc]
  · refine iff_of_true (fun r hr t ht => ?_) fun h => hreached h.2.1
    simp only [tick, Option.mem_def.mp hr] at ht
    split at ht
    · cases ht
    split at ht
    · cases ht
      simp [RespectsSwitch]
    split at ht
    · cases ht
      exact failRuntime_respectsSwitch (by simp)
    split at ht
    · cases ht
      exact failRuntime_respectsSwitch (by simp)
    split at ht
    · cases ht
      simp [RespectsSwitch]
    · refine absurd ⟨by omega, by omega, fun hpoll => ?_⟩ hreached
      cases hrun : a.isRunning <;> simp_all

/-- A TPROXY runtime whose capture is off, at its first reconciliation. -/
def switchedOff : WorkerRuntime := ⟨some ⟨false, false⟩, .runningTproxy, 1, 60, 59, 60, 60⟩

/-- Rules are left over and every call succeeds but the check for their absence. -/
def leftOver : Answers := ⟨some true, false, true, true, true, true, true, true, .circuitOpen⟩

/-- Nothing is done about the rules and the answer is that they are repaired. -/
theorem leftOver_repaired : ∃ w, tick leftOver switchedOff 60 =
      .ok (.repaired, w, [.verifyCaptureDisabled false, .verify true]) ∧
    ¬ RespectsSwitch ⟨false, false⟩ (.repaired, w, [.verifyCaptureDisabled false, .verify true]) :=
  ⟨_, rfl, fun h => nomatch h.1 rfl⟩

end NetHop.Drift
