import NetHop.Supervisor.Worker
import NetHop.Runs

/-!
# At most one worker

Calls of the supervisor in any order, with any answers of the backend, while workers end
by themselves.  The invariant says where a running worker is: it is the active one.
`stop` gives the active worker up before it has been stopped, so a call that fails there
leaves a worker that nobody watches, and the next tick starts a second one.
-/

namespace NetHop.Supervisor

open FaultIo Io

/-- What happens to a supervisor.  `ends` is a worker that ends by itself. -/
inductive Call where
  | tick (now : Nat) (answers : TickAnswers)
  | forwardSignal (signal : WorkerSignal) (answer : SignalAnswer)
  | stop (answers : StopAnswers)
  | ends (child : Nat) (code : Option Int)

namespace World

/-- `WorkerSupervisor::new`, before anything was started. -/
def new (policy : RestartPolicy) : World := { supervisor := { policy } }

/-- The world after a call, whatever the call returned.  A process is started, if at all,
by the last effect of a call, so no more processes run during the call than before or
after it. -/
def next (w : World) : Call → World
  | .tick now answers => (tick now answers w).2
  | .forwardSignal signal answer => (forwardSignal signal answer w).2
  | .stop answers => (stop answers w).2
  | .ends child code => { w with host := w.host.finish child code }

def OneWorker (w : World) : Prop :=
  ∀ c d, w.host.Running c → w.host.Running d → c = d

def Owned (w : World) : Prop :=
  ∀ c, w.host.Running c → ∃ process, w.supervisor.active = some process ∧ process.child = c

/-- A call of `stop` that finds a running worker meets no failure before it has ended. -/
def StopSettles (w : World) : Call → Prop
  | .stop answers =>
    ∀ process, w.supervisor.active = some process → w.host.Running process.child →
      answers.settles process.identity w.supervisor.policy.stopTimeout = true
  | _ => True

theorem Owned.oneWorker {w : World} (h : w.Owned) : w.OneWorker := by
  intro c d hc hd
  obtain ⟨process, hactive, rfl⟩ := h c hc
  obtain ⟨process', hactive', rfl⟩ := h d hd
  rw [hactive] at hactive'
  rw [Option.some.inj hactive']

variable {w : World} {now : Nat}

theorem owned_recordFailure {exit : Option WorkerExit} (h : w.Owned) :
    (recordFailure now exit w).2.Owned := by
  intro c hc
  obtain ⟨process, hactive, hchild⟩ := h c hc
  refine ⟨process, ?_, hchild⟩
  change (w.supervisor.recordFailure now exit).2.active = some process
  rw [WorkerSupervisor.recordFailure_active, hactive]

theorem watch_apply (process : SystemWorkerProcess) (poll : Poll) : watch now process poll w =
      let host := poll.elapse process.child w.host
      if poll.fails then (.error .observeFailed, { w with host }) else
        match host.exit process.child with
        | some exit => recordFailure now (some exit) ⟨{ w.supervisor with active := none }, host⟩
        | none => (.done .running, ⟨{ w.supervisor with state := .running }, host⟩) := by
  have hcall : onHost (process.tryExit poll) w = (if poll.fails then .error .observeFailed
        else .done ((poll.elapse process.child w.host).exit process.child),
        { w with host := poll.elapse process.child w.host }) := by
    unfold onHost zoom
    rw [process.tryExit_apply]
  unfold watch
  cases hfails : poll.fails with
  | true => exact bind_of_error (by rw [hcall, hfails, if_pos rfl])
  | false =>
    rw [hfails] at hcall
    rw [bind_of_done hcall]
    dsimp only
    cases (poll.elapse process.child w.host).exit process.child <;> rfl

theorem launch_apply (spawned : Option Child) : launch now spawned w = match spawned with
      | none => recordFailure now none w
      | some child => let identity := ⟨child.pid, child.startTimeTicks, child.pid_ne_zero⟩
        (.done (.started identity), ⟨{ w.supervisor with
              active := some ⟨w.host.children.length, identity⟩
              state := .running
              nextAction := none }, w.host.spawn⟩) := by
  cases spawned with
  | none => rfl
  | some child =>
    have hidentity : ProcessIdentity.new child.pid child.startTimeTicks =
        some ⟨child.pid, child.startTimeTicks, child.pid_ne_zero⟩ := dif_neg child.pid_ne_zero
    have hstart : start (some child) w.host = (.done ⟨w.host.children.length,
          ⟨child.pid, child.startTimeTicks, child.pid_ne_zero⟩⟩, w.host.spawn) := by
      simp only [start, hidentity]
      rfl
    have hcall : onHost (start (some child)) w = (.done ⟨w.host.children.length,
          ⟨child.pid, child.startTimeTicks, child.pid_ne_zero⟩⟩,
          { w with host := w.host.spawn }) := by
      unfold onHost zoom
      rw [hstart]
    unfold launch
    rw [bind_of_done (attempt_of_done hcall)]
    rfl

theorem tick_apply (answers : TickAnswers) : tick now answers w =
      if w.supervisor.state = .stopped then (.done .stopped, w) else match w.supervisor.active with
        | some process => watch now process answers.poll w
        | none =>
          if w.supervisor.nextAction.any (now < ·) then (.done (w.supervisor.scheduled now), w)
          else launch now answers.spawned w := by
  unfold tick
  rw [gets_bind_apply]
  split_ifs with hstopped hearly
  · rfl
  all_goals cases w.supervisor.active <;> rfl

theorem owned_watch {process : SystemWorkerProcess} {poll : Poll} (h : w.Owned)
    (hactive : w.supervisor.active = some process) : (watch now process poll w).2.Owned := by
  have hrun : ∀ c, (poll.elapse process.child w.host).Running c → c = process.child := by
    intro c hc
    obtain ⟨process', hactive', hchild⟩ := h c (poll.running_elapse.mp hc).1
    rw [hactive] at hactive'
    rw [← hchild, Option.some.inj hactive']
  rw [watch_apply]
  cases poll.fails with
  | true => exact fun c hc => ⟨process, hactive, (hrun c hc).symm⟩
  | false =>
    cases hexit : (poll.elapse process.child w.host).exit process.child with
    | some exited =>
      simp only [Bool.false_eq_true, if_false, hexit]
      refine owned_recordFailure fun c hc => ?_
      have hc' : (poll.elapse process.child w.host).Running process.child := hrun c hc ▸ hc
      exact absurd hc' (Host.not_running_of_exit hexit)
    | none =>
      simp only [Bool.false_eq_true, if_false, hexit]
      exact fun c hc => ⟨process, hactive, (hrun c hc).symm⟩

theorem owned_launch {spawned : Option Child} (h : w.Owned)
    (hactive : w.supervisor.active = none) : (launch now spawned w).2.Owned := by
  have hidle : ∀ c, ¬ w.host.Running c := by
    intro c hc
    obtain ⟨process, hsome, -⟩ := h c hc
    rw [hactive] at hsome
    cases hsome
  rw [launch_apply]
  cases spawned with
  | none => exact owned_recordFailure h
  | some child =>
    intro c hc
    have hspawned : w.host.spawn.Running c := hc
    refine ⟨_, rfl, ?_⟩
    exact ((Host.running_spawn.mp hspawned).resolve_left (hidle c)).symm

theorem owned_tick {answers : TickAnswers} (h : w.Owned) : (tick now answers w).2.Owned := by
  rw [tick_apply]
  by_cases hstopped : w.supervisor.state = .stopped
  · rw [if_pos hstopped]
    exact h
  · rw [if_neg hstopped]
    cases hactive : w.supervisor.active with
    | some process => exact owned_watch h hactive
    | none =>
      by_cases hearly : w.supervisor.nextAction.any (now < ·) = true
      · rw [if_pos hearly]
        exact h
      · rw [if_neg hearly]
        exact owned_launch h hactive

theorem forwardSignal_snd (signal : WorkerSignal) (answer : SignalAnswer) :
    (forwardSignal signal answer w).2 = w := by
  unfold forwardSignal
  rw [gets_bind_apply]
  cases w.supervisor.active with
  | none => rfl
  | some process =>
    have hhost : (onHost (process.signal signal answer) w).2 = w := by
      change { w with host := (process.signal signal answer w.host).2 } = w
      rw [process.signal_snd]
    rcases hcall : onHost (process.signal signal answer) w with ⟨outcome, w'⟩
    rw [hcall] at hhost
    subst hhost
    cases outcome with
    | done u => exact congrArg Prod.snd (bind_of_done hcall)
    | error e => exact congrArg Prod.snd (bind_of_error hcall)
    | crashed => exact congrArg Prod.snd (bind_of_crashed hcall)

theorem release_host (taken : Option SystemWorkerProcess) (timeout : Nat) (answers : StopAnswers) :
    (release taken timeout answers w).2.host = match taken with
      | some process => (process.stop timeout answers w.host).2
      | none => w.host := by
  cases taken <;> rfl

theorem stop_host (answers : StopAnswers) : (stop answers w).2.host = match w.supervisor.active with
      | some process => (process.stop w.supervisor.policy.stopTimeout answers w.host).2
      | none => w.host := by
  have hrelease := release_host (w := ⟨{ w.supervisor with active := none }, w.host⟩)
  rw [← hrelease]
  unfold stop
  rw [gets_bind_apply, modify_bind_apply, bind_apply]
  rcases release w.supervisor.active w.supervisor.policy.stopTimeout answers
    ⟨{ w.supervisor with active := none }, w.host⟩ with ⟨_ | _ | _, w'⟩ <;> rfl

theorem owned_stop {answers : StopAnswers} (h : w.Owned)
    (hsettles : w.StopSettles (.stop answers)) : (stop answers w).2.Owned := by
  intro c hc
  rw [stop_host] at hc
  cases hactive : w.supervisor.active with
  | none =>
    rw [hactive] at hc
    obtain ⟨process, hsome, -⟩ := h c hc
    rw [hactive] at hsome
    cases hsome
  | some process =>
    rw [hactive] at hc
    obtain ⟨hrun, hleft⟩ := (process.running_stop answers).mp hc
    obtain ⟨process', hsome, rfl⟩ := h c hrun
    rw [hactive] at hsome
    cases hsome
    have hstops := hsettles process hactive hrun
    rw [hleft rfl] at hstops
    cases hstops

theorem owned_next {call : Call} (h : w.Owned) (hsettles : w.StopSettles call) :
    (w.next call).Owned := by
  cases call with
  | tick now answers => exact owned_tick h
  | forwardSignal signal answer =>
    change (forwardSignal signal answer w).2.Owned
    rw [forwardSignal_snd]
    exact h
  | stop answers => exact owned_stop h hsettles
  | ends child code =>
    intro c hc
    exact h c (Host.running_finish.mp hc).1

/-- In every run in which `stop` meets no failure before the worker has ended, no two
workers are ever alive. -/
theorem run_oneWorker (policy : RestartPolicy) (calls : List Call)
    (h : Runs.Guarded next StopSettles (new policy) calls) (n : Nat) :
    (Runs.run next (new policy) (calls.take n)).OneWorker := by
  have hnew : (new policy).Owned := fun c hc => by simp [new, Host.Running] at hc
  have howned : (Runs.run next (new policy) (calls.take n)).Owned :=
    Runs.run_invariant (fun _ _ hw hsettles => owned_next hw hsettles) hnew (h.take n)
  exact howned.oneWorker

def sampleChild (pid : Nat) (h : pid ≠ 0) : Child := ⟨pid, some 70, h⟩

/-- A worker that ends on its own, its successor, and a `stop` that has to kill it. -/
def firstChild : Child := sampleChild 101 (by decide)

def sampleCalls : List Call :=
  [.tick 0 { spawned := some firstChild },
    .ends 0 (some 1),
    .tick 5 {},
    .tick 2000000000 { spawned := some (sampleChild 102 (by decide)) },
    .stop ⟨{}, ⟨some 70, true⟩, [(0, {}), (10000000, {})], true, some none⟩,
    .tick 3000000000 {}]

theorem sampleCalls_oneWorker : (Runs.run next (new .default) sampleCalls).host.children =
      [.ended (some 1), .ended none] ∧
    (Runs.run next (new .default) (sampleCalls.take 6)).OneWorker := by
  refine ⟨by decide, run_oneWorker .default sampleCalls ?_ 6⟩
  refine ⟨trivial, trivial, trivial, trivial, ?_, trivial, trivial⟩
  intro process hactive _
  have hprocess : some process = some ⟨1, ⟨102, some 70, by decide⟩⟩ :=
    hactive.symm.trans (by decide)
  cases hprocess
  decide

/-- The signal of `stop` cannot be sent, and the next tick starts a second worker. -/
theorem stop_failure_then_two_workers : ¬ (Runs.run next (new .default)
      [.tick 0 { spawned := some (sampleChild 101 (by decide)) },
        .stop ⟨{}, ⟨some 70, false⟩, [], true, some none⟩,
        .tick 1 { spawned := some (sampleChild 102 (by decide)) }]).OneWorker := by
  intro h
  have htwo : (0 : Nat) = 1 := h 0 1 (by decide) (by decide)
  cases htwo

end World

end NetHop.Supervisor
