import NetHop.Supervisor.OneWorker

/-!
# Restart pacing

Ticks at nondecreasing times, with any answers of the backend.  A failure puts the next
start off by the delay for the number of failures within the window, or by the recovery
delay.  The sums stop at `Duration::MAX`.
-/

namespace NetHop.Supervisor

open List WorkerSupervisor

structure Tick where
  now : Nat
  answers : TickAnswers

def SupervisorEvent.isFailure : SupervisorEvent → Bool
  | .workerExited _ | .startFailed | .circuitOpened => true
  | _ => false

namespace World

section

variable (w : World) (t : Tick)

def after : World := (tick t.now t.answers w).2

/-- The worker has ended, or none could be started. -/
def fails : Bool :=
  match (tick t.now t.answers w).1 with
  | .done event => event.isFailure
  | _ => false

def Starts : Prop := ∃ identity, (tick t.now t.answers w).1 = .done (.started identity)

end

def failureTimes : World → List Tick → List Nat
  | _, [] => []
  | w, t :: ticks => (if w.fails t then [t.now] else []) ++ failureTimes (w.after t) ticks

/-- How many failures of a run count at a time. -/
def countAt (policy : RestartPolicy) (now : Nat) (times : List Nat) : Nat :=
  (times.filter (now - · ≤ policy.failureWindow)).length

/-- When the next start may come after a failure that is the given one in the window. -/
def restartTime (policy : RestartPolicy) (now count : Nat) : Nat :=
  saturatingAdd now
    (if count ≤ restartDelays.length then restartDelays.getD (count - 1) 0
      else policy.recoveryDelay)

variable {w : World} {t : Tick}

theorem recordFailure_spec (self : WorkerSupervisor) (now : Nat) (exit : Option WorkerExit) :
    (self.recordFailure now exit).1.isFailure = true ∧
      (self.recordFailure now exit).2.policy = self.policy ∧
      (self.recordFailure now exit).2.failures =
        self.failures.filter (now - · ≤ self.policy.failureWindow) ++ [now] ∧
      (self.recordFailure now exit).2.nextAction = some (restartTime self.policy now
        (self.failures.filter (now - · ≤ self.policy.failureWindow) ++ [now]).length) := by
  unfold WorkerSupervisor.recordFailure restartTime
  dsimp only
  split_ifs
  · omega
  · cases exit <;> exact ⟨rfl, rfl, rfl, rfl⟩
  · cases exit <;> exact ⟨rfl, rfl, rfl, rfl⟩
  · omega

theorem supervisor_after :
    (w.fails t = false ∧ (w.after t).supervisor.failures = w.supervisor.failures ∧
      (w.after t).supervisor.policy = w.supervisor.policy) ∨
    (w.fails t = true ∧ ∃ exit, (w.after t).supervisor =
      (WorkerSupervisor.recordFailure { w.supervisor with active := none } t.now exit).2) := by
  unfold fails after
  rw [tick_apply]
  by_cases hstopped : w.supervisor.state = .stopped
  · rw [if_pos hstopped]
    exact .inl ⟨rfl, rfl, rfl⟩
  · cases hactive : w.supervisor.active with
    | some process =>
      dsimp only
      rw [watch_apply]
      dsimp only
      split_ifs with hfails
      · exact .inl ⟨rfl, rfl, rfl⟩
      · cases (t.answers.poll.elapse process.child w.host).exit process.child with
        | some exit => exact .inr ⟨(recordFailure_spec ..).1, some exit, rfl⟩
        | none => exact .inl ⟨rfl, rfl, rfl⟩
    | none =>
      dsimp only
      split_ifs with hearly
      · refine .inl ⟨?_, rfl, rfl⟩
        unfold scheduled
        cases w.supervisor.state <;> rfl
      · rw [launch_apply]
        cases t.answers.spawned with
        | some child => exact .inl ⟨rfl, rfl, rfl⟩
        | none =>
          refine .inr ⟨(recordFailure_spec ..).1, none, ?_⟩
          rw [← hactive]
          rfl

/-- The failures kept are those of the run, as far as they still count. -/
def Counted (policy : RestartPolicy) (w : World) (last : Nat) (times : List Nat) : Prop :=
  w.supervisor.policy = policy ∧ ∀ now, last ≤ now →
    w.supervisor.failures.filter (now - · ≤ policy.failureWindow) =
      times.filter (now - · ≤ policy.failureWindow)

variable {policy : RestartPolicy} {last : Nat} {times : List Nat}

section

variable (h : Counted policy w last times)

include h

theorem Counted.after (hlast : last ≤ t.now) :
    Counted policy (w.after t) t.now (times ++ if w.fails t then [t.now] else []) := by
  obtain ⟨rfl, hcounted⟩ := h
  rcases supervisor_after (w := w) (t := t) with ⟨hfails, hfailures, hpolicy⟩ | ⟨hfails, exit, hw⟩
  · refine ⟨hpolicy, fun now hnow => ?_⟩
    rw [hfails, hfailures, hcounted now (by omega)]
    simp
  · obtain ⟨-, hpolicy, hfailures, -⟩ :=
      recordFailure_spec { w.supervisor with active := none } t.now exit
    rw [← hw] at hpolicy hfailures
    refine ⟨hpolicy, fun now hnow => ?_⟩
    -- a failure out of the window at this tick is out of it later
    have hdropped : (w.supervisor.failures.filter
        (t.now - · ≤ w.supervisor.policy.failureWindow)).filter
          (now - · ≤ w.supervisor.policy.failureWindow) =
        w.supervisor.failures.filter (now - · ≤ w.supervisor.policy.failureWindow) := by
      rw [filter_filter]
      refine filter_congr fun failure _ => ?_
      rw [← Bool.decide_and, decide_eq_decide]
      omega
    rw [hfailures, hfails, filter_append, filter_append, hdropped, hcounted now (by omega)]
    rfl

theorem Counted.run {ticks : List Tick} (hticks : (last :: ticks.map Tick.now).Pairwise (· ≤ ·)) :
    Counted policy (Runs.run World.after w ticks) ((ticks.map Tick.now).getLastD last)
      (times ++ failureTimes w ticks) := by
  induction ticks generalizing w last times with
  | nil =>
    rw [failureTimes, append_nil]
    exact h
  | cons t ticks ih =>
    obtain ⟨hfirst, hrest⟩ := pairwise_cons.mp hticks
    have hnext := ih (h.after (hfirst t.now mem_cons_self)) hrest
    rw [failureTimes, ← append_assoc, map_cons, getLastD_cons]
    exact hnext

/-- A failing tick puts the next start off. -/
theorem Counted.nextAction (hlast : last ≤ t.now) (hfails : w.fails t = true) :
    (w.after t).supervisor.active = none ∧ (w.after t).supervisor.nextAction =
      some (restartTime policy t.now (countAt policy t.now (times ++ [t.now]))) := by
  obtain ⟨rfl, hcounted⟩ := h
  rcases supervisor_after (w := w) (t := t) with ⟨hno, -⟩ | ⟨-, exit, hw⟩
  · rw [hfails] at hno
    cases hno
  · rw [hw, recordFailure_active, (recordFailure_spec ..).2.2.2, countAt,
      filter_append, ← hcounted t.now hlast]
    simp

end

theorem tick_early {next : Nat} (hactive : w.supervisor.active = none)
    (hnext : w.supervisor.nextAction = some next) (ht : t.now < next) :
    w.after t = w ∧ ¬ w.Starts t := by
  unfold after Starts
  rw [tick_apply, hactive, hnext]
  simp only [Option.any_some, ht, decide_true, if_true]
  split_ifs
  · exact ⟨rfl, nofun⟩
  · refine ⟨rfl, ?_⟩
    unfold scheduled
    cases w.supervisor.state <;> exact nofun

theorem le_of_starts {next : Nat} {between : List Tick} (hactive : w.supervisor.active = none)
    (hnext : w.supervisor.nextAction = some next)
    (hticks : ((between ++ [t]).map Tick.now).Pairwise (· ≤ ·))
    (hstarts : (Runs.run World.after w between).Starts t) : next ≤ t.now := by
  induction between with
  | nil => exact Nat.le_of_not_lt fun ht => (tick_early hactive hnext ht).2 hstarts
  | cons u between ih =>
    obtain ⟨hu, hrest⟩ := pairwise_cons.mp hticks
    by_cases hearly : u.now < next
    · rw [Runs.run_cons, (tick_early hactive hnext hearly).1] at hstarts
      exact ih hrest hstarts
    · exact Nat.le_trans (Nat.le_of_not_lt hearly) (hu t.now (by simp))

/-- After the `n`-th failure of the window no worker is started before its delay. -/
theorem starts_paced (policy : RestartPolicy) (before between : List Tick) (failed t : Tick)
    (hticks : ((before ++ failed :: (between ++ [t])).map Tick.now).Pairwise (· ≤ ·))
    (hfails : (Runs.run World.after (new policy) before).fails failed = true)
    (hstarts : (Runs.run World.after (new policy) (before ++ failed :: between)).Starts t) (n : Nat)
    (hn : n = countAt policy failed.now (failureTimes (new policy) before ++ [failed.now])) :
    (n ≤ restartDelays.length →
        ∃ delay, restartDelays[n - 1]? = some delay ∧ saturatingAdd failed.now delay ≤ t.now) ∧
      (restartDelays.length < n → saturatingAdd failed.now policy.recoveryDelay ≤ t.now) := by
  rw [map_append] at hticks
  obtain ⟨hbefore, hlater, hcross⟩ := pairwise_append.mp hticks
  have hnew : Counted policy (new policy) 0 [] := ⟨rfl, fun _ _ => rfl⟩
  have hcounted : Counted policy (Runs.run World.after (new policy) before) _ _ :=
    hnew.run (pairwise_cons.mpr ⟨fun _ _ => Nat.zero_le _, hbefore⟩)
  have hlast : (before.map Tick.now).getLastD 0 ≤ failed.now := by
    rcases eq_nil_or_concat before with rfl | ⟨first, u, rfl⟩
    · exact Nat.zero_le _
    · simpa using hcross u.now (by simp) _ mem_cons_self
  obtain ⟨hactive, hnext⟩ := hcounted.nextAction hlast hfails
  rw [Runs.run, foldl_append] at hstarts
  have hpaced := le_of_starts hactive hnext (pairwise_cons.mp hlater).2 hstarts
  rw [nil_append, ← hn, restartTime] at hpaced
  have hpos : 0 < n := by simp [hn, countAt]
  constructor
  · intro hsmall
    rw [if_pos hsmall] at hpaced
    have hbound : n - 1 < restartDelays.length := by omega
    refine ⟨_, getElem?_eq_getElem hbound, ?_⟩
    rwa [getD_eq_getElem?_getD, getElem?_eq_getElem hbound] at hpaced
  · intro hmany
    rwa [if_neg (by omega)] at hpaced

/-- No process can be started at first, and one can be at the given time. -/
def failedStart (now : Nat) : Tick := ⟨now, {}⟩

def workingStart (now : Nat) : Tick := ⟨now, { spawned := some firstChild }⟩

/-- The first of four failures has left the window: the delay is that of the third. -/
theorem failedStart_paced : ∃ delay, restartDelays[2]? = some delay ∧
      saturatingAdd (seconds 403) delay ≤ seconds 407 :=
  (starts_paced .default [failedStart 0, failedStart (seconds 400), failedStart (seconds 401)] []
    (failedStart (seconds 403)) (workingStart (seconds 407)) (by decide) (by decide)
    ⟨_, rfl⟩ 3 (by decide)).1 (by decide)

/-- At the end of time the sum stops, and the next worker is started at once. -/
theorem failedStart_durationMax :
    ((new .default).after (failedStart durationMax)).Starts (workingStart durationMax) ∧
      (new .default).fails (failedStart durationMax) = true ∧
      durationMax < durationMax + seconds 1 := ⟨⟨_, rfl⟩, by decide, by decide⟩

end World

end NetHop.Supervisor
