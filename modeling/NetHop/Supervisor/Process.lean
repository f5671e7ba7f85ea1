import NetHop.FaultIo.Outcome

/-!
# Worker processes

The processes a supervisor starts, and `SystemWorkerProcess` over them.  What the
operating system answers to each call is part of the call, so every combination of
failing calls is a choice of answers.
-/

namespace NetHop.Supervisor

open FaultIo Io

inductive Life where
  | running
  | ended (code : Option Int)
  deriving DecidableEq

/-- The processes started so far; a process is named by its place in the list. -/
structure Host where
  children : List Life := []

structure WorkerExit where
  code : Option Int

inductive WorkerSignal where
  | terminate
  | interrupt

inductive SupervisorError where
  | invalidPolicy
  | startFailed
  | observeFailed
  | signalFailed
  | stopFailed
  | identityMismatch
  | noWorker

structure ProcessIdentity where
  pid : Nat
  startTimeTicks : Option Nat
  pid_ne_zero : pid ≠ 0
  deriving DecidableEq

def ProcessIdentity.new (pid : Nat) (startTimeTicks : Option Nat) : Option ProcessIdentity :=
  if h : pid = 0 then none else some ⟨pid, startTimeTicks, h⟩

namespace Host

def Running (h : Host) (child : Nat) : Prop := h.children[child]? = some .running

instance (h : Host) (child : Nat) : Decidable (h.Running child) :=
  inferInstanceAs (Decidable (_ = _))

/-- A process ends; one that has ended keeps its code. -/
def finish (child : Nat) (code : Option Int) (h : Host) : Host :=
  if h.Running child then { children := h.children.set child (.ended code) } else h

def exit (h : Host) (child : Nat) : Option WorkerExit :=
  match h.children[child]? with
  | some (.ended code) => some ⟨code⟩
  | _ => none

/-- `fork` and `exec`. -/
def spawn (h : Host) : Host := { children := h.children ++ [.running] }

variable {h : Host} {child other : Nat} {code : Option Int}

theorem running_finish : (h.finish child code).Running other ↔ h.Running other ∧ other ≠ child := by
  unfold finish
  by_cases hrun : h.Running child
  · rw [if_pos hrun]
    by_cases heq : other = child
    · subst heq
      have hlt : other < h.children.length := (List.getElem?_eq_some_iff.mp hrun).1
      simp [Running, hlt]
    · simp [Running, heq, Ne.symm heq]
  · rw [if_neg hrun]
    constructor
    · intro hother
      exact ⟨hother, fun heq => hrun (heq ▸ hother)⟩
    · exact And.left

theorem running_spawn : h.spawn.Running other ↔ h.Running other ∨ other = h.children.length := by
  unfold Running spawn
  rcases Nat.lt_trichotomy other h.children.length with hlt | heq | hgt
  · simp [List.getElem?_append_left hlt, Nat.ne_of_lt hlt]
  · simp [heq]
  · have hout : h.children.length ≤ other := Nat.le_of_lt hgt
    have hnone : (h.children ++ [Life.running])[other]? = none := by
      rw [List.getElem?_eq_none_iff, List.length_append, List.length_singleton]
      omega
    simp [hnone, List.getElem?_eq_none hout, Nat.ne_of_gt hgt]

theorem not_running_of_exit {exited : WorkerExit} (hexit : h.exit child = some exited) :
    ¬ h.Running child := by
  intro hrun
  unfold exit at hexit
  rw [hrun] at hexit
  cases hexit

end Host

/-- One call of `try_wait`: the process may have ended by now, and the call may fail. -/
structure Poll where
  ends : Option (Option Int) := none
  fails : Bool := false

/-- What a signal meets: the start time `/proc` shows, and the result of `kill`. -/
structure SignalAnswer where
  startTime : Option Nat
  delivered : Bool

/-- The answers to the calls of `stop`, in the order of the calls.  Every poll of the loop
comes with the time that has passed; `waited` is the exit code `wait` returns. -/
structure StopAnswers where
  first : Poll
  signal : SignalAnswer
  polls : List (Nat × Poll)
  killed : Bool
  waited : Option (Option Int)

/-- A child the operating system has started; no process is given the number 0. -/
structure Child where
  pid : Nat
  startTimeTicks : Option Nat
  pid_ne_zero : pid ≠ 0

structure SystemWorkerProcess where
  child : Nat
  identity : ProcessIdentity
  deriving DecidableEq

/-- Time has passed before a poll. -/
def Poll.elapse (poll : Poll) (child : Nat) (h : Host) : Host :=
  match poll.ends with
  | some code => h.finish child code
  | none => h

/-- `SystemWorkerBackend::start`. -/
def start (spawned : Option Child) : Io Host SupervisorError SystemWorkerProcess :=
  match spawned with
  | none => Io.throw .startFailed
  | some child => do
    let number ← gets fun h : Host => h.children.length
    modify Host.spawn
    match ProcessIdentity.new child.pid child.startTimeTicks with
    | none => Io.throw .startFailed
    | some identity => pure ⟨number, identity⟩

def ensureIdentity (identity : ProcessIdentity) (shown : Option Nat) :
    Except SupervisorError Unit :=
  match identity.startTimeTicks with
  | none => .ok ()
  | some expected => if shown = some expected then .ok () else .error .identityMismatch

/-- `libc::kill`, whose process number is an `i32`. -/
def sendSignal (identity : ProcessIdentity) (delivered : Bool) : Except SupervisorError Unit :=
  if identity.pid < 2 ^ 31 ∧ delivered = true then .ok () else .error .signalFailed

namespace SystemWorkerProcess

variable (self : SystemWorkerProcess)

def tryExit (poll : Poll) : Io Host SupervisorError (Option WorkerExit) := do
  modify (poll.elapse self.child)
  if poll.fails then Io.throw .observeFailed else gets fun h => h.exit self.child

/-- The signal is the same call for every number; what the worker does with it shows in
later polls. -/
def signal (_signal : WorkerSignal) (answer : SignalAnswer) : Io Host SupervisorError Unit := do
  ofExcept (ensureIdentity self.identity answer.startTime)
  ofExcept (sendSignal self.identity answer.delivered)

/-- The polling loop of `stop`: whether the worker was seen to have ended in time. -/
def awaitExit (self : SystemWorkerProcess) (timeout : Nat) :
    List (Nat × Poll) → Io Host SupervisorError Bool
  | [] => pure false
  | (elapsed, poll) :: polls =>
    if elapsed < timeout then do
      let exited ← self.tryExit poll
      if exited.isSome then pure true else self.awaitExit timeout polls
    else pure false

/-- `kill` and `wait`, the last resort of `stop`. -/
def kill (answers : StopAnswers) : Io Host SupervisorError Unit :=
  if answers.killed then
    match answers.waited with
    | some code => modify (Host.finish self.child code)
    | none => Io.throw .stopFailed
  else Io.throw .stopFailed

/-- What `stop` does with a worker that was seen running. -/
def terminate (self : SystemWorkerProcess) (timeout : Nat) (answers : StopAnswers) :
    Io Host SupervisorError Unit := do
  self.signal .terminate answers.signal
  let exited ← self.awaitExit timeout answers.polls
  if exited then pure () else self.kill answers

def stop (timeout : Nat) (answers : StopAnswers) : Io Host SupervisorError Unit := do
  let exited ← self.tryExit answers.first
  if exited.isSome then pure () else self.terminate timeout answers

end SystemWorkerProcess

/-! ## When a worker is stopped -/

def signalSent (identity : ProcessIdentity) (answer : SignalAnswer) : Bool :=
  (ensureIdentity identity answer.startTime).isOk && (sendSignal identity answer.delivered).isOk

/-- The worker ends during the polls of `stop` before one of them fails, or it is killed
once they have run out. -/
def pollsSettle (timeout : Nat) (killed : Bool) : List (Nat × Poll) → Bool
  | [] => killed
  | (elapsed, poll) :: polls =>
    if elapsed < timeout then
      poll.ends.isSome || (!poll.fails && pollsSettle timeout killed polls)
    else killed

/-- No call of `stop` fails before the worker has ended. -/
def StopAnswers.settles (answers : StopAnswers) (identity : ProcessIdentity) (timeout : Nat) :
    Bool :=
  answers.first.ends.isSome ||
    (!answers.first.fails && signalSent identity answers.signal &&
      pollsSettle timeout (answers.killed && answers.waited.isSome) answers.polls)

variable {h : Host} {child other timeout : Nat}

theorem Poll.running_elapse (poll : Poll) : (poll.elapse child h).Running other ↔
      h.Running other ∧ (other = child → poll.ends = none) := by
  unfold Poll.elapse
  cases hends : poll.ends with
  | none => simp
  | some code =>
    rw [Host.running_finish]
    simp

namespace SystemWorkerProcess

variable (self : SystemWorkerProcess) (answers : StopAnswers)

theorem tryExit_apply (poll : Poll) : self.tryExit poll h =
      (if poll.fails then .error .observeFailed
        else .done ((poll.elapse self.child h).exit self.child), poll.elapse self.child h) := by
  unfold tryExit
  cases poll.fails <;> rfl

theorem signal_snd (signal : WorkerSignal) (answer : SignalAnswer) :
    (self.signal signal answer h).2 = h := by
  unfold SystemWorkerProcess.signal
  cases ensureIdentity self.identity answer.startTime with
  | error e => rfl
  | ok u => cases sendSignal self.identity answer.delivered <;> rfl

theorem running_after_poll (poll : Poll) {α : Type} {ended : α}
    {next : Io Host SupervisorError α} {settled : Bool}
    (hnext : ∀ h : Host, (next h).2.Running other ↔
      h.Running other ∧ (other = self.child → settled = false)) :
    ((self.tryExit poll >>= fun exited => if exited.isSome then pure ended else next) h).2.Running
        other ↔ h.Running other ∧
        (other = self.child → (poll.ends.isSome || (!poll.fails && settled)) = false) := by
  have helapse : (poll.elapse self.child h).Running other ↔
      h.Running other ∧ (other = self.child → poll.ends = none) := poll.running_elapse
  have hends : poll.ends.isSome = false ↔ poll.ends = none := Option.isSome_eq_false_iff.trans
    Option.isNone_iff_eq_none
  cases hfails : poll.fails with
  | true =>
    rw [bind_of_error (by rw [tryExit_apply, hfails, if_pos rfl]), helapse]
    simp [hends]
  | false =>
    have hdone : self.tryExit poll h =
        (.done ((poll.elapse self.child h).exit self.child), poll.elapse self.child h) := by
      rw [tryExit_apply, hfails, if_neg Bool.false_ne_true]
    rw [bind_of_done hdone]
    cases hexit : (poll.elapse self.child h).exit self.child with
    | some exited =>
      -- seen to have ended: nothing else is done, and it does not run
      have hgone := Host.not_running_of_exit hexit
      change (poll.elapse self.child h).Running other ↔ _
      by_cases heq : other = self.child
      · subst heq
        rw [helapse] at hgone
        constructor
        · intro hrun
          exact absurd (helapse.mp hrun) hgone
        · rintro ⟨hrun, hall⟩
          have hnone := hends.mp (Bool.or_eq_false_iff.mp (hall rfl)).1
          exact absurd ⟨hrun, fun _ => hnone⟩ hgone
      · rw [helapse]
        simp [heq]
    | none =>
      change (next (poll.elapse self.child h)).2.Running other ↔ _
      rw [hnext]
      simp only [Bool.or_eq_false_iff, hends, Bool.not_false, Bool.true_and]
      tauto

theorem running_kill : (self.kill answers h).2.Running other ↔ h.Running other ∧
        (other = self.child → (answers.killed && answers.waited.isSome) = false) := by
  unfold kill
  cases answers.killed with
  | false => simp [Io.throw]
  | true =>
    cases answers.waited with
    | none => simp [Io.throw]
    | some code =>
      change (h.finish self.child code).Running other ↔ _
      rw [Host.running_finish]
      simp

theorem running_after_polls (polls : List (Nat × Poll)) :
    ((self.awaitExit timeout polls >>= fun exited =>
        if exited then pure () else self.kill answers) h).2.Running other ↔
      h.Running other ∧ (other = self.child →
        pollsSettle timeout (answers.killed && answers.waited.isSome) polls = false) := by
  induction polls generalizing h with
  | nil => exact self.running_kill answers
  | cons entry polls ih =>
    obtain ⟨elapsed, poll⟩ := entry
    unfold awaitExit pollsSettle
    by_cases htime : elapsed < timeout
    · rw [if_pos htime, if_pos htime]
      have hfold : (self.tryExit poll >>= fun exited =>
            if exited.isSome then pure true else self.awaitExit timeout polls) >>=
            (fun exited => if exited then pure () else self.kill answers) =
          self.tryExit poll >>= fun exited =>
            if exited.isSome then pure ()
            else self.awaitExit timeout polls >>= fun exited =>
              if exited then pure () else self.kill answers := by
        rw [bind_bind]
        congr 1
        funext exited
        cases exited <;> rfl
      rw [hfold]
      exact self.running_after_poll poll fun h => ih (h := h)
    · rw [if_neg htime, if_neg htime]
      exact self.running_kill answers

theorem running_terminate : (self.terminate timeout answers h).2.Running other ↔
      h.Running other ∧ (other = self.child → (signalSent self.identity answers.signal &&
          pollsSettle timeout (answers.killed && answers.waited.isSome) answers.polls) =
            false) := by
  unfold terminate signal signalSent
  cases ensureIdentity self.identity answers.signal.startTime with
  | error e =>
    change h.Running other ↔ _
    simp [Except.isOk, Except.toBool]
  | ok u =>
    cases sendSignal self.identity answers.signal.delivered with
    | error e =>
      change h.Running other ↔ _
      simp [Except.isOk, Except.toBool]
    | ok u => exact self.running_after_polls answers answers.polls

/-- `stop` leaves a worker running exactly when one of its calls fails before the worker
has ended; no other process is touched. -/
theorem running_stop : (self.stop timeout answers h).2.Running other ↔ h.Running other ∧
        (other = self.child → answers.settles self.identity timeout = false) := by
  unfold stop StopAnswers.settles
  rw [Bool.and_assoc]
  exact self.running_after_poll answers.first fun h => self.running_terminate answers

end SystemWorkerProcess

end NetHop.Supervisor
