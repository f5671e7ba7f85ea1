import NetHop.FaultIo.Outcome

/-!
# Programs that time themselves

A program reads a clock that only goes forward.  How long it is until each
reading is not known to the program: a `Clock` is the time and the delays before
the readings to come, so "every scheduling of the program" is a quantifier over
lists of delays.

`measure` takes a reading before and after a part of the program and charges the
difference to a record.  `Economical` says that a program charges no more than
the time it takes; it holds of a program when it holds of its parts, because
parts that run one after the other take disjoint time.
-/

namespace NetHop.Stopwatch

open FaultIo

structure Clock where
  time : Nat
  /-- The delay before each of the readings to come; no delay after the last. -/
  delays : List Nat

namespace Clock

variable {c c' c'' : Clock}

def tick (c : Clock) : Clock :=
  match c.delays with
  | [] => c
  | delay :: delays => ⟨c.time + delay, delays⟩

/-- The time when all delays have passed. -/
def finish (c : Clock) : Nat := c.time + c.delays.sum

/-- `c'` is `c` after some readings. -/
structure Later (c c' : Clock) : Prop where
  time_le : c.time ≤ c'.time
  finish_eq : c'.finish = c.finish

theorem Later.refl (c : Clock) : c.Later c := ⟨Nat.le_refl _, rfl⟩

theorem Later.trans (h : c.Later c') (h' : c'.Later c'') : c.Later c'' :=
  ⟨Nat.le_trans h.time_le h'.time_le, h'.finish_eq.trans h.finish_eq⟩

theorem later_tick (c : Clock) : c.Later c.tick := by
  obtain ⟨time, delays⟩ := c
  cases delays with
  | nil => exact .refl _
  | cons delay delays =>
    refine ⟨Nat.le_add_right _ _, ?_⟩
    simp only [tick, finish, List.sum_cons]
    omega

theorem time_le_finish (c : Clock) : c.time ≤ c.finish := Nat.le_add_right _ _

theorem Later.time_le_finish (h : c.Later c') : c'.time ≤ c.finish := by
  rw [← h.finish_eq]
  exact c'.time_le_finish

end Clock

/-- A clock and the record that measured times are charged to. -/
structure Timed (τ : Type) where
  clock : Clock
  record : τ

variable {τ κ ε α β : Type}

def Timed.tick (s : Timed τ) : Timed τ := { s with clock := s.clock.tick }

def now : Io (Timed τ) ε Nat := fun s => (.done s.tick.clock.time, s.tick)

def update (f : τ → τ) : Io (Timed τ) ε Unit := .modify fun s => { s with record := f s.record }

/-- Run a program between two readings and charge the time between them, also
when it reports an error. -/
def measure (charge : Nat → τ → τ) (m : Io (Timed τ) ε α) : Io (Timed τ) ε α := fun s =>
  let ended := (m s.tick).2.tick
  ((m s.tick).1,
    { ended with record := charge (ended.clock.time - s.tick.clock.time) ended.record })

section

variable (rate : Nat) (weight : τ → Nat) (kept : τ → κ)

/-- From `s` to `s'` at most the time that passed was charged, `rate` units of
time for one of weight, and the `kept` part of the record is the same. -/
structure Spends (s s' : Timed τ) : Prop where
  later : s.clock.Later s'.clock
  charged : rate * weight s'.record + s.clock.time ≤ rate * weight s.record + s'.clock.time
  same : kept s'.record = kept s.record

/-- `m` charges no more than the time it takes, however it ends. -/
def Economical (m : Io (Timed τ) ε α) : Prop := ∀ s, Spends rate weight kept s (m s).2

end

variable {rate : Nat} {weight : τ → Nat} {kept : τ → κ}

theorem Spends.refl (s : Timed τ) : Spends rate weight kept s s := ⟨.refl _, Nat.le_refl _, rfl⟩

theorem Spends.trans {s s' s'' : Timed τ} (h : Spends rate weight kept s s')
    (h' : Spends rate weight kept s' s'') : Spends rate weight kept s s'' := by
  refine ⟨h.later.trans h'.later, ?_, h'.same.trans h.same⟩
  have := h.charged
  have := h'.charged
  omega

variable {m : Io (Timed τ) ε α} {charge : Nat → τ → τ}

namespace Economical

theorem ret (a : α) : Economical rate weight kept (pure a : Io (Timed τ) ε α) := fun s => .refl s

theorem fail (e : ε) : Economical rate weight kept (Io.throw e : Io (Timed τ) ε α) :=
  fun s => .refl s

theorem ofExcept (r : Except ε α) : Economical rate weight kept (Io.ofExcept r) := by
  intro s
  cases r with
  | ok a | error e => exact .refl s

theorem reading : Economical rate weight kept (now : Io (Timed τ) ε Nat) := by
  intro s
  have htick := s.clock.later_tick
  refine ⟨htick, ?_, rfl⟩
  exact Nat.add_le_add_left htick.time_le _

theorem updating {f : τ → τ} (hweight : ∀ r, weight (f r) = weight r)
    (hkept : ∀ r, kept (f r) = kept r) :
    Economical rate weight kept (update f : Io (Timed τ) ε Unit) := by
  intro s
  refine ⟨.refl _, ?_, hkept _⟩
  change rate * weight (f s.record) + _ ≤ _
  rw [hweight]
  exact Nat.le_refl _

theorem branch {c : Prop} [Decidable c] {m' : Io (Timed τ) ε α}
    (h : c → Economical rate weight kept m) (h' : ¬ c → Economical rate weight kept m') :
    Economical rate weight kept (if c then m else m') := by
  split
  · next hc => exact h hc
  · next hc => exact h' hc

theorem bind {f : α → Io (Timed τ) ε β} (hm : Economical rate weight kept m)
    (hf : ∀ a, Economical rate weight kept (f a)) : Economical rate weight kept (m >>= f) := by
  intro s
  have hfirst := hm s
  rw [Io.bind_apply]
  rcases hrun : m s with ⟨o, s'⟩
  rw [hrun] at hfirst
  cases o with
  | done a => exact hfirst.trans (hf a s')
  | error e | crashed => exact hfirst

theorem measured (hm : Economical rate weight kept m) (charge : Nat → τ → τ) (s : Timed τ) :
    ∃ spent r, (measure charge m s).2.record = charge spent r ∧ kept r = kept s.record ∧
      rate * weight r ≤ rate * weight s.record + spent ∧
      s.clock.Later (measure charge m s).2.clock ∧
      s.clock.time + spent ≤ (measure charge m s).2.clock.time := by
  have hinner := hm s.tick
  have hbefore := s.clock.later_tick
  have hafter := (m s.tick).2.clock.later_tick
  refine ⟨_, (m s.tick).2.record, rfl, hinner.same, ?_, ?_, ?_⟩
  · have hcharged := hinner.charged
    have := hafter.time_le
    change rate * weight (m s.tick).2.record + s.clock.tick.time ≤
      rate * weight s.record + (m s.tick).2.clock.time at hcharged
    change _ ≤ _ + ((m s.tick).2.clock.tick.time - s.clock.tick.time)
    omega
  · exact (hbefore.trans hinner.later).trans hafter
  · have := hbefore.time_le
    have := (hinner.later.trans hafter).time_le
    change s.clock.time + ((m s.tick).2.clock.tick.time - s.clock.tick.time) ≤
      (m s.tick).2.clock.tick.time
    change s.clock.tick.time ≤ _ at this
    omega

theorem measure (hm : Economical 0 weight (fun r => (weight r, kept r)) m)
    (hweight : ∀ d r, rate * weight (charge d r) ≤ rate * weight r + d)
    (hkept : ∀ d r, kept (charge d r) = kept r) :
    Economical rate weight kept (Stopwatch.measure charge m) := by
  intro s
  obtain ⟨spent, r, hrecord, hsame, -, hlater, htime⟩ := hm.measured charge s
  obtain ⟨hw, hk⟩ := Prod.mk.inj hsame
  refine ⟨hlater, ?_, ?_⟩
  · have hcharge := hweight spent r
    rw [hrecord]
    rw [hw] at hcharge
    omega
  · rw [hrecord, hkept, hk]

end Economical

theorem yields_now : Io.Yields (fun _ => True) (now : Io (Timed τ) ε Nat) := fun _ => trivial

theorem yields_measure {Q : α → Prop} (hm : m.Yields Q) :
    Io.Yields Q (measure charge m) := fun s => hm s.tick

end NetHop.Stopwatch
