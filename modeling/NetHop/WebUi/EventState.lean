import NetHop.Runs
import NetHop.Wire.Types
import Mathlib.Logic.Function.Basic
import Mathlib.Tactic.SplitIfs

/-!
# The event state of the web interface

`EventStateMachine` follows one event stream.  A frame that breaks the stream leaves it
waiting for a new snapshot, but an item with the next number is still applied then.
-/

namespace NetHop.WebUi

/-- The kind of a payload: one of the kinds the stream is asked for, or one of the stream's own. -/
inductive EventKind where
  | snapshot | of (kind : Wire.EventKind) | resyncRequired | operation
  deriving DecidableEq

structure EventPayload where
  kind : EventKind
  value : Json

inductive EventFrame where
  | item (sequence : Nat) (payload : EventPayload)
  | fin
  | error

inductive StreamPhase where
  | awaitingSnapshot | live | resyncRequired | closed
  deriving DecidableEq

inductive ApplyResult where
  | snapshot | applied | duplicate | resync | closed

structure EventStateMachine where
  phase : StreamPhase := .awaitingSnapshot
  lastSequence : Nat := 0
  stale : Bool := true
  lastConfirmedAt : Option Nat := none
  snapshot : Option EventPayload := none
  latest : EventKind → Option EventPayload := fun _ => none
  diagnostics : Nat := 0

inductive Call where
  /-- `none` is a frame that `parseEventFrame` refuses. -/
  | apply (raw : Option EventFrame) (now : Nat)
  | markStale
  | beginResync
  | reset
  | close

namespace EventStateMachine

variable (m : EventStateMachine)

def markStale : EventStateMachine := if m.phase ≠ .closed then { m with stale := true } else m

def beginResync : EventStateMachine :=
  if m.phase ≠ .closed then { m with phase := .resyncRequired, stale := true } else m

def reset : EventStateMachine :=
  if m.phase ≠ .closed then
    { m with
      phase := .awaitingSnapshot, lastSequence := 0, stale := true, snapshot := none
      latest := fun _ => none }
  else m

def close : EventStateMachine := { m with phase := .closed, stale := true }

def diagnosed : EventStateMachine :=
  { m with phase := .resyncRequired, stale := true, diagnostics := m.diagnostics + 1 }

def apply (raw : Option EventFrame) (now : Nat) : Option ApplyResult × EventStateMachine :=
  if m.phase = .closed then (some .closed, m)
  else match raw with
    | none => (none, m)
    | some .error => (some .resync, m.diagnosed)
    | some .fin => (some .resync, { m with phase := .resyncRequired, stale := true })
    | some (.item sequence payload) =>
      if sequence ≤ m.lastSequence then (some .duplicate, m)
      else if m.phase = .awaitingSnapshot then
        if payload.kind ≠ .snapshot then (some .resync, m.diagnosed)
        else (some .snapshot,
          { m with
            snapshot := some payload
            latest := Function.update (fun _ => none) payload.kind (some payload)
            lastSequence := sequence, lastConfirmedAt := some now, phase := .live, stale := false })
      else if payload.kind = .resyncRequired ∨ m.lastSequence + 1 < sequence then
        (some .resync, m.diagnosed)
      else (some .applied,
        { m with
          latest := Function.update m.latest payload.kind (some payload)
          lastSequence := sequence, lastConfirmedAt := some now, stale := false })

def call : Call → Option ApplyResult × EventStateMachine
  | .apply raw now => m.apply raw now
  | .markStale => (none, m.markStale)
  | .beginResync => (none, m.beginResync)
  | .reset => (none, m.reset)
  | .close => (none, m.close)

end EventStateMachine

/-! ## The history -/

/-- The numbers of the last snapshot and of the events applied since; none once the stream
was reset or has to be resynchronised. -/
def follow (numbers : Option (List Nat)) : Call → Option ApplyResult → Option (List Nat)
  | .apply (some (.item n _)) _, some .snapshot => some [n]
  | .apply (some (.item n _)) _, some .applied => numbers.map (· ++ [n])
  | .reset, _ | .beginResync, _ | _, some .resync => none
  | _, _ => numbers

/-- A snapshot was accepted, and the numbers since are consecutive. -/
def InStep (numbers : Option (List Nat)) : Prop := ∃ n k, numbers = some (List.range' n (k + 1))

structure Followed where
  machine : EventStateMachine := {}
  numbers : Option (List Nat) := none

namespace Followed

variable (f : Followed) {c : Call}

def step (c : Call) : Followed :=
  ⟨(f.machine.call c).2, follow f.numbers c (f.machine.call c).1⟩

/-- Events are applied, and the state counts as current, only in step. -/
def Sound (c : Call) : Prop :=
  (f.machine.call c).1 = some .applied ∨ (f.step c).machine.stale = false →
    InStep (f.step c).numbers

/-- Between a frame that breaks the stream and the reset no item has the next number. -/
def Orderly : Call → Prop
  | .apply (some (.item n payload)) _ => f.machine.phase = .resyncRequired →
    n = f.machine.lastSequence + 1 → payload.kind = .resyncRequired
  | _ => True

structure Inv : Prop where
  live : f.machine.phase = .live →
    ∃ n k, f.numbers = some (List.range' n (k + 1)) ∧ f.machine.lastSequence = n + k
  waiting : f.machine.phase = .awaitingSnapshot ∨ f.machine.phase = .resyncRequired →
    f.numbers = none
  stale : f.machine.stale = false → f.machine.phase = .live

variable {f}

open EventStateMachine

theorem inv_initial : Inv {} := ⟨nofun, fun _ => rfl, nofun⟩

theorem Inv.step (h : f.Inv) (horderly : f.Orderly c) : (f.step c).Inv := by
  have hclosed (h' : f.machine.phase = .closed) : Inv ⟨f.machine, none⟩ :=
    ⟨fun hphase => by simp [h'] at hphase, fun _ => rfl, h.stale⟩
  rcases c with ⟨_ | ⟨n, payload⟩ | _ | _, now⟩ | _ | _ | _ | _ <;>
    simp only [Followed.step, call, markStale, beginResync, reset, apply]
  case apply.none => split_ifs <;> exact h
  case apply.some.fin | apply.some.error =>
    split_ifs
    · exact h
    · exact ⟨nofun, fun _ => rfl, nofun⟩
  case markStale =>
    split_ifs
    · exact ⟨h.live, h.waiting, nofun⟩
    · exact h
  case beginResync | reset =>
    split_ifs with hopen
    · exact ⟨nofun, fun _ => rfl, nofun⟩
    · exact hclosed (not_not.mp hopen)
  case close => exact ⟨nofun, nofun, nofun⟩
  case apply.some.item =>
    split_ifs with hclosed hold hawaiting hkind hbroken
    · exact h
    · exact h
    · exact ⟨nofun, fun _ => rfl, nofun⟩
    · exact ⟨fun _ => ⟨n, 0, rfl, rfl⟩, nofun, fun _ => rfl⟩
    · exact ⟨nofun, fun _ => rfl, nofun⟩
    · obtain ⟨hkind, hnext⟩ := not_or.mp hbroken
      have hn : n = f.machine.lastSequence + 1 := by omega
      have hphase : f.machine.phase = .live := by
        cases hphase : f.machine.phase with
        | live => rfl
        | closed => exact absurd hphase hclosed
        | awaitingSnapshot => exact absurd hphase hawaiting
        | resyncRequired => exact absurd (horderly hphase hn) hkind
      obtain ⟨m, k, hnumbers, hlast⟩ := h.live hphase
      refine ⟨fun _ => ⟨m, k + 1, ?_, by dsimp only; omega⟩, ?_, fun _ => hphase⟩
      · simp [follow, hnumbers, List.range'_1_concat, hn, hlast, Nat.add_assoc]
      · simp [hphase]

theorem stale_of_applied (h : (f.machine.call c).1 = some .applied) :
    (f.step c).machine.stale = false := by
  rcases c with ⟨_ | ⟨n, payload⟩ | _ | _, now⟩ | _ | _ | _ | _ <;>
    simp only [Followed.step, call, apply] at h ⊢
  case apply.some.item =>
    split_ifs at h ⊢
    · cases h
    · cases h
    · cases h
    · cases h
    · cases h
    · rfl
  case apply.none | apply.some.fin | apply.some.error => split_ifs at h <;> cases h
  all_goals cases h

theorem Inv.sound (h : f.Inv) (horderly : f.Orderly c) : f.Sound c := by
  intro happlied
  have hstale := happlied.elim stale_of_applied id
  obtain ⟨n, k, hnumbers, -⟩ := (h.step horderly).live ((h.step horderly).stale hstale)
  exact ⟨n, k, hnumbers⟩

theorem Inv.orderly (h : f.Inv) (hsound : f.Sound c) : f.Orderly c := by
  rcases c with ⟨_ | ⟨n, payload⟩ | _ | _, now⟩ | _ | _ | _ | _
  case apply.some.item =>
    intro hphase hn
    by_contra hkind
    have hcall : (f.machine.call (.apply (some (.item n payload)) now)).1 = some .applied := by
      simp [call, apply, hphase, hn, hkind]
    obtain ⟨m, k, hnumbers⟩ := hsound (.inl hcall)
    simp [Followed.step, follow, hcall, h.waiting (.inr hphase)] at hnumbers
  all_goals trivial

/-- The calls on a new machine are sound exactly when they are orderly. -/
theorem guarded_sound_iff_orderly (calls : List Call) :
    Runs.Guarded step Sound {} calls ↔ Runs.Guarded step Orderly {} calls := by
  constructor
  · exact .ensures (fun f c h hs => ⟨h.orderly hs, h.step (h.orderly hs)⟩) inv_initial
  · exact .ensures (fun f c h ho => ⟨h.sound ho, h.step ho⟩) inv_initial

/-- A snapshot, an error and the item after the snapshot. -/
theorem applied_while_broken :
    ¬ Runs.Guarded step Sound {} [.apply (some (.item 1 ⟨.snapshot, .null⟩)) 0,
      .apply (some .error) 0, .apply (some (.item 2 ⟨.of .config, .null⟩)) 0] := by
  rintro ⟨-, -, h, -⟩
  obtain ⟨n, k, hnumbers⟩ := h (.inl rfl)
  cases hnumbers

end Followed

end NetHop.WebUi
