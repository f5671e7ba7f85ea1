import Mathlib.Tactic.Ring

/-!
# Programs whose steps fail or are cut short

`Io σ ε α` is a program over a state `σ` that returns a value, reports an
error, or is killed.  Every step that touches the outside world is handed a
`Fault` saying how it ends, so "every choice of failing step" and "every crash
point" are both a quantifier over the faults of a run.

A step is a list of atomic effects.  `Fault.fail k` reports an error after the
first `k` of them have happened (`fail 0` has no effect, a large `k` means the
error is reported although all of the step took place); `Fault.crash k` kills
the program at the same place.  An error can be caught with `attempt`, a crash
cannot.
-/

namespace NetHop.FaultIo

/-- How one step of a program ends. -/
inductive Fault where
  | none
  | fail (applied : Nat)
  | crash (applied : Nat)
  deriving DecidableEq

def Fault.Fails (φ : Fault) : Prop := ∃ k, φ = .fail k

instance : DecidablePred Fault.Fails := fun φ =>
  match φ with
  | .fail k => .isTrue ⟨k, rfl⟩
  | .none | .crash _ => .isFalse nofun

inductive Outcome (ε α : Type) where
  | done (value : α)
  | error (reason : ε)
  | crashed
  deriving DecidableEq

/-- A program over `σ` with errors `ε` and result `α`. -/
def Io (σ ε α : Type) : Type := σ → Outcome ε α × σ

/-- Apply atomic effects from left to right. -/
def applyAll {σ : Type} (effects : List (σ → σ)) (s : σ) : σ :=
  effects.foldl (fun t f => f t) s

variable {σ : Type}

@[simp] theorem applyAll_nil (s : σ) : applyAll [] s = s := rfl

@[simp] theorem applyAll_cons (f : σ → σ) (fs : List (σ → σ)) (s : σ) :
    applyAll (f :: fs) s = applyAll fs (f s) := rfl

theorem applyAll_append (fs gs : List (σ → σ)) (s : σ) :
    applyAll (fs ++ gs) s = applyAll gs (applyAll fs s) := by
  simp [applyAll]

theorem applyAll_take_keeps {I : σ → Prop} {effects : List (σ → σ)}
    (h : ∀ f ∈ effects, ∀ s, I s → I (f s)) (k : Nat) {s : σ} (hs : I s) :
    I (applyAll (effects.take k) s) := by
  induction effects generalizing k s with
  | nil => simpa using hs
  | cons f fs ih =>
    cases k with
    | zero => simpa using hs
    | succ k =>
      exact ih (fun g hg => h g (List.mem_cons_of_mem _ hg)) k (h f List.mem_cons_self s hs)

namespace Io

variable {σ ε ε' α β : Type}

protected def pure (a : α) : Io σ ε α := fun s => (.done a, s)

protected def bind (m : Io σ ε α) (f : α → Io σ ε β) : Io σ ε β := fun s =>
  match m s with
  | (.done a, s') => f a s'
  | (.error e, s') => (.error e, s')
  | (.crashed, s') => (.crashed, s')

instance : Monad (Io σ ε) where
  pure := Io.pure
  bind := Io.bind

def throw (e : ε) : Io σ ε α := fun s => (.error e, s)

def abort : Io σ ε α := fun s => (.crashed, s)

def gets (f : σ → α) : Io σ ε α := fun s => (.done (f s), s)

/-- Change the state without a step that can fail. -/
def modify (f : σ → σ) : Io σ ε Unit := fun s => (.done (), f s)

/-- Run a program on a part of the state. -/
def zoom {τ : Type} (get : σ → τ) (put : τ → σ → σ) (m : Io τ ε α) : Io σ ε α := fun s =>
  ((m (get s)).1, put (m (get s)).2 s)

def mapError (f : ε → ε') (m : Io σ ε α) : Io σ ε' α := fun s =>
  match m s with
  | (.done a, s') => (.done a, s')
  | (.error e, s') => (.error (f e), s')
  | (.crashed, s') => (.crashed, s')

/-- `result?` for a result that was computed without a step. -/
def ofExcept : Except ε α → Io σ ε α
  | .ok a => fun s => (.done a, s)
  | .error e => fun s => (.error e, s)

variable (m : Io σ ε α)

/-- `match call { Ok(..) => .., Err(..) => .. }`: an error becomes a value. -/
def attempt : Io σ ε' (Except ε α) := fun s =>
  match m s with
  | (.done a, s') => (.done (.ok a), s')
  | (.error e, s') => (.done (.error e), s')
  | (.crashed, s') => (.crashed, s')

/-- `let _ = call`: the result of the call is dropped. -/
def ignore : Io σ ε' Unit := fun s =>
  match m s with
  | (.done _, s') => (.done (), s')
  | (.error _, s') => (.done (), s')
  | (.crashed, s') => (.crashed, s')

/-- `call.is_ok()`. -/
def succeeds : Io σ ε' Bool := fun s =>
  match m s with
  | (.done _, s') => (.done true, s')
  | (.error _, s') => (.done false, s')
  | (.crashed, s') => (.crashed, s')

/-- `a && call`: the call is only made when `a` holds. -/
def andAlso (a : Bool) (m : Io σ ε Bool) : Io σ ε Bool := if a then m else pure false

/-- One call to the system: `effects` is what it does in a given state, `none`
when the system refuses it there.  A refused call has no effect. -/
def step (φ : Fault) (reason : ε) (effects : σ → Option (List (σ → σ))) : Io σ ε Unit :=
  fun s =>
    match φ, effects s with
    | .none, some fs => (.done (), applyAll fs s)
    | .none, none => (.error reason, s)
    | .fail k, some fs => (.error reason, applyAll (fs.take k) s)
    | .fail _, none => (.error reason, s)
    | .crash k, some fs => (.crashed, applyAll (fs.take k) s)
    | .crash _, none => (.crashed, s)

/-- A call that only looks: it may fail but has no effect. -/
def probe (φ : Fault) (reason : ε) : Io σ ε Unit :=
  step φ reason fun _ => some []

/-- `Path::exists`, or a check of `symlink_metadata(..)` that reads every error as a no. -/
def lookup (φ : Fault) (p : σ → Bool) : Io σ ε Bool := fun s =>
  match φ with
  | .none => (.done (p s), s)
  | .fail _ => (.done false, s)
  | .crash _ => (.crashed, s)

@[simp] theorem pure_apply (a : α) (s : σ) : (pure a : Io σ ε α) s = (.done a, s) := rfl

theorem bind_apply (f : α → Io σ ε β) (s : σ) : (m >>= f) s = match m s with
      | (.done a, s') => f a s'
      | (.error e, s') => (.error e, s')
      | (.crashed, s') => (.crashed, s') := rfl

theorem bind_bind {γ : Type} (m : Io σ ε α) (f : α → Io σ ε β) (g : β → Io σ ε γ) :
    m >>= f >>= g = m >>= fun a => f a >>= g := by
  funext s
  change Io.bind (Io.bind m f) g s = Io.bind m (fun a => Io.bind (f a) g) s
  unfold Io.bind
  rcases m s with ⟨_ | _ | _, s'⟩ <;> rfl

section

variable {f : α → Io σ ε β} {m : Io σ ε α} {s s' : σ}

theorem bind_of_done {a : α} (h : m s = (.done a, s')) : (m >>= f) s = f a s' := by
  rw [bind_apply, h]

theorem bind_of_error {e : ε} (h : m s = (.error e, s')) : (m >>= f) s = (.error e, s') := by
  rw [bind_apply, h]

theorem bind_of_crashed (h : m s = (.crashed, s')) : (m >>= f) s = (.crashed, s') := by
  rw [bind_apply, h]

end

@[simp] theorem throw_apply (e : ε) (s : σ) : (throw e : Io σ ε α) s = (.error e, s) := rfl

@[simp] theorem modify_apply (f : σ → σ) (s : σ) :
    (modify f : Io σ ε Unit) s = (.done (), f s) := rfl

@[simp] theorem modify_bind_apply (f : σ → σ) (k : Unit → Io σ ε β) (s : σ) :
    ((modify f : Io σ ε Unit) >>= k) s = k () (f s) := rfl

@[simp] theorem gets_bind_apply (f : σ → α) (k : α → Io σ ε β) (s : σ) :
    ((gets f : Io σ ε α) >>= k) s = k (f s) s := rfl

theorem lookup_bind_apply {φ : Fault} (h : φ = .none) (p : σ → Bool) (k : Bool → Io σ ε β) (s : σ) :
    ((lookup φ p : Io σ ε Bool) >>= k) s = k (p s) s := by
  rw [h]
  rfl

@[simp] theorem ignore_snd (s : σ) : ((ignore m : Io σ ε' Unit) s).2 = (m s).2 := by
  unfold ignore
  split <;> simp_all

@[simp] theorem attempt_snd (s : σ) : ((attempt m : Io σ ε' (Except ε α)) s).2 = (m s).2 := by
  unfold attempt
  split <;> simp_all

@[simp] theorem succeeds_snd (s : σ) : ((succeeds m : Io σ ε' Bool) s).2 = (m s).2 := by
  unfold succeeds
  split <;> simp_all

theorem ignore_not_error (s : σ) (e : ε') : ((ignore m : Io σ ε' Unit) s).1 ≠ .error e := by
  unfold ignore
  split <;> simp

end Io

end NetHop.FaultIo
