import NetHop.Checked

/-!
# Computations that leave a trace

A computation that can fail and that leaves behind what it did, whether it fails or not.
A failure ends the computation; what was done before stays in the trace.
-/

namespace NetHop

structure Traced (ω ε α : Type) where
  trace : List ω
  result : Except ε α

namespace Traced

variable {ω ε ε' α β : Type}

def emit (e : ω) : Traced ω ε Unit := ⟨[e], .ok ()⟩

def lift (x : Except ε α) : Traced ω ε α := ⟨[], x⟩

protected def bind (x : Traced ω ε α) (f : α → Traced ω ε β) : Traced ω ε β :=
  match x.result with
  | .error e => ⟨x.trace, .error e⟩
  | .ok a => ⟨x.trace ++ (f a).trace, (f a).result⟩

instance : Monad (Traced ω ε) where
  pure a := lift (.ok a)
  bind := Traced.bind

def mapError (f : ε → ε') (x : Traced ω ε α) : Traced ω ε' α := ⟨x.trace, x.result.mapError f⟩

/-- A computation whose failure is looked at instead of passed on. -/
def attempt (x : Traced ω ε α) : Traced ω ε' (Except ε α) := ⟨x.trace, .ok x.result⟩

/-! ## What was done -/

@[simp] theorem trace_pure (a : α) : (pure a : Traced ω ε α).trace = [] := rfl

@[simp] theorem result_pure (a : α) : (pure a : Traced ω ε α).result = .ok a := rfl

@[simp] theorem trace_lift (x : Except ε α) : (lift x : Traced ω ε α).trace = [] := rfl

@[simp] theorem result_lift (x : Except ε α) : (lift x : Traced ω ε α).result = x := rfl

@[simp] theorem trace_emit (e : ω) : (emit e : Traced ω ε Unit).trace = [e] := rfl

@[simp] theorem result_emit (e : ω) : (emit e : Traced ω ε Unit).result = .ok () := rfl

@[simp] theorem trace_mapError (f : ε → ε') (x : Traced ω ε α) : (x.mapError f).trace = x.trace :=
  rfl

@[simp] theorem result_mapError (f : ε → ε') (x : Traced ω ε α) :
    (x.mapError f).result = x.result.mapError f := rfl

@[simp] theorem trace_attempt (x : Traced ω ε α) :
    (x.attempt : Traced ω ε' (Except ε α)).trace = x.trace := rfl

variable {x : Traced ω ε α} {f : α → Traced ω ε β}

theorem bind_of_ok {a : α} (h : x.result = .ok a) :
    x >>= f = ⟨x.trace ++ (f a).trace, (f a).result⟩ := by
  change Traced.bind x f = _
  rw [Traced.bind, h]

theorem bind_of_error {e : ε} (h : x.result = .error e) : x >>= f = ⟨x.trace, .error e⟩ := by
  change Traced.bind x f = _
  rw [Traced.bind, h]

theorem mem_trace_bind {e : ω} :
    e ∈ (x >>= f).trace ↔ e ∈ x.trace ∨ ∃ a, x.result = .ok a ∧ e ∈ (f a).trace := by
  cases h : x.result with
  | error err =>
    rw [bind_of_error h]
    simp
  | ok a =>
    rw [bind_of_ok h]
    simp

theorem result_bind_eq_ok {b : β} :
    (x >>= f).result = .ok b ↔ ∃ a, x.result = .ok a ∧ (f a).result = .ok b := by
  cases h : x.result with
  | error err =>
    rw [bind_of_error h]
    simp
  | ok a =>
    rw [bind_of_ok h]
    simp

theorem countP_trace_bind_le {p : ω → Bool} {n m : Nat}
    (hx : x.trace.countP p ≤ n) (hf : ∀ a, x.result = .ok a → (f a).trace.countP p ≤ m) :
    (x >>= f).trace.countP p ≤ n + m := by
  cases h : x.result with
  | error err =>
    rw [bind_of_error h]
    exact Nat.le_add_right_of_le hx
  | ok a =>
    rw [bind_of_ok h, List.countP_append]
    exact Nat.add_le_add hx (hf a h)

theorem countP_trace_lift_bind_le {p : ω → Bool} {x : Except ε α} {m : Nat}
    (hf : ∀ a, x = .ok a → (f a).trace.countP p ≤ m) : (lift x >>= f).trace.countP p ≤ m := by
  rw [← Nat.zero_add m]
  exact countP_trace_bind_le (Nat.le_refl 0) hf

end Traced

end NetHop
