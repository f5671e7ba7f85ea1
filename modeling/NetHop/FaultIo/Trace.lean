import NetHop.FaultIo.Outcome

/-!
# Killed programs leave a prefix of their effects

`Traces P m fs Q` says that `m`, started in `P`, performs exactly the effects
`fs` and returns with `Q`; killed on the way it has performed some prefix of
them.  The rules compose such lists along `bind`, so that a whole operation is
described by the list of durable steps a crash can cut.
-/

namespace NetHop.FaultIo

/-- The step does what it is asked to or is killed. -/
def Fault.NoFail (φ : Fault) : Prop := ∀ k, φ ≠ .fail k

namespace Io

variable {σ τ ε ε' α β : Type}

/-- `m` performs `fs`, or a prefix of it when it is killed. -/
def Traces (P : σ → Prop) (m : Io σ ε α) (fs : List (σ → σ)) (Q : α → σ → Prop) : Prop :=
  ∀ s, P s →
    (∃ a, m s = (.done a, applyAll fs s) ∧ Q a (applyAll fs s)) ∨
    (∃ k, m s = (.crashed, applyAll (fs.take k) s))

namespace Traces

variable {P : σ → Prop} {Q : α → σ → Prop} {fs : List (σ → σ)} {m : Io σ ε α}

theorem bind {R : β → σ → Prop} {f : α → Io σ ε β} {gs : List (σ → σ)} (hm : Traces P m fs Q)
    (hf : ∀ a, Traces (Q a) (f a) gs R) : Traces P (m >>= f) (fs ++ gs) R := by
  intro s hs
  rcases hm s hs with ⟨a, hrun, hq⟩ | ⟨k, hrun⟩
  · rw [bind_of_done hrun, applyAll_append]
    rcases hf a _ hq with hdone | ⟨k, hcrash⟩
    · exact .inl hdone
    · right
      refine ⟨fs.length + k, ?_⟩
      rw [hcrash, List.take_length_add_append, applyAll_append]
  · right
    -- Killed in the first half: a longer prefix could reach into `gs`.
    refine ⟨min k fs.length, ?_⟩
    rw [bind_of_crashed hrun, List.take_append_of_le_length (Nat.min_le_right _ _)]
    by_cases hk : k ≤ fs.length
    · rw [Nat.min_eq_left hk]
    · have hle : fs.length ≤ k := by omega
      rw [Nat.min_eq_right hle, List.take_of_length_le hle, List.take_length]

theorem conseq {P' : σ → Prop} {Q' : α → σ → Prop} (h : Traces P m fs Q) (hP : ∀ s, P' s → P s)
    (hQ : ∀ a s, Q a s → Q' a s) : Traces P' m fs Q' := by
  intro s hs
  rcases h s (hP s hs) with ⟨a, hrun, hq⟩ | hcrash
  · exact .inl ⟨a, hrun, hQ _ _ hq⟩
  · exact .inr hcrash

variable {R : σ → Prop}

theorem post (h : Traces P m fs Q) (hR : ∀ s, P s → R (applyAll fs s)) :
    Traces P m fs (fun a s => Q a s ∧ R s) := by
  intro s hs
  rcases h s hs with ⟨a, hrun, hq⟩ | hcrash
  · exact .inl ⟨a, hrun, hq, hR s hs⟩
  · exact .inr hcrash

theorem ret {a : α} (h : ∀ s, P s → Q a s) : Traces P (pure a : Io σ ε α) [] Q :=
  fun s hs => .inl ⟨a, rfl, h s hs⟩

theorem look {f : σ → α} (h : ∀ s, P s → Q (f s) s) : Traces P (gets f : Io σ ε α) [] Q :=
  fun s hs => .inl ⟨f s, rfl, h s hs⟩

theorem attempt (h : Traces P m fs Q) : Traces P (Io.attempt m : Io σ ε' (Except ε α)) fs
      (fun r s => ∃ a, r = .ok a ∧ Q a s) := by
  intro s hs
  unfold Io.attempt
  rcases h s hs with ⟨a, hrun, hq⟩ | ⟨k, hrun⟩
  · exact .inl ⟨.ok a, by rw [hrun], a, rfl, hq⟩
  · exact .inr ⟨k, by rw [hrun]⟩

theorem ignore (h : Traces P m fs fun _ => R) :
    Traces P (Io.ignore m : Io σ ε' Unit) fs (fun _ => R) := by
  intro s hs
  unfold Io.ignore
  rcases h s hs with ⟨a, hrun, hq⟩ | ⟨k, hrun⟩
  · exact .inl ⟨(), by rw [hrun], hq⟩
  · exact .inr ⟨k, by rw [hrun]⟩

theorem step {φ : Fault} {reason : ε} {effects : σ → Option (List (σ → σ))} (hφ : φ.NoFail)
    (heff : ∀ s, P s → effects s = some fs) (hR : ∀ s, P s → R (applyAll fs s)) :
    Traces P (Io.step φ reason effects) fs (fun _ => R) := by
  intro s hs
  unfold Io.step
  rw [heff s hs]
  cases φ with
  | none => exact .inl ⟨(), rfl, hR s hs⟩
  | fail k => exact absurd rfl (hφ k)
  | crash k => exact .inr ⟨k, rfl⟩

end Traces

/-! ## Programs on a part of the state -/

section Zoom

variable {get : σ → τ} {put : τ → σ → σ}

/-- An effect on a part, as an effect on the whole. -/
def lift (get : σ → τ) (put : τ → σ → σ) (f : τ → τ) (s : σ) : σ := put (f (get s)) s

theorem applyAll_lift (hget : ∀ t s, get (put t s) = t)
    (hput : ∀ t t' s, put t' (put t s) = put t' s)
    (hself : ∀ s, put (get s) s = s) (fs : List (τ → τ)) (s : σ) :
    applyAll (fs.map (lift get put)) s = put (applyAll fs (get s)) s := by
  induction fs generalizing s with
  | nil => exact (hself s).symm
  | cons f fs ih =>
    rw [List.map_cons, applyAll_cons, applyAll_cons, ih]
    unfold lift
    rw [hget, hput]

theorem Traces.zoom {P : τ → Prop} {m : Io τ ε α} {fs : List (τ → τ)} {Q : α → τ → Prop}
    (hget : ∀ t s, get (put t s) = t) (hput : ∀ t t' s, put t' (put t s) = put t' s)
    (hself : ∀ s, put (get s) s = s) (h : Traces P m fs Q) :
    Traces (fun s => P (get s)) (zoom get put m) (fs.map (lift get put))
      (fun a s => Q a (get s)) := by
  intro s hs
  rcases h (get s) hs with ⟨a, hrun, hq⟩ | ⟨k, hrun⟩
  · left
    refine ⟨a, ?_, ?_⟩
    · unfold Io.zoom
      rw [hrun, applyAll_lift hget hput hself]
    · rw [applyAll_lift hget hput hself]
      change Q a (get (put _ s))
      rw [hget]
      exact hq
  · right
    refine ⟨k, ?_⟩
    unfold Io.zoom
    rw [hrun, ← List.map_take, applyAll_lift hget hput hself]

theorem zoom_eq_done {m : Io τ ε α} {s s' : σ} {a : α} : zoom get put m s = (.done a, s') ↔
      ∃ t, m (get s) = (.done a, t) ∧ s' = put t s := by
  unfold zoom
  rcases m (get s) with ⟨o, t⟩
  simp only [Prod.mk.injEq]
  constructor
  · rintro ⟨rfl, rfl⟩
    exact ⟨t, ⟨rfl, rfl⟩, rfl⟩
  · rintro ⟨t', ⟨rfl, rfl⟩, rfl⟩
    exact ⟨rfl, rfl⟩

end Zoom

end Io

end NetHop.FaultIo
