import Mathlib.Logic.Function.Basic

/-!
# Steps that can be taken back

A step changes a state or refuses to, and so does its undo.  A list of steps is
applied in order and taken back in the opposite order.  The steps of a list may
work on parts of the state that do not touch each other; `Part` is such a part.
-/

namespace NetHop

open Function Option

variable {σ γ δ : Type}

structure UndoStep (σ : Type) where
  apply : σ → Option σ
  undo : σ → Option σ

namespace UndoStep

def Reversible (s : UndoStep σ) : Prop := ∀ n n', s.apply n = some n' → s.undo n' = some n

/-- An undo that is not refused changes the state. -/
def Effective (s : UndoStep σ) : Prop := ∀ n m, s.undo n = some m → m ≠ n

/-- The step `s` and its undo do the same after `t` as before it. -/
structure Independent (t s : UndoStep σ) : Prop where
  ready : ∀ {n n' m}, t.apply n = some n' → s.apply n = some m → ∃ m', s.apply n' = some m'
  refused : ∀ {n n'}, t.apply n = some n' → s.undo n = none → s.undo n' = none
  undone : ∀ {n n' m}, t.apply n = some n' → s.undo n = some m →
    ∃ m', t.apply m = some m' ∧ s.undo n' = some m'

def applyAll : List (UndoStep σ) → σ → Option σ
  | [], n => some n
  | s :: steps, n => (s.apply n).bind (applyAll steps)

/-- The last step is taken back first. -/
def undoAll : List (UndoStep σ) → σ → Option σ
  | [], n => some n
  | s :: steps, n => (undoAll steps n).bind s.undo

variable {s t : UndoStep σ} {steps : List (UndoStep σ)} {n n' m : σ}

theorem applyAll_cons_eq_some :
    applyAll (s :: steps) n = some n' ↔ ∃ m, s.apply n = some m ∧ applyAll steps m = some n' :=
  bind_eq_some_iff

theorem applyAll_append (steps' : List (UndoStep σ)) :
    applyAll (steps ++ steps') n = (applyAll steps n).bind (applyAll steps') := by
  induction steps generalizing n with
  | nil => rfl
  | cons s steps ih =>
    rw [List.cons_append, applyAll, applyAll, bind_assoc]
    exact bind_congr fun _ _ => ih

theorem undoAll_applyAll (hreversible : ∀ s ∈ steps, s.Reversible)
    (h : applyAll steps n = some n') : undoAll steps n' = some n := by
  induction steps generalizing n with
  | nil => exact congrArg some (some.inj h).symm
  | cons s steps ih =>
    rw [List.forall_mem_cons] at hreversible
    obtain ⟨m, hs, hsteps⟩ := applyAll_cons_eq_some.mp h
    rw [undoAll, ih hreversible.2 hsteps]
    exact hreversible.1 n m hs

theorem exists_applyAll (hindependent : steps.Pairwise Independent)
    (hready : ∀ s ∈ steps, ∃ m, s.apply n = some m) : ∃ n', applyAll steps n = some n' := by
  induction steps generalizing n with
  | nil => exact ⟨n, rfl⟩
  | cons s steps ih =>
    obtain ⟨hs, htail⟩ := List.pairwise_cons.mp hindependent
    rw [List.forall_mem_cons] at hready
    obtain ⟨⟨m, hm⟩, hready⟩ := hready
    obtain ⟨n', hn'⟩ := ih htail fun t ht =>
      (hready t ht).elim fun _ happly => (hs t ht).ready hm happly
    exact ⟨n', applyAll_cons_eq_some.mpr ⟨m, hm, hn'⟩⟩

variable (hindependent : ∀ t ∈ steps, Independent t s) (h : applyAll steps n = some n')

include hindependent h

theorem undo_refused_of_applyAll (hundo : s.undo n = none) : s.undo n' = none := by
  induction steps generalizing n with
  | nil => rwa [← some.inj h]
  | cons t steps ih =>
    rw [List.forall_mem_cons] at hindependent
    obtain ⟨m, ht, hsteps⟩ := applyAll_cons_eq_some.mp h
    exact ih hindependent.2 hsteps (hindependent.1.refused ht hundo)

theorem undo_of_applyAll (hundo : s.undo n = some m) :
    ∃ m', applyAll steps m = some m' ∧ s.undo n' = some m' := by
  induction steps generalizing n m with
  | nil =>
    cases h
    exact ⟨m, rfl, hundo⟩
  | cons t steps ih =>
    rw [List.forall_mem_cons] at hindependent
    obtain ⟨n₁, ht, hsteps⟩ := applyAll_cons_eq_some.mp h
    obtain ⟨m₁, ht', hundo'⟩ := hindependent.1.undone ht hundo
    obtain ⟨m', hsteps', hundo''⟩ := ih hindependent.2 hsteps hundo'
    exact ⟨m', applyAll_cons_eq_some.mpr ⟨m₁, ht', hsteps'⟩, hundo''⟩

end UndoStep

/-! ## Parts of a state -/

structure Part (σ γ : Type) where
  get : σ → γ
  set : γ → σ → σ
  get_set : ∀ c n, get (set c n) = c
  set_get : ∀ n, set (get n) n = n
  set_set : ∀ c d n, set c (set d n) = set c n

namespace Part

/-- A step on a part, as a step on the whole state. -/
def step (L : Part σ γ) (s : UndoStep γ) : UndoStep σ where
  apply n := (s.apply (L.get n)).map fun c => L.set c n
  undo n := (s.undo (L.get n)).map fun c => L.set c n

/-- Replacing one part neither changes nor disturbs the other. -/
structure Apart (L : Part σ γ) (M : Part σ δ) : Prop where
  get_left : ∀ d n, L.get (M.set d n) = L.get n
  get_right : ∀ c n, M.get (L.set c n) = M.get n
  comm : ∀ c d n, L.set c (M.set d n) = M.set d (L.set c n)

variable {L : Part σ γ} {M : Part σ δ} {s t : UndoStep γ} {u : UndoStep δ} {n n' : σ}

theorem Apart.symm (h : L.Apart M) : M.Apart L :=
  ⟨h.get_right, h.get_left, fun d c n => (h.comm c d n).symm⟩

theorem step_apply_eq_some :
    (L.step s).apply n = some n' ↔ ∃ c, s.apply (L.get n) = some c ∧ L.set c n = n' :=
  map_eq_some_iff

theorem step_undo_eq_some :
    (L.step s).undo n = some n' ↔ ∃ c, s.undo (L.get n) = some c ∧ L.set c n = n' := map_eq_some_iff

theorem step_undo_eq_none : (L.step s).undo n = none ↔ s.undo (L.get n) = none := map_eq_none_iff

theorem reversible (h : s.Reversible) : (L.step s).Reversible := by
  intro n n' happly
  obtain ⟨c, hc, rfl⟩ := step_apply_eq_some.mp happly
  refine step_undo_eq_some.mpr ⟨L.get n, ?_, ?_⟩
  · rw [L.get_set]
    exact h _ _ hc
  · rw [L.set_set, L.set_get]

theorem effective (h : s.Effective) : (L.step s).Effective := by
  intro n n' hundo heq
  obtain ⟨c, hc, rfl⟩ := step_undo_eq_some.mp hundo
  refine h _ _ hc ?_
  rw [← L.get_set c n, heq]

theorem independent (h : UndoStep.Independent t s) :
    UndoStep.Independent (L.step t) (L.step s) where
  ready := by
    intro n n' m ht hs
    obtain ⟨c, hc, rfl⟩ := step_apply_eq_some.mp ht
    obtain ⟨d, hd, rfl⟩ := step_apply_eq_some.mp hs
    obtain ⟨e, he⟩ := h.ready hc hd
    exact ⟨_, step_apply_eq_some.mpr ⟨e, by rwa [L.get_set], rfl⟩⟩
  refused := by
    intro n n' ht hs
    obtain ⟨c, hc, rfl⟩ := step_apply_eq_some.mp ht
    rw [step_undo_eq_none] at hs ⊢
    rw [L.get_set]
    exact h.refused hc hs
  undone := by
    intro n n' m ht hs
    obtain ⟨c, hc, rfl⟩ := step_apply_eq_some.mp ht
    obtain ⟨d, hd, rfl⟩ := step_undo_eq_some.mp hs
    obtain ⟨e, he, hundo⟩ := h.undone hc hd
    refine ⟨L.set e n, step_apply_eq_some.mpr ⟨e, ?_, ?_⟩, step_undo_eq_some.mpr ⟨e, ?_, ?_⟩⟩
    · rwa [L.get_set]
    · rw [L.set_set]
    · rwa [L.get_set]
    · rw [L.set_set]

theorem Apart.independent (h : L.Apart M) : UndoStep.Independent (M.step u) (L.step s) where
  ready := by
    intro n n' m ht hs
    obtain ⟨c, hc, rfl⟩ := step_apply_eq_some.mp ht
    obtain ⟨d, hd, rfl⟩ := step_apply_eq_some.mp hs
    exact ⟨_, step_apply_eq_some.mpr ⟨d, by rwa [h.get_left], rfl⟩⟩
  refused := by
    intro n n' ht hs
    obtain ⟨c, hc, rfl⟩ := step_apply_eq_some.mp ht
    rw [step_undo_eq_none] at hs ⊢
    rwa [h.get_left]
  undone := by
    intro n n' m ht hs
    obtain ⟨c, hc, rfl⟩ := step_apply_eq_some.mp ht
    obtain ⟨d, hd, rfl⟩ := step_undo_eq_some.mp hs
    refine ⟨M.set c (L.set d n), step_apply_eq_some.mpr ⟨c, ?_, rfl⟩,
      step_undo_eq_some.mpr ⟨d, ?_, h.comm d c n⟩⟩
    · rwa [h.get_right]
    · rwa [h.get_left]

/-! ### Parts of parts -/

variable {γ' δ' ε : Type}

def comp (L : Part σ γ) (M : Part γ δ) : Part σ δ where
  get n := M.get (L.get n)
  set d n := L.set (M.set d (L.get n)) n
  get_set d n := by rw [L.get_set, M.get_set]
  set_get n := by rw [M.set_get, L.set_get]
  set_set d e n := by rw [L.get_set, M.set_set, L.set_set]

theorem Apart.comp_left {M : Part γ δ} {N : Part γ ε} (h : M.Apart N) (L : Part σ γ) :
    (L.comp M).Apart (L.comp N) where
  get_left e n := by
    change M.get (L.get (L.set _ n)) = M.get (L.get n)
    rw [L.get_set, h.get_left]
  get_right d n := by
    change N.get (L.get (L.set _ n)) = N.get (L.get n)
    rw [L.get_set, h.get_right]
  comm d e n := by
    change L.set (M.set d (L.get (L.set (N.set e (L.get n)) n))) (L.set _ n) =
      L.set (N.set e (L.get (L.set (M.set d (L.get n)) n))) (L.set _ n)
    rw [L.get_set, L.get_set, L.set_set, L.set_set, h.comm]

theorem Apart.comp_comp {L' : Part σ γ'} (h : L.Apart L') (M : Part γ δ)
    (M' : Part γ' δ') : (L.comp M).Apart (L'.comp M') where
  get_left e n := congrArg M.get (h.get_left _ n)
  get_right d n := congrArg M'.get (h.get_right _ n)
  comm d e n := by
    change L.set (M.set d (L.get (L'.set _ n))) (L'.set _ n) =
      L'.set (M'.set e (L'.get (L.set _ n))) (L.set _ n)
    rw [h.get_left, h.get_right, h.comm]

variable {ι : Type} [DecidableEq ι] {β : ι → Type}

def entry (i : ι) : Part ((i : ι) → β i) (β i) where
  get f := f i
  set x f := update f i x
  get_set x f := update_self i x f
  set_get f := update_eq_self i f
  set_set x y f := update_idem y x f

theorem entry_apart {i j : ι} (h : i ≠ j) : (entry i : Part _ (β i)).Apart (entry j) where
  get_left y f := update_of_ne h y f
  get_right x f := update_of_ne h.symm x f
  comm x y f := update_comm h.symm y x f

end Part

end NetHop
