import Mathlib.Logic.Basic

/-!
# Runs of a system

A system takes actions one after another.  `Guarded` says that every action of a
run meets a condition in the state it is taken in; what such actions preserve,
the run preserves.
-/

namespace NetHop.Runs

variable {S A : Type} (step : S → A → S) (guard : S → A → Prop)

def run (s : S) (actions : List A) : S := actions.foldl step s

def Guarded : S → List A → Prop
  | _, [] => True
  | s, a :: actions => guard s a ∧ Guarded (step s a) actions

@[simp] theorem run_nil (s : S) : run step s [] = s := rfl

@[simp] theorem run_cons (s : S) (a : A) (actions : List A) :
    run step s (a :: actions) = run step (step s a) actions := rfl

variable {step guard} {actions : List A} {s : S} {I : S → Prop}

theorem run_invariant (hstep : ∀ s a, I s → guard s a → I (step s a)) (hs : I s)
    (h : Guarded step guard s actions) : I (run step s actions) := by
  induction actions generalizing s with
  | nil => exact hs
  | cons a actions ih => exact ih (hstep s a hs h.1) h.2

theorem guarded_append {first rest : List A} : Guarded step guard s (first ++ rest) ↔
      Guarded step guard s first ∧ Guarded step guard (run step s first) rest := by
  induction first generalizing s with
  | nil => simp [Guarded]
  | cons a first ih => simp [Guarded, ih, and_assoc]

theorem Guarded.take (h : Guarded step guard s actions) (n : Nat) :
    Guarded step guard s (actions.take n) := by
  induction actions generalizing s n with
  | nil => simp [Guarded]
  | cons a actions ih =>
    cases n with
    | zero => trivial
    | succ n => exact ⟨h.1, ih h.2 n⟩

/-- What the guard ensures of an action in a state with the invariant, it ensures of
every action of a run. -/
theorem Guarded.ensures {ensured : S → A → Prop}
    (hstep : ∀ s a, I s → guard s a → ensured s a ∧ I (step s a)) (hs : I s)
    (h : Guarded step guard s actions) : Guarded step ensured s actions := by
  induction actions generalizing s with
  | nil => trivial
  | cons a actions ih =>
    obtain ⟨ha, hnext⟩ := hstep s a hs h.1
    exact ⟨ha, ih hnext h.2⟩

theorem Guarded.and_of_forall {P : A → Prop} (h : Guarded step guard s actions)
    (hP : ∀ a ∈ actions, P a) : Guarded step (fun s a => guard s a ∧ P a) s actions := by
  induction actions generalizing s with
  | nil => trivial
  | cons a actions ih =>
    refine ⟨⟨h.1, hP a List.mem_cons_self⟩, ih h.2 fun b hb => ?_⟩
    exact hP b (List.mem_cons_of_mem _ hb)

theorem guarded_of_forall {P : A → Prop} (h : ∀ a ∈ actions, P a) (s : S) :
    Guarded step (fun _ a => P a) s actions := by
  induction actions generalizing s with
  | nil => trivial
  | cons a actions ih =>
    rw [List.forall_mem_cons] at h
    exact ⟨h.1, ih h.2 _⟩

theorem run_invariant_of_all (hstep : ∀ s a, I s → I (step s a)) (hs : I s) (actions : List A) :
    I (run step s actions) := by
  induction actions generalizing s with
  | nil => exact hs
  | cons a actions ih => exact ih (hstep s a hs)

end NetHop.Runs
