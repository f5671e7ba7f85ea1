import NetHop.FaultIo.Monad

/-!
# Crash triples

`Triple P m Q E C` says what a program run from `P` leaves behind on each of
its three exits: `Q` when it returns, `E` when it reports an error, `C` when it
is killed.  `Keeps I m` is the common case of an invariant that holds on all
three.  Both compose along `bind`, so an invariant of a whole operation comes
from what each of its steps does.
-/

namespace NetHop.FaultIo

namespace Io

variable {σ ε ε' α β : Type}

/-- What `m` leaves behind, on each way it can end, when run from `P`. -/
def Triple (P : σ → Prop) (m : Io σ ε α) (Q : α → σ → Prop) (E : ε → σ → Prop)
    (C : σ → Prop) : Prop :=
  ∀ s, P s →
    match m s with
    | (.done a, s') => Q a s'
    | (.error e, s') => E e s'
    | (.crashed, s') => C s'

/-- What `m` leaves behind when it returns, and what it leaves in any other case. -/
abbrev Leaves (P : σ → Prop) (m : Io σ ε α) (Q : α → σ → Prop) (R : σ → Prop) : Prop :=
  Triple P m Q (fun _ => R) R

/-- `m` keeps `I` however it ends. -/
def Keeps (I : σ → Prop) (m : Io σ ε α) : Prop := ∀ s, I s → I (m s).2

variable {m : Io σ ε α} {I : σ → Prop}

theorem keeps_iff_triple : Keeps I m ↔ Triple I m (fun _ => I) (fun _ => I) I := by
  constructor
  · intro h s hs
    have := h s hs
    split <;> simp_all
  · intro h s hs
    have := h s hs
    split at this <;> simp_all

variable {effects : σ → Option (List (σ → σ))} {reason : ε}

namespace Triple

variable {P : σ → Prop} {Q : α → σ → Prop} {E : ε → σ → Prop} {C : σ → Prop} {E' : ε → σ → Prop}
  {P' : σ → Prop} {C' : σ → Prop}

theorem conseq {Q' : α → σ → Prop}
    (h : Triple P m Q E C) (hP : ∀ s, P' s → P s) (hQ : ∀ a s, Q a s → Q' a s)
    (hE : ∀ e s, E e s → E' e s) (hC : ∀ s, C s → C' s) : Triple P' m Q' E' C' := by
  intro s hs
  have := h s (hP s hs)
  split at this
  · exact hQ _ _ this
  · exact hE _ _ this
  · exact hC _ this

theorem pre (h : Triple P m Q E C) (hP : ∀ s, P' s → P s) :
    Triple P' m Q E C := fun s hs => h s (hP s hs)

theorem post {Q' : α → σ → Prop} (h : Triple P m Q E C) (hQ : ∀ a s, Q a s → Q' a s) :
    Triple P m Q' E C := h.conseq (fun _ h => h) hQ (fun _ _ h => h) fun _ h => h

theorem stops (h : Triple P m Q E C)
    (hE : ∀ e s, E e s → E' e s) (hC : ∀ s, C s → C' s) : Triple P m Q E' C' :=
  h.conseq (fun _ h => h) (fun _ _ h => h) hE hC

theorem otherwise {R R' : σ → Prop} (h : Leaves P m Q R) (hR : ∀ s, R s → R' s) :
    Leaves P m Q R' := h.stops (fun _ => hR) hR

theorem bind {R : β → σ → Prop} {f : α → Io σ ε β} (hm : Triple P m Q E C)
    (hf : ∀ a, Triple (Q a) (f a) R E C) : Triple P (m >>= f) R E C := by
  intro s hs
  have hms := hm s hs
  rw [bind_apply]
  rcases hrun : m s with ⟨o, s'⟩
  rw [hrun] at hms
  cases o with
  | done a => exact hf a s' hms
  | error e | crashed => exact hms

theorem ret {a : α} (h : ∀ s, P s → Q a s) : Triple P (pure a : Io σ ε α) Q E C :=
  fun s hs => h s hs

theorem fail {e : ε} (h : ∀ s, P s → E e s) : Triple P (throw e : Io σ ε α) Q E C :=
  fun s hs => h s hs

theorem look {f : σ → α} (h : ∀ s, P s → Q (f s) s) : Triple P (gets f : Io σ ε α) Q E C :=
  fun s hs => h s hs

variable {E' : ε' → σ → Prop}

theorem attempt {Q' : Except ε α → σ → Prop}
    (h : Triple P m (fun a => Q' (.ok a)) (fun e => Q' (.error e)) C) :
    Triple P (Io.attempt m) Q' E' C := by
  intro s hs
  have hms := h s hs
  unfold Io.attempt
  rcases hrun : m s with ⟨o, s'⟩
  rw [hrun] at hms
  cases o <;> exact hms

theorem ignore {R : σ → Prop} (h : Triple P m (fun _ => R) (fun _ => R) C) :
    Triple P (Io.ignore m) (fun _ : Unit => R) E' C := by
  intro s hs
  have hms := h s hs
  unfold Io.ignore
  rcases hrun : m s with ⟨o, s'⟩
  rw [hrun] at hms
  cases o <;> exact hms

theorem succeeds {Q' : Bool → σ → Prop} (h : Triple P m (fun _ => Q' true) (fun _ => Q' false) C) :
    Triple P (Io.succeeds m) Q' E' C := by
  intro s hs
  have hms := h s hs
  unfold Io.succeeds
  rcases hrun : m s with ⟨o, s'⟩
  rw [hrun] at hms
  cases o <;> exact hms

theorem mapError {f : ε → ε'} (h : Triple P m Q (fun e => E' (f e)) C) :
    Triple P (Io.mapError f m) Q E' C := by
  intro s hs
  have hms := h s hs
  unfold Io.mapError
  rcases hrun : m s with ⟨o, s'⟩
  rw [hrun] at hms
  cases o <;> exact hms

variable {φ : Fault}

/-- The rule of one system call: every prefix of its effects is a state in
which it can fail or be cut short. -/
theorem step {Q : Unit → σ → Prop} (hrefused : ∀ s, P s → effects s = none → E reason s ∧ C s)
    (htorn : ∀ s fs, P s → effects s = some fs →
      ∀ k, E reason (applyAll (fs.take k) s) ∧ C (applyAll (fs.take k) s))
    (hall : ∀ s fs, P s → effects s = some fs → Q () (applyAll fs s)) :
    Triple P (Io.step φ reason effects) Q E C := by
  intro s hs
  unfold Io.step
  cases heff : effects s with
  | none =>
    cases φ <;> simp_all
  | some fs =>
    have hpre := htorn s fs hs heff
    have hdone := hall s fs hs heff
    cases φ with
    | none => exact hdone
    | fail k => exact (hpre k).1
    | crash k => exact (hpre k).2

theorem refused {Q : Unit → σ → Prop} (h : ∀ s, P s → effects s = none)
    (hE : ∀ s, P s → E reason s) (hC : ∀ s, P s → C s) :
    Triple P (Io.step φ reason effects) Q E C := by
  refine step (fun s hs _ => ⟨hE s hs, hC s hs⟩) (fun s fs hs heff => ?_) fun s fs hs heff => ?_
  · rw [h s hs] at heff
    cases heff
  · rw [h s hs] at heff
    cases heff

theorem call {Q : Unit → σ → Prop} {l : List (σ → σ)}
    (heff : ∀ s, P s → effects s = some l) (hdone : φ = .none → ∀ s, P s → Q () (applyAll l s))
    (hfail : ∀ k, φ = .fail k → ∀ s, P s → E reason (applyAll (l.take k) s))
    (hcrash : ∀ k, φ = .crash k → ∀ s, P s → C (applyAll (l.take k) s)) :
    Triple P (Io.step φ reason effects) Q E C := by
  intro s hs
  unfold Io.step
  rw [heff s hs]
  cases hφ : φ with
  | none => exact hdone hφ s hs
  | fail k => exact hfail k hφ s hs
  | crash k => exact hcrash k hφ s hs

theorem single {Q : Unit → σ → Prop} {f : σ → σ}
    (heff : ∀ s, P s → effects s = some [f]) (hdone : φ = .none → ∀ s, P s → Q () (f s))
    (hfail : ∀ k, φ = .fail k → ∀ s, P s → E reason (if k = 0 then s else f s))
    (hcrash : ∀ k, φ = .crash k → ∀ s, P s → C (if k = 0 then s else f s)) :
    Triple P (Io.step φ reason effects) Q E C := by
  have htake : ∀ k s, applyAll ([f].take k) s = if k = 0 then s else f s := by
    intro k s
    cases k with
    | zero => rfl
    | succ k => simp
  refine call heff hdone (fun k hk s hs => ?_) fun k hk s hs => ?_
  · rw [htake]
    exact hfail k hk s hs
  · rw [htake]
    exact hcrash k hk s hs

theorem lookup {p : σ → Bool} {Q : Bool → σ → Prop} (hseen : ∀ s, P s → Q (p s) s)
    (hmissed : φ.Fails → ∀ s, P s → Q false s) (hC : ∀ s, P s → C s) :
    Triple P (Io.lookup φ p : Io σ ε Bool) Q E C := by
  intro s hs
  cases φ with
  | none => exact hseen s hs
  | fail k => exact hmissed ⟨k, rfl⟩ s hs
  | crash k => exact hC s hs

theorem of_keeps (h : Keeps I m)
    (hdone : ∀ s a s', I s → m s = (.done a, s') → Q a s') : Triple I m Q (fun _ => I) I := by
  intro s hs
  have hkeep := h s hs
  rcases hm : m s with ⟨o, s'⟩
  rw [hm] at hkeep
  cases o with
  | done a => exact hdone s a s' hs hm
  | error e | crashed => exact hkeep

theorem crashed (h : Triple P m Q E C) {s : σ} (hs : P s) (hcrash : (m s).1 = .crashed) :
    C (m s).2 := by
  have hrun := h s hs
  rcases hm : m s with ⟨o, s'⟩
  rw [hm] at hrun hcrash
  cases hcrash
  exact hrun

theorem final {R S : σ → Prop} (h : Leaves P m Q R) {s : σ} (hs : P s) (hQ : ∀ a s, Q a s → S s)
    (hR : ∀ s, R s → S s) : S (m s).2 := by
  have hrun := h.conseq (fun _ h => h) hQ (fun _ => hR) hR s hs
  split at hrun <;> simp_all

theorem assuming {A : Prop} (h : A → Triple P m Q E C) :
    Triple (fun s => A ∧ P s) m Q E C := fun s hs => h hs.1 s hs.2

theorem frame (h : Triple P m Q E C) (hI : ∀ s, I s → I (m s).2) :
    Triple (fun s => P s ∧ I s) m (fun a s => Q a s ∧ I s) (fun e s => E e s ∧ I s)
      (fun s => C s ∧ I s) := by
  intro s hs
  have hrun := h s hs.1
  have hkeep := hI s hs.2
  rcases hm : m s with ⟨o, s'⟩
  rw [hm] at hrun hkeep
  cases o <;> exact ⟨hrun, hkeep⟩

theorem of_snd {R : σ → Prop} (h : ∀ s, P s → R (m s).2) :
    Triple P m (fun _ => R) (fun _ => R) R := by
  intro s hs
  have := h s hs
  split <;> simp_all

theorem of_allowed (hallowed : ∀ s, P s → (effects s).isSome)
    (hI : ∀ s, I s → I (Io.step φ reason effects s).2) :
    Triple (fun s => P s ∧ I s) (Io.step φ reason effects) (fun _ => I)
      (fun _ s => I s ∧ φ ≠ .none) (fun s => I s ∧ φ ≠ .none) := by
  intro s hs
  have hkeep := hI s hs.2
  obtain ⟨fs, hfs⟩ := Option.isSome_iff_exists.mp (hallowed s hs.1)
  unfold Io.step at hkeep ⊢
  rw [hfs] at hkeep ⊢
  cases φ with
  | none => exact hkeep
  | fail k | crash k => exact ⟨hkeep, by simp⟩

theorem keeps (h : Triple I m (fun _ => I) (fun _ => I) I) : Keeps I m := keeps_iff_triple.mpr h

end Triple

namespace Keeps

variable {I : σ → Prop} {f : α → Io σ ε β}

theorem bind (hm : Keeps I m) (hf : ∀ a, Keeps I (f a)) : Keeps I (m >>= f) := by
  rw [keeps_iff_triple] at hm ⊢
  exact hm.bind fun a => keeps_iff_triple.mp (hf a)

theorem bind_done (hm : Keeps I m)
    (hf : ∀ s a s', I s → m s = (.done a, s') → I s' → I (f a s').2) : Keeps I (m >>= f) := by
  intro s hs
  have hs' := hm s hs
  rw [bind_apply]
  split
  · next a s' hrun => rw [hrun] at hs'; exact hf s a s' hs hrun hs'
  · next hrun => rw [hrun] at hs'; exact hs'
  · next hrun => rw [hrun] at hs'; exact hs'

variable {o : Outcome ε α}

theorem holds (h : Keeps I m) {s s' : σ} (hs : I s) (hm : m s = (o, s')) : I s' := by
  have := h s hs
  rwa [hm] at this

theorem state_eq {s s' : σ} (h : Keeps (fun t => t = s) m) (hm : m s = (o, s')) :
    s' = s := h.holds rfl hm

theorem after {s : σ} (hs : I (m s).2) (hf : ∀ a, Keeps I (f a)) : I ((m >>= f) s).2 := by
  rw [bind_apply]
  split
  · next a s' hm => rw [hm] at hs; exact hf a s' hs
  · next e s' hm => rw [hm] at hs; exact hs
  · next s' hm => rw [hm] at hs; exact hs

theorem ret (a : α) : Keeps I (pure a : Io σ ε α) := fun _ hs => hs

theorem fail (e : ε) : Keeps I (throw e : Io σ ε α) := fun _ hs => hs

theorem look (f : σ → α) : Keeps I (gets f : Io σ ε α) := fun _ hs => hs

theorem lookup (φ : Fault) (p : σ → Bool) : Keeps I (Io.lookup φ p : Io σ ε Bool) := by
  intro s hs
  cases φ <;> exact hs

theorem attempt (h : Keeps I m) : Keeps I (Io.attempt m : Io σ ε' (Except ε α)) := by
  intro s hs
  rw [attempt_snd]
  exact h s hs

theorem ignore (h : Keeps I m) : Keeps I (Io.ignore m : Io σ ε' Unit) := by
  intro s hs
  rw [ignore_snd]
  exact h s hs

theorem succeeds (h : Keeps I m) : Keeps I (Io.succeeds m : Io σ ε' Bool) := by
  intro s hs
  rw [succeeds_snd]
  exact h s hs

theorem modify {f : σ → σ} (h : ∀ s, I s → I (f s)) : Keeps I (Io.modify f : Io σ ε Unit) :=
  fun s hs => h s hs

theorem mapError {f : ε → ε'} (h : Keeps I m) : Keeps I (Io.mapError f m) := by
  intro s hs
  have := h s hs
  unfold Io.mapError
  split <;> simp_all

theorem step {φ : Fault} (h : ∀ s fs, effects s = some fs → ∀ f ∈ fs, ∀ t, I t → I (f t)) :
    Keeps I (Io.step φ reason effects) := by
  rw [keeps_iff_triple]
  refine .step (fun s hs _ => ⟨hs, hs⟩) ?_ ?_
  · intro s fs hs heff k
    exact ⟨applyAll_take_keeps (h s fs heff) k hs, applyAll_take_keeps (h s fs heff) k hs⟩
  · intro s fs hs heff
    have := applyAll_take_keeps (h s fs heff) fs.length hs
    rwa [List.take_length] at this

theorem ofExcept (r : Except ε α) : Keeps I (Io.ofExcept r : Io σ ε α) := by
  intro s hs
  cases r <;> exact hs

theorem probe (φ : Fault) (reason : ε) : Keeps I (Io.probe φ reason) := step fun _ _ heff f hf => by
    cases heff
    cases hf

end Keeps

end Io

end NetHop.FaultIo
