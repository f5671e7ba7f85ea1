import NetHop.FaultIo.Dir

/-!
# Exact outcomes

Where a triple bounds what a program may leave behind, the lemmas here say when
it succeeds and which state it leaves.  `bind_eq_done` takes a successful run
apart into the successful runs of its parts.
-/

namespace NetHop.FaultIo

open List Writable

namespace Fault

def applied (φ : Fault) (n : Nat) : Nat :=
  match φ with
  | .none => n
  | .fail k => k
  | .crash k => k

/-- All `n` effects of the step happen, whatever it reports. -/
def Completes (φ : Fault) (n : Nat) : Prop := n ≤ φ.applied n

instance (φ : Fault) (n : Nat) : Decidable (φ.Completes n) :=
  inferInstanceAs (Decidable (n ≤ _))

def NoCrash (φ : Fault) : Prop := ∀ k, φ ≠ .crash k

@[simp] theorem completes_none (n : Nat) : Fault.none.Completes n := Nat.le_refl n

@[simp] theorem noCrash_none : Fault.none.NoCrash := by
  intro k h
  cases h

end Fault

namespace Io

variable {σ ε ε' α β : Type} {m : Io σ ε α} {s s' : σ} {φ : Fault} {reason e : ε}
  {effects : σ → Option (List (σ → σ))} {f : α → Io σ ε β} {a : α} {s'' : σ}

theorem bind_eq_done {b : β} : (m >>= f) s = (.done b, s'') ↔
      ∃ a s', m s = (.done a, s') ∧ f a s' = (.done b, s'') := by
  rw [bind_apply]
  constructor
  · intro h
    split at h
    · next a s' hm => exact ⟨a, s', hm, h⟩
    · cases h
    · cases h
  · rintro ⟨a, s', hm, hf⟩
    rw [hm]
    exact hf

theorem bind_eq_error : (m >>= f) s = (.error e, s'') ↔
      m s = (.error e, s'') ∨ ∃ a s', m s = (.done a, s') ∧ f a s' = (.error e, s'') := by
  rw [bind_apply]
  rcases hm : m s with ⟨o, s'⟩
  cases o <;> simp

theorem bind_ends {o : Outcome ε β} (h : (m >>= f) s = (o, s'')) (ho : o ≠ .crashed) :
    (∃ e, o = .error e ∧ m s = (.error e, s'')) ∨
      ∃ a s', m s = (.done a, s') ∧ f a s' = (o, s'') := by
  cases o with
  | done b => exact .inr (bind_eq_done.mp h)
  | error e => exact (bind_eq_error.mp h).imp_left fun hm => ⟨e, rfl, hm⟩
  | crashed => exact absurd rfl ho

theorem mapError_eq_done {f : ε → ε'} : mapError f m s = (.done a, s') ↔ m s = (.done a, s') := by
  unfold mapError
  rcases m s with ⟨o, t⟩
  cases o <;> simp

theorem mapError_eq_error {f : ε → ε'} {e' : ε'} :
    mapError f m s = (.error e', s') ↔ ∃ e, e' = f e ∧ m s = (.error e, s') := by
  unfold mapError
  rcases m s with ⟨o, t⟩
  cases o <;> simp [eq_comm]

theorem mapError_snd (f : ε → ε') (m : Io σ ε α) (s : σ) : (mapError f m s).2 = (m s).2 := by
  unfold mapError
  rcases m s with ⟨o, t⟩
  cases o <;> rfl

theorem bind_snd_of_not_done (h : ¬ ∃ a s', m s = (.done a, s')) : ((m >>= f) s).2 = (m s).2 := by
  rw [bind_apply]
  split
  · next a s' hm => exact absurd ⟨a, s', hm⟩ h
  · next e s' hm => rw [hm]
  · next s' hm => rw [hm]

variable {u : Unit}

theorem step_eq_done : step φ reason effects s = (.done u, s') ↔
      φ = .none ∧ ∃ fs, effects s = some fs ∧ s' = applyAll fs s := by
  unfold step
  cases φ <;> cases effects s <;> simp [eq_comm]

theorem step_none_error (h : step .none reason effects s = (.error e, s')) : s' = s := by
  unfold step at h
  cases heff : effects s <;> simp [heff] at h
  exact h.2.symm

theorem step_snd (φ : Fault) (reason : ε) (effects : σ → Option (List (σ → σ))) (s : σ) :
    (step φ reason effects s).2 = match effects s with
      | some fs => applyAll (fs.take (φ.applied fs.length)) s
      | none => s := by
  unfold step Fault.applied
  cases φ <;> cases effects s <;> simp

@[simp] theorem probe_eq_done : probe φ reason s = (.done u, s') ↔ φ = .none ∧ s' = s := by
  unfold probe
  rw [step_eq_done]
  simp

theorem lookup_eq_done {p : σ → Bool} {b : Bool} : (lookup φ p : Io σ ε Bool) s = (.done b, s') ↔
      s' = s ∧ (φ = .none ∧ b = p s ∨ φ.Fails ∧ b = false) := by
  unfold lookup Fault.Fails
  cases φ <;> simp [eq_comm, and_comm]

theorem attempt_eq_done {r : Except ε α} : (attempt m : Io σ ε' (Except ε α)) s = (.done r, s') ↔
      (∃ a, r = .ok a ∧ m s = (.done a, s')) ∨ (∃ e, r = .error e ∧ m s = (.error e, s')) := by
  unfold attempt
  rcases m s with ⟨o, t⟩
  cases o <;> simp [eq_comm]

theorem attempt_of_error (h : m s = (.error e, s')) :
    (attempt m : Io σ ε' (Except ε α)) s = (.done (.error e), s') := by
  unfold attempt
  rw [h]

theorem attempt_of_done (h : m s = (.done a, s')) :
    (attempt m : Io σ ε' (Except ε α)) s = (.done (.ok a), s') := by
  unfold attempt
  rw [h]

theorem ignore_eq_done : (ignore m : Io σ ε' Unit) s = (.done u, s') ↔
      (∃ a, m s = (.done a, s')) ∨ (∃ e, m s = (.error e, s')) := by
  unfold ignore
  rcases m s with ⟨o, t⟩
  cases o <;> simp

theorem succeeds_eq_done {b : Bool} : (succeeds m : Io σ ε' Bool) s = (.done b, s') ↔
      (b = true ∧ ∃ a, m s = (.done a, s')) ∨ (b = false ∧ ∃ e, m s = (.error e, s')) := by
  unfold succeeds
  rcases m s with ⟨o, t⟩
  cases o <;> simp [eq_comm]

theorem step_single_eq_error {f : σ → σ} : step φ reason (fun _ => some [f]) s = (.error e, s') ↔
      e = reason ∧ ∃ k, φ = .fail k ∧ s' = if k = 0 then s else f s := by
  unfold step
  cases φ with
  | none | crash k => simp
  | fail k => cases k <;> simp [eq_comm]

theorem ignore_of_not_crashed (h : (m s).1 ≠ .crashed) :
    (ignore m : Io σ ε' Unit) s = (.done (), (m s).2) := by
  unfold ignore
  split
  · next hm => rw [hm]
  · next hm => rw [hm]
  · next hm => exact absurd (by rw [hm]) h

theorem ignore_throw_apply {m : Io σ ε' α} (h : (m s).1 ≠ .crashed) :
    ((ignore m : Io σ ε Unit) >>= fun _ => (throw e : Io σ ε β)) s = (.error e, (m s).2) := by
  rw [bind_of_done (ignore_of_not_crashed h)]
  rfl

def Returns (m : Io σ ε α) : Prop := ∀ s, (m s).1 ≠ .crashed

namespace Returns

theorem bind (hm : Returns m) (hf : ∀ a, Returns (f a)) : Returns (m >>= f) := by
  intro s h
  rw [bind_apply] at h
  split at h
  · next a s' _ => exact hf a s' h
  · cases h
  · next s' hs => exact hm s (by rw [hs])

theorem ret (a : α) : Returns (pure a : Io σ ε α) := by
  intro s h
  cases h

theorem fail (e : ε) : Returns (throw e : Io σ ε α) := by
  intro s h
  cases h

theorem look (f : σ → α) : Returns (gets f : Io σ ε α) := by
  intro s h
  cases h

theorem lookup (hφ : φ.NoCrash) (p : σ → Bool) : Returns (Io.lookup φ p : Io σ ε Bool) := by
  intro s h
  cases φ with
  | none | fail k => cases h
  | crash k => exact hφ k rfl

theorem ofExcept (r : Except ε α) : Returns (Io.ofExcept r : Io σ ε α) := by
  intro s h
  cases r <;> cases h

theorem attempt (hm : Returns m) : Returns (Io.attempt m : Io σ ε' (Except ε α)) := by
  intro s h
  unfold Io.attempt at h
  split at h
  · cases h
  · cases h
  · next hs => exact hm s (by rw [hs])

theorem step (hφ : φ.NoCrash) : Returns (Io.step φ reason effects) := by
  intro s h
  unfold Io.step at h
  cases φ with
  | none | fail k => cases hs : effects s <;> simp [hs] at h
  | crash k => exact hφ k rfl

theorem probe (hφ : φ.NoCrash) : Returns (Io.probe φ reason : Io σ ε Unit) := step hφ

theorem mapError {f : ε → ε'} (hm : Returns m) : Returns (Io.mapError f m) := by
  intro s h
  unfold Io.mapError at h
  split at h
  · cases h
  · cases h
  · next hs => exact hm s (by rw [hs])

theorem modify (f : σ → σ) : Returns (Io.modify f : Io σ ε Unit) := by
  intro s h
  cases h

theorem triple (hm : Returns m) {I : σ → Prop} (h : Keeps I m) :
    Triple I m (fun _ => I) (fun _ => I) (fun _ => False) := by
  intro s hs
  have hkeep := h s hs
  have hret := hm s
  rcases hrun : m s with ⟨o, s'⟩
  rw [hrun] at hkeep hret
  cases o with
  | done a | error e => exact hkeep
  | crashed => exact hret rfl

theorem exists_error (hm : Returns m) (h : ¬ ∃ a s', m s = (.done a, s')) :
    ∃ e, m s = (.error e, (m s).2) := by
  rcases hs : m s with ⟨o, s'⟩
  cases o with
  | done a => exact absurd ⟨a, s', hs⟩ h
  | error e => exact ⟨e, rfl⟩
  | crashed => exact absurd (by rw [hs]) (hm s)

end Returns

/-- `m` is not killed, and what it returns is in `Q`. -/
def Yields (Q : α → Prop) (m : Io σ ε α) : Prop :=
  ∀ s, match (m s).1 with
    | .done a => Q a
    | .error _ => True
    | .crashed => False

namespace Yields

variable {Q : α → Prop}

theorem ret (h : Q a) : Yields Q (pure a : Io σ ε α) := fun _ => h

theorem fail (e : ε) : Yields Q (throw e : Io σ ε α) := fun _ => trivial

theorem ofExcept (r : Except ε α) : Yields (r = .ok ·) (Io.ofExcept r : Io σ ε α) := by
  intro s
  cases r with
  | ok a => exact rfl
  | error e => trivial

theorem modify (f : σ → σ) : Yields (fun _ => True) (Io.modify f : Io σ ε Unit) := fun _ => trivial

theorem branch {c : Prop} [Decidable c] {m' : Io σ ε α} (h : c → Yields Q m)
    (h' : ¬ c → Yields Q m') : Yields Q (if c then m else m') := by
  split
  · next hc => exact h hc
  · next hc => exact h' hc

variable (hm : Yields Q m)

include hm

theorem mono {R : α → Prop} (h : ∀ a, Q a → R a) : Yields R m := by
  intro s
  have hrun := hm s
  cases ho : (m s).1 with
  | done a =>
    rw [ho] at hrun
    exact h a hrun
  | error e => trivial
  | crashed =>
    rw [ho] at hrun
    exact hrun

theorem ne_crashed (s : σ) : (m s).1 ≠ .crashed := by
  intro h
  have hrun := hm s
  rw [h] at hrun
  exact hrun

theorem of_done (h : m s = (.done a, s')) : Q a := by
  have hrun := hm s
  rw [h] at hrun
  exact hrun

theorem bind {R : β → Prop} (hf : ∀ a, Q a → Yields R (f a)) : Yields R (m >>= f) := by
  intro s
  have hfirst := hm s
  rw [bind_apply]
  rcases hrun : m s with ⟨o, s'⟩
  rw [hrun] at hfirst
  cases o with
  | done a => exact hf a hfirst s'
  | error e => trivial
  | crashed => exact hfirst

end Yields

/-- Every error `m` can report satisfies `E`. -/
def ErrorsIn (E : ε → Prop) (m : Io σ ε α) : Prop := ∀ s e s', m s = (.error e, s') → E e

namespace ErrorsIn

variable {E : ε → Prop}

theorem bind (hm : ErrorsIn E m) (hf : ∀ a, ErrorsIn E (f a)) : ErrorsIn E (m >>= f) := by
  intro s e s' h
  rcases bind_eq_error.mp h with h | ⟨a, s1, -, h⟩
  · exact hm s e s' h
  · exact hf a s1 e s' h

theorem ret (a : α) : ErrorsIn E (pure a : Io σ ε α) := by
  intro s e s' h
  cases h

theorem fail (h : E e) : ErrorsIn E (throw e : Io σ ε α) := by
  rintro s e' s' ⟨⟩
  exact h

theorem lookup (φ : Fault) (p : σ → Bool) : ErrorsIn E (Io.lookup φ p : Io σ ε Bool) := by
  intro s e s' h
  cases φ <;> cases h

theorem ignore {m : Io σ ε' α} : ErrorsIn E (Io.ignore m : Io σ ε Unit) :=
  fun s e s' h => absurd (by rw [h]) (ignore_not_error m s e)

theorem attempt {m : Io σ ε' α} : ErrorsIn E (Io.attempt m : Io σ ε (Except ε' α)) := by
  intro s e s' h
  unfold Io.attempt at h
  split at h <;> cases h

theorem succeeds {m : Io σ ε' α} : ErrorsIn E (Io.succeeds m : Io σ ε Bool) := by
  intro s e s' h
  unfold Io.succeeds at h
  split at h <;> cases h

theorem ends {o : Outcome ε β} (hm : ErrorsIn (fun _ => False) m) (h : (m >>= f) s = (o, s'))
    (ho : o ≠ .crashed) : ∃ a s1, m s = (.done a, s1) ∧ f a s1 = (o, s') := by
  rcases bind_ends h ho with ⟨e, -, herror⟩ | hdone
  · exact (hm s e s' herror).elim
  · exact hdone

theorem rest (hm : ErrorsIn (fun _ => False) m) (h : (m >>= f) s = (.error e, s')) :
    ∃ a s1, m s = (.done a, s1) ∧ f a s1 = (.error e, s') :=
  hm.ends h nofun

theorem step (h : E reason) : ErrorsIn E (Io.step φ reason effects) := by
  intro s e s' hrun
  unfold Io.step at hrun
  cases φ <;> cases heff : effects s <;> simp_all

theorem bind_attempt {f : Except ε α → Io σ ε β} (hm : ErrorsIn E m)
    (hok : ∀ a, ErrorsIn E (f (.ok a))) (herr : ∀ e, E e → ErrorsIn E (f (.error e))) :
    ErrorsIn E (Io.attempt m >>= f) := by
  intro s e s' h
  obtain ⟨r, s1, hatt, h⟩ := attempt.rest h
  rcases attempt_eq_done.mp hatt with ⟨a, rfl, -⟩ | ⟨e', rfl, hm'⟩
  · exact hok a s1 e s' h
  · exact herr e' (hm s e' s1 hm') s1 e s' h

end ErrorsIn

end Io

namespace Dir

variable {ν β : Type} [DecidableEq ν]

theorem del_set (d : Dir ν β) (n : ν) (v : β) : (d.set n v).del n = d.del n := by
  apply AList.ext
  exact kerase_cons_eq (s := (⟨n, v⟩ : Sigma fun _ : ν => β)) rfl

theorem del_of_get_eq_none {d : Dir ν β} {n : ν} (h : d.get n = none) : d.del n = d := by
  apply AList.ext
  have hmem : n ∉ d.names := by
    rw [mem_names, h]
    simp
  exact kerase_of_notMem_keys hmem

end Dir

namespace Tree

variable {ν κ β ε : Type} [DecidableEq ν] [DecidableEq κ]
  {φ : Fault} {reason : ε} {n : ν} {k : κ} {t t' : Tree ν κ β} {u : Unit}

/-! ## Files -/

theorem put_put (slot : Slot ν κ) (f g : File β) (t : Tree ν κ β) :
    put slot g (put slot f t) = put slot g t := by
  cases slot with
  | entry n =>
    rcases h : t.get n with _ | ⟨⟨f'⟩ | ⟨tgt⟩ | _⟩ | ch <;>
      simp [put, Slot.top, h, overwrite, Dir.set_set]
  | child n k =>
    rcases h : t.get n with _ | l | ch
    · simp [put, Slot.top, h]
    · simp [put, Slot.top, h]
    · rcases hk : ch.get k with _ | ⟨f'⟩ | ⟨tgt⟩ | _ <;>
        simp [put, Slot.top, h, hk, overwrite, Dir.set_set]

theorem applyAll_map_put (slot : Slot ν κ) (f : File β) (fs : List (File β)) (t : Tree ν κ β) :
    applyAll ((fs ++ [f]).map (put slot)) t = put slot f t := by
  induction fs generalizing t with
  | nil => rfl
  | cons g gs ih =>
    rw [cons_append, map_cons, applyAll_cons, ih, put_put]

theorem syncStates_eq [Writable β] (old : Option (Leaf β)) (content : β) :
    ∃ fs, syncStates old content = fs ++ [⟨content, true⟩] := by
  refine ⟨⟨empty, wasPrivate old⟩ :: ⟨empty, true⟩ :: (torn content).map (⟨·, true⟩), ?_⟩
  simp [syncStates, writeStates]

theorem writeSync_eq_done [Writable β] {slot : Slot ν κ} {content : β} :
    writeSync φ reason slot content t = (.done u, t') ↔
      φ = .none ∧ (t.leafAt slot).isSome ∧ t' = put slot ⟨content, true⟩ t := by
  unfold writeSync
  rw [Io.step_eq_done]
  cases h : t.leafAt slot with
  | none => simp
  | some old =>
    obtain ⟨fs, hfs⟩ := syncStates_eq old content
    simp [hfs, ← applyAll_map_put slot ⟨content, true⟩ fs t]

variable {children : Dir κ (Leaf β)}

theorem leafAt_child (h : t.get n = some (.dir children))
    (hk : children.get k = none) : t.leafAt (.child n k) = some none := by
  simp [leafAt, h, hk]

theorem get_put_child (h : t.get n = some (.dir children))
    (f : File β) : (put (.child n k) f t).get n =
      some (.dir (children.set k (overwrite (children.get k) f))) := by
  simp [put, Slot.top, h]

theorem writeNew_child_triple [Writable β] {content : β}
    (hk : children.get k = none) : Io.Triple (fun t : Tree ν κ β => t.get n = some (.dir children))
      (writeNew φ reason (.child n k) content)
      (fun _ t => φ = .none ∧ t.get n = some (.dir (children.set k (.file ⟨content, true⟩))))
      (fun _ _ => φ ≠ .none) (fun _ => φ ≠ .none) := by
  refine .call (fun t ht => by rw [leafAt_child ht hk]) (fun hφ t ht => ⟨hφ, ?_⟩)
    (fun i hi _ _ => by simp [hi]) fun i hi _ _ => by simp [hi]
  have hstates : (writeStates content).map (File.mk · true) =
      (empty :: torn content).map (.mk · true) ++ [⟨content, true⟩] := by
    simp [writeStates]
  rw [hstates, applyAll_map_put, get_put_child ht, hk]
  rfl

theorem get_put_entry (n : ν) (f : File β) (t : Tree ν κ β) :
    ∃ l, (put (.entry n : Slot ν κ) f t).get n = some (.leaf l) ∧
      l.read = some f.content ∧ l.resolves = true := by
  rcases h : t.get n with _ | ⟨⟨f'⟩ | ⟨tgt⟩ | _⟩ | ch <;>
    simp [put, Slot.top, h, overwrite, Leaf.read, Leaf.resolves]

/-! ## Renames -/

omit [DecidableEq κ] in
theorem rename_eq_done {p q : ν} : rename φ reason p q t = (.done u, t') ↔
      φ = .none ∧ t.canMove p q = true ∧ t' = move p q t := by
  unfold rename
  rw [Io.step_eq_done]
  by_cases h : t.canMove p q = true <;> simp [h]

omit [DecidableEq κ] in
theorem rename_snd (φ : Fault) (reason : ε) (p q : ν) (t : Tree ν κ β) : (rename φ reason p q t).2 =
      if t.canMove p q = true ∧ φ.Completes 1 then move p q t else t := by
  unfold rename
  rw [Io.step_snd]
  by_cases h : t.canMove p q = true
  · by_cases hk : 1 ≤ φ.applied 1
    · have htake : [move p q].take (φ.applied 1) = [move (κ := κ) (β := β) p q] :=
        take_of_length_le hk
      simp [h, Fault.Completes, hk, htake]
    · have hzero : φ.applied 1 = 0 := by omega
      simp [h, Fault.Completes, hzero]
  · simp [h]

omit [DecidableEq κ] in
theorem removeFile_eq_done : removeFile φ reason n t = (.done u, t') ↔
      φ = .none ∧ (∃ l, t.get n = some (.leaf l)) ∧ t' = unlink n t := by
  unfold removeFile
  rw [Io.step_eq_done]
  rcases h : t.get n with _ | l | ch <;> simp

/-! ## Directories -/

omit [DecidableEq κ] in
theorem createDir_eq_done : createDir φ reason n t = (.done u, t') ↔
      φ = .none ∧ t.get n = none ∧ t' = makeDir n t := by
  unfold createDir
  rw [Io.step_eq_done]
  cases h : t.get n <;> simp

theorem unlink_unlinkChild (n : ν) (k : κ) (t : Tree ν κ β) :
    unlink n (unlinkChild n k t) = unlink n t := by
  unfold unlinkChild
  split
  · exact Dir.del_set t n _
  · rfl

theorem applyAll_unlinkChild (n : ν) (ks : List κ) (t : Tree ν κ β) :
    applyAll (ks.map (unlinkChild n) ++ [unlink n]) t = unlink n t := by
  induction ks generalizing t with
  | nil => rfl
  | cons k ks ih =>
    rw [map_cons, cons_append, applyAll_cons, ih, unlink_unlinkChild]

/-- What `remove_dir_all` accepts. -/
def removable : Option (Node κ β) → Bool
  | some (.dir _) => true
  | some (.leaf (.symlink _)) => true
  | _ => false

theorem removeDirAll_eq_done : removeDirAll φ reason n t = (.done u, t') ↔
      φ = .none ∧ removable (t.get n) = true ∧ t' = unlink n t := by
  unfold removeDirAll
  rw [Io.step_eq_done]
  rcases h : t.get n with _ | ⟨⟨f⟩ | ⟨tgt⟩ | _⟩ | ch <;> simp [removable, applyAll_unlinkChild]

theorem isSome_get_unlinkChild (n : ν) (ks : List κ) (h : (t.get n).isSome) :
    ((applyAll (ks.map (unlinkChild n)) t).get n).isSome := by
  induction ks generalizing t with
  | nil => simpa using h
  | cons k ks ih =>
    rw [map_cons, applyAll_cons]
    apply ih
    unfold unlinkChild
    split
    · simp
    · exact h

theorem removeDirAll_get_eq_none (h : t.get n = some (.dir children)) :
    (removeDirAll φ reason n t).2.get n = none ↔ φ.Completes (children.names.length + 1) := by
  unfold removeDirAll Fault.Completes
  rw [Io.step_snd]
  simp only [h, length_append, length_map, length_singleton]
  generalize φ.applied (children.names.length + 1) = k
  by_cases hk : children.names.length + 1 ≤ k
  · rw [take_of_length_le (by simpa using hk), applyAll_unlinkChild]
    simp [hk]
  · rw [take_append_of_le_length (by simp; omega)]
    have hsome := isSome_get_unlinkChild n (children.names.take k) (t := t) (by rw [h]; rfl)
    rw [Option.isSome_iff_ne_none] at hsome
    rw [map_take] at hsome
    exact iff_of_false hsome hk

omit [DecidableEq ν] [DecidableEq κ] in
@[simp] theorem syncDirectory_eq_done :
    syncDirectory φ reason t = (.done u, t') ↔ φ = .none ∧ t' = t := Io.probe_eq_done

end Tree

end NetHop.FaultIo
