import Mathlib.Tactic.Ring
import Mathlib.Data.List.Forall2

/-!
# Checks in order

A function that goes through a list of checks and fails with the error of the
first one that does not hold.
-/

namespace NetHop

open List

variable {ε α β : Type}

/-- `if !holds { return Err(error) }`. -/
def ensure (holds : Bool) (error : ε) : Except ε Unit := if holds then .ok () else .error error

def okOr (value : Option α) (error : ε) : Except ε α :=
  match value with
  | some a => .ok a
  | none => .error error

variable {f : α → Except ε β} {x : Except ε α}

@[simp] theorem bind_eq_ok {b : β} : (x >>= f) = .ok b ↔ ∃ a, x = .ok a ∧ f a = .ok b := by
  cases x with
  | error e =>
    constructor
    · intro h
      cases h
    · rintro ⟨a, h, -⟩
      cases h
  | ok a =>
    constructor
    · intro h
      exact ⟨a, rfl, h⟩
    · rintro ⟨c, h, hf⟩
      cases h
      exact hf

variable {error : ε}

@[simp] theorem ensure_eq_ok {holds : Bool} {u : Unit} :
    ensure holds error = .ok u ↔ holds = true := by
  cases holds with
  | false | true => simp [ensure]

@[simp] theorem okOr_eq_ok {value : Option α} {a : α} :
    okOr value error = .ok a ↔ value = some a := by
  cases value with
  | none | some b => simp [okOr]

variable {l : List α}

theorem forM_eq_ok {check : α → Except ε Unit} :
    l.forM check = .ok () ↔ ∀ a ∈ l, check a = .ok () := by
  induction l with
  | nil => simp [pure, Except.pure]
  | cons a l ih =>
    have hcons : (a :: l).forM check = check a >>= fun _ => l.forM check := rfl
    rw [hcons, bind_eq_ok, forall_mem_cons, ← ih]
    constructor
    · rintro ⟨_, ha, hl⟩
      exact ⟨ha, hl⟩
    · rintro ⟨ha, hl⟩
      exact ⟨(), ha, hl⟩

theorem exists_bind_eq_ok {a : α} (hx : x = .ok a) (hf : ∃ b, f a = .ok b) :
    ∃ b, (x >>= f) = .ok b := by
  rw [hx]
  exact hf

theorem exists_ensure_bind {holds : Bool} {f : Unit → Except ε β} (h : holds = true)
    (hf : ∃ b, f () = .ok b) : ∃ b, (ensure holds error >>= f) = .ok b :=
  exists_bind_eq_ok (ensure_eq_ok.mpr h) hf

@[simp] theorem mapError_eq_ok {ε' : Type} {f : ε → ε'} {a : α} :
    x.mapError f = .ok a ↔ x = .ok a := by
  cases x with
  | error e | ok b => simp [Except.mapError]

variable {l' : List β}

theorem mapM_eq_ok : l.mapM f = .ok l' ↔ List.Forall₂ (fun a b => f a = .ok b) l l' := by
  induction l generalizing l' with
  | nil =>
    rw [forall₂_nil_left_iff]
    constructor
    · intro h
      cases h
      rfl
    · rintro rfl
      rfl
  | cons a l ih =>
    rw [mapM_cons, forall₂_cons_left_iff]
    constructor
    · intro h
      obtain ⟨b, hb, h⟩ := bind_eq_ok.mp h
      obtain ⟨bs, hbs, h⟩ := bind_eq_ok.mp h
      cases h
      exact ⟨b, bs, hb, ih.mp hbs, rfl⟩
    · rintro ⟨b, bs, hb, hbs, rfl⟩
      exact bind_eq_ok.mpr ⟨b, hb, bind_eq_ok.mpr ⟨bs, ih.mpr hbs, rfl⟩⟩

theorem forall₂_iff_map_eq {f : β → α} : List.Forall₂ (fun a b => f b = a) l l' ↔ l'.map f = l := by
  rw [← forall₂_eq_eq_eq, forall₂_map_left_iff]
  exact ⟨.flip, .flip⟩

theorem map_eq_of_forall₂ {γ : Type} {f : α → γ} {g : β → γ}
    (h : List.Forall₂ (fun a b => g b = f a) l l') : l'.map g = l.map f := by
  rw [← forall₂_iff_map_eq, forall₂_map_left_iff]
  exact h

theorem forall_of_forall₂ {p : α → Prop} (h : List.Forall₂ (fun a _ => p a) l l') :
    ∀ a ∈ l, p a := by
  induction h with
  | nil => exact fun a ha => absurd ha not_mem_nil
  | cons ha _ ih => exact forall_mem_cons.mpr ⟨ha, ih⟩

end NetHop
