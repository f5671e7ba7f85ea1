import Mathlib.Data.List.Sort

/-!
# Sorted lists without repetitions

`sort` followed by `dedup`, as the policies keep their lists.  The result has the
members of the list it was made from and is strictly increasing, so a binary
search on it is membership.
-/

namespace NetHop

open List

variable {α : Type} [DecidableEq α]

/-- `Vec::dedup`: equal neighbours are kept once. -/
def dedup : List α → List α
  | [] => []
  | [x] => [x]
  | x :: y :: xs => if x = y then dedup (y :: xs) else x :: dedup (y :: xs)

variable {xs : List α}

@[simp] theorem mem_dedup {x : α} : x ∈ dedup xs ↔ x ∈ xs := by
  fun_induction dedup xs with
  | case1 => rfl
  | case2 => rfl
  | case3 y xs ih =>
    rw [ih]
    simp
  | case4 z y xs hne ih => rw [mem_cons, ih, mem_cons (a := x) (b := z)]

theorem length_dedup_le (xs : List α) : (dedup xs).length ≤ xs.length := by
  fun_induction dedup xs with
  | case1 => exact Nat.le_refl 0
  | case2 x => exact Nat.le_refl 1
  | case3 y xs ih => exact Nat.le_succ_of_le ih
  | case4 x y xs hne ih => exact Nat.succ_le_succ ih

theorem pairwise_dedup {r : α → α → Prop} (hanti : ∀ a b, r a b → r b a → a = b)
    (h : xs.Pairwise r) : (dedup xs).Pairwise fun a b => r a b ∧ a ≠ b := by
  fun_induction dedup xs with
  | case1 => exact .nil
  | case2 x => exact pairwise_singleton _ x
  | case3 y xs ih => exact ih (pairwise_cons.mp h).2
  | case4 x y xs hne ih =>
    obtain ⟨hx, htail⟩ := pairwise_cons.mp h
    refine pairwise_cons.mpr ⟨?_, ih htail⟩
    intro z hz
    rw [mem_dedup] at hz
    refine ⟨hx z hz, ?_⟩
    rintro rfl
    -- equal to a later member, `x` would lie on both sides of its neighbour
    rcases mem_cons.mp hz with heq | hz
    · exact hne heq
    · exact hne (hanti x y (hx y mem_cons_self) ((pairwise_cons.mp htail).1 x hz))

/-- `sort` and `dedup`. -/
def sortDedup (r : α → α → Prop) [DecidableRel r] (xs : List α) : List α :=
  dedup (xs.insertionSort r)

variable {r : α → α → Prop} [DecidableRel r]

@[simp] theorem mem_sortDedup {x : α} : x ∈ sortDedup r xs ↔ x ∈ xs := by
  unfold sortDedup
  rw [mem_dedup, mem_insertionSort]

theorem pairwise_sortDedup (htotal : ∀ a b, r a b ∨ r b a)
    (htrans : ∀ a b c, r a b → r b c → r a c) (hanti : ∀ a b, r a b → r b a → a = b)
    (xs : List α) : (sortDedup r xs).Pairwise fun a b => r a b ∧ a ≠ b := by
  have : Std.Total r := ⟨htotal⟩
  have : IsTrans α r := ⟨htrans⟩
  exact pairwise_dedup hanti (pairwise_insertionSort r xs)

theorem length_sortDedup_le (xs : List α) : (sortDedup r xs).length ≤ xs.length := by
  calc (sortDedup r xs).length ≤ (xs.insertionSort r).length := length_dedup_le _
    _ = xs.length := length_insertionSort r xs

@[simp] theorem sortDedup_eq_nil : sortDedup r xs = [] ↔ xs = [] := by
  constructor
  · intro h
    apply eq_nil_iff_forall_not_mem.mpr
    intro x hx
    have hmem : x ∈ sortDedup r xs := mem_sortDedup.mpr hx
    rw [h] at hmem
    cases hmem
  · rintro rfl
    rfl

end NetHop
