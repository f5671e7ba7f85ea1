import NetHop.Capture.Executor

/-!
# Rolling a plan back in several calls

`NetworkExecutor::rollback` stops at the first step it cannot roll back and keeps in the
receipt how many are left, so that a later call goes on from there.  It tells the receipt of
another plan by its generation and slot alone, which a forwarding plan shares with its base.
-/

namespace NetHop.Capture

open Generation Netfilter List Backend Nat

/-- What `rollback` returns; `panicked` is an index outside the steps. -/
inductive RollbackOutcome where
  | ok
  | receiptMismatch
  | rollbackFailed (step : Nat)
  | panicked

namespace Backend

variable {σ : Type}

/-- The loop of `rollback_steps` from the number of steps left; the list is of the steps whose
rollback succeeds. -/
def rollbackLoop (B : Backend σ) (steps : List PlanStep) :
    Nat → σ → RollbackOutcome × List Nat × Nat × σ
  | 0, s => (.ok, [], 0, s)
  | index + 1, s =>
    match steps[index]? with
    | none => (.panicked, [], index + 1, s)
    | some step =>
      match B.executeRollback step s with
      | (true, s') =>
        let (outcome, undone, left, s'') := B.rollbackLoop steps index s'
        (outcome, index :: undone, left, s'')
      | (false, s') => (.rollbackFailed index, [], index + 1, s')

def rollbackSteps (B : Backend σ) (generation : GenerationId) (slot : PlanSlot)
    (steps : List PlanStep) (receipt : ApplyReceipt) (s : σ) :
    RollbackOutcome × List Nat × ApplyReceipt × σ :=
  if receipt.generation ≠ generation ∨ receipt.slot ≠ slot then (.receiptMismatch, [], receipt, s)
  else
    let (outcome, undone, completedSteps, s') := B.rollbackLoop steps receipt.completedSteps s
    (outcome, undone, { receipt with completedSteps }, s')

/-- Some calls with one receipt, and one more: what that one returns and the steps that were
rolled back in all. -/
def rollbackCalls (B : Backend σ) (generation : GenerationId) (slot : PlanSlot)
    (steps : List PlanStep) : Nat → ApplyReceipt → σ → RollbackOutcome × List Nat
  | 0, receipt, s =>
    let (outcome, undone, _, _) := B.rollbackSteps generation slot steps receipt s
    (outcome, undone)
  | calls + 1, receipt, s =>
    let (_, undone, receipt, s) := B.rollbackSteps generation slot steps receipt s
    let (outcome, others) := B.rollbackCalls generation slot steps calls receipt s
    (outcome, undone ++ others)

end Backend

/-- What `rollback` promises about the steps of a plan and a receipt. -/
structure RollsBack (generation : GenerationId) (slot : PlanSlot) (steps : List PlanStep)
    (receipt : ApplyReceipt) : Prop where
  inBounds : ∀ (σ : Type) (B : Backend σ) (s : σ),
    (B.rollbackSteps generation slot steps receipt s).1 ≠ .panicked
  /-- The steps that are rolled back are the last ones, last first, and a call succeeds exactly
  when they are all. -/
  resumes : ∀ (σ : Type) (B : Backend σ) (s₀ s : σ) (calls : Nat),
    (B.applySteps generation slot steps s₀).1 = .ok receipt →
    ∃ outcome left, B.rollbackCalls generation slot steps calls receipt s =
        (outcome, ((range steps.length).drop left).reverse) ∧
      (outcome = .ok ↔ left = 0) ∧ left ≤ steps.length

section

variable {σ : Type} {B : Backend σ} {generation : GenerationId} {slot : PlanSlot}
  {steps rest : List PlanStep} {receipt : ApplyReceipt} {left left' n : Nat}

theorem applyFrom_eq_ok {index : Nat} {s : σ}
    (h : (B.applyFrom steps index rest s).1 = .ok n) : n = index + rest.length := by
  induction rest generalizing index s with
  | nil =>
    cases h
    rfl
  | cons step rest ih =>
    cases hexecute : B.execute step.apply s with
    | mk result s₁ =>
      by_cases hresult : result = .ok true
      · subst hresult
        rw [applyFrom_cons_success hexecute] at h
        rw [ih h, length_cons]
        omega
      · rw [applyFrom_cons_failure hexecute hresult] at h
        split at h <;> cases h

theorem applySteps_eq_ok {s : σ} (h : (B.applySteps generation slot steps s).1 = .ok receipt) :
    receipt = ⟨generation, slot, steps.length⟩ := by
  unfold applySteps at h
  split at h
  next completed s' hrun =>
    cases h
    rw [applyFrom_eq_ok (congrArg Prod.fst hrun), Nat.zero_add]
  · cases h

theorem drop_range_append (h : left ≤ n) (h' : left' ≤ left) :
    ((range n).drop left).reverse ++ ((range left).drop left').reverse =
      ((range n).drop left').reverse := by
  have hparts : range left ++ (range n).drop left = range n := by
    rw [← take_append_drop left (range n), take_range, min_eq_left h]
    simp
  rw [← reverse_append, ← drop_append_of_le_length (by simpa using h'), hparts]

theorem rollbackLoop_spec (hleft : left ≤ steps.length) (s : σ) :
    ∃ outcome left' s', B.rollbackLoop steps left s =
        (outcome, ((range left).drop left').reverse, left', s') ∧
      left' ≤ left ∧ outcome ≠ .panicked ∧ (outcome = .ok ↔ left' = 0) := by
  induction left generalizing s with
  | zero => exact ⟨.ok, 0, s, rfl, le_refl _, nofun, by simp⟩
  | succ index ih =>
    rw [rollbackLoop, getElem?_eq_getElem hleft]
    dsimp only
    cases B.executeRollback steps[index] s with
    | mk done s₁ =>
      cases done with
      | false =>
        exact ⟨.rollbackFailed index, index + 1, s₁, by simp, le_refl _, nofun, by simp⟩
      | true =>
        obtain ⟨outcome, left', s', hloop, hle, hrest⟩ := ih (le_of_succ_le hleft) s₁
        refine ⟨outcome, left', s', ?_, le_succ_of_le hle, hrest⟩
        dsimp only
        rw [hloop, ← drop_range_append (le_succ index) hle]
        simp [range_succ]

theorem rollbackCalls_spec (hleft : left ≤ steps.length) (s : σ) (calls : Nat) :
    ∃ outcome left', B.rollbackCalls generation slot steps calls ⟨generation, slot, left⟩ s =
        (outcome, ((range left).drop left').reverse) ∧
      (outcome = .ok ↔ left' = 0) ∧ left' ≤ left := by
  induction calls generalizing left s with
  | zero =>
    obtain ⟨outcome, left', s', hloop, hle, -, hok⟩ := rollbackLoop_spec (B := B) hleft s
    exact ⟨outcome, left', by simp [rollbackCalls, rollbackSteps, hloop], hok, hle⟩
  | succ calls ih =>
    obtain ⟨first, left₁, s₁, hloop, hle, -⟩ := rollbackLoop_spec (B := B) hleft s
    obtain ⟨outcome, left', hcalls, hok, hle'⟩ := ih (le_trans hle hleft) s₁
    refine ⟨outcome, left', ?_, hok, le_trans hle' hle⟩
    rw [← drop_range_append hle hle']
    simp [rollbackCalls, rollbackSteps, hloop, hcalls]

end

/-- `rollback` keeps its promises for the receipts it refuses and for receipts of no more steps
than the plan has, and for no others. -/
theorem rollsBack_iff (generation : GenerationId) (slot : PlanSlot) (steps : List PlanStep)
    (receipt : ApplyReceipt) : RollsBack generation slot steps receipt ↔
      (receipt.generation ≠ generation ∨ receipt.slot ≠ slot) ∨
        receipt.completedSteps ≤ steps.length := by
  constructor
  · intro h
    by_contra hno
    simp only [not_or, not_not, not_le] at hno
    obtain ⟨hsame, hmany⟩ := hno
    obtain ⟨index, hindex⟩ := Nat.exists_eq_succ_of_ne_zero (Nat.ne_zero_of_lt hmany)
    -- the first index is outside already
    have hnone : steps[index]? = none := getElem?_eq_none (by omega)
    refine h.inBounds Unit ⟨fun _ s => (.ok true, s)⟩ () ?_
    simp [rollbackSteps, hsame, hindex, rollbackLoop, hnone]
  · intro h
    constructor
    · intro σ B s
      unfold rollbackSteps
      by_cases hmismatch : receipt.generation ≠ generation ∨ receipt.slot ≠ slot
      · rw [if_pos hmismatch]
        nofun
      · obtain ⟨outcome, left', s', hloop, -, hsafe, -⟩ :=
          rollbackLoop_spec (B := B) (h.resolve_left hmismatch) s
        rw [if_neg hmismatch, hloop]
        exact hsafe
    · intro σ B s₀ s calls happly
      cases applySteps_eq_ok happly
      exact rollbackCalls_spec (le_refl _) s calls

theorem samplePlan_receipt_panics :
    ∃ forwarding receipt, buildForwarding sampleGeneration .a samplePlan
        (samplePolicy .tproxy 0x200 (by decide)) ["wlan1"] = .ok forwarding ∧
      ((faulty fun _ => false).apply samplePlan (busyNetwork, 0)).1 = .ok receipt ∧
      ((faulty fun _ => false).rollbackSteps forwarding.generation forwarding.slot forwarding.steps
        receipt (busyNetwork, 0)).1 = .panicked := ⟨_, _, rfl, rfl, rfl⟩

end NetHop.Capture
