import Mathlib.Data.List.Induction
import NetHop.Capture.Rollback

/-!
# Executing a plan

`NetworkExecutor` hands the operations of a plan to a backend.  When one of them
fails it rolls back every step up to and including the one that failed, and an
operation whose target is already absent counts as rolled back.  An
`HonestBackend` runs commands atomically on the network and reports what they did.
-/

namespace NetHop.Capture

open Generation Netfilter List UndoStep PlanStep

variable {σ : Type} {steps rest : List PlanStep} {step : PlanStep} {s s' : σ} {index i : Nat}
  {done : List PlanStep} {n : Network}

inductive CommandFailure where
  | spawn
  | timeout
  | output
  | absent
  deriving DecidableEq

/-- Whether the command exited with success, or why there is no exit status. -/
abbrev CommandResult := Except CommandFailure Bool

structure Backend (σ : Type) where
  execute : NetworkOperation → σ → CommandResult × σ

structure ApplyReceipt where
  generation : GenerationId
  slot : PlanSlot
  completedSteps : Nat
  deriving DecidableEq

inductive ExecutionError where
  | applyFailed (step : Nat)
  | applyRollbackFailed (applyStep rollbackStep : Nat)
  deriving DecidableEq

namespace Backend

def executeRollback (B : Backend σ) (step : PlanStep) (s : σ) : Bool × σ :=
  match B.execute step.rollback s with
  | (.ok success, s') => (success, s')
  | (.error .absent, s') => (true, s')
  | (.error _, s') => (false, s')

/-- The steps before `index + 1`, last first; all of them, also after a failure.  The result is the
first that failed. -/
def rollbackRange (B : Backend σ) (steps : List PlanStep) : Nat → σ → Option Nat × σ
  | 0, s => (none, s)
  | index + 1, s =>
    match steps[index]? with
    | some step =>
      let (done, s') := B.executeRollback step s
      let (failure, s'') := B.rollbackRange steps index s'
      (if done then failure else some index, s'')
    -- the range never reaches beyond the steps
    | none => B.rollbackRange steps index s

def applyFrom (B : Backend σ) (steps : List PlanStep) :
    Nat → List PlanStep → σ → Except ExecutionError Nat × σ
  | index, [], s => (.ok index, s)
  | index, step :: rest, s =>
    match B.execute step.apply s with
    | (.ok true, s') => B.applyFrom steps (index + 1) rest s'
    | (_, s') =>
      match B.rollbackRange steps (index + 1) s' with
      | (some rollbackStep, s'') => (.error (.applyRollbackFailed index rollbackStep), s'')
      | (none, s'') => (.error (.applyFailed index), s'')

def applySteps (B : Backend σ) (generation : GenerationId) (slot : PlanSlot)
    (steps : List PlanStep) (s : σ) : Except ExecutionError ApplyReceipt × σ :=
  match B.applyFrom steps 0 steps s with
  | (.ok completedSteps, s') => (.ok { generation, slot, completedSteps }, s')
  | (.error e, s') => (.error e, s')

def apply (B : Backend σ) (plan : NetworkPlan) (s : σ) : Except ExecutionError ApplyReceipt × σ :=
  B.applySteps plan.generation plan.slot plan.steps s

end Backend

open Backend

/-- Commands that succeed have their effect, those that fail have none, and a target is reported
absent when there is nothing to take off. -/
structure HonestBackend (σ : Type) extends Backend σ where
  network : σ → Network
  success : ∀ operation s, (execute operation s).1 = .ok true →
    operation.run (network s) = some (network (execute operation s).2)
  failure : ∀ operation s, (execute operation s).1 ≠ .ok true →
    network (execute operation s).2 = network s
  absent : ∀ operation s, (execute operation s).1 = .error .absent →
    operation.run (network s) = none

/-! ## What a run does -/

section

variable {B : Backend σ}

theorem rollbackRange_succ_eq_none (hstep : steps[index]? = some step)
    (h : B.rollbackRange steps (index + 1) s = (none, s')) :
    ∃ s₁, B.executeRollback step s = (true, s₁) ∧ B.rollbackRange steps index s₁ = (none, s') := by
  rw [rollbackRange, hstep] at h
  dsimp only at h
  rcases hdone : B.executeRollback step s with ⟨done, s₁⟩
  rw [hdone] at h
  rcases hrest : B.rollbackRange steps index s₁ with ⟨failure, s₂⟩
  simp only [hrest] at h
  cases done with
  | true => exact ⟨s₁, rfl, hrest.trans h⟩
  | false => cases h

theorem applyFrom_cons_success {s₁ : σ} (h : B.execute step.apply s = (.ok true, s₁)) :
    B.applyFrom steps index (step :: rest) s = B.applyFrom steps (index + 1) rest s₁ := by
  rw [applyFrom, h]

theorem applyFrom_cons_failure {result : CommandResult} {s₁ : σ}
    (h : B.execute step.apply s = (result, s₁)) (hresult : result ≠ .ok true) :
    B.applyFrom steps index (step :: rest) s = match B.rollbackRange steps (index + 1) s₁ with
      | (some rollbackStep, s₂) => (.error (.applyRollbackFailed index rollbackStep), s₂)
      | (none, s₂) => (.error (.applyFailed index), s₂) := by
  rw [applyFrom, h]
  cases result with
  | ok success =>
    cases success with
    | true => exact absurd rfl hresult
    | false => rfl
  | error e => rfl

theorem apply_eq_applyFailed {plan : NetworkPlan} : B.apply plan s = (.error (.applyFailed i), s') ↔
      B.applyFrom plan.steps 0 plan.steps s = (.error (.applyFailed i), s') := by
  unfold Backend.apply applySteps
  rcases B.applyFrom plan.steps 0 plan.steps s with ⟨result, s₁⟩
  cases result with
  | ok completed => exact iff_of_false nofun nofun
  | error e => simp

end

section

variable {H : HonestBackend σ}

theorem network_executeRollback (h : H.executeRollback step s = (true, s')) :
    H.network s' = (step.rollback.run (H.network s)).getD (H.network s) := by
  unfold executeRollback at h
  have hsuccess := H.success step.rollback s
  have hfailure := H.failure step.rollback s
  have habsent := H.absent step.rollback s
  revert h hsuccess hfailure habsent
  rcases H.execute step.rollback s with ⟨result, s₁⟩
  intro h hsuccess hfailure habsent
  cases result with
  | ok success =>
    cases h
    rw [hsuccess rfl]
    rfl
  | error e =>
    cases e with
    | absent =>
      cases h
      rw [habsent rfl]
      exact hfailure nofun
    | _ => cases h

theorem network_rollbackRange (hreversible : ∀ t ∈ done, t.undoStep.Reversible)
    (happly : applyAll (done.map undoStep) n = some (H.network s))
    (h : H.rollbackRange (done ++ rest) done.length s = (none, s')) : H.network s' = n := by
  induction done using reverseRecOn generalizing rest s with
  | nil =>
    cases h
    exact (Option.some.inj happly).symm
  | append_singleton done step ih =>
    rw [map_append, applyAll_append] at happly
    obtain ⟨m, hdone, hstep⟩ := Option.bind_eq_some_iff.mp happly
    obtain ⟨m', hm', hlast⟩ := applyAll_cons_eq_some.mp hstep
    cases hlast
    rw [length_append] at h
    have hget : (done ++ [step] ++ rest)[done.length]? = some step := by simp
    obtain ⟨s₁, hback, hrest⟩ := rollbackRange_succ_eq_none hget h
    rw [append_assoc] at hrest
    refine ih (fun t ht => hreversible t (mem_append_left _ ht)) ?_ hrest
    have hundo : step.rollback.run (H.network s) = some m :=
      hreversible step (mem_append_right _ (mem_singleton.mpr rfl)) m _ hm'
    rw [network_executeRollback hback, hundo]
    exact hdone

theorem applyFrom_eq_applyFailed
    (h : H.applyFrom steps index rest s = (.error (.applyFailed i), s')) :
    ∃ done step rest' s₁, rest = done ++ step :: rest' ∧ i = index + done.length ∧
      applyAll (done.map undoStep) (H.network s) = some (H.network s₁) ∧
      H.rollbackRange steps (i + 1) s₁ = (none, s') := by
  induction rest generalizing index s with
  | nil => cases h
  | cons step rest ih =>
    rcases hexecute : H.execute step.apply s with ⟨result, s₁⟩
    by_cases hresult : result = .ok true
    · subst hresult
      rw [applyFrom_cons_success hexecute] at h
      obtain ⟨done, t, rest', s₂, rfl, rfl, happly, hback⟩ := ih h
      have hstep := H.success step.apply s (by rw [hexecute])
      rw [hexecute] at hstep
      refine ⟨step :: done, t, rest', s₂, rfl, by rw [length_cons]; omega, ?_, hback⟩
      exact applyAll_cons_eq_some.mpr ⟨_, hstep, happly⟩
    · rw [applyFrom_cons_failure hexecute hresult] at h
      have hsame := H.failure step.apply s (by rwa [hexecute])
      rw [hexecute] at hsame
      rcases hback : H.rollbackRange steps (index + 1) s₁ with ⟨failure, s₂⟩
      rw [hback] at h
      cases failure with
      | some rollbackStep => cases h
      | none =>
        cases h
        exact ⟨[], step, rest, s₁, rfl, rfl, congrArg some hsame.symm, hback⟩

/-- A failed run restores the network unless the rollback of the step that failed has something to
take off that was there before. -/
theorem network_of_applyFailed (hsteps : Orderly steps)
    (h : H.applyFrom steps 0 steps s = (.error (.applyFailed i), s')) :
    ∃ done step rest, steps = done ++ step :: rest ∧ i = done.length ∧
      (∃ m, applyAll (done.map undoStep) (H.network s) = some m) ∧
      (H.network s' = H.network s ↔ step.rollback.run (H.network s) = none) := by
  obtain ⟨done, step, rest, s₁, hparts, rfl, happly, hback⟩ := applyFrom_eq_applyFailed h
  subst hparts
  rw [Nat.zero_add] at hback
  have hget : (done ++ step :: rest)[done.length]? = some step := by simp
  obtain ⟨s₂, hfirst, hrest⟩ := rollbackRange_succ_eq_none hget hback
  have hnetwork := network_executeRollback hfirst
  have hreversible : ∀ t ∈ done, t.undoStep.Reversible := fun t ht =>
    hsteps.reversible t (mem_append_left _ ht)
  have hindependent : ∀ t ∈ done.map undoStep, UndoStep.Independent t step.undoStep := by
    rw [forall_mem_map]
    intro t ht
    exact (pairwise_append.mp hsteps.independent).2.2 t ht step (mem_cons_self ..)
  refine ⟨done, step, rest, rfl, Nat.zero_add _, ⟨_, happly⟩, ?_⟩
  cases hundo : step.rollback.run (H.network s) with
  | none =>
    have hrefused : step.rollback.run (H.network s₁) = none :=
      undo_refused_of_applyAll hindependent happly hundo
    rw [hrefused, Option.getD_none] at hnetwork
    rw [← hnetwork] at happly
    exact iff_of_true (network_rollbackRange hreversible happly hrest) rfl
  | some m =>
    -- the foreign part is gone, and the rollbacks of the other steps do not bring it back
    obtain ⟨m', happly', hundo'⟩ := undo_of_applyAll hindependent happly hundo
    have hundo' : step.rollback.run (H.network s₁) = some m' := hundo'
    rw [hundo', Option.getD_some] at hnetwork
    rw [← hnetwork] at happly'
    have hend := network_rollbackRange hreversible happly' hrest
    rw [hend]
    exact iff_of_false (hsteps.effective step (by simp) _ _ hundo) nofun

end

/-! ## A failed plan -/

/-- Runs every command but those of the given numbers, which do not start. -/
def faulty (fails : Nat → Bool) : HonestBackend (Network × Nat) where
  execute operation s :=
    if fails s.2 then (.error .spawn, s.1, s.2 + 1)
    else
      match operation.run s.1 with
      | some n => (.ok true, n, s.2 + 1)
      | none => (.error .absent, s.1, s.2 + 1)
  network := Prod.fst
  success operation s h := by
    by_cases hfails : fails s.2 = true
    · rw [if_pos hfails] at h
      cases h
    · rw [if_neg hfails] at h ⊢
      cases hrun : operation.run s.1 with
      | some n => rfl
      | none =>
        rw [hrun] at h
        cases h
  failure operation s h := by
    by_cases hfails : fails s.2 = true
    · rw [if_pos hfails]
    · rw [if_neg hfails] at h ⊢
      cases hrun : operation.run s.1 with
      | some n =>
        rw [hrun] at h
        exact absurd rfl h
      | none => rfl
  absent operation s h := by
    by_cases hfails : fails s.2 = true
    · rw [if_pos hfails] at h
      cases h
    · rw [if_neg hfails] at h
      cases hrun : operation.run s.1 with
      | some n =>
        rw [hrun] at h
        cases h
      | none => rfl

section

variable {fails : Nat → Bool} {m : Network} {count : Nat}

theorem faulty_rollbackRange (hfails : ∀ k, count ≤ k → fails k = false) :
    ∃ s', (faulty fails).rollbackRange steps index (n, count) = (none, s') := by
  induction index generalizing n count with
  | zero => exact ⟨_, rfl⟩
  | succ index ih =>
    rw [rollbackRange]
    cases steps[index]? with
    | none => exact ih hfails
    | some step =>
      have hback : ∃ m, (faulty fails).executeRollback step (n, count) = (true, m, count + 1) := by
        unfold executeRollback
        simp only [faulty, hfails count (Nat.le_refl _), Bool.false_eq_true, if_false]
        cases step.rollback.run n with
        | some m => exact ⟨m, rfl⟩
        | none => exact ⟨n, rfl⟩
      obtain ⟨m, hm⟩ := hback
      have hrest : ∃ s', (faulty fails).rollbackRange steps index (m, count + 1) = (none, s') :=
        ih fun k hk => hfails k (by omega)
      obtain ⟨s', hs'⟩ := hrest
      simp [hm, hs']

theorem faulty_applyFrom (happly : applyAll (done.map undoStep) n = some m)
    (hfails : ∀ k, count ≤ k → (fails k = true ↔ k = count + done.length)) :
    ∃ s', (faulty fails).applyFrom steps index (done ++ step :: rest) (n, count) =
      (.error (.applyFailed (index + done.length)), s') := by
  induction done generalizing n count index with
  | nil =>
    have hfail : fails count = true := (hfails count (Nat.le_refl _)).mpr rfl
    have hexecute : (faulty fails).execute step.apply (n, count) =
        (.error .spawn, n, count + 1) := by
      simp [faulty, hfail]
    have hlater : ∀ k, count + 1 ≤ k → fails k = false := by
      intro k hk
      rw [← Bool.not_eq_true, hfails k (by omega), length_nil]
      omega
    obtain ⟨s', hs'⟩ := faulty_rollbackRange hlater
    rw [nil_append, applyFrom_cons_failure hexecute nofun, hs']
    exact ⟨s', rfl⟩
  | cons t done ih =>
    obtain ⟨n', ht, hdone⟩ := applyAll_cons_eq_some.mp happly
    have hworks : fails count = false := by
      rw [← Bool.not_eq_true, hfails count (Nat.le_refl _), length_cons]
      omega
    have hexecute : (faulty fails).execute t.apply (n, count) = (.ok true, n', count + 1) := by
      simp [faulty, hworks, show t.apply.run n = _ from ht]
    rw [cons_append, applyFrom_cons_success hexecute]
    have hlater : ∀ k, count + 1 ≤ k → (fails k = true ↔ k = count + 1 + done.length) := by
      intro k hk
      rw [hfails k (by omega), length_cons]
      omega
    obtain ⟨s', hs'⟩ := ih hdone hlater
    refine ⟨s', ?_⟩
    rw [hs', length_cons, Nat.add_right_comm, Nat.add_assoc]

end

/-- A failed plan leaves no trace, whatever the backend does, when none of the steps it can get to
finds something of others that its rollback takes off, and only then. -/
theorem planned_applyFailed_restores_iff {policy : CapturePolicy}
    {capabilities : CapabilityReport} {plan : NetworkPlan}
    (h : Planned policy capabilities plan) (n : Network) :
    (∀ (σ : Type) (H : HonestBackend σ) (s s' : σ) (i : Nat), H.network s = n →
        H.apply plan s = (.error (.applyFailed i), s') → H.network s' = n) ↔
      ∀ done step rest, plan.steps = done ++ step :: rest →
        (runAll n (done.map apply)).isSome = true → step.rollback.run n = none := by
  constructor
  · intro hrestores done step rest hparts hreached
    obtain ⟨m, hm⟩ := Option.isSome_iff_exists.mp hreached
    rw [runAll_apply] at hm
    -- a backend that lets the plan get to this step and fails it
    have hfails : ∀ k, 0 ≤ k → ((k == done.length) = true ↔ k = 0 + done.length) := by simp
    have hfail : ∃ s', (faulty (· == done.length)).applyFrom plan.steps 0 (done ++ step :: rest)
        (n, 0) = (.error (.applyFailed (0 + done.length)), s') := faulty_applyFrom hm hfails
    obtain ⟨s', hfail⟩ := hfail
    rw [← hparts] at hfail
    have hend := hrestores _ _ _ _ _ rfl (apply_eq_applyFailed.mpr hfail)
    obtain ⟨done', step', rest', hparts', hlength, -, hiff⟩ :=
      network_of_applyFailed h.orderly hfail
    rw [Nat.zero_add] at hlength
    obtain ⟨-, htail⟩ := append_inj (hparts.symm.trans hparts') hlength
    cases htail
    exact hiff.mp hend
  · intro hforeign σ H s s' i hn happly
    subst hn
    obtain ⟨done, step, rest, hparts, rfl, ⟨m, hm⟩, hiff⟩ :=
      network_of_applyFailed h.orderly (apply_eq_applyFailed.mp happly)
    refine hiff.mpr (hforeign done step rest hparts ?_)
    rw [runAll_apply, hm]
    rfl

theorem samplePlan_applyFailed_restores :
    ∃ s', (faulty (· == 1)).apply samplePlan (busyNetwork, 0) = (.error (.applyFailed 1), s') ∧
      s'.1 = busyNetwork := by
  have hquiet : ∀ step ∈ samplePlan.steps, (step.rollback.run busyNetwork).isNone = true := by
    decide
  refine ⟨_, rfl, (planned_applyFailed_restores_iff samplePlan_planned busyNetwork).mpr ?_
    _ (faulty (· == 1)) (busyNetwork, 0) _ 1 rfl rfl⟩
  intro done step rest hparts _
  exact Option.isNone_iff_eq_none.mp (hquiet step (by simp [hparts]))

/-- Another program has a route of its own like the one the plan adds. -/
def foreignRoute : Network :=
  { busyNetwork with routes := fun _ => [⟨100, .default "lo" true⟩] }

theorem samplePlan_takes_foreignRoute :
    Planned (samplePolicy .tproxy 0x200 (by decide)) sampleReport samplePlan ∧
      ((faulty fun _ => false).apply samplePlan (foreignRoute, 0)).1 = .error (.applyFailed 1) ∧
      ((faulty fun _ => false).apply samplePlan (foreignRoute, 0)).2.1.routes .ipv4 ≠
        foreignRoute.routes .ipv4 := ⟨samplePlan_planned, by decide, by decide⟩

end NetHop.Capture
