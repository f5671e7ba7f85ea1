import NetHop.Capture.Rollback
import NetHop.Netfilter.Saved

/-!
# The network with a plan in place

After the apply operations of a plan the chains of the plan hold the rules that the
plan has for them and no other, the hooks are in the built-in chains, and the routes
and policy rules are there.
-/

namespace NetHop.Capture

open Generation Netfilter List PlanStep Function Option

variable {n n' : Network} {family : IpFamily} {table : NetfilterTable} {chain : String}

def PlanStep.IsAction (s : PlanStep) : Prop := ∃ x : Action, x.Sound ∧ s.apply = x.apply

variable {rule : Rule} {rules : List KernelRule}

section

variable {s : PlanStep} (hs : s.IsAction) (hrun : s.apply.run n = some n')

include hs hrun

theorem tables_apply (family : IpFamily) (table : NetfilterTable) :
    (∃ a : Attachment, a.Fits (builtins table) ∧
        (∀ chain, s.rulesOf family table chain = rulesOn chain (a.hooks ++ a.body)) ∧
        (∀ name ∈ a.chains, (n.tables (family, table)).table.has name = false) ∧
        (n'.tables (family, table)).table = (n.tables (family, table)).table.attach a) ∨
      (∀ chain, s.rulesOf family table chain = []) ∧
        n'.tables (family, table) = n.tables (family, table) := by
  obtain ⟨x, hx, happly⟩ := hs
  have hstep : x.step.apply n = some n' := by
    rw [← Action.planStep_undoStep .netfilterRestore x]
    rwa [happly] at hrun
  cases x with
  | attach f t a =>
    have hrules : ∀ chain, s.rulesOf family table chain =
        if f = family ∧ t = table then rulesOn chain (a.hooks ++ a.body) else [] := by
      intro chain
      rw [← restoreStep_rulesOf .netfilterRestore]
      unfold rulesOf
      rw [happly]
      rfl
    obtain ⟨r, hr, rfl⟩ := Part.step_apply_eq_some.mp hstep
    by_cases hplace : f = family ∧ t = table
    · obtain ⟨rfl, rfl⟩ := hplace
      obtain ⟨hfresh, htable⟩ := (Attachment.step_apply_eq_some hx).mp hr
      refine .inl ⟨a, hx, fun chain => (hrules chain).trans (if_pos ⟨rfl, rfl⟩), hfresh, ?_⟩
      have hset : ((tablePart (f, t)).set r n).tables (f, t) = r := (tablePart (f, t)).get_set r n
      rw [hset]
      exact htable.symm
    · refine .inr ⟨fun chain => (hrules chain).trans (if_neg hplace), ?_⟩
      exact update_of_ne (fun heq => hplace ⟨(congrArg Prod.fst heq).symm,
        (congrArg Prod.snd heq).symm⟩) _ _
  | route f t device isLocal | policyRule f mark mask t priority =>
    obtain ⟨r, -, rfl⟩ := Part.step_apply_eq_some.mp hstep
    refine .inr ⟨fun chain => ?_, rfl⟩
    unfold rulesOf
    rw [happly]
    rfl

theorem holds_apply (h : (n.tables (family, table)).table.Holds chain rules) :
    (n'.tables (family, table)).table.Holds chain
      (rules ++ (s.rulesOf family table chain).map .known) := by
  rcases tables_apply hs hrun family table with ⟨a, -, hrules, hfresh, htable⟩ | ⟨hrules, htable⟩
  · rw [hrules, htable, ← rulesFor]
    exact h.attach hfresh
  · rw [hrules, htable, map_nil, append_nil]
    exact h

theorem holds_new (hown : chain ∉ builtins table) (hne : s.rulesOf family table chain ≠ []) :
    (n'.tables (family, table)).table.Holds chain ((s.rulesOf family table chain).map .known) := by
  rcases tables_apply hs hrun family table with ⟨a, ha, hrules, hfresh, htable⟩ | ⟨hrules, -⟩
  · rw [hrules] at hne ⊢
    rw [htable, ← rulesFor]
    refine Table.holds_attach ha.toValid hfresh ?_
    -- the hooks are in built-in chains, so the rule is one of the body
    obtain ⟨rule, hrule⟩ := exists_mem_of_ne_nil _ hne
    obtain ⟨x, hx, hif⟩ := mem_filterMap.mp hrule
    obtain ⟨rfl, -⟩ := ite_none_right_eq_some.mp hif
    rcases mem_append.mp hx with hx | hx
    · exact absurd (ha.hooked x hx) hown
    · exact ha.body_inside x hx
  · exact absurd (hrules chain) hne

theorem hasRule_apply {r : KernelRule} (h : (n.tables (family, table)).table.HasRule chain r) :
    (n'.tables (family, table)).table.HasRule chain r := by
  rcases tables_apply hs hrun family table with ⟨a, -, -, -, htable⟩ | ⟨-, htable⟩
  · rw [htable]
    exact h.attach
  · rwa [htable]

theorem hasRule_new (h : rule ∈ s.rulesOf family table chain) :
    (n'.tables (family, table)).table.HasRule chain (.known rule) := by
  rcases tables_apply hs hrun family table with ⟨a, ha, hrules, -, htable⟩ | ⟨hrules, -⟩
  · rw [hrules] at h
    obtain ⟨x, hx, hif⟩ := mem_filterMap.mp h
    obtain ⟨rfl, hrule⟩ := ite_none_right_eq_some.mp hif
    cases hrule
    rw [htable]
    refine Table.hasRule_attach hx ?_
    rw [Table.has_append, Bool.or_eq_true]
    rcases mem_append.mp hx with hx | hx
    · exact .inl ((n.tables (family, table)).has_builtin (ha.hooked x hx))
    · exact .inr (a.has_fresh.mpr (ha.body_inside x hx))
  · rw [hrules] at h
    cases h

end

/-! ## Runs of steps -/

variable {operation : NetworkOperation}

section

variable {steps : List PlanStep}

theorem runAll_cons_eq_some {operations : List NetworkOperation} :
    runAll n (operation :: operations) = some n' ↔
      ∃ m, operation.run n = some m ∧ runAll m operations = some n' := bind_eq_some_iff

section

variable (hsteps : ∀ s ∈ steps, s.IsAction) (hrun : runAll n (steps.map apply) = some n')

include hsteps hrun

theorem holds_runAll (h : (n.tables (family, table)).table.Holds chain rules) :
    (n'.tables (family, table)).table.Holds chain
      (rules ++ (steps.flatMap fun s => s.rulesOf family table chain).map .known) := by
  induction steps generalizing n rules with
  | nil =>
    cases hrun
    simpa using h
  | cons s steps ih =>
    rw [forall_mem_cons] at hsteps
    obtain ⟨m, hs, hrest⟩ := runAll_cons_eq_some.mp hrun
    rw [flatMap_cons, map_append, ← append_assoc]
    exact ih hsteps.2 hrest (holds_apply hsteps.1 hs h)

theorem holds_of_runAll (hown : chain ∉ builtins table)
    (hne : (steps.flatMap fun s => s.rulesOf family table chain) ≠ []) :
    (n'.tables (family, table)).table.Holds chain
      ((steps.flatMap fun s => s.rulesOf family table chain).map .known) := by
  induction steps generalizing n with
  | nil => exact absurd rfl hne
  | cons s steps ih =>
    rw [forall_mem_cons] at hsteps
    obtain ⟨m, hs, hrest⟩ := runAll_cons_eq_some.mp hrun
    rw [flatMap_cons] at hne ⊢
    by_cases hfirst : s.rulesOf family table chain = []
    · rw [hfirst] at hne ⊢
      exact ih hsteps.2 hrest hne
    · rw [map_append]
      exact holds_runAll hsteps.2 hrest (holds_new hsteps.1 hs hown hfirst)

theorem hasRule_of_runAll (h : (n.tables (family, table)).table.HasRule chain (.known rule) ∨
      rule ∈ steps.flatMap fun s => s.rulesOf family table chain) :
    (n'.tables (family, table)).table.HasRule chain (.known rule) := by
  induction steps generalizing n with
  | nil =>
    cases hrun
    exact h.resolve_right nofun
  | cons s steps ih =>
    rw [forall_mem_cons] at hsteps
    obtain ⟨m, hs, hrest⟩ := runAll_cons_eq_some.mp hrun
    refine ih hsteps.2 hrest ?_
    rw [flatMap_cons, mem_append] at h
    rcases h with h | h | h
    · exact .inl (hasRule_apply hsteps.1 hs h)
    · exact .inl (hasRule_new hsteps.1 hs h)
    · exact .inr h

end

/-! ## Routes and policy rules -/

def Brings (n : Network) : NetworkOperation → Prop
  | .policyRoute .add family table device isLocal =>
    ⟨table, .default device isLocal⟩ ∈ n.routes family
  | .policyRule .add family mark mask table priority =>
    .fwmark priority mark mask table ∈ n.rules family
  | _ => True

theorem subset_update_append {α ι : Type} [DecidableEq ι] (f : ι → List α) (i : ι) (x : α)
    (j : ι) : f j ⊆ update f i (f i ++ [x]) j := by
  by_cases heq : j = i
  · subst heq
    rw [update_self]
    exact subset_append_left _ _
  · rw [update_of_ne heq]
    exact .refl _

theorem mem_update_append {α ι : Type} [DecidableEq ι] (f : ι → List α) (i : ι) (x : α) :
    x ∈ update f i (f i ++ [x]) i := by
  rw [update_self]
  exact mem_append_right _ (mem_singleton.mpr rfl)

theorem brings_of_apply {s : PlanStep} (hs : s.IsAction) (hrun : s.apply.run n = some n') :
    (∀ family, n.routes family ⊆ n'.routes family) ∧
      (∀ family, n.rules family ⊆ n'.rules family) ∧ Brings n' s.apply := by
  obtain ⟨x, hx, happly⟩ := hs
  have hstep : x.step.apply n = some n' := by
    rw [← Action.planStep_undoStep .netfilterRestore x]
    rwa [happly] at hrun
  rw [happly]
  cases x with
  | attach family table a =>
    obtain ⟨r, -, rfl⟩ := Part.step_apply_eq_some.mp hstep
    exact ⟨fun _ => .refl _, fun _ => .refl _, trivial⟩
  | route family table device isLocal =>
    obtain ⟨routes, hroutes, rfl⟩ := Part.step_apply_eq_some.mp hstep
    simp only [routeStep, ite_none_left_eq_some, some.injEq] at hroutes
    obtain ⟨-, rfl⟩ := hroutes
    exact ⟨subset_update_append n.routes family _, fun _ => .refl _,
      mem_update_append n.routes family _⟩
  | policyRule family mark mask table priority =>
    obtain ⟨rules, hrules, rfl⟩ := Part.step_apply_eq_some.mp hstep
    simp only [ruleStep, ite_none_left_eq_some, some.injEq] at hrules
    obtain ⟨-, rfl⟩ := hrules
    exact ⟨fun _ => .refl _, subset_update_append n.rules family _,
      mem_update_append n.rules family _⟩

theorem brings_of_runAll (hsteps : ∀ s ∈ steps, s.IsAction)
    (hrun : runAll n (steps.map apply) = some n')
    (h : operation ∈ steps.map apply ∨ Brings n operation) : Brings n' operation := by
  induction steps generalizing n with
  | nil =>
    cases hrun
    exact h.resolve_left nofun
  | cons s steps ih =>
    rw [forall_mem_cons] at hsteps
    obtain ⟨m, hs, hrest⟩ := runAll_cons_eq_some.mp hrun
    obtain ⟨hroutes, hrules, hbrings⟩ := brings_of_apply hsteps.1 hs
    refine ih hsteps.2 hrest ?_
    rw [map_cons, mem_cons] at h
    rcases h with (rfl | h) | h
    · exact .inr hbrings
    · exact .inl h
    · right
      cases operation with
      | restore family payload => trivial
      | policyRoute action family table device isLocal =>
        cases action with
        | add => exact hroutes family h
        | delete => trivial
      | policyRule action family mark mask table priority =>
        cases action with
        | add => exact hrules family h
        | delete => trivial

end

/-! ## Plans -/

section

variable {policy : CapturePolicy} {capabilities : CapabilityReport} {plan : NetworkPlan}

theorem Orderly.isAction {steps : List PlanStep} (h : Orderly steps) : ∀ s ∈ steps, s.IsAction := by
  intro s hs
  obtain ⟨x, hsound, -, happly⟩ := h.action s hs
  exact ⟨x, hsound, happly⟩

variable (h : Planned policy capabilities plan)
  (hrun : runAll n (plan.steps.map apply) = some n')

include h hrun

theorem Planned.holds (hown : chain ∉ builtins table) (hne : plan.rulesOf family table chain ≠ []) :
    (n'.tables (family, table)).table.Holds chain ((plan.rulesOf family table chain).map .known) :=
  holds_of_runAll h.orderly.isAction hrun hown hne

theorem Planned.brings (hoperation : operation ∈ plan.steps.map apply) : Brings n' operation :=
  brings_of_runAll h.orderly.isAction hrun (.inl hoperation)

end

end NetHop.Capture
