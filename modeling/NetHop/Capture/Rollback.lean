import NetHop.Capture.Coverage
import NetHop.Capture.Network

/-!
# Plans can be taken back

Each step of a plan is an action on one part of the network state: an attachment
to a table, a default route, or a policy rule.  Every action can be taken back,
and the actions of one plan do not disturb each other.
-/

namespace NetHop.Capture

open Generation Netfilter List PlanStep NetHop.Part Attachment

variable {device : String} {isLocal : Bool} {steps : List PlanStep} {n : Network}
  {chains : List String} {slot : PlanSlot} {policy : CapturePolicy} {owner : String}

inductive Action where
  | attach (family : IpFamily) (table : NetfilterTable) (a : Attachment)
  | route (family : IpFamily) (table : UInt32) (device : String) (isLocal : Bool)
  | policyRule (family : IpFamily) (mark mask : Mark) (table priority : UInt32)

namespace Action

def apply : Action → NetworkOperation
  | .attach family table a => .restore family ⟨table, a.apply⟩
  | .route family table device isLocal => .policyRoute .add family table device isLocal
  | .policyRule family mark mask table priority =>
    .policyRule .add family mark mask table priority

def rollback : Action → NetworkOperation
  | .attach family table a => .restore family ⟨table, a.rollback⟩
  | .route family table device isLocal => .policyRoute .delete family table device isLocal
  | .policyRule family mark mask table priority =>
    .policyRule .delete family mark mask table priority

def planStep (kind : NetworkOperationKind) (x : Action) : PlanStep := ⟨kind, x.apply, x.rollback⟩

def step : Action → UndoStep Network
  | .attach family table a => (tablePart (family, table)).step (a.step (builtins table))
  | .route family table device isLocal =>
    (routePart family).step (routeStep table device isLocal)
  | .policyRule family mark mask table priority =>
    (rulePart family).step (ruleStep (.fwmark priority mark mask table))

theorem planStep_undoStep (kind : NetworkOperationKind) (x : Action) :
    (x.planStep kind).undoStep = x.step := by
  cases x <;> rfl

def Sound : Action → Prop
  | .attach _ table a => a.Fits (builtins table)
  | _ => True

/-- The actions work on different parts, or on different chains of one table. -/
def Apart : Action → Action → Prop
  | .attach family table a, .attach family' table' b =>
    (family, table) = (family', table') → ∀ name ∈ b.chains, name ∉ a.chains
  | .route family _ _ _, .route family' _ _ _ => family ≠ family'
  | .policyRule family _ _ _ _, .policyRule family' _ _ _ _ => family ≠ family'
  | _, _ => True

end Action

def Payload.newChains (payload : Payload) : List String :=
  payload.lines.filterMap fun
    | .newChain name => some name
    | _ => none

/-- The state has none of the chains, no route in the table, no rule of the priority. -/
def NetworkOperation.FreshIn (n : Network) : NetworkOperation → Prop
  | .restore family payload => ∀ name ∈ payload.newChains,
      (n.tables (family, payload.table)).table.has name = false
  | .policyRoute _ family table _ _ => ∀ r ∈ n.routes family, r.table ≠ table
  | .policyRule _ family _ _ _ priority => ∀ r ∈ n.rules family, r.priority ≠ priority

instance (n : Network) : (operation : NetworkOperation) → Decidable (operation.FreshIn n)
  | .restore _ _ => List.decidableBAll _ _
  | .policyRoute _ _ _ _ _ => List.decidableBAll _ _
  | .policyRule _ _ _ _ _ _ => List.decidableBAll _ _

section

variable {table : UInt32} {rule : PolicyRule}

theorem erase_append_self {α : Type} [DecidableEq α] {x : α} {xs : List α} (h : x ∉ xs) :
    (xs ++ [x]).erase x = xs := by
  rw [erase_append_right _ h, erase_cons_head, append_nil]

theorem routeStep_reversible : (routeStep table device isLocal).Reversible := by
  intro routes routes' happly
  simp only [routeStep, Option.ite_none_left_eq_some, Option.some.injEq] at happly
  obtain ⟨hdefault, rfl⟩ := happly
  have hnew : (⟨table, .default device isLocal⟩ : Route) ∉ routes := fun hmem =>
    hdefault (any_eq_true.mpr ⟨_, hmem, by simp⟩)
  simp only [routeStep]
  rw [if_pos (mem_append_right _ (mem_singleton.mpr rfl)), erase_append_self hnew]

theorem ruleStep_reversible : (ruleStep rule).Reversible := by
  intro rules rules' happly
  simp only [ruleStep, Option.ite_none_left_eq_some, Option.some.injEq] at happly
  obtain ⟨hnew, rfl⟩ := happly
  simp only [ruleStep]
  rw [if_pos (mem_append_right _ (mem_singleton.mpr rfl)), erase_append_self hnew]

theorem routeStep_effective : (routeStep table device isLocal).Effective := by
  intro routes routes' hundo
  simp only [routeStep, Option.ite_none_right_eq_some, Option.some.injEq] at hundo
  obtain ⟨hmem, rfl⟩ := hundo
  exact mt erase_eq_self_iff.mp (not_not_intro hmem)

theorem ruleStep_effective : (ruleStep rule).Effective := by
  intro rules rules' hundo
  simp only [ruleStep, Option.ite_none_right_eq_some, Option.some.injEq] at hundo
  obtain ⟨hmem, rfl⟩ := hundo
  exact mt erase_eq_self_iff.mp (not_not_intro hmem)

end

namespace Action

variable {x y : Action}

theorem reversible (h : x.Sound) : x.step.Reversible := by
  cases x with
  | attach family table a => exact reversible (reversible h)
  | route family table device isLocal => exact reversible routeStep_reversible
  | policyRule family mark mask table priority => exact reversible ruleStep_reversible

theorem effective (h : x.Sound) : x.step.Effective := by
  cases x with
  | attach family table a => exact effective (effective h)
  | route family table device isLocal => exact effective routeStep_effective
  | policyRule family mark mask table priority => exact effective ruleStep_effective

theorem independent (hx : x.Sound) (hy : y.Sound) (h : x.Apart y) :
    UndoStep.Independent x.step y.step := by
  cases x with
  | attach family table a =>
    cases y with
    | attach family' table' b =>
      by_cases hplace : (family, table) = (family', table')
      · have hchains := h hplace
        cases hplace
        exact independent (independent hy hx (Attachment.Fits.apart hy hx hchains))
      · exact ((entry_apart (.symm hplace)).comp_left tablesPart).independent
    | route family' table' device isLocal =>
      exact (tables_apart_routes.symm.comp_comp _ _).independent
    | policyRule family' _ _ _ _ => exact (tables_apart_rules.symm.comp_comp _ _).independent
  | route family table device isLocal =>
    cases y with
    | attach family' table' b => exact (tables_apart_routes.comp_comp _ _).independent
    | route family' table' device' isLocal' =>
      exact ((entry_apart (.symm h)).comp_left routesPart).independent
    | policyRule family' _ _ _ _ => exact (routes_apart_rules.symm.comp_comp _ _).independent
  | policyRule family _ _ _ _ =>
    cases y with
    | attach family' table' b => exact (tables_apart_rules.comp_comp _ _).independent
    | route family' table' device isLocal =>
      exact (routes_apart_rules.comp_comp _ _).independent
    | policyRule family' _ _ _ _ =>
      exact ((entry_apart (.symm h)).comp_left rulesPart).independent

theorem exists_apply (hx : x.Sound) (hfresh : x.apply.FreshIn n) :
    ∃ n', x.step.apply n = some n' := by
  cases x with
  | attach family table a =>
    have hchains : ∀ name ∈ a.chains, (n.tables (family, table)).table.has name = false :=
      fun name hname => hfresh name (by simp [Payload.newChains, Attachment.apply, hname])
    obtain ⟨t, ht⟩ := exists_apply hx hchains
    exact ⟨_, step_apply_eq_some.mpr ⟨t, ht, rfl⟩⟩
  | route family table device isLocal =>
    refine ⟨_, step_apply_eq_some.mpr ⟨_, if_neg ?_, rfl⟩⟩
    intro hdefault
    obtain ⟨r, hr, hmatch⟩ := any_eq_true.mp hdefault
    exact hfresh r hr (beq_iff_eq.mp (Bool.and_eq_true_iff.mp hmatch).1)
  | policyRule family mark mask table priority =>
    refine ⟨_, step_apply_eq_some.mpr ⟨_, if_neg ?_, rfl⟩⟩
    exact fun hmem => hfresh _ hmem rfl

end Action

/-! ## The payloads fit -/

theorem output_mem_builtins (table : NetfilterTable) : "OUTPUT" ∈ builtins table := by
  cases table <;> decide

theorem prerouting_mem_builtins : "PREROUTING" ∈ builtins .mangle := by decide

/-- The rules jump to these chains at most. -/
def JumpsInto (chains : List String) (rules : List Rule) : Prop :=
  ∀ r ∈ rules, ∀ name, r.jumpsTo = some name → name ∈ chains

namespace JumpsInto

variable {r : Rule} {rules rules' : List Rule}

theorem nil : JumpsInto chains [] := nofun

theorem cons (h : r.jumpsTo = none) (h' : JumpsInto chains rules) :
    JumpsInto chains (r :: rules) := by
  refine forall_mem_cons.mpr ⟨fun name hjump => ?_, h'⟩
  rw [h] at hjump
  cases hjump

theorem cons_jump {name : String} (h : r.jumpsTo = some name) (hname : name ∈ chains)
    (h' : JumpsInto chains rules) : JumpsInto chains (r :: rules) := by
  refine forall_mem_cons.mpr ⟨fun target hjump => ?_, h'⟩
  rw [h] at hjump
  rwa [← Option.some.inj hjump]

theorem append (h : JumpsInto chains rules) (h' : JumpsInto chains rules') :
    JumpsInto chains (rules ++ rules') := by
  intro r hr
  exact (mem_append.mp hr).elim (h r) (h' r)

theorem map {α : Type} {f : α → Rule} (h : ∀ x, (f x).jumpsTo = none) (xs : List α) :
    JumpsInto chains (xs.map f) := by
  intro r hr name hjump
  obtain ⟨x, -, rfl⟩ := mem_map.mp hr
  rw [h] at hjump
  cases hjump

theorem ite {b : Bool} (h : JumpsInto chains rules) :
    JumpsInto chains (if b then rules else []) := by
  split
  · exact h
  · exact nil

end JumpsInto

theorem fits_of {hooks body : List (String × Rule)}
    {builtins : List String} (hnonempty : chains ≠ [])
    (hwords : ∀ name ∈ chains, Words.isWord name = true) (hdistinct : chains.Nodup)
    (hown : ∀ name ∈ chains, name ∉ builtins)
    (hhooks : ∀ x ∈ hooks, x.1 ∈ builtins ∧ ∃ name ∈ chains, x.2.jumpsTo = some name)
    (hbody : ∀ x ∈ body, x.1 ∈ chains ∧ ∀ name, x.2.jumpsTo = some name → name ∈ chains) :
    Attachment.Fits ⟨chains, hooks, body⟩ builtins where
  words := hwords
  distinct := hdistinct
  hooks_outside x hx hmem := hown x.1 hmem (hhooks x hx).1
  hooks_inside x hx := (hhooks x hx).2
  body_inside x hx := (hbody x hx).1
  body_closed x hx := (hbody x hx).2
  hooked x hx := (hhooks x hx).1
  own := hown
  nonempty := hnonempty

variable {rules : List Rule}

theorem body_of_rules {chain : String} (hchain : chain ∈ chains) (h : JumpsInto chains rules) :
    ∀ x ∈ rules.map fun rule => (chain, rule),
      x.1 ∈ chains ∧ ∀ name, x.2.jumpsTo = some name → name ∈ chains := by
  rw [forall_mem_map]
  exact fun rule hrule => ⟨hchain, h rule hrule⟩

theorem single_fits {chain : String} {hooks : List (String × Rule)}
    {builtins : List String} (hword : Words.isWord chain = true) (hown : chain ∉ builtins)
    (hhooks : ∀ x ∈ hooks, x.1 ∈ builtins ∧ x.2.jumpsTo = some chain)
    (hrules : JumpsInto [chain] rules) :
    Attachment.Fits ⟨[chain], hooks, rules.map fun rule => (chain, rule)⟩ builtins :=
  fits_of (cons_ne_nil chain []) (forall_mem_singleton.mpr hword)
    (nodup_singleton chain) (forall_mem_singleton.mpr hown)
    (fun x hx => ⟨(hhooks x hx).1, chain, mem_singleton.mpr rfl, (hhooks x hx).2⟩)
    (body_of_rules (mem_singleton.mpr rfl) hrules)

section

variable {allocation : ResourceCandidate} {interfaces : Option (List String)} {family : IpFamily}
  {inboundPort : UInt16} {names : List String}

@[simp] theorem dnsGuardPayloads_chains :
    (dnsGuardPayloads slot policy allocation owner interfaces).chains =
      ["NH_DNS_" ++ slot.suffix] := rfl

@[simp] theorem forwardingPayloads_chains :
    (forwardingPayloads slot policy allocation inboundPort names owner).chains =
      ["NH_FWD_" ++ slot.suffix] := rfl

@[simp] theorem forwardingIpv6GuardPayloads_chains :
    (forwardingIpv6GuardPayloads slot names owner).chains = ["NH_FWD6_" ++ slot.suffix] := rfl

@[simp] theorem ipv6GuardPayloads_chains : (ipv6GuardPayloads slot policy owner).chains =
      ["NH_V6G_" ++ slot.suffix, "NH_V6B_" ++ slot.suffix] := rfl

theorem outputUidBypasses_jumps : JumpsInto chains (outputUidBypasses policy) :=
  .map (fun _ => rfl) _

theorem outputCaptureRules_jumps :
    JumpsInto chains (outputCaptureRules policy allocation interfaces) := by
  rw [outputCaptureRules_eq]
  exact .map (fun _ => rfl) _

theorem dnsDrops_jumps (protocol : Protocol) (port : Nat) :
    JumpsInto chains (dnsDrops interfaces protocol port) := by
  cases interfaces with
  | none => exact .cons rfl .nil
  | some names => exact .map (fun _ => rfl) _

theorem dnsGuardPayloads_fits :
    (dnsGuardPayloads slot policy allocation owner interfaces).Fits (builtins .filter) := by
  apply single_fits
  · cases slot <;> decide
  · cases slot <;> decide
  · exact forall_mem_singleton.mpr ⟨output_mem_builtins _, rfl⟩
  · exact .append (.append (.append (.append (.cons rfl (.cons rfl (.cons rfl .nil)))
      (dnsDrops_jumps _ _)) (dnsDrops_jumps _ _)) (dnsDrops_jumps _ _)) (.cons rfl .nil)

theorem tunPayloads_fits :
    (tunPayloads slot policy allocation owner interfaces).Fits (builtins .mangle) := by
  apply single_fits
  · cases slot <;> decide
  · cases slot <;> decide
  · exact forall_mem_singleton.mpr ⟨output_mem_builtins _, rfl⟩
  · exact .append (.append (.append (.cons rfl (.cons rfl (.cons rfl .nil)))
      outputUidBypasses_jumps) outputCaptureRules_jumps) (.cons rfl .nil)

theorem forwardingPayloads_fits :
    (forwardingPayloads slot policy allocation inboundPort names owner).Fits
      (builtins .mangle) := by
  apply single_fits
  · cases slot <;> decide
  · cases slot <;> decide
  · rw [forall_mem_map]
    exact fun name _ => ⟨prerouting_mem_builtins, rfl⟩
  · exact .append (.append (.append (.cons rfl (.cons rfl .nil)) (.map (fun _ => rfl) _))
      (.ite (.cons rfl .nil))) (.ite (.cons rfl .nil))

theorem forwardingIpv6GuardPayloads_fits :
    (forwardingIpv6GuardPayloads slot names owner).Fits (builtins .filter) := by
  have hrules : JumpsInto ["NH_FWD6_" ++ slot.suffix] [⟨[], .drop⟩] := .cons rfl .nil
  refine single_fits ?_ ?_ ?_ hrules
  · cases slot <;> decide
  · cases slot <;> decide
  · rw [forall_mem_map]
    exact fun name _ => ⟨(by decide : "FORWARD" ∈ builtins .filter), rfl⟩

theorem tproxyPayloads_fits :
    (tproxyPayloads slot policy allocation family inboundPort owner interfaces).Fits
      (builtins .mangle) := by
  apply fits_of (cons_ne_nil _ _)
  · cases slot <;> decide
  · cases slot <;> decide
  · cases slot <;> decide
  · refine forall_mem_cons.mpr ⟨⟨output_mem_builtins _, _, by simp, rfl⟩, ?_⟩
    exact forall_mem_singleton.mpr ⟨prerouting_mem_builtins, _, by simp, rfl⟩
  · intro x hx
    simp only [mem_append] at hx
    obtain ((hx | hx) | hx) | hx := hx
    · simp only [mem_cons, not_mem_nil, or_false] at hx
      obtain rfl | rfl | rfl := hx
      · exact ⟨by simp, nofun⟩
      · exact ⟨by simp, nofun⟩
      · exact ⟨by simp, nofun⟩
    · refine body_of_rules (by simp) (.append (.append (.append ?_ outputUidBypasses_jumps)
        (.map (fun _ => rfl) _)) outputCaptureRules_jumps) x hx
      exact .cons rfl (.cons rfl .nil)
    · exact body_of_rules (by simp) (.cons rfl (.cons rfl .nil)) x hx
    · refine body_of_rules (by simp) (.append (.append (.append (.ite (.cons_jump rfl ?_ .nil))
        (.cons rfl (.cons rfl (.cons rfl .nil)))) (.ite (.cons rfl .nil))) (.ite (.cons rfl .nil)))
        x hx
      simp

theorem ipv6GuardRules_jumps (h : "NH_V6B_" ++ slot.suffix ∈ chains) :
    JumpsInto chains (ipv6GuardRules slot policy) := by
  refine .append outputUidBypasses_jumps ?_
  split
  · exact .cons_jump rfl h .nil
  · refine .append ?_ (.cons rfl .nil)
    intro r hr name hjump
    obtain ⟨uid, -, rfl⟩ := mem_map.mp hr
    rwa [← Option.some.inj hjump]

theorem ipv6GuardPayloads_fits : (ipv6GuardPayloads slot policy owner).Fits (builtins .filter) := by
  apply fits_of (cons_ne_nil _ _)
  · cases slot <;> decide
  · cases slot <;> decide
  · cases slot <;> decide
  · exact forall_mem_singleton.mpr ⟨output_mem_builtins _, _, by simp, rfl⟩
  · intro x hx
    rcases mem_append.mp hx with hx | hx
    · exact body_of_rules (by simp) (ipv6GuardRules_jumps (by simp)) x hx
    · exact body_of_rules (by simp) (.append (.map (fun _ => rfl) _) (.cons rfl .nil)) x hx

end

/-! ## The steps of a plan -/

/-- The steps are those of actions that can be taken back and do not disturb each other. -/
def Orderly (steps : List PlanStep) : Prop :=
  ∃ actions : List (NetworkOperationKind × Action),
    steps = actions.map (fun x => x.2.planStep x.1) ∧ (∀ x ∈ actions, x.2.Sound) ∧
      actions.Pairwise fun x y => x.2.Apart y.2

namespace Orderly

variable {steps' : List PlanStep} (h : Orderly steps)

include h

theorem sublist (hsub : steps'.Sublist steps) : Orderly steps' := by
  obtain ⟨actions, rfl, hsound, hapart⟩ := h
  obtain ⟨actions', hsub', rfl⟩ := sublist_map_iff.mp hsub
  exact ⟨actions', rfl, fun x hx => hsound x (hsub'.subset hx), hapart.sublist hsub'⟩

theorem action : ∀ s ∈ steps, ∃ x : Action, x.Sound ∧ s.undoStep = x.step ∧ s.apply = x.apply := by
  obtain ⟨actions, rfl, hsound, -⟩ := h
  rw [forall_mem_map]
  exact fun x hx => ⟨x.2, hsound x hx, Action.planStep_undoStep _ _, rfl⟩

theorem reversible : ∀ s ∈ steps, s.undoStep.Reversible := by
  intro s hs
  obtain ⟨x, hsound, hstep, -⟩ := h.action s hs
  rw [hstep]
  exact Action.reversible hsound

theorem effective : ∀ s ∈ steps, s.undoStep.Effective := by
  intro s hs
  obtain ⟨x, hsound, hstep, -⟩ := h.action s hs
  rw [hstep]
  exact Action.effective hsound

theorem ready : ∀ s ∈ steps, ∀ n, s.apply.FreshIn n → ∃ n', s.undoStep.apply n = some n' := by
  intro s hs n hfresh
  obtain ⟨x, hsound, hstep, happly⟩ := h.action s hs
  rw [happly] at hfresh
  rw [hstep]
  exact Action.exists_apply hsound hfresh

theorem independent : steps.Pairwise fun s t => UndoStep.Independent s.undoStep t.undoStep := by
  obtain ⟨actions, rfl, hsound, hapart⟩ := h
  rw [pairwise_map]
  refine hapart.imp_of_mem fun {x y} hx hy h => ?_
  rw [Action.planStep_undoStep, Action.planStep_undoStep]
  exact Action.independent (hsound x hx) (hsound y hy) h

end Orderly

namespace Layout

def forwardingActions (l : Layout) : List (NetworkOperationKind × Action) :=
  let owner := "nethop:fwd:g=" ++ toString l.generation.get
  [(.forwardingRestore, .attach .ipv4 .mangle (forwardingPayloads l.slot l.policy l.allocation
      l.inboundPort l.forwardingInterfaces owner)),
    (.forwardingRestore, .attach .ipv6 .filter
      (forwardingIpv6GuardPayloads l.slot l.forwardingInterfaces owner))]

def actions (l : Layout) (owner device : String) (isLocal : Bool)
    (capture : IpFamily → Attachment) : List (NetworkOperationKind × Action) :=
  let dns := dnsGuardPayloads l.slot l.policy l.allocation owner l.interfaces
  let route family := Action.route family l.allocation.routeTable device isLocal
  let rule family := Action.policyRule family l.allocation.mark l.allocation.mask
    l.allocation.routeTable l.allocation.rulePriority
  [(.ipv6GuardRestore, .attach .ipv6 .filter (ipv6GuardPayloads l.slot l.policy owner)),
    (.policyRouteAdd, route .ipv4), (.policyRuleAdd, rule .ipv4),
    (.policyRouteAdd, route .ipv6), (.policyRuleAdd, rule .ipv6),
    (.netfilterRestore, .attach .ipv4 .mangle (capture .ipv4)),
    (.dnsGuardRestore, .attach .ipv4 .filter dns)] ++ l.forwardingActions ++
  [(.netfilterRestore, .attach .ipv6 .mangle (capture .ipv6)),
    (.dnsGuardRestore, .attach .ipv6 .filter dns)]

variable {l : Layout} {capture : IpFamily → Attachment}

theorem actions_sound (hcapture : ∀ family, (capture family).Fits (builtins .mangle)) :
    ∀ x ∈ l.actions owner device isLocal capture, x.2.Sound := by
  simp only [actions, forwardingActions, cons_append, nil_append, forall_mem_cons]
  exact ⟨ipv6GuardPayloads_fits, trivial, trivial, trivial, trivial, hcapture _,
    dnsGuardPayloads_fits, forwardingPayloads_fits, forwardingIpv6GuardPayloads_fits, hcapture _,
    dnsGuardPayloads_fits, nofun⟩

theorem actions_apart (hcapture : "NH_FWD_" ++ l.slot.suffix ∉ (capture .ipv4).chains) :
    (l.actions owner device isLocal capture).Pairwise fun x y => x.2.Apart y.2 := by
  have hfilter : ["NH_V6G_" ++ l.slot.suffix, "NH_V6B_" ++ l.slot.suffix,
      "NH_FWD6_" ++ l.slot.suffix, "NH_DNS_" ++ l.slot.suffix].Nodup := by
    cases l.slot <;> decide
  simp only [nodup_cons, mem_cons, not_mem_nil, or_false, not_or] at hfilter
  obtain ⟨⟨-, hg6, hgd⟩, ⟨hb6, hbd⟩, h6d, -⟩ := hfilter
  simp only [actions, forwardingActions, cons_append, nil_append, pairwise_cons, forall_mem_cons]
  -- only the steps on one table have anything to show: two in the IPv4 mangle table, three in
  -- the IPv6 filter table
  simp [Action.Apart, hcapture, Ne.symm hg6, Ne.symm hgd, Ne.symm hb6, Ne.symm hbd, Ne.symm h6d]

theorem actions_orderly (l : Layout) (owner device : String) (isLocal : Bool)
    (capture : IpFamily → Attachment) (hfits : ∀ family, (capture family).Fits (builtins .mangle))
    (hapart : "NH_FWD_" ++ l.slot.suffix ∉ (capture .ipv4).chains) :
    Orderly ((l.actions owner device isLocal capture).map fun x => x.2.planStep x.1) :=
  ⟨_, rfl, actions_sound hfits, actions_apart hapart⟩

theorem ite_sublist {α : Type} {b : Bool} {xs : List α} : (if b then xs else []).Sublist xs := by
  cases b
  · exact nil_sublist xs
  · exact .refl xs

theorem ite_nil_sublist {α : Type} {b : Bool} {xs : List α} :
    (if b then [] else xs).Sublist xs := by
  cases b
  · exact .refl xs
  · exact nil_sublist xs

theorem tproxySteps_orderly (l : Layout) : Orderly l.tproxySteps := by
  have hapart : "NH_FWD_" ++ l.slot.suffix ∉ ["NH_OUT_" ++ l.slot.suffix,
      "NH_PRE_" ++ l.slot.suffix, "NH_DIV_" ++ l.slot.suffix] := by
    cases l.slot <;> decide
  let owner := "nethop:g=" ++ toString l.generation.get
  refine (l.actions_orderly owner "lo" true
    (fun family => tproxyPayloads l.slot l.policy l.allocation family l.inboundPort owner
      l.interfaces) (fun _ => tproxyPayloads_fits) hapart).sublist ?_
  exact (((((ite_sublist.append (.refl _)).append ite_sublist).append (.refl _)).append
    ite_nil_sublist).append ite_sublist)

theorem tunSteps_orderly (l : Layout) : Orderly l.tunSteps := by
  have hapart : "NH_FWD_" ++ l.slot.suffix ∉ ["NH_TUN_" ++ l.slot.suffix] := by
    cases l.slot <;> decide
  let owner := "nethop:tun:g=" ++ toString l.generation.get
  refine (l.actions_orderly owner "nethop0" false
    (fun _ => tunPayloads l.slot l.policy l.allocation owner l.interfaces)
    (fun _ => tunPayloads_fits) hapart).sublist ?_
  exact ((((ite_sublist.append (.refl _)).append ite_sublist).append
    (sublist_append_left _ (l.forwardingActions.map fun x => x.2.planStep x.1))).append ite_sublist)

end Layout

section

variable {generation : GenerationId} {capabilities : CapabilityReport} {plan base : NetworkPlan}
  {interfaces : List String} {forwarding : ForwardingPlan}

theorem Planned.orderly (h : Planned policy capabilities plan) : Orderly plan.steps := by
  cases h.built with
  | tproxy l => exact l.tproxySteps_orderly
  | tun l => exact l.tunSteps_orderly

theorem orderly_of_buildForwarding
    (h : buildForwarding generation slot base policy interfaces = .ok forwarding) :
    Orderly forwarding.steps := by
  simp only [buildForwarding, bind_eq_ok, ensure_eq_ok, okOr_eq_ok, exists_const] at h
  obtain ⟨-, -, -, inboundPort, -, hplan⟩ := h
  cases hplan
  let a := forwardingPayloads slot policy base.allocation inboundPort
    (sortDedup (· ≤ ·) interfaces) ("nethop:fwd:g=" ++ toString generation.get)
  have hsound : ∀ x ∈ [(NetworkOperationKind.forwardingRestore, Action.attach .ipv4 .mangle a)],
      x.2.Sound := forall_mem_singleton.mpr forwardingPayloads_fits
  exact ⟨_, rfl, hsound, pairwise_singleton _ _⟩

end

inductive PlannedSteps : List PlanStep → Prop where
  | capture {policy : CapturePolicy} {capabilities : CapabilityReport} {plan : NetworkPlan}
      (planned : Planned policy capabilities plan) : PlannedSteps plan.steps
  | forwarding {generation : GenerationId} {slot : PlanSlot} {base : NetworkPlan}
      {policy : CapturePolicy} {interfaces : List String} {plan : ForwardingPlan}
      (planned : buildForwarding generation slot base policy interfaces = .ok plan) :
      PlannedSteps plan.steps

theorem PlannedSteps.orderly (h : PlannedSteps steps) : Orderly steps := by
  cases h with
  | capture planned => exact planned.orderly
  | forwarding planned => exact orderly_of_buildForwarding planned

/-! ## Apply and roll back -/

def runAll (n : Network) (operations : List NetworkOperation) : Option Network :=
  operations.foldlM NetworkOperation.run n

section

theorem runAll_apply : runAll n (steps.map apply) = UndoStep.applyAll (steps.map undoStep) n := by
  induction steps generalizing n with
  | nil => rfl
  | cons s steps ih =>
    exact Option.bind_congr fun m _ => ih

theorem runAll_rollback : runAll n (steps.reverse.map rollback) =
      UndoStep.undoAll (steps.map undoStep) n := by
  induction steps with
  | nil => rfl
  | cons s steps ih =>
    rw [reverse_cons, map_append, runAll, foldlM_append]
    change (runAll n _).bind _ = _
    rw [ih]
    exact Option.bind_congr fun m _ => bind_pure (s.rollback.run m)

theorem PlannedSteps.exists_runAll (h : PlannedSteps steps)
    (hfresh : ∀ s ∈ steps, s.apply.FreshIn n) : ∃ n', runAll n (steps.map apply) = some n' := by
  have hindependent := pairwise_map.mpr h.orderly.independent
  have hready : ∀ s ∈ steps.map undoStep, ∃ n', s.apply n = some n' :=
    forall_mem_map.mpr fun s hs => h.orderly.ready s hs n (hfresh s hs)
  obtain ⟨n', happly⟩ := UndoStep.exists_applyAll hindependent hready
  exact ⟨n', runAll_apply.trans happly⟩

theorem plannedSteps_rollback_apply (h : PlannedSteps steps)
    (hfresh : ∀ s ∈ steps, s.apply.FreshIn n) : ∃ n', runAll n (steps.map apply) = some n' ∧
      runAll n' (steps.reverse.map rollback) = some n := by
  obtain ⟨n', hrun⟩ := h.exists_runAll hfresh
  have happly := runAll_apply.symm.trans hrun
  have hundo := UndoStep.undoAll_applyAll (forall_mem_map.mpr h.orderly.reversible) happly
  exact ⟨n', hrun, runAll_rollback.trans hundo⟩

end

/-- A table in which every built-in chain jumps to a chain of another program. -/
def busyRuleset (table : NetfilterTable) : Ruleset (builtins table) where
  table := ⟨"fw_OUTPUT", false, [.other ["-m", "owner", "-j", "DROP"] none]⟩ ::
    (builtins table).map fun name => ⟨name, true, [.known ⟨[], .jump "fw_OUTPUT"⟩]⟩
  named := by
    rw [Table.Named, forall_mem_cons, forall_mem_map]
    cases table <;> decide
  closed := by
    intro c hc r hr name hjump
    rcases mem_cons.mp hc with rfl | hc
    · cases mem_singleton.mp hr
      cases hjump
    · obtain ⟨_, -, rfl⟩ := mem_map.mp hc
      cases mem_singleton.mp hr
      cases hjump
      simp [Table.has]
  builtin name hname := ⟨_, mem_cons_of_mem _ (mem_map.mpr ⟨name, hname, rfl⟩), rfl, rfl⟩

def busyNetwork : Network where
  tables place := busyRuleset place.2
  routes _ := [⟨254, .default "wlan0" false⟩]
  rules _ := [.other 32766 "from all lookup main"]

theorem samplePlan_rollback_apply :
    ∃ n', runAll busyNetwork (samplePlan.steps.map apply) = some n' ∧
      runAll n' (samplePlan.steps.reverse.map rollback) = some busyNetwork := by
  exact plannedSteps_rollback_apply (.capture samplePlan_planned) (by decide)

end NetHop.Capture
