import NetHop.Capture.Chains

/-!
# Packets through a plan

The rules that the apply payloads of a plan add to a chain, and the path of an
outgoing packet through them.  `Built` says what a planner has checked when it
returns a plan; `Installs` says what the plan then has in the `OUTPUT` chains of a
family it captures.
-/

namespace NetHop.Capture

open Generation Netfilter List NetfilterTable NetworkPlan PlanSlot Layout

def appendedTo (chain : String) : Line → Option Rule
  | .append c rule => if c = chain then some rule else none
  | _ => none

/-- The rules the apply operation of a step adds to one chain. -/
def PlanStep.rulesOf (step : PlanStep) (family : IpFamily) (table : NetfilterTable)
    (chain : String) : List Rule :=
  match step.apply with
  | .restore f payload =>
    if f = family ∧ payload.table = table then payload.lines.filterMap (appendedTo chain) else []
  | _ => []

namespace NetworkPlan

def rulesOf (plan : NetworkPlan) (family : IpFamily) (table : NetfilterTable) (chain : String) :
    List Rule :=
  plan.steps.flatMap fun step => step.rulesOf family table chain

variable (plan : NetworkPlan)

def Captures : IpFamily → Prop
  | .ipv4 => True
  | .ipv6 => plan.ipv6Captured = true

theorem captures_ipv4 : plan.Captures .ipv4 := trivial

/-- A packet through a chain of the plan.  No chain of a plan is more than three jumps deep. -/
def through (family : IpFamily) (table : NetfilterTable) (chain : String)
    (p : Packet) (mark : Mark) : Verdict × Mark :=
  traverse (plan.rulesOf family table) p 4 chain mark

def outputMark (family : IpFamily) (p : Packet) (mark : Mark) : Mark :=
  (plan.through family .mangle "OUTPUT" p mark).2

def outputDrops (family : IpFamily) (p : Packet) (mark : Mark) : Bool :=
  (plan.through family .filter "OUTPUT" p mark).1 == .dropped

def marked (mark : Mark) : Bool :=
  markMatches plan.allocation.mark plan.allocation.mask mark

end NetworkPlan

/-! ## What a planner has checked -/

def Planned (policy : CapturePolicy) (capabilities : CapabilityReport) (plan : NetworkPlan) :
    Prop :=
  ∃ generation slot,
    buildTproxy generation slot policy capabilities = .ok plan ∨
      buildTun generation slot policy capabilities = .ok plan

/-- What both planners check of the parts they put together. -/
structure Layout.Fits (l : Layout) (capabilities : CapabilityReport) : Prop where
  bypassFree : bypassMarkOf l.policy &&& l.allocation.mask ≠ l.allocation.mark
  interfaces : resolveInterfaces l.policy.interfacePolicy capabilities.interfaces =
    .ok l.interfaces
  forwarding : resolveForwardingInterfaces l.policy.forwardingPolicy capabilities.interfaces =
    .ok l.forwardingInterfaces
  apart : l.ipv6Guarded = true → l.ipv6Captured = false

inductive Built (capabilities : CapabilityReport) : CapturePolicy → NetworkPlan → Prop where
  | tproxy (l : Layout) (fits : l.Fits capabilities) (mode : l.policy.mode = .tproxy)
      (port : l.policy.inboundPort = some l.inboundPort) :
      Built capabilities l.policy (l.tproxyPlan (bypassMarkOf l.policy))
  | tun (l : Layout) (fits : l.Fits capabilities) (mode : l.policy.mode = .tun)
      (unguarded : l.ipv6Guarded = false) :
      Built capabilities l.policy (l.tunPlan (bypassMarkOf l.policy))

section

variable {generation : GenerationId} {slot : PlanSlot} {policy : CapturePolicy}
  {capabilities : CapabilityReport} {plan : NetworkPlan}

theorem built_of_buildTproxy (h : buildTproxy generation slot policy capabilities = .ok plan) :
    Built capabilities policy plan := by
  simp only [buildTproxy, bind_eq_ok, ensure_eq_ok, okOr_eq_ok, exists_const] at h
  obtain ⟨-, hmode, -, -, inboundPort, hport, -, -, allocation, -, bypass, hbypass, hfree,
    interfaces, hinterfaces, forwarding, hforwarding, present, -, -, hplan⟩ := h
  have hport := (Option.filter_eq_some_iff.mp hport).1
  have hmark : bypassMarkOf policy = bypass := by
    unfold bypassMarkOf
    rw [hbypass]
    rfl
  subst hmark
  cases hplan
  let l : Layout :=
    { generation, slot, policy, allocation, inboundPort, interfaces
      forwardingInterfaces := forwarding
      ipv6Guarded := present && !capabilities.ipv6.supportsTproxy
      ipv6Captured := capabilities.ipv6.supportsTproxy }
  refine .tproxy l ⟨bne_iff_ne.mp hfree, hinterfaces, hforwarding, fun hguarded => ?_⟩
    (beq_iff_eq.mp hmode) hport
  simpa using (Bool.and_eq_true_iff.mp hguarded).2

theorem supportsGuard_of_absent (h : ipv6Present capabilities = .ok false) :
    capabilities.ipv6.supportsGuard = false := by
  unfold ipv6Present at h
  unfold FamilyCapability.supportsGuard
  cases hstatus : capabilities.ipv6.address with
  | supported =>
    rw [hstatus] at h
    cases h
  | _ => rfl

theorem built_of_buildTun (h : buildTun generation slot policy capabilities = .ok plan) :
    Built capabilities policy plan := by
  simp only [buildTun, bind_eq_ok, ensure_eq_ok, exists_const] at h
  obtain ⟨-, hmode, -, -, -, allocation, -, hfree, interfaces, hinterfaces, forwarding,
    hforwarding, present, hpresent, hguard, hplan⟩ := h
  have htrue : present = true := by
    cases present with
    | true => rfl
    | false => simp [supportsGuard_of_absent hpresent] at hguard
  subst htrue
  cases hplan
  let l : Layout :=
    { generation, slot, policy, allocation, inboundPort := 0, interfaces
      forwardingInterfaces := forwarding, ipv6Guarded := false, ipv6Captured := true }
  exact .tun l ⟨bne_iff_ne.mp hfree, hinterfaces, hforwarding, by simp [l]⟩ (beq_iff_eq.mp hmode)
    rfl

theorem Planned.built (h : Planned policy capabilities plan) : Built capabilities policy plan := by
  obtain ⟨generation, slot, h | h⟩ := h
  · exact built_of_buildTproxy h
  · exact built_of_buildTun h

end

/-! ## What a plan installs -/

section

variable {chain : String}

@[simp] theorem rulesOn_nil : rulesOn chain [] = [] := rfl

@[simp] theorem rulesOn_append (appends appends' : List (String × Rule)) :
    rulesOn chain (appends ++ appends') = rulesOn chain appends ++ rulesOn chain appends' :=
  filterMap_append

@[simp] theorem rulesOn_map {c : String} (rules : List Rule) :
    rulesOn chain (rules.map fun rule => (c, rule)) = if c = chain then rules else [] := by
  unfold rulesOn
  by_cases h : c = chain
  · simp [h]
  · simp [h]

theorem rulesOn_hooks {α : Type} {c : String} (f : α → Rule) (xs : List α) (hne : c ≠ chain) :
    rulesOn chain (xs.map fun x => (c, f x)) = [] := by
  have h : rulesOn chain ((xs.map f).map fun rule => (c, rule)) = [] := by
    rw [rulesOn_map, if_neg hne]
  rwa [map_map] at h

@[simp] theorem restoreStep_rulesOf (kind : NetworkOperationKind) (f family : IpFamily)
    (t table : NetfilterTable) (a : Attachment) :
    (restoreStep kind f t a).rulesOf family table chain =
      if f = family ∧ t = table then rulesOn chain (a.hooks ++ a.body) else [] := by
  have hlines : a.apply.filterMap (appendedTo chain) = rulesOn chain (a.hooks ++ a.body) := by
    unfold Attachment.apply rulesOn
    rw [filterMap_append, filterMap_map, filterMap_map]
    have hnew : a.chains.filterMap (appendedTo chain ∘ Line.newChain) = [] := by
      simp [Function.comp_def, appendedTo]
    rw [hnew]
    rfl
  change (if _ then _ else _) = _
  rw [hlines]

@[simp] theorem policySteps_rulesOf (f family : IpFamily) (allocation : ResourceCandidate)
    (device : String) (isLocal : Bool) (table : NetfilterTable) :
    (policySteps f allocation device isLocal).flatMap
      (fun s => s.rulesOf family table chain) = [] :=
  rfl

def NotForwarding (slot : PlanSlot) (chain : String) : Prop :=
  "PREROUTING" ≠ chain ∧ "FORWARD" ≠ chain ∧ "NH_FWD_" ++ slot.suffix ≠ chain ∧
    "NH_FWD6_" ++ slot.suffix ≠ chain

theorem forwardingSteps_rulesOf {l : Layout} (h : NotForwarding l.slot chain) (family : IpFamily)
    (table : NetfilterTable) :
    l.forwardingSteps.flatMap (fun s => s.rulesOf family table chain) = [] := by
  obtain ⟨hpre, hforward, h4, h6⟩ := h
  unfold forwardingSteps
  split
  · rfl
  · simp [forwardingPayloads, forwardingIpv6GuardPayloads, rulesOn_hooks _ _ hpre,
      rulesOn_hooks _ _ hforward, if_neg h4, if_neg h6]

variable {family : IpFamily}

theorem guardStep_rulesOf {l : Layout} (hapart : l.ipv6Guarded = true → l.ipv6Captured = false)
    {owner : String} (hcaptured : family = .ipv6 → l.ipv6Captured = true)
    (table : NetfilterTable) :
    (l.guardStep owner).flatMap (fun s => s.rulesOf family table chain) = [] := by
  unfold guardStep
  split
  next hguarded =>
    cases family with
    | ipv4 => simp
    | ipv6 =>
      have hcontra := hcaptured rfl
      rw [hapart hguarded] at hcontra
      cases hcontra
  · rfl

def NetfilterTable.payload (capture dns : Attachment) : NetfilterTable → Attachment
  | .mangle => capture
  | .filter => dns

/-- Of the steps of a plan only the capture and DNS steps of the family write to its
`OUTPUT` chains and to theirs. -/
theorem steps_rulesOf (capture : IpFamily → Attachment) (dns : Attachment)
    {before after : List PlanStep} {captured : Bool} {allocation : ResourceCandidate}
    {device : String} {isLocal : Bool} {table : NetfilterTable}
    (hbefore : before.flatMap (fun s => s.rulesOf family table chain) = [])
    (hafter : after.flatMap (fun s => s.rulesOf family table chain) = [])
    (hcaptured : family = .ipv6 → captured = true) :
    (before ++ policySteps .ipv4 allocation device isLocal ++
      (if captured then policySteps .ipv6 allocation device isLocal else []) ++
      [restoreStep .netfilterRestore .ipv4 .mangle (capture .ipv4),
        restoreStep .dnsGuardRestore .ipv4 .filter dns] ++ after ++ (if captured then
        [restoreStep .netfilterRestore .ipv6 .mangle (capture .ipv6),
          restoreStep .dnsGuardRestore .ipv6 .filter dns] else [])).flatMap
        (fun s => s.rulesOf family table chain) = let a := table.payload (capture family) dns
      rulesOn chain (a.hooks ++ a.body) := by
  simp only [flatMap_append, hbefore, hafter, policySteps_rulesOf, flatMap_cons,
    flatMap_nil, nil_append, append_nil, restoreStep_rulesOf]
  cases family with
  | ipv4 =>
    cases captured <;> cases table <;> simp [payload]
  | ipv6 =>
    rw [hcaptured rfl]
    cases table <;> simp [payload]

end

variable (plan : NetworkPlan)

/-- The `OUTPUT` chains of one family: the capture chain in the mangle table and the DNS
guard in the filter table, and nothing else. -/
structure Installs (family : IpFamily) (capture guard : List Rule) : Prop where
  captureHook : plan.rulesOf family .mangle "OUTPUT" =
    [⟨[.comment plan.ownerMarker], .jump (plan.captureChain family)⟩]
  capture : plan.rulesOf family .mangle (plan.captureChain family) = capture
  guardHook : plan.rulesOf family .filter "OUTPUT" =
    [⟨[.comment plan.ownerMarker], .jump plan.dnsGuardChain⟩]
  guard : plan.rulesOf family .filter plan.dnsGuardChain = guard

section

variable {l : Layout} {capabilities : CapabilityReport} {bypass : Mark} {family : IpFamily}
  {chain : String}

theorem notForwarding_output (slot : PlanSlot) : NotForwarding slot "OUTPUT" := by
  unfold NotForwarding
  cases slot <;> decide

theorem notForwarding_own (slot : PlanSlot) :
    ∀ stem ∈ ["NH_OUT_", "NH_PRE_", "NH_DIV_", "NH_DNS_", "NH_V6G_", "NH_V6B_"],
      NotForwarding slot (stem ++ slot.suffix) := by
  unfold NotForwarding
  cases slot <;> decide

variable (fits : l.Fits capabilities)

include fits

theorem tproxyPlan_rulesOf (hcaptures : (l.tproxyPlan bypass).Captures family)
    (h : NotForwarding l.slot chain) (table : NetfilterTable) :
    (l.tproxyPlan bypass).rulesOf family table chain =
      let owner := "nethop:g=" ++ toString l.generation.get
      let a := table.payload
        (tproxyPayloads l.slot l.policy l.allocation family l.inboundPort owner l.interfaces)
        (dnsGuardPayloads l.slot l.policy l.allocation owner l.interfaces)
      rulesOn chain (a.hooks ++ a.body) := by
  have hcaptured : family = .ipv6 → l.ipv6Captured = true := by
    rintro rfl
    exact hcaptures
  exact steps_rulesOf (fun f => tproxyPayloads l.slot l.policy l.allocation f l.inboundPort _
    l.interfaces) _ (guardStep_rulesOf fits.apart hcaptured table)
    (forwardingSteps_rulesOf h family table) hcaptured

theorem tunPlan_rulesOf (hcaptures : (l.tunPlan bypass).Captures family) (table : NetfilterTable) :
    (l.tunPlan bypass).rulesOf family table chain =
      let owner := "nethop:tun:g=" ++ toString l.generation.get
      let a := table.payload (tunPayloads l.slot l.policy l.allocation owner l.interfaces)
        (dnsGuardPayloads l.slot l.policy l.allocation owner l.interfaces)
      rulesOn chain (a.hooks ++ a.body) := by
  have hcaptured : family = .ipv6 → l.ipv6Captured = true := by
    rintro rfl
    exact hcaptures
  unfold rulesOf tunPlan tunSteps
  dsimp only
  rw [← append_nil (_ ++ [l.tunStep .ipv4 _, l.dnsStep .ipv4 _])]
  exact steps_rulesOf (fun _ => tunPayloads l.slot l.policy l.allocation _ l.interfaces) _
    (guardStep_rulesOf fits.apart hcaptured table) rfl hcaptured

theorem tproxyPlan_captureChain (hcaptures : (l.tproxyPlan bypass).Captures family) :
    (l.tproxyPlan bypass).captureChain family = "NH_OUT_" ++ l.slot.suffix := by
  unfold captureChain entryChain
  rw [if_neg nofun, if_neg]
  · rfl
  · rintro ⟨rfl, hguarded⟩
    have hcaptured : l.ipv6Captured = true := hcaptures
    rw [fits.apart hguarded] at hcaptured
    cases hcaptured

theorem tproxyPlan_installs (hcaptures : (l.tproxyPlan bypass).Captures family) :
    Installs (l.tproxyPlan bypass) family
      (tproxyOutputRules l.policy l.allocation family l.interfaces)
      (dnsGuardRules l.policy l.allocation l.interfaces) := by
  have hchain := tproxyPlan_captureChain fits hcaptures
  have hdns : (l.tproxyPlan bypass).dnsGuardChain = "NH_DNS_" ++ l.slot.suffix := rfl
  have hout := notForwarding_output l.slot
  have hown := notForwarding_own l.slot
  constructor
  · rw [tproxyPlan_rulesOf fits hcaptures hout, hchain]
    unfold payload tproxyPayloads
    cases l.slot <;> simp [suffix, ownerMarker, tproxyPlan]
  · rw [hchain, tproxyPlan_rulesOf fits hcaptures (hown _ (by decide))]
    unfold payload tproxyPayloads tproxyOutputRules
    cases l.slot <;> simp [suffix]
  · rw [tproxyPlan_rulesOf fits hcaptures hout, hdns]
    unfold payload dnsGuardPayloads
    cases l.slot <;> simp [suffix, ownerMarker, tproxyPlan]
  · rw [hdns, tproxyPlan_rulesOf fits hcaptures (hown _ (by decide))]
    unfold payload dnsGuardPayloads
    cases l.slot <;> simp [suffix]

theorem tunPlan_installs (hcaptures : (l.tunPlan bypass).Captures family) :
    Installs (l.tunPlan bypass) family (tunRules l.policy l.allocation l.interfaces)
      (dnsGuardRules l.policy l.allocation l.interfaces) := by
  have hchain : (l.tunPlan bypass).captureChain family = "NH_TUN_" ++ l.slot.suffix := rfl
  have hdns : (l.tunPlan bypass).dnsGuardChain = "NH_DNS_" ++ l.slot.suffix := rfl
  constructor
  · rw [tunPlan_rulesOf fits hcaptures, hchain]
    unfold payload tunPayloads
    cases l.slot <;> simp [suffix, ownerMarker, tunPlan]
  · rw [hchain, tunPlan_rulesOf fits hcaptures]
    unfold payload tunPayloads
    cases l.slot <;> simp [suffix]
  · rw [tunPlan_rulesOf fits hcaptures, hdns]
    unfold payload dnsGuardPayloads
    cases l.slot <;> simp [suffix, ownerMarker, tunPlan]
  · rw [hdns, tunPlan_rulesOf fits hcaptures]
    unfold payload dnsGuardPayloads
    cases l.slot <;> simp [suffix]

end

end NetHop.Capture
