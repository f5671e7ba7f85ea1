import NetHop.Capture.Coverage

/-!
# Marked packets come back through the loopback

Under a TPROXY plan the policy route sends a marked packet back in through the
loopback interface, where the prerouting chain has to hand it to the core.
-/

namespace NetHop.Capture

open Generation Netfilter

/-- How a packet that comes back leaves the prerouting chain of the plan. -/
def NetworkPlan.reinjected (plan : NetworkPlan) (family : IpFamily) (p : Packet) (mark : Mark) :
    Verdict :=
  (plan.through family .mangle plan.preroutingChain { p with inInterface := "lo" } mark).1

/-- The packet ends at a TPROXY or divert target. -/
def Lands (verdict : Verdict) : Prop := verdict = .accepted ∨ ∃ port, verdict = .proxied port

instance (verdict : Verdict) : Decidable (Lands verdict) :=
  match verdict with
  | .passed => .isFalse (by rintro (h | ⟨_, h⟩) <;> cases h)
  | .returned => .isFalse (by rintro (h | ⟨_, h⟩) <;> cases h)
  | .accepted => .isTrue (.inl rfl)
  | .dropped => .isFalse (by rintro (h | ⟨_, h⟩) <;> cases h)
  | .proxied port => .isTrue (.inr ⟨port, rfl⟩)

section

variable {generation : GenerationId} {slot : PlanSlot} {policy : CapturePolicy}
  {capabilities : CapabilityReport} {plan : NetworkPlan} {family : IpFamily} {p : Packet}
  {mark : Mark} {l : Layout} {bypass : Mark}

section

variable (fits : l.Fits capabilities) (hcaptures : (l.tproxyPlan bypass).Captures family)

include fits hcaptures

theorem tproxyPlan_prerouting :
    (l.tproxyPlan bypass).rulesOf family .mangle ("NH_PRE_" ++ l.slot.suffix) =
        preroutingRules l.slot l.policy l.allocation l.inboundPort ∧
      (l.tproxyPlan bypass).rulesOf family .mangle ("NH_DIV_" ++ l.slot.suffix) =
        divertRules l.allocation := by
  have hown := notForwarding_own l.slot
  constructor
  · rw [tproxyPlan_rulesOf fits hcaptures (hown _ (by decide))]
    unfold NetfilterTable.payload tproxyPayloads preroutingRules
    cases l.slot <;> simp [PlanSlot.suffix]
  · rw [tproxyPlan_rulesOf fits hcaptures (hown _ (by decide))]
    unfold NetfilterTable.payload tproxyPayloads
    cases l.slot <;> simp [PlanSlot.suffix]

theorem tproxyPlan_reinjected (hreply : p.reply = false)
    (hmarked : (l.tproxyPlan bypass).marked mark = true) :
    (l.tproxyPlan bypass).reinjected family p mark =
      if p.protocol == .tcp && l.policy.proxyTcp && p.transparentSocket then .accepted
      else if proxied l.policy p then .proxied l.inboundPort.toNat else .passed := by
  obtain ⟨hpre, hdiv⟩ := tproxyPlan_prerouting fits hcaptures
  change (runRules _ _ ((l.tproxyPlan bypass).rulesOf family .mangle
    ("NH_PRE_" ++ l.slot.suffix)) mark).1 = _
  have hback : ({ p with inInterface := "lo" } : Packet).reply = false := hreply
  have hmark : markMatches l.allocation.mark l.allocation.mask mark = true := hmarked
  rw [hpre]
  refine runRules_preroutingRules ?_ hback hmark
  rw [Netfilter.traverse, hdiv]
  simp [divertRules, setMark, runRules, Rule.matches]

end

theorem built_tproxy (h : buildTproxy generation slot policy capabilities = .ok plan) :
    ∃ l : Layout, l.Fits capabilities ∧ l.policy = policy ∧
      plan = l.tproxyPlan (bypassMarkOf l.policy) := by
  have hmode : policy.mode = .tproxy := by
    simp only [buildTproxy, bind_eq_ok, ensure_eq_ok, exists_const] at h
    exact beq_iff_eq.mp h.2.1
  cases built_of_buildTproxy h with
  | tproxy l fits mode port => exact ⟨l, fits, rfl, rfl⟩
  | tun l fits mode unguarded =>
    rw [hmode] at mode
    cases mode

/-- A marked TCP or UDP packet lands at the core exactly when it is a DNS query or its
protocol is proxied: the output chain marks both protocols whatever the policy proxies. -/
theorem buildTproxy_lands_iff (h : buildTproxy generation slot policy capabilities = .ok plan)
    (hcaptures : plan.Captures family)
    (hprotocol : p.protocol = .tcp ∨ p.protocol = .udp) (hreply : p.reply = false)
    (hmarked : plan.marked (plan.outputMark family p mark) = true) :
    Lands (plan.reinjected family p (plan.outputMark family p mark)) ↔
      p.destinationPort = 53 ∨ (p.protocol = .tcp ∧ policy.proxyTcp = true) ∨
        (p.protocol = .udp ∧ policy.proxyUdp = true) := by
  obtain ⟨l, fits, rfl, rfl⟩ := built_tproxy h
  rw [tproxyPlan_reinjected fits hcaptures hreply hmarked]
  have hproxied : proxied l.policy p = true ↔
      p.destinationPort = 53 ∨ (p.protocol = .tcp ∧ l.policy.proxyTcp = true) ∨
        (p.protocol = .udp ∧ l.policy.proxyUdp = true) := by
    rcases hprotocol with hprotocol | hprotocol <;> simp [proxied, isDns, hprotocol]
  rw [← hproxied]
  by_cases hdivert : (p.protocol == .tcp && l.policy.proxyTcp && p.transparentSocket) = true
  · rw [if_pos hdivert]
    simp only [Bool.and_eq_true, beq_iff_eq] at hdivert
    exact iff_of_true (.inl rfl) (hproxied.mpr (.inr (.inl hdivert.1)))
  · rw [if_neg hdivert]
    by_cases hlands : proxied l.policy p = true
    · rw [if_pos hlands]
      exact iff_of_true (.inr ⟨_, rfl⟩) hlands
    · rw [if_neg hlands]
      refine iff_of_false ?_ hlands
      rintro (heq | ⟨_, heq⟩) <;> cases heq

end

theorem samplePlan_lands : Lands (samplePlan.reinjected .ipv4 (samplePacket 10001 443)
      (samplePlan.outputMark .ipv4 (samplePacket 10001 443) 0)) :=
  (buildTproxy_lands_iff samplePlan_built samplePlan.captures_ipv4 (.inl rfl) rfl
    (by decide)).mpr (.inr (.inl ⟨rfl, rfl⟩))

theorem samplePlan_udp_falls_through :
    buildTproxy sampleGeneration .a (samplePolicy .tproxy 0x200 (by decide)) sampleReport =
        .ok samplePlan ∧ samplePlan.marked (samplePlan.outputMark .ipv4
        { samplePacket 10001 443 with protocol := .udp } 0) = true ∧
      ¬ Lands (samplePlan.reinjected .ipv4 { samplePacket 10001 443 with protocol := .udp }
        (samplePlan.outputMark .ipv4 { samplePacket 10001 443 with protocol := .udp } 0)) :=
  ⟨rfl, by decide, by decide⟩

end NetHop.Capture
