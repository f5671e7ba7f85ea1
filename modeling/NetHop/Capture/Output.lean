import NetHop.Capture.Traffic

/-!
# Outgoing packets

What a plan does to an outgoing packet, in terms of the policy: which packets get
the mark of the plan, and which ones its filter chains drop.
-/

namespace NetHop.Capture

open Netfilter NetworkPlan

/-- The capture chain of the plan puts its mark on the packet. -/
def NetworkPlan.takes (plan : NetworkPlan) (policy : CapturePolicy)
    (interfaces : Option (List String)) (family : IpFamily) (p : Packet) (mark : Mark) : Bool :=
  !markMatches plan.bypassMark plan.allocation.mask mark && !p.reply &&
    match plan.mode with
    | .tun =>
      !interfaceMatches "lo" p.outInterface && policy.capturesUid p.uid &&
        reaches interfaces p.outInterface
    | _ =>
      isDns p ||
        (policy.capturesUid p.uid && !reserved family p && reaches interfaces p.outInterface)

/-- The packet leaves by an interface of the selection; by any one when there is none. -/
def Selected (interfaces : Option (List String)) (p : Packet) : Prop :=
  ∀ names, interfaces = some names → p.outInterface ∈ names

theorem Selected.reaches {interfaces : Option (List String)} {p : Packet}
    (h : Selected interfaces p) : reaches interfaces p.outInterface = true := by
  cases interfaces with
  | none => rfl
  | some names =>
    exact List.any_eq_true.mpr ⟨p.outInterface, h names rfl, interfaceMatches_self _⟩

section

variable {plan : NetworkPlan} {policy : CapturePolicy} {capabilities : CapabilityReport}
  {family : IpFamily} {interfaces : Option (List String)} {capture guard : List Rule}
  {p : Packet} {mark : Mark} {l : Layout} {bypass : Mark}

theorem Installs.outputMark_eq (h : Installs plan family capture guard) :
    plan.outputMark family p mark =
      (runRules (traverse (plan.rulesOf family .mangle) p 2) p capture mark).2 := by
  unfold outputMark through
  rw [traverse_hook h.captureHook, h.capture]
  dsimp only
  split <;> rfl

theorem Installs.outputDrops_eq (h : Installs plan family capture guard) :
    plan.outputDrops family p mark =
      ((runRules (traverse (plan.rulesOf family .filter) p 2) p guard mark).1 == .dropped) := by
  unfold outputDrops through
  rw [traverse_hook h.guardHook, h.guard]
  dsimp only
  split
  next hback =>
    cases hverdict : (runRules (traverse (plan.rulesOf family .filter) p 2) p guard mark).1 with
    | passed | returned => rfl
    | accepted | dropped | proxied port => rw [hverdict] at hback; cases hback
  · rfl

theorem tproxyPlan_outputMark (fits : l.Fits capabilities)
    (hcaptures : (l.tproxyPlan (bypassMarkOf l.policy)).Captures family) :
    (l.tproxyPlan (bypassMarkOf l.policy)).outputMark family p mark =
      if (l.tproxyPlan (bypassMarkOf l.policy)).takes l.policy l.interfaces family p mark then
        xmark l.allocation.mark l.allocation.mask mark else mark := by
  rw [(tproxyPlan_installs fits hcaptures).outputMark_eq, runRules_tproxyOutputRules,
    runRules_tproxyOutputTail]
  change _ = if (!markMatches (bypassMarkOf l.policy) l.allocation.mask mark && !p.reply &&
    (isDns p || (l.policy.capturesUid p.uid && !reserved family p &&
      reaches l.interfaces p.outInterface))) = true then _ else _
  unfold dnsMark
  rw [CapturePolicy.capturesUid_eq]
  cases markMatches (bypassMarkOf l.policy) l.allocation.mask mark with
  | true => rfl
  | false =>
    cases p.reply with
    | true => rfl
    | false =>
      cases isDns p with
      | true =>
        simp only [Bool.false_eq_true, if_false, if_true, xmark_xmark l.allocation.within,
          ite_self, Bool.not_false, Bool.true_or, Bool.and_self]
        split <;> rfl
      | false =>
        cases l.policy.excludeUids.contains p.uid with
        | true => simp
        | false =>
          cases reserved family p with
          | true | false => simp

theorem tunPlan_outputMark (fits : l.Fits capabilities)
    (hcaptures : (l.tunPlan (bypassMarkOf l.policy)).Captures family) :
    (l.tunPlan (bypassMarkOf l.policy)).outputMark family p mark =
      if (l.tunPlan (bypassMarkOf l.policy)).takes l.policy l.interfaces family p mark then
        xmark l.allocation.mark l.allocation.mask mark else mark := by
  rw [(tunPlan_installs fits hcaptures).outputMark_eq, runRules_tunRules]
  change _ = if (!markMatches (bypassMarkOf l.policy) l.allocation.mask mark && !p.reply &&
    (!interfaceMatches "lo" p.outInterface && l.policy.capturesUid p.uid &&
      reaches l.interfaces p.outInterface)) = true then _ else _
  cases markMatches (bypassMarkOf l.policy) l.allocation.mask mark with
  | true => rfl
  | false =>
    cases interfaceMatches "lo" p.outInterface with
    | true => simp
    | false =>
      cases p.reply with
      | true => rfl
      | false => simp

section

variable (h : Built capabilities policy plan)
  (hselect : resolveInterfaces policy.interfacePolicy capabilities.interfaces = .ok interfaces)
  (hcaptures : plan.Captures family)

include h hselect hcaptures

theorem Built.outputMark_eq : plan.outputMark family p mark =
      if plan.takes policy interfaces family p mark then
        xmark plan.allocation.mark plan.allocation.mask mark else mark := by
  cases h with
  | tproxy l fits mode port =>
    cases fits.interfaces.symm.trans hselect
    exact tproxyPlan_outputMark fits hcaptures
  | tun l fits mode unguarded =>
    cases fits.interfaces.symm.trans hselect
    exact tunPlan_outputMark fits hcaptures

/-- The filter table drops exactly the guarded queries that carry neither mark. -/
theorem Built.outputDrops_eq : plan.outputDrops family p mark =
      (!(interfaceMatches "lo" p.outInterface || plan.marked mark || mark == plan.bypassMark) &&
        isGuarded p && reaches interfaces p.outInterface) := by
  have hdrops : ∀ b : Bool, ((if b then (Verdict.dropped, mark) else (.returned, mark)).1 ==
      Verdict.dropped) = b := by
    intro b
    cases b <;> rfl
  cases h with
  | tproxy l fits mode port =>
    cases fits.interfaces.symm.trans hselect
    rw [(tproxyPlan_installs fits hcaptures).outputDrops_eq, runRules_dnsGuardRules, hdrops]
    rfl
  | tun l fits mode unguarded =>
    cases fits.interfaces.symm.trans hselect
    rw [(tunPlan_installs fits hcaptures).outputDrops_eq, runRules_dnsGuardRules, hdrops]
    rfl

end

/-! ## The IPv6 guard -/

section

variable (hguarded : l.ipv6Guarded = true) (hcaptured : l.ipv6Captured = false)

include hguarded hcaptured

theorem tproxyPlan_guardRules {chain : String} (h : NotForwarding l.slot chain) :
    (l.tproxyPlan bypass).rulesOf .ipv6 .filter chain =
      let a := ipv6GuardPayloads l.slot l.policy ("nethop:g=" ++ toString l.generation.get)
      rulesOn chain (a.hooks ++ a.body) := by
  unfold rulesOf Layout.tproxyPlan Layout.tproxySteps Layout.guardStep
  simp only [List.flatMap_append, forwardingSteps_rulesOf h, policySteps_rulesOf, hguarded,
    hcaptured]
  simp [Layout.tproxyStep, Layout.dnsStep]

theorem tproxyPlan_guardHook : (l.tproxyPlan bypass).rulesOf .ipv6 .filter "OUTPUT" =
      [⟨[.comment ("nethop:g=" ++ toString l.generation.get)],
        .jump ("NH_V6G_" ++ l.slot.suffix)⟩] := by
  rw [tproxyPlan_guardRules hguarded hcaptured (notForwarding_output l.slot)]
  unfold ipv6GuardPayloads
  cases l.slot <;> simp [PlanSlot.suffix]

theorem tproxyPlan_guardDrops (hclosed : guardOpen p = false) :
    (l.tproxyPlan bypass).outputDrops .ipv6 p mark = l.policy.capturesUid p.uid := by
  have hown := notForwarding_own l.slot
  have hguard : (l.tproxyPlan bypass).rulesOf .ipv6 .filter ("NH_V6G_" ++ l.slot.suffix) =
      ipv6GuardRules l.slot l.policy := by
    rw [tproxyPlan_guardRules hguarded hcaptured (hown _ (by decide))]
    unfold ipv6GuardPayloads
    cases l.slot <;> simp [PlanSlot.suffix]
  have hblock : (l.tproxyPlan bypass).rulesOf .ipv6 .filter ("NH_V6B_" ++ l.slot.suffix) =
      ipv6BlockRules := by
    rw [tproxyPlan_guardRules hguarded hcaptured (hown _ (by decide))]
    unfold ipv6GuardPayloads
    cases l.slot <;> simp [PlanSlot.suffix]
  have hdropped : traverse ((l.tproxyPlan bypass).rulesOf .ipv6 .filter) p 2
      ("NH_V6B_" ++ l.slot.suffix) mark = (.dropped, mark) := by
    rw [Netfilter.traverse, hblock, runRules_ipv6BlockRules, hclosed, if_neg Bool.false_ne_true]
  unfold outputDrops through
  rw [traverse_hook (tproxyPlan_guardHook hguarded hcaptured), hguard,
    runRules_ipv6GuardRules hdropped]
  cases l.policy.capturesUid p.uid with
  | true => rfl
  | false => rfl

end

/-- Where the plan guards IPv6, the guard drops what the policy captures. -/
theorem Built.guardDrops_eq (h : Built capabilities policy plan)
    (hguarded : plan.ipv6Guarded = true) (hclosed : guardOpen p = false) :
    plan.outputDrops .ipv6 p mark = policy.capturesUid p.uid := by
  cases h with
  | tproxy l fits mode port =>
    exact tproxyPlan_guardDrops hguarded (fits.apart hguarded) hclosed
  | tun l fits mode unguarded =>
    have hcontra : l.ipv6Guarded = true := hguarded
    rw [unguarded] at hcontra
    cases hcontra

end

end NetHop.Capture
