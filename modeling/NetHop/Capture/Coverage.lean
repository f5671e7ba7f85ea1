import NetHop.Capture.Config
import NetHop.Capture.Output

/-!
# What a plan captures and what it lets out

The results about outgoing packets: the mark follows the policy, the core's own
traffic, and DNS.
-/

namespace NetHop.Capture

open Netfilter NetworkPlan

/-- The destinations that the capture chain of the plan leaves alone. -/
def NetworkPlan.reserves (plan : NetworkPlan) (family : IpFamily) (p : Packet) : Bool :=
  match plan.mode with
  | .tun => false
  | _ => reserved family p

/-- The packets for which the policy decides: none of the earlier rules of the capture
chain applies to them. -/
structure Ordinary (plan : NetworkPlan) (interfaces : Option (List String)) (family : IpFamily)
    (p : Packet) (mark : Mark) : Prop where
  original : p.reply = false
  notBypass : markMatches plan.bypassMark plan.allocation.mask mark = false
  notDns : isDns p = false
  notLoopback : p.outInterface ≠ "lo"
  notReserved : plan.reserves family p = false
  selected : Selected interfaces p

variable {plan : NetworkPlan} {policy : CapturePolicy} {capabilities : CapabilityReport}
  {family : IpFamily} {interfaces : Option (List String)} {p : Packet} {mark : Mark}

theorem interfaceMatches_lo {name : String} (h : name ≠ "lo") :
    interfaceMatches "lo" name = false := by
  exact beq_eq_false_iff_ne.mpr (.symm h)

theorem marked_xmark (plan : NetworkPlan) (mark : Mark) :
    plan.marked (xmark plan.allocation.mark plan.allocation.mask mark) = true :=
  markMatches_xmark plan.allocation.within

theorem Ordinary.takes_eq (h : Ordinary plan interfaces family p mark) :
    plan.takes policy interfaces family p mark = policy.capturesUid p.uid := by
  unfold takes
  rw [h.notBypass, h.original, interfaceMatches_lo h.notLoopback, h.notDns, h.selected.reaches]
  have hreserved := h.notReserved
  unfold reserves at hreserved
  cases hmode : plan.mode with
  | tun => simp
  | tproxy | direct =>
    rw [hmode] at hreserved
    simp [hreserved]

/-- The rules of a plan implement its policy: an ordinary packet that does not carry the
mark yet gets it exactly when the policy captures its UID, and where IPv6 is guarded the
guard drops exactly those. -/
theorem planned_output_iff_capturesUid (h : Planned policy capabilities plan)
    (hselect : resolveInterfaces policy.interfacePolicy capabilities.interfaces = .ok interfaces) :
    (∀ family, plan.Captures family → ∀ p mark, Ordinary plan interfaces family p mark →
      plan.marked mark = false →
      (plan.marked (plan.outputMark family p mark) = true ↔ policy.capturesUid p.uid = true)) ∧
    (plan.ipv6Guarded = true → ∀ p mark, guardOpen p = false →
      (plan.outputDrops .ipv6 p mark = true ↔ policy.capturesUid p.uid = true)) := by
  have hbuilt := h.built
  constructor
  · intro family hcaptures p mark hordinary hunmarked
    rw [hbuilt.outputMark_eq hselect hcaptures, hordinary.takes_eq]
    cases policy.capturesUid p.uid with
    | true => simp [marked_xmark]
    | false => simp [hunmarked]
  · intro hguarded p mark hclosed
    rw [hbuilt.guardDrops_eq hguarded hclosed]

/-! ### A device with IPv6 but no IPv6 TPROXY -/

def sampleGeneration : Generation.GenerationId := ⟨7, by decide, by decide⟩

def sampleLayout (mode : CaptureMode) (bypassMark : Mark) (hbypass : bypassMark ≠ 0) : Layout where
  generation := sampleGeneration
  slot := .a
  policy := samplePolicy mode bypassMark hbypass
  allocation := sampleCandidate
  inboundPort := 7893
  interfaces := none
  forwardingInterfaces := []
  ipv6Guarded := true
  ipv6Captured := false

theorem sampleMark_ne_zero : (0x200 : Mark) ≠ 0 := by decide

def samplePlan : NetworkPlan := (sampleLayout .tproxy 0x200 sampleMark_ne_zero).tproxyPlan 0x200

theorem samplePlan_built :
    buildTproxy sampleGeneration .a (samplePolicy .tproxy 0x200 (by decide)) sampleReport =
      .ok samplePlan := rfl

theorem samplePlan_planned :
    Planned (samplePolicy .tproxy 0x200 (by decide)) sampleReport samplePlan :=
  ⟨sampleGeneration, .a, .inl samplePlan_built⟩

def samplePacket (uid : UInt32) (port : Nat) : Packet where
  protocol := .tcp
  destinationPort := port
  destination := 0x08080808
  uid := uid
  inInterface := ""
  outInterface := "wlan0"
  reply := false
  transparentSocket := false

theorem samplePacket_ordinary (uid : UInt32) (h : markMatches 0x200 0xff00 mark = false) :
    Ordinary samplePlan none .ipv4 (samplePacket uid 443) mark := by
  have hdestination : ((reservedDestinations .ipv4).any fun range => range.covers 0x08080808) =
      false := by decide
  exact ⟨rfl, h, rfl, show "wlan0" ≠ "lo" by decide, hdestination, nofun⟩

theorem samplePlan_output_captured :
    samplePlan.marked (samplePlan.outputMark .ipv4 (samplePacket 10001 443) 0) = true ∧
      samplePlan.outputDrops .ipv6 { samplePacket 10001 443 with destination := 1 <<< 125 } 0 =
        true := by
  obtain ⟨hmark, hguard⟩ := planned_output_iff_capturesUid samplePlan_planned rfl
  refine ⟨?_, ?_⟩
  · exact (hmark .ipv4 trivial _ 0 (samplePacket_ordinary 10001 (by decide)) (by decide)).mpr
      (by decide)
  · exact (hguard rfl _ 0 (by decide)).mpr (by decide)

/-- The mark is not taken off: a packet of an excluded UID that comes with the mark keeps it. -/
theorem samplePlan_premarked :
    Planned (samplePolicy .tproxy 0x200 (by decide)) sampleReport samplePlan ∧
      Ordinary samplePlan none .ipv4 (samplePacket 0 443) 0x100 ∧
      samplePlan.marked (samplePlan.outputMark .ipv4 (samplePacket 0 443) 0x100) = true ∧
      (samplePolicy .tproxy 0x200 (by decide)).capturesUid 0 = false :=
  ⟨samplePlan_planned, samplePacket_ordinary 0 (by decide), by decide, by decide⟩

/-! ## The core's own traffic -/

theorem exists_selected
    (hselect : resolveInterfaces policy.interfacePolicy capabilities.interfaces = .ok interfaces) :
    ∃ name, name ≠ "lo" ∧ ∀ names, interfaces = some names → name ∈ names := by
  cases interfaces with
  | none => exact ⟨"wlan0", by decide, nofun⟩
  | some names =>
    obtain ⟨hne, hnames⟩ := resolveInterfaces_eq_some hselect
    obtain ⟨name, hname⟩ := List.exists_mem_of_ne_nil names hne
    refine ⟨name, (hnames name hname).2, ?_⟩
    rintro _ ⟨⟩
    exact hname

theorem exists_taken (plan : NetworkPlan)
    (hselect : resolveInterfaces policy.interfacePolicy capabilities.interfaces = .ok interfaces) :
    ∃ p : Packet, ∀ mark, plan.takes policy interfaces .ipv4 p mark =
      !markMatches plan.bypassMark plan.allocation.mask mark := by
  obtain ⟨uid, huid⟩ := policy.exists_capturesUid
  obtain ⟨name, hname, hmem⟩ := exists_selected hselect
  let p : Packet := ⟨.udp, 53, 0, uid, "", name, false, false⟩
  have hreaches : reaches interfaces p.outInterface = true := Selected.reaches hmem
  refine ⟨p, fun mark => ?_⟩
  unfold takes
  cases plan.mode with
  | tun => simp [p, hreaches, interfaceMatches_lo hname, huid]
  | tproxy | direct => simp [p, isDns]

/-- The core's own packets pass every plan whose bypass mark lies under the mask of its
allocation, and no other: the bypass rule looks for the whole mark under that mask. -/
theorem planned_bypass_passes_iff (h : Planned policy capabilities plan) :
    (∀ family, plan.Captures family → ∀ p,
      plan.marked (plan.outputMark family p plan.bypassMark) = false ∧
      plan.outputDrops family p (plan.outputMark family p plan.bypassMark) = false) ↔
    plan.bypassMark &&& plan.allocation.mask = plan.bypassMark := by
  have hbuilt := h.built
  obtain ⟨⟨interfaces, hselect⟩, hfree⟩ : (∃ interfaces,
      resolveInterfaces policy.interfacePolicy capabilities.interfaces = .ok interfaces) ∧
      plan.bypassMark &&& plan.allocation.mask ≠ plan.allocation.mark := by
    cases hbuilt with
    | tproxy l fits | tun l fits => exact ⟨⟨_, fits.interfaces⟩, fits.bypassFree⟩
  constructor
  · intro hall
    by_contra hne
    obtain ⟨p, htaken⟩ := exists_taken plan hselect
    have hmark := (hall .ipv4 trivial p).1
    have hmiss : markMatches plan.bypassMark plan.allocation.mask plan.bypassMark = false :=
      beq_eq_false_iff_ne.mpr hne
    rw [hbuilt.outputMark_eq hselect plan.captures_ipv4, htaken, hmiss, Bool.not_false, if_pos rfl,
      marked_xmark] at hmark
    cases hmark
  · intro hwithin family hcaptures p
    have hmatch : markMatches plan.bypassMark plan.allocation.mask plan.bypassMark = true :=
      beq_iff_eq.mpr hwithin
    have hkept : plan.outputMark family p plan.bypassMark = plan.bypassMark := by
      rw [hbuilt.outputMark_eq hselect hcaptures]
      simp [takes, hmatch]
    rw [hkept]
    refine ⟨beq_eq_false_iff_ne.mpr hfree, ?_⟩
    rw [hbuilt.outputDrops_eq hselect hcaptures]
    simp

theorem samplePlan_bypass_passes :
    samplePlan.marked (samplePlan.outputMark .ipv4 (samplePacket 10001 53) 0x200) = false ∧
      samplePlan.outputDrops .ipv4 (samplePacket 10001 53)
        (samplePlan.outputMark .ipv4 (samplePacket 10001 53) 0x200) = false :=
  (planned_bypass_passes_iff samplePlan_planned).mpr (by decide) .ipv4 trivial _

def sampleAdvanced (bypassMark : Mark) : AdvancedWire :=
  ⟨7893, bypassMark, true, false, 10, 300, [⟨0x100, 0xff00, 100, 10000⟩]⟩

def sampleNetwork : NetworkSettings := ⟨true, false, ⟨true, true, false, false, [], []⟩⟩

/-- The configuration admits a bypass mark outside the mask, and the planner takes it. -/
theorem outsideMask_marked : (∃ settings,
      validateAdvanced (sampleAdvanced 0x20000) = .ok (settings, [sampleCandidate]) ∧
      buildCapture .tproxy sampleNetwork settings [] [0] =
        .ok (samplePolicy .tproxy 0x20000 (by decide))) ∧
    Planned (samplePolicy .tproxy 0x20000 (by decide)) sampleReport
      ((sampleLayout .tproxy 0x20000 (by decide)).tproxyPlan 0x20000) ∧
    ((sampleLayout .tproxy 0x20000 (by decide)).tproxyPlan 0x20000).marked
      (((sampleLayout .tproxy 0x20000 (by decide)).tproxyPlan 0x20000).outputMark .ipv4
        (samplePacket 0 53) 0x20000) = true :=
  ⟨⟨_, rfl, rfl⟩, ⟨sampleGeneration, .a, .inl rfl⟩, by decide⟩

/-! ## DNS -/

theorem takes_dns (hdns : isDns p = true) (hdirection : p.reply = false)
    (hloopback : p.outInterface ≠ "lo") (hselected : Selected interfaces p) :
    plan.takes policy interfaces family p mark =
      (!markMatches plan.bypassMark plan.allocation.mask mark &&
        (plan.mode != .tun || policy.capturesUid p.uid)) := by
  unfold takes
  rw [hdirection, hdns, interfaceMatches_lo hloopback, hselected.reaches]
  cases plan.mode <;> simp

theorem Built.mode_eq (h : Built capabilities policy plan) :
    plan.mode = .tproxy ∨ plan.mode = .tun := by
  cases h with
  | tproxy l fits mode port => exact .inl rfl
  | tun l fits mode unguarded => exact .inr rfl

/-- A DNS query without the mark is captured by a TPROXY plan, whoever sends it, and by a
TUN plan when the policy captures its UID.  It is lost otherwise, and also where the
bypass rule, which looks under the mask only, takes it for the core's own. -/
theorem planned_dns_captured_iff (h : Planned policy capabilities plan)
    (hselect : resolveInterfaces policy.interfacePolicy capabilities.interfaces = .ok interfaces)
    (hcaptures : plan.Captures family) (hdns : isDns p = true) (hdirection : p.reply = false)
    (hloopback : p.outInterface ≠ "lo") (hselected : Selected interfaces p)
    (hunmarked : plan.marked mark = false) :
    (plan.marked (plan.outputMark family p mark) = true ∧
      plan.outputDrops family p (plan.outputMark family p mark) = false) ↔
    markMatches plan.bypassMark plan.allocation.mask mark = false ∧
      (plan.mode = .tproxy ∨ policy.capturesUid p.uid = true) := by
  have hbuilt := h.built
  have hguarded : isGuarded p = true := by
    unfold isGuarded
    rw [hdns, Bool.true_or]
  rw [hbuilt.outputMark_eq hselect hcaptures, takes_dns hdns hdirection hloopback hselected,
    hbuilt.outputDrops_eq hselect hcaptures, interfaceMatches_lo hloopback, hguarded,
    hselected.reaches]
  have hmode : (plan.mode != .tun) = true ↔ plan.mode = .tproxy := by
    rcases hbuilt.mode_eq with hmode | hmode <;> simp [hmode]
  cases markMatches plan.bypassMark plan.allocation.mask mark with
  | true => simp [hunmarked]
  | false =>
    rw [Bool.not_false, Bool.true_and]
    by_cases htaken : (plan.mode != .tun || policy.capturesUid p.uid) = true
    · rw [if_pos htaken, marked_xmark]
      rw [Bool.or_eq_true, hmode] at htaken
      simp [htaken]
    · rw [if_neg htaken, hunmarked]
      rw [Bool.or_eq_true, hmode] at htaken
      simp [htaken]

/-- No plain DNS and no DNS over TLS leaves by a selected interface unless it carries one of
the two marks. -/
theorem planned_no_dns_leak (h : Planned policy capabilities plan)
    (hselect : resolveInterfaces policy.interfacePolicy capabilities.interfaces = .ok interfaces)
    (hcaptures : plan.Captures family) (hguarded : isGuarded p = true)
    (hloopback : p.outInterface ≠ "lo") (hselected : Selected interfaces p) :
    plan.marked (plan.outputMark family p mark) = true ∨
      plan.outputMark family p mark = plan.bypassMark ∨
      plan.outputDrops family p (plan.outputMark family p mark) = true := by
  rw [h.built.outputDrops_eq hselect hcaptures, interfaceMatches_lo hloopback, hguarded,
    hselected.reaches]
  by_cases hmarked : plan.marked (plan.outputMark family p mark) = true
  · exact .inl hmarked
  · by_cases hbypass : plan.outputMark family p mark = plan.bypassMark
    · exact .inr (.inl hbypass)
    · simp [hmarked, hbypass]

theorem samplePlan_dns_captured :
    samplePlan.marked (samplePlan.outputMark .ipv4 (samplePacket 0 53) 0) = true ∧
      samplePlan.outputDrops .ipv4 (samplePacket 0 53)
        (samplePlan.outputMark .ipv4 (samplePacket 0 53) 0) = false :=
  (planned_dns_captured_iff samplePlan_planned rfl samplePlan.captures_ipv4 rfl rfl (by decide)
    nofun (by decide)).mpr ⟨by decide, .inl rfl⟩

def sampleTunPlan : NetworkPlan :=
  Layout.tunPlan
    { sampleLayout .tun 0x200 (by decide) with
      inboundPort := 0, ipv6Guarded := false, ipv6Captured := true } 0x200

/-- Under a TUN plan the DNS that `netd` sends as UID 0 is cut off. -/
theorem sampleTunPlan_dns_dropped : (samplePolicy .tun 0x200 (by decide)).excludeUids =
      sortUids (ApplicationSettings.baseExcludeUids ⟨.all, []⟩) ∧
    Planned (samplePolicy .tun 0x200 (by decide)) sampleReport sampleTunPlan ∧
    sampleTunPlan.marked (sampleTunPlan.outputMark .ipv4 (samplePacket 0 53) 0) = false ∧
    sampleTunPlan.outputDrops .ipv4 (samplePacket 0 53)
      (sampleTunPlan.outputMark .ipv4 (samplePacket 0 53) 0) = true :=
  ⟨rfl, ⟨sampleGeneration, .a, .inr rfl⟩, by decide, by decide⟩

theorem samplePlan_no_dns_leak :
    samplePlan.marked (samplePlan.outputMark .ipv4 (samplePacket 0 853) 0) = true ∨
      samplePlan.outputMark .ipv4 (samplePacket 0 853) 0 = samplePlan.bypassMark ∨
      samplePlan.outputDrops .ipv4 (samplePacket 0 853)
        (samplePlan.outputMark .ipv4 (samplePacket 0 853) 0) = true :=
  planned_no_dns_leak samplePlan_planned rfl samplePlan.captures_ipv4 rfl (by decide) nofun

end NetHop.Capture
