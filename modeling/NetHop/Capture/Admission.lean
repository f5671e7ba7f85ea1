import NetHop.Capture.Coverage

/-!
# IPv6 admission

Both planners check IPv6 last: a device whose IPv6 the plan does not capture needs
the guard.  The guard needs an IPv6 address, so that `build_tun`, which asks for it
when there is none, has no plan for a device without IPv6.
-/

namespace NetHop.Capture

open Generation

inductive Planner where
  | tproxy
  | tun

open Planner

def CapabilityReport.withIpv6 (r : CapabilityReport) (ipv6 : FamilyCapability)
    (h : ipv6.family = .ipv6) : CapabilityReport :=
  { r with ipv6, families := ⟨r.families.1, h⟩ }

namespace Planner

variable (planner : Planner) (generation : GenerationId) (slot : PlanSlot)
  (policy : CapturePolicy) (capabilities : CapabilityReport)

def build : Except NetworkPlanError NetworkPlan :=
  match planner with
  | .tproxy => buildTproxy generation slot policy capabilities
  | .tun => buildTun generation slot policy capabilities

/-- The checks that do not look at IPv6 pass: there is a plan for other IPv6 capabilities. -/
def PassesOthers : Prop :=
  ∃ ipv6 h plan, planner.build generation slot policy (capabilities.withIpv6 ipv6 h) = .ok plan

def captures : Bool :=
  match planner with
  | .tproxy => capabilities.ipv6.supportsTproxy
  | .tun => capabilities.ipv6.address == .supported

def guards : Bool :=
  match planner with
  | .tproxy => capabilities.ipv6.address == .supported && !capabilities.ipv6.supportsTproxy
  | .tun => !(capabilities.ipv6.address == .supported)

/-- What a planner promises about the IPv6 address of a device. -/
structure AdmitsIpv6 : Prop where
  notPresent : capabilities.ipv6.address = .notPresent →
    ∃ plan, planner.build generation slot policy capabilities = .ok plan
  supported : capabilities.ipv6.address = .supported →
    ((∃ plan, planner.build generation slot policy capabilities = .ok plan) ↔
      planner.captures capabilities = true ∨
        policy.ipv6Guard = true ∧ capabilities.ipv6.supportsGuard = true)
  refused : capabilities.ipv6.address ≠ .supported → capabilities.ipv6.address ≠ .notPresent →
    ∀ plan, planner.build generation slot policy capabilities ≠ .ok plan
  captured : ∀ plan, planner.build generation slot policy capabilities = .ok plan →
    plan.ipv6Captured = planner.captures capabilities
  covered : capabilities.ipv6.address = .supported →
    ∀ plan, planner.build generation slot policy capabilities = .ok plan →
      plan.ipv6Captured = true ∨ plan.ipv6Guarded = true

end Planner

section

variable {planner : Planner} {generation : GenerationId} {slot : PlanSlot}
  {policy : CapturePolicy} {capabilities : CapabilityReport} {plan : NetworkPlan} {present : Bool}

theorem ipv6Present_eq_ok : ipv6Present capabilities = .ok present ↔
      (capabilities.ipv6.address = .supported ∨ capabilities.ipv6.address = .notPresent) ∧
        present = (capabilities.ipv6.address == .supported) := by
  unfold ipv6Present
  cases capabilities.ipv6.address with
  | supported => exact ⟨fun h => ⟨.inl rfl, by cases h; rfl⟩, fun h => by rw [h.2]; rfl⟩
  | notPresent => exact ⟨fun h => ⟨.inr rfl, by cases h; rfl⟩, fun h => by rw [h.2]; rfl⟩
  | _ => simp

theorem address_of_supportsGuard (h : capabilities.ipv6.supportsGuard = true) :
    capabilities.ipv6.address = .supported := by
  simp only [FamilyCapability.supportsGuard, Bool.and_eq_true] at h
  have haddress := h.1.1.1.1
  revert haddress
  cases capabilities.ipv6.address with
  | supported => exact fun _ => rfl
  | _ => exact nofun

namespace Planner

theorem flags_of_build (h : planner.build generation slot policy capabilities = .ok plan) :
    plan.ipv6Captured = planner.captures capabilities ∧
      plan.ipv6Guarded = planner.guards capabilities := by
  cases planner with
  | tproxy =>
    simp only [build, buildTproxy, bind_eq_ok, ensure_eq_ok, exists_const, ipv6Present_eq_ok] at h
    obtain ⟨-, -, -, -, port, -, -, -, allocation, -, mark, -, -, interfaces, -, forwarding, -,
      present, ⟨-, rfl⟩, -, h⟩ := h
    cases h
    exact ⟨rfl, rfl⟩
  | tun =>
    simp only [build, buildTun, bind_eq_ok, ensure_eq_ok, exists_const, ipv6Present_eq_ok] at h
    obtain ⟨-, -, -, -, -, allocation, -, -, interfaces, -, forwarding, -, present, ⟨-, rfl⟩, -,
      h⟩ := h
    cases h
    exact ⟨rfl, rfl⟩

/-- The IPv6 check, which both planners make after all the others. -/
theorem build_eq_ok_iff (h : planner.PassesOthers generation slot policy capabilities) :
    (∃ plan, planner.build generation slot policy capabilities = .ok plan) ↔
      (capabilities.ipv6.address = .supported ∨ capabilities.ipv6.address = .notPresent) ∧
        (planner.guards capabilities = true →
          policy.ipv6Guard = true ∧ capabilities.ipv6.supportsGuard = true) := by
  have hcheck (g p s : Bool) : (!g || (p && s)) = true ↔ (g = true → p = true ∧ s = true) := by
    cases g <;> simp
  obtain ⟨ipv6, hfamily, other, h⟩ := h
  cases planner with
  | tproxy =>
    simp only [build, buildTproxy, bind_eq_ok, ensure_eq_ok, exists_const, ipv6Present_eq_ok,
      hcheck] at h ⊢
    obtain ⟨hgeneration, hmode, hplatform, htunnel, port, hport, hstatus, hipv4, allocation,
      hallocation, mark, hmark, hbypass, interfaces, hinterfaces, forwarding, hforwarding, -⟩ := h
    constructor
    · rintro ⟨plan, -, -, -, -, _, -, -, -, _, -, _, -, -, _, -, _, -, _, ⟨haddress, rfl⟩, hguard,
        -⟩
      exact ⟨haddress, hguard⟩
    · rintro ⟨haddress, hguard⟩
      exact ⟨_, hgeneration, hmode, hplatform, htunnel, port, hport, hstatus, hipv4, allocation,
        hallocation, mark, hmark, hbypass, interfaces, hinterfaces, forwarding, hforwarding, _,
        ⟨haddress, rfl⟩, hguard, rfl⟩
  | tun =>
    simp only [build, buildTun, bind_eq_ok, ensure_eq_ok, exists_const, ipv6Present_eq_ok,
      hcheck] at h ⊢
    obtain ⟨hgeneration, hmode, hplatform, htun, htunnel, allocation, hallocation, hbypass,
      interfaces, hinterfaces, forwarding, hforwarding, -⟩ := h
    constructor
    · rintro ⟨plan, -, -, -, -, -, _, -, -, _, -, _, -, _, ⟨haddress, rfl⟩, hguard, -⟩
      exact ⟨haddress, hguard⟩
    · rintro ⟨haddress, hguard⟩
      exact ⟨_, hgeneration, hmode, hplatform, htun, htunnel, allocation, hallocation, hbypass,
        interfaces, hinterfaces, forwarding, hforwarding, _, ⟨haddress, rfl⟩, hguard, rfl⟩

theorem captures_or_guards (h : capabilities.ipv6.address = .supported) :
    planner.guards capabilities = !planner.captures capabilities := by
  cases planner with
  | tproxy => simp [guards, captures, h]
  | tun => rfl

end Planner

end

/-- A planner treats IPv6 as it should unless it is `build_tun` on a device without IPv6. -/
theorem admitsIpv6_iff {planner : Planner} {generation : GenerationId} {slot : PlanSlot}
    {policy : CapturePolicy} {capabilities : CapabilityReport}
    (h : planner.PassesOthers generation slot policy capabilities) :
    planner.AdmitsIpv6 generation slot policy capabilities ↔
      ¬ (planner = .tun ∧ capabilities.ipv6.address = .notPresent) := by
  constructor
  · rintro hadmits ⟨rfl, haddress⟩
    obtain ⟨-, hguard⟩ := (build_eq_ok_iff h).mp (hadmits.notPresent haddress)
    have hguards : tun.guards capabilities = true := by simp [guards, haddress]
    have hsupported := address_of_supportsGuard (hguard hguards).2
    cases haddress.symm.trans hsupported
  · intro hcondition
    refine ⟨fun haddress => (build_eq_ok_iff h).mpr ⟨.inr haddress, fun hguards => ?_⟩,
      fun haddress => ?_, fun hsupported hnotPresent plan hplan => ?_,
      fun plan hplan => (flags_of_build hplan).1, fun haddress plan hplan => ?_⟩
    · cases planner with
      | tproxy => simp [guards, haddress] at hguards
      | tun => exact absurd ⟨rfl, haddress⟩ hcondition
    · rw [build_eq_ok_iff h, captures_or_guards haddress]
      cases planner.captures capabilities with
      | false | true => simp [haddress]
    · rcases ((build_eq_ok_iff h).mp ⟨plan, hplan⟩).1 with haddress | haddress
      · exact hsupported haddress
      · exact hnotPresent haddress
    · obtain ⟨hcaptured, hguarded⟩ := flags_of_build hplan
      rw [hcaptured, hguarded, captures_or_guards haddress]
      cases planner.captures capabilities with
      | false => exact .inr rfl
      | true => exact .inl rfl

def ipv4OnlyReport : CapabilityReport :=
  sampleReport.withIpv6 { sampleFamily .ipv6 .unsupported with address := .notPresent } rfl

theorem samplePolicy_admitsIpv6 :
    tproxy.AdmitsIpv6 sampleGeneration .a (samplePolicy .tproxy 0x200 (by decide)) ipv4OnlyReport :=
  (admitsIpv6_iff ⟨sampleFamily .ipv6 .unsupported, rfl, samplePlan, rfl⟩).mpr nofun

theorem buildTun_ipv4OnlyReport :
    (∃ plan, buildTun sampleGeneration .a (samplePolicy .tun 0x200 (by decide)) sampleReport =
        .ok plan) ∧
      buildTun sampleGeneration .a (samplePolicy .tun 0x200 (by decide)) ipv4OnlyReport =
        .error .ipv6LeakRisk := ⟨⟨_, rfl⟩, rfl⟩

end NetHop.Capture
