import NetHop.Capture.Policy

/-!
# Capability report

`capability.rs`: what the device can do, as far as the planners read it.
-/

namespace NetHop.Capture

open Netfilter

inductive IpFamily where
  | ipv4
  | ipv6
  deriving DecidableEq

inductive NetfilterTable where
  | filter
  | mangle
  deriving DecidableEq

def NetfilterTable.asStr : NetfilterTable → String
  | .filter => "filter"
  | .mangle => "mangle"

inductive CapabilityStatus where
  | supported
  | notPresent
  | unsupported
  | denied
  | conflict
  deriving DecidableEq

def CapabilityStatus.isSupported : CapabilityStatus → Bool
  | .supported => true
  | _ => false

structure ResourceCandidate where
  mark : Mark
  mask : Mark
  routeTable : UInt32
  rulePriority : UInt32
  mark_ne_zero : mark ≠ 0
  mask_ne_zero : mask ≠ 0
  within : mark &&& ~~~mask = 0
  routeTable_ne_zero : routeTable ≠ 0
  rulePriority_ne_zero : rulePriority ≠ 0

def ResourceCandidate.new (mark mask : Mark) (routeTable rulePriority : UInt32) :
    Option ResourceCandidate :=
  if h : mark ≠ 0 ∧ mask ≠ 0 ∧ mark &&& ~~~mask = 0 ∧ routeTable ≠ 0 ∧ rulePriority ≠ 0 then
    some ⟨mark, mask, routeTable, rulePriority, h.1, h.2.1, h.2.2.1, h.2.2.2.1, h.2.2.2.2⟩
  else none

structure AllocationCapability where
  candidate : ResourceCandidate
  status : CapabilityStatus

structure FamilyCapability where
  family : IpFamily
  address : CapabilityStatus
  netfilter : CapabilityStatus
  restore : CapabilityStatus
  tproxy : CapabilityStatus
  mark : CapabilityStatus
  conntrack : CapabilityStatus
  owner : CapabilityStatus
  socket : CapabilityStatus
  policyRouting : CapabilityStatus
  chainNamespace : CapabilityStatus

namespace FamilyCapability

def supportsTproxy (c : FamilyCapability) : Bool :=
  c.address.isSupported && c.netfilter.isSupported && c.restore.isSupported &&
    c.tproxy.isSupported && c.mark.isSupported && c.conntrack.isSupported &&
    c.owner.isSupported && c.socket.isSupported && c.policyRouting.isSupported &&
    c.chainNamespace.isSupported

def supportsGuard (c : FamilyCapability) : Bool :=
  c.address.isSupported && c.netfilter.isSupported && c.restore.isSupported &&
    c.owner.isSupported && c.chainNamespace.isSupported

end FamilyCapability

def maxNetworkInterfaces : Nat := 64
def maxInterfaceNameBytes : Nat := 64

def validInterfaceName (name : String) : Bool :=
  !name.isEmpty && name.utf8ByteSize ≤ maxInterfaceNameBytes && name.toList.all nameChar

/-- The fields the planners read; ABI, SELinux and the backend are not among them.  What `new` and
`with_interfaces` check are the last six. -/
structure CapabilityReport where
  android : CapabilityStatus
  root : CapabilityStatus
  ipv4 : FamilyCapability
  ipv6 : FamilyCapability
  tun : CapabilityStatus
  activeTunnel : CapabilityStatus
  inboundPort : UInt16
  inboundPortStatus : CapabilityStatus
  allocations : List AllocationCapability
  interfaces : List String
  port_ne_zero : inboundPort ≠ 0
  families : ipv4.family = .ipv4 ∧ ipv6.family = .ipv6
  allocated : allocations ≠ []
  interfaces_bounded : interfaces.length ≤ maxNetworkInterfaces
  interfaces_valid : ∀ name ∈ interfaces, validInterfaceName name = true
  interfaces_sorted : interfaces.IsChain (· < ·)

def sampleFamily (family : IpFamily) (tproxy : CapabilityStatus) : FamilyCapability :=
  ⟨family, .supported, .supported, .supported, tproxy, .supported, .supported, .supported,
    .supported, .supported, .supported⟩

def sampleCandidate : ResourceCandidate :=
  ⟨0x100, 0xff00, 100, 10000, by decide, by decide, by decide, by decide, by decide⟩

def sampleReport : CapabilityReport where
  android := .supported
  root := .supported
  ipv4 := sampleFamily .ipv4 .supported
  ipv6 := sampleFamily .ipv6 .unsupported
  tun := .supported
  activeTunnel := .supported
  inboundPort := 7893
  inboundPortStatus := .supported
  allocations := [⟨sampleCandidate, .supported⟩]
  interfaces := []
  port_ne_zero := by decide
  families := ⟨rfl, rfl⟩
  allocated := by simp
  interfaces_bounded := by decide
  interfaces_valid := by simp
  interfaces_sorted := .nil

end NetHop.Capture
