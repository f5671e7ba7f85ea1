import NetHop.Capture.Interfaces
import NetHop.Generation.Candidate
import NetHop.Netfilter.Table

/-!
# Network plans

`plan.rs` and `forwarding.rs`: the payloads of each kind of step and the three
planners.  A payload adds chains of its own, hooks them into the built-in chains
and fills them, and its rollback takes the hooks off and removes the chains: each
generator is an `Attachment`.
-/

namespace NetHop.Capture

open Generation Netfilter

def defaultTunBypassMark : Mark := 0x40000000

inductive PlanSlot where
  | a
  | b
  deriving DecidableEq

def PlanSlot.suffix : PlanSlot → String
  | .a => "A"
  | .b => "B"

inductive NetworkOperationKind where
  | ipv6GuardRestore
  | dnsGuardRestore
  | forwardingRestore
  | policyRouteAdd
  | policyRuleAdd
  | netfilterRestore

inductive MutationAction where
  | add
  | delete

structure Payload where
  table : NetfilterTable
  lines : List Line

inductive NetworkOperation where
  | restore (family : IpFamily) (payload : Payload)
  | policyRoute (action : MutationAction) (family : IpFamily) (table : UInt32) (device : String)
      (isLocal : Bool)
  | policyRule (action : MutationAction) (family : IpFamily) (mark mask : Mark)
      (table priority : UInt32)

structure PlanStep where
  kind : NetworkOperationKind
  apply : NetworkOperation
  rollback : NetworkOperation

structure NetworkPlan where
  generation : GenerationId
  slot : PlanSlot
  mode : CaptureMode
  captureInterface : Option String
  allocation : ResourceCandidate
  bypassMark : Mark
  ipv6Captured : Bool
  ipv6Guarded : Bool
  dnsGuarded : Bool
  forwardingInterfaces : List String
  steps : List PlanStep

namespace NetworkPlan

variable (plan : NetworkPlan)

def forwardingOwnerMarker : String :=
  "nethop:fwd:g=" ++ toString plan.generation.get

def ownerMarker : String :=
  if plan.mode = .tun then "nethop:tun:g=" ++ toString plan.generation.get
  else "nethop:g=" ++ toString plan.generation.get

variable (family : IpFamily)

def entryChain : String :=
  if family = .ipv6 ∧ plan.ipv6Guarded = true then "NH_V6G_" ++ plan.slot.suffix
  else "NH_OUT_" ++ plan.slot.suffix

def captureChain : String :=
  if plan.mode = .tun then "NH_TUN_" ++ plan.slot.suffix else plan.entryChain family

def preroutingChain : String := "NH_PRE_" ++ plan.slot.suffix

def dnsGuardChain : String := "NH_DNS_" ++ plan.slot.suffix

end NetworkPlan

def reservedDestinations : IpFamily → List Cidr
  | .ipv4 =>
    [⟨"0.0.0.0/8", 32, 0, 8⟩, ⟨"10.0.0.0/8", 32, 0x0a000000, 8⟩,
      ⟨"100.64.0.0/10", 32, 0x64400000, 10⟩, ⟨"127.0.0.0/8", 32, 0x7f000000, 8⟩,
      ⟨"169.254.0.0/16", 32, 0xa9fe0000, 16⟩, ⟨"172.16.0.0/12", 32, 0xac100000, 12⟩,
      ⟨"192.168.0.0/16", 32, 0xc0a80000, 16⟩, ⟨"224.0.0.0/4", 32, 0xe0000000, 4⟩,
      ⟨"240.0.0.0/4", 32, 0xf0000000, 4⟩]
  | .ipv6 =>
    [⟨"::/128", 128, 0, 128⟩, ⟨"::1/128", 128, 1, 128⟩, ⟨"fe80::/10", 128, 0xfe80 <<< 112, 10⟩,
      ⟨"fc00::/7", 128, 0xfc00 <<< 112, 7⟩, ⟨"ff00::/8", 128, 0xff00 <<< 112, 8⟩]

def guardDestinations : List Cidr :=
  [⟨"::1/128", 128, 1, 128⟩, ⟨"fe80::/10", 128, 0xfe80 <<< 112, 10⟩,
    ⟨"fc00::/7", 128, 0xfc00 <<< 112, 7⟩, ⟨"ff00::/8", 128, 0xff00 <<< 112, 8⟩]

/-! ## Payloads -/

section

variable (slot : PlanSlot) (policy : CapturePolicy) (allocation : ResourceCandidate)

def hasMark : Match := .mark allocation.mark allocation.mask

def setMark : Target := .setXmark allocation.mark allocation.mask

variable (family : IpFamily) (inboundPort : UInt16)

def toTproxy : Target :=
  .tproxy inboundPort.toNat allocation.mark allocation.mask

/-- `policy.bypass_mark().unwrap_or(DEFAULT_TUN_BYPASS_MARK)`. -/
def bypassMarkOf : Mark := policy.bypassMark.getD defaultTunBypassMark

/-- The rule against capturing the core itself; it looks under the mask of the allocation. -/
def bypassRule : Rule := ⟨[.mark (bypassMarkOf policy) allocation.mask], .ret⟩

def replyRule : Rule := ⟨[.replyDirection], .accept⟩

def outputUidBypasses : List Rule :=
  policy.excludeUids.map fun uid => ⟨[.uidOwner uid], .ret⟩

variable (owner : String) (interfaces : Option (List String))

def outputCaptureRules : List Rule :=
  match interfaces with
  | some names =>
    names.flatMap fun name =>
      if policy.includeUids.isEmpty then [⟨[.outInterface name], setMark allocation⟩]
      else policy.includeUids.map fun uid =>
        ⟨[.outInterface name, .uidOwner uid], setMark allocation⟩
  | none =>
    if policy.includeUids.isEmpty then [⟨[], setMark allocation⟩]
    else policy.includeUids.map fun uid => ⟨[.uidOwner uid], setMark allocation⟩

def dnsDrops (protocol : Protocol) (port : Nat) : List Rule :=
  match interfaces with
  | some names =>
    names.map fun name => ⟨[.outInterface name, .protocol protocol, .destinationPort port], .drop⟩
  | none => [⟨[.protocol protocol, .destinationPort port], .drop⟩]

def dnsGuardRules : List Rule :=
  [⟨[.outInterface "lo"], .ret⟩, ⟨[hasMark allocation], .ret⟩,
    ⟨[.mark (bypassMarkOf policy) 0xffffffff], .ret⟩] ++
  dnsDrops interfaces .udp 53 ++ dnsDrops interfaces .tcp 53 ++ dnsDrops interfaces .tcp 853 ++
  [⟨[], .ret⟩]

def dnsGuardPayloads : Attachment :=
  let chain := "NH_DNS_" ++ slot.suffix
  { chains := [chain]
    hooks := [("OUTPUT", ⟨[.comment owner], .jump chain⟩)]
    body := (dnsGuardRules policy allocation interfaces).map fun rule => (chain, rule) }

def tunRules : List Rule :=
  [bypassRule policy allocation, ⟨[.outInterface "lo"], .ret⟩, replyRule] ++
  outputUidBypasses policy ++ outputCaptureRules policy allocation interfaces ++ [⟨[], .ret⟩]

def tunPayloads : Attachment :=
  let chain := "NH_TUN_" ++ slot.suffix
  { chains := [chain]
    hooks := [("OUTPUT", ⟨[.comment owner], .jump chain⟩)]
    body := (tunRules policy allocation interfaces).map fun rule => (chain, rule) }

def tproxyOutputTail : List Rule :=
  -- DNS is captured before the UID bypass: `netd` sends it as UID 0
  [⟨[.protocol .tcp, .destinationPort 53], setMark allocation⟩,
    ⟨[.protocol .udp, .destinationPort 53], setMark allocation⟩] ++
  outputUidBypasses policy ++
  (reservedDestinations family).map (fun range => ⟨[.destination range], .ret⟩) ++
  outputCaptureRules policy allocation interfaces

def divertRules : List Rule := [⟨[], setMark allocation⟩, ⟨[], .accept⟩]

def preroutingTail : List Rule :=
  (if policy.proxyTcp then
    [⟨[.protocol .tcp, .transparentSocket], .jump ("NH_DIV_" ++ slot.suffix)⟩] else []) ++
  [⟨[.inInterface "lo", .notMark allocation.mark allocation.mask], .ret⟩,
    ⟨[.protocol .tcp, .destinationPort 53, hasMark allocation], toTproxy allocation inboundPort⟩,
    ⟨[.protocol .udp, .destinationPort 53, hasMark allocation],
      toTproxy allocation inboundPort⟩] ++
  (if policy.proxyTcp then
    [⟨[.protocol .tcp, hasMark allocation], toTproxy allocation inboundPort⟩] else []) ++
  (if policy.proxyUdp then
    [⟨[.protocol .udp, hasMark allocation], toTproxy allocation inboundPort⟩] else [])

def tproxyPayloads : Attachment :=
  let outputChain := "NH_OUT_" ++ slot.suffix
  let preroutingChain := "NH_PRE_" ++ slot.suffix
  let divertChain := "NH_DIV_" ++ slot.suffix
  { chains := [outputChain, preroutingChain, divertChain]
    hooks :=
      [("OUTPUT", ⟨[.comment owner], .jump outputChain⟩),
        ("PREROUTING", ⟨[.comment owner], .jump preroutingChain⟩)]
    body :=
      [(outputChain, bypassRule policy allocation), (outputChain, replyRule),
        (preroutingChain, replyRule)] ++
      (tproxyOutputTail policy allocation family interfaces).map
        (fun rule => (outputChain, rule)) ++
      (divertRules allocation).map (fun rule => (divertChain, rule)) ++
      (preroutingTail slot policy allocation inboundPort).map fun rule => (preroutingChain, rule) }

def forwardingRules : List Rule :=
  [replyRule, ⟨[hasMark allocation], .ret⟩] ++
  (reservedDestinations .ipv4).map (fun range => ⟨[.destination range], .ret⟩) ++
  (if policy.proxyTcp then [⟨[.protocol .tcp], toTproxy allocation inboundPort⟩] else []) ++
  (if policy.proxyUdp then [⟨[.protocol .udp], toTproxy allocation inboundPort⟩] else [])

/-- The port is the inbound port of the policy, which has one here. -/
def forwardingPayloads (interfaces : List String) (owner : String) : Attachment :=
  let chain := "NH_FWD_" ++ slot.suffix
  { chains := [chain]
    hooks := interfaces.map fun name =>
      ("PREROUTING", ⟨[.inInterface name, .comment owner], .jump chain⟩)
    body := (forwardingRules policy allocation inboundPort).map fun rule => (chain, rule) }

def forwardingIpv6GuardPayloads (interfaces : List String) (owner : String) : Attachment :=
  let chain := "NH_FWD6_" ++ slot.suffix
  { chains := [chain]
    hooks := interfaces.map fun name =>
      ("FORWARD", ⟨[.inInterface name, .comment owner], .jump chain⟩)
    body := [(chain, ⟨[], .drop⟩)] }

def ipv6GuardRules : List Rule :=
  let block := Target.jump ("NH_V6B_" ++ slot.suffix)
  outputUidBypasses policy ++
  if policy.includeUids.isEmpty then [⟨[], block⟩]
  else policy.includeUids.map (fun uid => ⟨[.uidOwner uid], block⟩) ++ [⟨[], .ret⟩]

def ipv6BlockRules : List Rule :=
  guardDestinations.map (fun range => ⟨[.destination range], .ret⟩) ++ [⟨[], .drop⟩]

def ipv6GuardPayloads : Attachment :=
  let guardChain := "NH_V6G_" ++ slot.suffix
  let blockChain := "NH_V6B_" ++ slot.suffix
  { chains := [guardChain, blockChain]
    hooks := [("OUTPUT", ⟨[.comment owner], .jump guardChain⟩)]
    body := (ipv6GuardRules slot policy).map (fun rule => (guardChain, rule)) ++
      ipv6BlockRules.map fun rule => (blockChain, rule) }

end

/-! ## Plans -/

variable (family : IpFamily)

def policySteps (allocation : ResourceCandidate) (device : String)
    (isLocal : Bool) : List PlanStep :=
  let route action :=
    NetworkOperation.policyRoute action family allocation.routeTable device isLocal
  let rule action := NetworkOperation.policyRule action family allocation.mark allocation.mask
    allocation.routeTable allocation.rulePriority
  [⟨.policyRouteAdd, route .add, route .delete⟩, ⟨.policyRuleAdd, rule .add, rule .delete⟩]

def restoreStep (kind : NetworkOperationKind) (family : IpFamily) (table : NetfilterTable)
    (a : Attachment) : PlanStep :=
  ⟨kind, .restore family ⟨table, a.apply⟩, .restore family ⟨table, a.rollback⟩⟩

structure Layout where
  generation : GenerationId
  slot : PlanSlot
  policy : CapturePolicy
  allocation : ResourceCandidate
  inboundPort : UInt16
  interfaces : Option (List String)
  forwardingInterfaces : List String
  ipv6Guarded : Bool
  ipv6Captured : Bool

namespace Layout

variable (l : Layout)

def guardStep (owner : String) : List PlanStep :=
  if l.ipv6Guarded then
    [restoreStep .ipv6GuardRestore .ipv6 .filter (ipv6GuardPayloads l.slot l.policy owner)]
  else []

def dnsStep (family : IpFamily) (owner : String) : PlanStep :=
  restoreStep .dnsGuardRestore family .filter
    (dnsGuardPayloads l.slot l.policy l.allocation owner l.interfaces)

def forwardingSteps : List PlanStep :=
  let owner := "nethop:fwd:g=" ++ toString l.generation.get
  if l.forwardingInterfaces.isEmpty then []
  else
    [restoreStep .forwardingRestore .ipv4 .mangle
        (forwardingPayloads l.slot l.policy l.allocation l.inboundPort l.forwardingInterfaces
          owner),
      restoreStep .forwardingRestore .ipv6 .filter
        (forwardingIpv6GuardPayloads l.slot l.forwardingInterfaces owner)]

def tproxyStep (family : IpFamily) (owner : String) : PlanStep :=
  restoreStep .netfilterRestore family .mangle
    (tproxyPayloads l.slot l.policy l.allocation family l.inboundPort owner l.interfaces)

def tunStep (family : IpFamily) (owner : String) : PlanStep :=
  restoreStep .netfilterRestore family .mangle
    (tunPayloads l.slot l.policy l.allocation owner l.interfaces)

def tproxySteps : List PlanStep :=
  let owner := "nethop:g=" ++ toString l.generation.get
  l.guardStep owner ++ policySteps .ipv4 l.allocation "lo" true ++
  (if l.ipv6Captured then policySteps .ipv6 l.allocation "lo" true else []) ++
  [l.tproxyStep .ipv4 owner, l.dnsStep .ipv4 owner] ++ l.forwardingSteps ++
  if l.ipv6Captured then [l.tproxyStep .ipv6 owner, l.dnsStep .ipv6 owner] else []

def tunSteps : List PlanStep :=
  let owner := "nethop:tun:g=" ++ toString l.generation.get
  l.guardStep owner ++ policySteps .ipv4 l.allocation "nethop0" false ++
  (if l.ipv6Captured then policySteps .ipv6 l.allocation "nethop0" false else []) ++
  [l.tunStep .ipv4 owner, l.dnsStep .ipv4 owner] ++
  if l.ipv6Captured then [l.tunStep .ipv6 owner, l.dnsStep .ipv6 owner] else []

def tproxyPlan (bypassMark : Mark) : NetworkPlan where
  generation := l.generation
  slot := l.slot
  mode := .tproxy
  captureInterface := none
  allocation := l.allocation
  bypassMark := bypassMark
  ipv6Captured := l.ipv6Captured
  ipv6Guarded := l.ipv6Guarded
  dnsGuarded := true
  forwardingInterfaces := l.forwardingInterfaces
  steps := l.tproxySteps

def tunPlan (bypassMark : Mark) : NetworkPlan where
  generation := l.generation
  slot := l.slot
  mode := .tun
  captureInterface := some "nethop0"
  allocation := l.allocation
  bypassMark := bypassMark
  ipv6Captured := l.ipv6Captured
  ipv6Guarded := l.ipv6Guarded
  dnsGuarded := true
  forwardingInterfaces := l.forwardingInterfaces
  steps := l.tunSteps

end Layout

def freeAllocation (capabilities : CapabilityReport) :
    Except NetworkPlanError ResourceCandidate :=
  okOr ((capabilities.allocations.find? fun a => a.status.isSupported).map fun a => a.candidate)
    .resourceConflict

def ipv6Present (capabilities : CapabilityReport) : Except NetworkPlanError Bool :=
  match capabilities.ipv6.address with
  | .supported => .ok true
  | .notPresent => .ok false
  | _ => .error .ipv6LeakRisk

def buildTproxy (generation : GenerationId) (slot : PlanSlot) (policy : CapturePolicy)
    (capabilities : CapabilityReport) : Except NetworkPlanError NetworkPlan := do
  ensure (generation.get != 0) .invalidGeneration
  ensure (policy.mode == .tproxy) .unsupportedCaptureMode
  ensure (capabilities.android.isSupported && capabilities.root.isSupported) .platformUnavailable
  ensure (capabilities.activeTunnel == .supported) .existingTunnelConflict
  let inboundPort ← okOr (policy.inboundPort.filter (· == capabilities.inboundPort))
    .inboundPortMismatch
  ensure (capabilities.inboundPortStatus == .supported) .inboundPortConflict
  ensure capabilities.ipv4.supportsTproxy .ipv4TproxyUnavailable
  let allocation ← freeAllocation capabilities
  let bypassMark ← okOr policy.bypassMark .bypassMarkConflict
  ensure (bypassMark &&& allocation.mask != allocation.mark) .bypassMarkConflict
  let interfaces ← resolveInterfaces policy.interfacePolicy capabilities.interfaces
  let forwardingInterfaces ←
    resolveForwardingInterfaces policy.forwardingPolicy capabilities.interfaces
  let ipv6Captured := capabilities.ipv6.supportsTproxy
  let present ← ipv6Present capabilities
  let ipv6Guarded := present && !ipv6Captured
  ensure (!ipv6Guarded || (policy.ipv6Guard && capabilities.ipv6.supportsGuard)) .ipv6LeakRisk
  let layout : Layout :=
    { generation, slot, policy, allocation, inboundPort, interfaces, forwardingInterfaces,
      ipv6Guarded, ipv6Captured }
  pure (layout.tproxyPlan bypassMark)

def buildTun (generation : GenerationId) (slot : PlanSlot) (policy : CapturePolicy)
    (capabilities : CapabilityReport) : Except NetworkPlanError NetworkPlan := do
  ensure (generation.get != 0) .invalidGeneration
  ensure (policy.mode == .tun) .unsupportedCaptureMode
  ensure (capabilities.android.isSupported && capabilities.root.isSupported) .platformUnavailable
  ensure (capabilities.tun == .supported) .tunUnavailable
  ensure (capabilities.activeTunnel == .supported) .existingTunnelConflict
  let allocation ← freeAllocation capabilities
  let bypassMark := bypassMarkOf policy
  ensure (bypassMark &&& allocation.mask != allocation.mark) .bypassMarkConflict
  let interfaces ← resolveInterfaces policy.interfacePolicy capabilities.interfaces
  let forwardingInterfaces ←
    resolveForwardingInterfaces policy.forwardingPolicy capabilities.interfaces
  let present ← ipv6Present capabilities
  let ipv6Guarded := !present
  ensure (!ipv6Guarded || (policy.ipv6Guard && capabilities.ipv6.supportsGuard)) .ipv6LeakRisk
  -- no inbound port: the steps of a TUN plan do not name one
  let layout : Layout :=
    { generation, slot, policy, allocation, inboundPort := 0, interfaces, forwardingInterfaces,
      ipv6Guarded, ipv6Captured := present }
  pure (layout.tunPlan bypassMark)

inductive ForwardingPlanError where
  | generationMismatch
  | invalidInterfaceSet
  | inboundPortMissing

structure ForwardingPlan where
  generation : GenerationId
  slot : PlanSlot
  allocation : ResourceCandidate
  interfaces : List String
  steps : List PlanStep

def maxForwardInterfaces : Nat := 8
def maxForwardInterfaceNameBytes : Nat := 16

/-- The check of one name in `ForwardingPlanner::build`. -/
def validForwardInterface (name : String) : Bool :=
  !name.isEmpty && name.utf8ByteSize ≤ maxForwardInterfaceNameBytes && name != "lo" &&
    name.toList.all nameChar

/-- `ForwardingPlanner::build`. -/
def buildForwarding (generation : GenerationId) (slot : PlanSlot) (base : NetworkPlan)
    (policy : CapturePolicy) (interfaces : List String) :
    Except ForwardingPlanError ForwardingPlan := do
  ensure (generation == base.generation && slot == base.slot && generation.get != 0)
    .generationMismatch
  ensure (!interfaces.isEmpty && interfaces.length ≤ maxForwardInterfaces) .invalidInterfaceSet
  let sorted := sortDedup (· ≤ ·) interfaces
  ensure (sorted.length == interfaces.length && !sorted.isEmpty &&
    sorted.all validForwardInterface) .invalidInterfaceSet
  let inboundPort ← okOr policy.inboundPort .inboundPortMissing
  let owner := "nethop:fwd:g=" ++ toString generation.get
  pure
    { generation, slot, allocation := base.allocation, interfaces := sorted
      steps := [restoreStep .forwardingRestore .ipv4 .mangle
        (forwardingPayloads slot policy base.allocation inboundPort sorted owner)] }

end NetHop.Capture
