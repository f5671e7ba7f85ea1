import NetHop.Capture.Plan

/-!
# Verifying a plan

`NetworkPlanVerifier` of `health.rs`: it reads the output of the network tools and
recognises the rules of a plan in it.  A probe gives the lines of a command's output,
or nothing when the command fails.
-/

namespace NetHop.Capture

open Netfilter Words Text

inductive ProbeCommand where
  | listeningSockets
  | netfilterSnapshot (family : IpFamily) (table : NetfilterTable)
  | policyRules (family : IpFamily)
  | routeTable (family : IpFamily) (table : UInt32)
  | links

abbrev Probe := ProbeCommand → Option (List String)

inductive NetworkHealthError where
  | probeFailed
  | inboundPortMissing
  | ownerMarkerMissing
  | replyBypassMissing
  | loopbackBypassMissing
  | dnsCaptureMissing
  | dnsGuardMissing
  | policyRuleMissing
  | routeMissing
  | forwardingChainMissing
  | forwardingInterfaceJumpMissing
  | forwardingIpv6GuardMissing
  | captureStillAttached
  | tunInterfaceMissing

def Probe.run (probe : Probe) (command : ProbeCommand) :
    Except NetworkHealthError (List String) :=
  okOr (probe command) .probeFailed

/-! ## Recognising lines -/

/-- `snapshot.contains(needle)` for a text without line breaks. -/
def snapshotContains (snapshot : List String) (needle : String) : Bool :=
  snapshot.any fun line => contains line needle

def parseU32 (value : List Char) : Option Nat :=
  match value with
  | '0' :: 'x' :: hex => parseHexU32 hex
  | _ => Text.parseU32 value

def parseMarkMask (value : String) : Option (Nat × Nat) := do
  let (mark, mask) :=
    (splitOnce '/' value.toList).getD (value.toList, "0xffffffff".toList)
  let mark ← parseU32 mark
  let mask ← parseU32 mask
  pure (mark, mask)

def argumentMatches (option : String) (tokens : List String) (mark mask : Mark) : Bool :=
  ((pairs tokens).find? fun pair => pair.1 == option).bind (fun pair => parseMarkMask pair.2) ==
    some (mark.toNat, mask.toNat)

def markArgumentMatches (line : String) (mark mask : Mark) : Bool :=
  argumentMatches "--mark" (split line) mark mask

/-- `trim_matches('"')`. -/
def trimQuotes (t : String) : String :=
  String.ofList ((t.toList.dropWhile (· == '"')).reverse.dropWhile (· == '"')).reverse

def commentJumpMatches (line source marker target : String) : Bool :=
  let tokens := split line
  tokens.take 2 == ["-A", source] && (pairs tokens).contains ("-m", "comment") &&
    ((pairs tokens).any fun pair => pair.1 == "--comment" && trimQuotes pair.2 == marker) &&
    (pairs tokens).contains ("-j", target)

def loopbackBypassMatches (line preroutingChain : String) (allocation : ResourceCandidate) : Bool :=
  let tokens := split line
  tokens.take 2 == ["-A", preroutingChain] && (pairs tokens).contains ("-i", "lo") &&
    (pairs tokens).contains ("-j", "RETURN") && (pairs tokens).contains ("-m", "mark") &&
    (((tokens.zip (pairs tokens.tail)).find? fun window =>
        window.1 == "!" && window.2.1 == "--mark").bind fun window =>
          parseMarkMask window.2.2) ==
      some (allocation.mark.toNat, allocation.mask.toNat)

def policyRuleMatches (line : String) (candidate : ResourceCandidate) : Bool :=
  let tokens := split line
  ((tokens.head?.bind fun token =>
      if endsWith token ":" then some token.toList.dropLast else none).bind Text.parseU32 ==
    some candidate.rulePriority.toNat) &&
  argumentMatches "fwmark" tokens candidate.mark candidate.mask &&
  (pairs tokens).any fun pair => (pair.1 == "lookup" || pair.1 == "table") &&
    Text.parseU32 pair.2.toList == some candidate.routeTable.toNat

def socketOutputContainsPort (output : List String) (port : UInt16) : Bool :=
  let needle := ":" ++ toString port.toNat
  (output.flatMap split).any fun token => endsWith token needle || contains token (needle ++ " ")

def linkOutputContainsInterface (output : List String) (interface : String) : Bool :=
  output.any fun line =>
    match splitOnce ':' line.toList with
    | some (_, rest) =>
      (interface ++ ":").toList.isPrefixOf (rest.dropWhile isWhitespace)
    | none => false

def chainLine (chain : String) (needles : List String) (line : String) : Bool :=
  startsWith line ("-A " ++ chain ++ " ") && needles.all fun needle => contains line needle

/-! ## Recognising a plan -/

section

variable (snapshot : List String) (plan : NetworkPlan)

def captureAttachmentPresent : Bool :=
  let chains := [plan.captureChain .ipv4, plan.entryChain .ipv4, plan.preroutingChain]
  snapshotContains snapshot plan.ownerMarker ||
    chains.any fun chain => snapshotContains snapshot (":" ++ chain ++ " ") ||
      snapshot.any fun line => startsWith line ("-N " ++ chain) ||
        startsWith line ("-A " ++ chain ++ " ")

def routeTargetsCapture : Bool :=
  (plan.captureInterface.any fun interface =>
    snapshot.any fun line => contains line ("dev " ++ interface)) ||
  snapshot.any fun line => contains line "dev lo" && plan.mode == .tproxy

def dnsCapturePresent : Bool :=
  ["tcp", "udp"].all fun protocol =>
    snapshot.any (chainLine (plan.entryChain .ipv4)
      ["-p " ++ protocol ++ " ", "--dport 53 ", " -j MARK "]) &&
    snapshot.any (chainLine plan.preroutingChain
      ["-p " ++ protocol ++ " ", "--dport 53 ", " -j TPROXY "])

/-- A line of the chain that returns and satisfies the predicate comes before every line of the
chain that drops, and there is such a line. -/
def returnBeforeDrop (chain : String) (predicate : String → Bool) : Bool :=
  let returnIndex := snapshot.findIdx? fun line =>
    startsWith line ("-A " ++ chain ++ " ") && endsWith line " -j RETURN" && predicate line
  let firstDrop := snapshot.findIdx? fun line =>
    startsWith line ("-A " ++ chain ++ " ") && endsWith line " -j DROP"
  match returnIndex, firstDrop with
  | some i, some j => decide (i < j)
  | _, _ => false

def dnsGuardPresent : Bool :=
  let chain := plan.dnsGuardChain
  let allocation := plan.allocation
  (snapshot.any fun line => commentJumpMatches line "OUTPUT" plan.ownerMarker chain) &&
    returnBeforeDrop snapshot chain (fun line => contains line "-o lo ") &&
    returnBeforeDrop snapshot chain
      (fun line => markArgumentMatches line allocation.mark allocation.mask) &&
    returnBeforeDrop snapshot chain
      (fun line => markArgumentMatches line plan.bypassMark 0xffffffff) &&
    [("udp", "53"), ("tcp", "53"), ("tcp", "853")].all fun (protocol, port) =>
      snapshot.any (chainLine chain
        ["-p " ++ protocol ++ " ", "--dport " ++ port ++ " ", " -j DROP"])

def replyBypassPrecedesCapture : Bool :=
  let outputChain := plan.entryChain .ipv4
  let reply chain := "-A " ++ chain ++ " -m conntrack --ctdir REPLY -j ACCEPT"
  match linesBefore (reply outputChain) snapshot,
      linesBefore (reply plan.preroutingChain) snapshot,
      snapshot.findIdx? (chainLine outputChain [" -j MARK "]),
      snapshot.findIdx? (fun line => chainLine plan.preroutingChain [" -m socket "] line ||
        chainLine plan.preroutingChain [" -j TPROXY "] line) with
  | some outputReply, some preroutingReply, some outputCapture, some preroutingCapture =>
    decide (outputReply < outputCapture) && decide (preroutingReply < preroutingCapture)
  | _, _, _, _ => false

def loopbackBypassPrecedesCapture : Bool :=
  match snapshot.findIdx? (fun line =>
        loopbackBypassMatches line plan.preroutingChain plan.allocation),
      snapshot.findIdx? (chainLine plan.preroutingChain [" -m socket "]),
      snapshot.findIdx? (chainLine plan.preroutingChain [" -j TPROXY "]) with
  | some loopbackBypass, some socket, some tproxy =>
    decide (socket < loopbackBypass) && decide (loopbackBypass < tproxy)
  | _, _, _ => false

end

/-! ## The verifier -/

section

variable (probe : Probe) (plan : NetworkPlan) (family : IpFamily)

def verifyOwner : Except NetworkHealthError Unit := do
  let table := if family = .ipv6 ∧ plan.ipv6Captured = false then .filter else .mangle
  let snapshot ← probe.run (.netfilterSnapshot family table)
  ensure (snapshotContains snapshot plan.ownerMarker &&
    snapshotContains snapshot (plan.entryChain family)) .ownerMarkerMissing
  let captured := family == .ipv4 || plan.ipv6Captured
  ensure (!captured || replyBypassPrecedesCapture snapshot plan) .replyBypassMissing
  ensure (!captured || loopbackBypassPrecedesCapture snapshot plan) .loopbackBypassMissing
  ensure (!captured || dnsCapturePresent snapshot plan) .dnsCaptureMissing

def verifyDnsGuard : Except NetworkHealthError Unit :=
  if plan.dnsGuarded then do
    let snapshot ← probe.run (.netfilterSnapshot family .filter)
    ensure (dnsGuardPresent snapshot plan) .dnsGuardMissing
  else .ok ()

def verifyRouting : Except NetworkHealthError Unit := do
  let rules ← probe.run (.policyRules family)
  ensure (rules.any fun line => policyRuleMatches line plan.allocation) .policyRuleMissing
  let routes ← probe.run (.routeTable family plan.allocation.routeTable)
  ensure (routes.any fun line => contains line "local" && contains line "dev lo") .routeMissing

def verifyTunOwner : Except NetworkHealthError Unit := do
  let snapshot ← probe.run (.netfilterSnapshot family .mangle)
  let chain := plan.captureChain family
  ensure (snapshotContains snapshot plan.ownerMarker && snapshotContains snapshot chain)
    .ownerMarkerMissing
  ensure (snapshot.any (chainLine chain [" -j MARK "])) .dnsCaptureMissing

def verifyTunRouting : Except NetworkHealthError Unit := do
  let rules ← probe.run (.policyRules family)
  ensure (rules.any fun line => policyRuleMatches line plan.allocation) .policyRuleMissing
  let routes ← probe.run (.routeTable family plan.allocation.routeTable)
  let interface ← okOr plan.captureInterface .routeMissing
  ensure (routes.any fun line => contains line "default" && contains line ("dev " ++ interface))
    .routeMissing

def verifyForwarding : Except NetworkHealthError Unit := do
  let snapshot ← probe.run (.netfilterSnapshot .ipv4 .filter)
  let chain := "NH_FWD_" ++ plan.slot.suffix
  ensure (snapshot.contains ("-N " ++ chain)) .forwardingChainMissing
  ensure (plan.forwardingInterfaces.all fun interface =>
    snapshot.contains ("-A PREROUTING -i " ++ interface ++ " -m comment --comment " ++
      plan.forwardingOwnerMarker ++ " -j " ++ chain)) .forwardingInterfaceJumpMissing

def verifyForwardingIpv6Guard : Except NetworkHealthError Unit := do
  let snapshot ← probe.run (.netfilterSnapshot .ipv6 .filter)
  let chain := "NH_FWD6_" ++ plan.slot.suffix
  ensure (snapshot.contains ("-N " ++ chain)) .forwardingIpv6GuardMissing
  ensure (plan.forwardingInterfaces.all fun interface =>
    snapshot.contains ("-A FORWARD -i " ++ interface ++ " -m comment --comment " ++
      plan.forwardingOwnerMarker ++ " -j " ++ chain)) .forwardingIpv6GuardMissing
  ensure (snapshot.contains ("-A " ++ chain ++ " -j DROP")) .forwardingIpv6GuardMissing

/-- `NetworkPlanVerifier::verify` with the inbound port of the verifier. -/
def verify (inboundPort : UInt16) : Except NetworkHealthError Unit := do
  let sockets ← probe.run .listeningSockets
  ensure (socketOutputContainsPort sockets inboundPort) .inboundPortMissing
  if plan.mode = .tun then
    verifyTunOwner probe plan .ipv4
    verifyTunRouting probe plan .ipv4
    verifyDnsGuard probe plan .ipv4
    if plan.ipv6Captured then
      verifyTunOwner probe plan .ipv6
      verifyTunRouting probe plan .ipv6
      verifyDnsGuard probe plan .ipv6
    else if plan.ipv6Guarded then
      verifyOwner probe plan .ipv6
    else .ok ()
  else
    verifyOwner probe plan .ipv4
    verifyDnsGuard probe plan .ipv4
    verifyRouting probe plan .ipv4
    if plan.forwardingInterfaces.isEmpty then .ok () else do
      verifyForwarding probe plan
      verifyForwardingIpv6Guard probe plan
    if plan.ipv6Captured then
      verifyOwner probe plan .ipv6
      verifyDnsGuard probe plan .ipv6
      verifyRouting probe plan .ipv6
    else if plan.ipv6Guarded then
      verifyOwner probe plan .ipv6
    else .ok ()

def verifyDetached : Except NetworkHealthError Unit := do
  let rules ← probe.run (.policyRules family)
  ensure (!rules.any fun line => policyRuleMatches line plan.allocation) .captureStillAttached
  let routes ← probe.run (.routeTable family plan.allocation.routeTable)
  ensure (!routeTargetsCapture routes plan) .captureStillAttached
  let filter ← probe.run (.netfilterSnapshot family .filter)
  ensure (!(snapshotContains filter plan.ownerMarker ||
    snapshotContains filter plan.dnsGuardChain)) .captureStillAttached

def verifyDisabled : Except NetworkHealthError Unit := do
  let mangle4 ← probe.run (.netfilterSnapshot .ipv4 .mangle)
  ensure (!captureAttachmentPresent mangle4 plan) .captureStillAttached
  if plan.mode = .tun then do
    let interface ← okOr plan.captureInterface .tunInterfaceMissing
    let links ← probe.run .links
    ensure (linkOutputContainsInterface links interface) .tunInterfaceMissing
  else .ok ()
  verifyDetached probe plan .ipv4
  if plan.ipv6Captured || plan.ipv6Guarded then do
    let mangle6 ← probe.run (.netfilterSnapshot .ipv6 .mangle)
    ensure (!captureAttachmentPresent mangle6 plan) .captureStillAttached
    verifyDetached probe plan .ipv6
  else .ok ()

end

end NetHop.Capture
