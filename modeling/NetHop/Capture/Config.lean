import NetHop.Capture.Capability
import NetHop.Checked

/-!
# Capture settings of the configuration

The part of `config_model.rs` that turns the user's configuration into a capture
policy and the allocations a plan may take.
-/

namespace NetHop.Capture

open Netfilter

inductive ConfigError where
  | invalidAdvanced
  | invalidApplications
  | invalidNetwork

structure ResourceCandidateWire where
  mark : Mark
  mask : Mark
  routeTable : UInt32
  rulePriority : UInt32
  deriving DecidableEq

structure AdvancedWire where
  inboundPort : UInt16
  bypassMark : Mark
  ipv6Guard : Bool
  dryRun : Bool
  healthTimeoutSeconds : UInt8
  reconcileIntervalSeconds : UInt16
  resourceCandidates : List ResourceCandidateWire

structure AdvancedSettings where
  inboundPort : UInt16
  bypassMark : Mark
  ipv6Guard : Bool
  dryRun : Bool
  healthTimeoutSeconds : UInt8
  reconcileIntervalSeconds : UInt16

def admitCandidate (bypassMark : Mark) (wire : ResourceCandidateWire) :
    Except ConfigError ResourceCandidate := do
  let allocation ← okOr
    (ResourceCandidate.new wire.mark wire.mask wire.routeTable wire.rulePriority) .invalidAdvanced
  ensure (allocation.mark &&& bypassMark == 0) .invalidAdvanced
  pure allocation

def validateAdvanced (wire : AdvancedWire) :
    Except ConfigError (AdvancedSettings × List ResourceCandidate) := do
  ensure (wire.inboundPort != 0 && wire.bypassMark != 0 &&
      (1 ≤ wire.healthTimeoutSeconds && wire.healthTimeoutSeconds ≤ 30) &&
      (60 ≤ wire.reconcileIntervalSeconds && wire.reconcileIntervalSeconds ≤ 3600) &&
      !wire.resourceCandidates.isEmpty && wire.resourceCandidates.length ≤ 16 &&
      decide wire.resourceCandidates.Nodup) .invalidAdvanced
  let allocations ← wire.resourceCandidates.mapM (admitCandidate wire.bypassMark)
  pure
    ({ inboundPort := wire.inboundPort, bypassMark := wire.bypassMark
       ipv6Guard := wire.ipv6Guard, dryRun := wire.dryRun
       healthTimeoutSeconds := wire.healthTimeoutSeconds
       reconcileIntervalSeconds := wire.reconcileIntervalSeconds },
      allocations)

inductive ApplicationMode where
  | all
  | blacklist
  | whitelist
  deriving DecidableEq

inductive ApplicationTarget where
  | package (androidUserId : UInt32) (package : String)
  | uid (uid : UInt32)

structure ApplicationSettings where
  mode : ApplicationMode
  targets : List ApplicationTarget

namespace ApplicationSettings

variable (a : ApplicationSettings)

def directUids : List UInt32 :=
  a.targets.filterMap fun target =>
    match target with
    | .uid uid => some uid
    | .package _ _ => none

/-- The core runs as UID 0. -/
def baseExcludeUids : List UInt32 :=
  if a.mode = .blacklist then 0 :: a.directUids else [0]

end ApplicationSettings

structure InterfaceSettings where
  mobile : Bool
  wifi : Bool
  hotspot : Bool
  usb : Bool
  included : List String
  excluded : List String

structure NetworkSettings where
  proxyTcp : Bool
  proxyUdp : Bool
  interfaces : InterfaceSettings

def mapConfigError {ε α : Type} (error : ConfigError) : Except ε α → Except ConfigError α
  | .ok a => .ok a
  | .error _ => .error error

def buildCapture (mode : CaptureMode) (network : NetworkSettings) (advanced : AdvancedSettings)
    (includeUids excludeUids : List UInt32) : Except ConfigError CapturePolicy := do
  let capture ← mapConfigError .invalidApplications <|
    CapturePolicy.newWithProtocols mode network.proxyTcp network.proxyUdp advanced.ipv6Guard
      (some advanced.inboundPort) (some advanced.bypassMark) includeUids excludeUids
  let interfaces ← mapConfigError .invalidNetwork <|
    InterfacePolicy.new network.interfaces.mobile network.interfaces.wifi
      network.interfaces.included network.interfaces.excluded
  mapConfigError .invalidNetwork <| do
    let capture ← capture.withInterfacePolicy interfaces
    capture.withForwardingPolicy ⟨network.interfaces.hotspot, network.interfaces.usb⟩

end NetHop.Capture
