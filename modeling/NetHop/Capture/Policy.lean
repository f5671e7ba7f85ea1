import NetHop.Netfilter.Rule
import NetHop.Sorted

/-!
# Capture policy

`capture.rs`: which traffic is captured.  A policy is only built by its checked
constructors, so what they check are fields of it.
-/

namespace NetHop.Capture

open Netfilter List

def maxUids : Nat := 2048
def maxInterfacePatterns : Nat := 64
def maxInterfacePatternBytes : Nat := 64

inductive CaptureMode where
  | tproxy
  | tun
  | direct
  deriving DecidableEq

inductive CapturePolicyError where
  | missingTproxyMark
  | missingTproxyPort
  | tooManyUids
  | overlappingUidPolicy
  | missingTransport
  | invalidInterfacePolicy

structure ForwardingPolicy where
  hotspot : Bool
  usb : Bool

def ForwardingPolicy.enabled (f : ForwardingPolicy) : Bool := f.hotspot || f.usb

def nameChar (c : Char) : Bool := c.isAlphanum || c ∈ ['_', '-', '.', '+']

def validPatterns (patterns : List String) : Bool :=
  patterns.all fun pattern =>
    !pattern.isEmpty && pattern.utf8ByteSize ≤ maxInterfacePatternBytes &&
      pattern.toList.all fun c => nameChar c || c ∈ ['*', '?']

structure InterfacePolicy where
  mobile : Bool
  wifi : Bool
  included : List String
  excluded : List String
  inScope : mobile || wifi || !included.isEmpty
  bounded : included.length ≤ maxInterfacePatterns ∧ excluded.length ≤ maxInterfacePatterns
  patterns : validPatterns included && validPatterns excluded
  disjoint : ∀ pattern ∈ included, pattern ∉ excluded

namespace InterfacePolicy

def new (mobile wifi : Bool) (included excluded : List String) :
    Except CapturePolicyError InterfacePolicy :=
  if h : (mobile || wifi || !included.isEmpty) = true ∧
      (included.length ≤ maxInterfacePatterns ∧ excluded.length ≤ maxInterfacePatterns) ∧
      (validPatterns included && validPatterns excluded) = true ∧
      ∀ pattern ∈ included, pattern ∉ excluded then
    .ok ⟨mobile, wifi, included, excluded, h.1, h.2.1, h.2.2.1, h.2.2.2⟩
  else .error .invalidInterfacePolicy

def isUnrestricted (p : InterfacePolicy) : Bool :=
  p.mobile && p.wifi && p.included.isEmpty && p.excluded.isEmpty

def default : InterfacePolicy :=
  ⟨true, true, [], [], rfl, by decide, rfl, by simp⟩

end InterfacePolicy

structure CapturePolicy where
  mode : CaptureMode
  proxyTcp : Bool
  proxyUdp : Bool
  ipv6Guard : Bool
  inboundPort : Option UInt16
  bypassMark : Option Mark
  includeUids : List UInt32
  excludeUids : List UInt32
  interfacePolicy : InterfacePolicy
  forwardingPolicy : ForwardingPolicy
  transport : mode ≠ .direct → proxyTcp || proxyUdp
  tproxyMark : mode = .tproxy → bypassMark.getD 0 ≠ 0
  tproxyPort : mode = .tproxy → inboundPort.getD 0 ≠ 0
  includeSorted : includeUids.Pairwise fun a b => a ≤ b ∧ a ≠ b
  excludeSorted : excludeUids.Pairwise fun a b => a ≤ b ∧ a ≠ b
  uidsBounded : includeUids.length ≤ maxUids ∧ excludeUids.length ≤ maxUids
  uidsDisjoint : ∀ uid ∈ includeUids, uid ∉ excludeUids
  directUnrestricted : mode = .direct → interfacePolicy.isUnrestricted
  directUnforwarded : mode = .direct → forwardingPolicy.enabled = false

/-- `sort_unstable` and `dedup` of a list of UIDs. -/
def sortUids (uids : List UInt32) : List UInt32 := sortDedup (· ≤ ·) uids

theorem pairwise_sortUids (uids : List UInt32) :
    (sortUids uids).Pairwise fun a b => a ≤ b ∧ a ≠ b :=
  pairwise_sortDedup (r := (· ≤ ·)) UInt32.le_total (fun _ _ _ => UInt32.le_trans)
    (fun _ _ => UInt32.le_antisymm) uids

theorem length_sortUids_le (uids : List UInt32) : (sortUids uids).length ≤ uids.length :=
  length_sortDedup_le uids

namespace CapturePolicy

def newWithProtocols (mode : CaptureMode) (proxyTcp proxyUdp ipv6Guard : Bool)
    (inboundPort : Option UInt16) (bypassMark : Option Mark)
    (includeUids excludeUids : List UInt32) : Except CapturePolicyError CapturePolicy :=
  if htransport : mode ≠ .direct ∧ proxyTcp = false ∧ proxyUdp = false then
    .error .missingTransport
  else if hmark : mode = .tproxy ∧ bypassMark.getD 0 = 0 then .error .missingTproxyMark
  else if hport : mode = .tproxy ∧ inboundPort.getD 0 = 0 then .error .missingTproxyPort
  else if huids : includeUids.length > maxUids ∨ excludeUids.length > maxUids then
    .error .tooManyUids
  -- `binary_search` on a sorted list finds exactly its members
  else if hoverlap : ∃ uid ∈ sortUids includeUids, uid ∈ sortUids excludeUids then
    .error .overlappingUidPolicy
  else
    .ok
      { mode, proxyTcp, proxyUdp, ipv6Guard, inboundPort, bypassMark
        includeUids := sortUids includeUids
        excludeUids := sortUids excludeUids
        interfacePolicy := .default
        forwardingPolicy := ⟨false, false⟩
        transport := by
          intro hmode
          cases proxyTcp <;> cases proxyUdp <;> simp_all
        tproxyMark := fun hmode h => hmark ⟨hmode, h⟩
        tproxyPort := fun hmode h => hport ⟨hmode, h⟩
        includeSorted := pairwise_sortUids includeUids
        excludeSorted := pairwise_sortUids excludeUids
        uidsBounded := by
          have hinclude := length_sortUids_le includeUids
          have hexclude := length_sortUids_le excludeUids
          omega
        uidsDisjoint := fun uid hin hex => hoverlap ⟨uid, hin, hex⟩
        directUnrestricted := fun _ => rfl
        directUnforwarded := fun _ => rfl }

variable (p : CapturePolicy)

def withInterfacePolicy (interfacePolicy : InterfacePolicy) :
    Except CapturePolicyError CapturePolicy :=
  if h : p.mode = .direct ∧ interfacePolicy.isUnrestricted = false then
    .error .invalidInterfacePolicy
  else
    .ok
      { p with
        interfacePolicy
        directUnrestricted := fun hmode => by
          by_contra hne
          exact h ⟨hmode, eq_false_of_ne_true hne⟩ }

def withForwardingPolicy (forwardingPolicy : ForwardingPolicy) :
    Except CapturePolicyError CapturePolicy :=
  if h : p.mode = .direct ∧ forwardingPolicy.enabled = true then .error .invalidInterfacePolicy
  else
    .ok
      { p with
        forwardingPolicy
        directUnforwarded := fun hmode => eq_false_of_ne_true fun hon => h ⟨hmode, hon⟩ }

def capturesUid (uid : UInt32) : Bool :=
  (p.includeUids.isEmpty || p.includeUids.contains uid) && !p.excludeUids.contains uid

theorem capturesUid_iff {p : CapturePolicy} {uid : UInt32} : p.capturesUid uid = true ↔
      (p.includeUids = [] ∨ uid ∈ p.includeUids) ∧ uid ∉ p.excludeUids := by
  simp [capturesUid]

theorem exists_capturesUid : ∃ uid, p.capturesUid uid = true := by
  cases hinclude : p.includeUids with
  | cons uid uids =>
    have hmem : uid ∈ p.includeUids := by
      rw [hinclude]
      exact mem_cons_self
    exact ⟨uid, capturesUid_iff.mpr ⟨.inr hmem, p.uidsDisjoint uid hmem⟩⟩
  | nil =>
    -- a list of at most `maxUids` members misses one of the first `maxUids + 1` numbers
    by_contra hnone
    push Not at hnone
    have hall : ∀ uid, uid ∈ p.excludeUids := by
      intro uid
      by_contra hex
      exact hnone uid (capturesUid_iff.mpr ⟨.inl hinclude, hex⟩)
    have hnodup : ((range (maxUids + 1)).map UInt32.ofNat).Nodup := by
      refine (nodup_map_iff_inj_on nodup_range).mpr ?_
      intro a ha b hb heq
      have hlt : ∀ n ∈ range (maxUids + 1), (UInt32.ofNat n).toNat = n := by
        intro n hn
        rw [mem_range] at hn
        exact UInt32.toNat_ofNat_of_lt' (lt_trans hn (by decide))
      rw [← hlt a ha, ← hlt b hb, heq]
    have hle := (subperm_of_subset hnodup fun uid _ => hall uid).length_le
    rw [length_map, length_range] at hle
    have hbound := p.uidsBounded.2
    omega

end CapturePolicy

def samplePolicy (mode : CaptureMode) (bypassMark : Mark) (hbypass : bypassMark ≠ 0) :
    CapturePolicy where
  mode := mode
  proxyTcp := true
  proxyUdp := false
  ipv6Guard := true
  inboundPort := some 7893
  bypassMark := some bypassMark
  includeUids := []
  excludeUids := [0]
  interfacePolicy := .default
  forwardingPolicy := ⟨false, false⟩
  transport := fun _ => rfl
  tproxyMark := fun _ => hbypass
  tproxyPort := fun _ => by decide
  includeSorted := .nil
  excludeSorted := List.pairwise_singleton _ _
  uidsBounded := by decide
  uidsDisjoint := by simp
  directUnrestricted := fun _ => rfl
  directUnforwarded := fun _ => rfl

end NetHop.Capture
