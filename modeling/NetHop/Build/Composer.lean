import NetHop.Build.Pool
import NetHop.Node.Fingerprint

/-!
# Outbounds and the composed configuration

The core owns the tag and the type of an outbound; the other members of a composed node are
handed on.  A profile is the outbounds with the pool for the automatic choice, and the
composer turns it into the configuration of the core.  The text it writes is a parameter;
its checks are here.
-/

namespace NetHop.Build

open Node Generation List

inductive ComposerError where
  | invalidTag
  | invalidProtocol
  | reservedField (field : String)
  | tooManyFields
  | fieldNameTooLong
  | duplicateTag
  | emptyOutbounds
  | configTooLarge
  | tooManyOutbounds
  | reservedTag
  | invalidManagedOptions
  deriving DecidableEq

inductive TerminalOutboundAdapterError where
  | notObject
  | missingTag
  | missingProtocol
  | rejected (error : ComposerError)
  deriving DecidableEq

def maxTagBytes : Nat := 128

def maxProtocolBytes : Nat := 32

def maxFieldCount : Nat := 128

def maxFieldNameBytes : Nat := 64

def maxConfigBytes : Nat := 5 * 1024 * 1024

def maxManagedNodes : Nat := 2000

def maxAutoNodes : Nat := 64

def reservedTags : List String := ["direct", "block", "nethop-select", "nethop-in", "nethop-fetch"]

def reservedFields : List String :=
  ["inbounds", "outbounds", "route", "dns", "experimental", "services", "log", "endpoints"]

/-! ## Outbounds -/

structure TerminalOutbound where
  tag : String
  protocol : String
  fields : List (String × Json)

def checkField (key : String) : Except ComposerError Unit := do
  ensure (key ≠ "" ∧ key.utf8ByteSize ≤ maxFieldNameBytes) .fieldNameTooLong
  ensure (key ∉ reservedFields) (.reservedField key)

def TerminalOutbound.new (tag protocol : String) (fields : List (String × Json)) :
    Except ComposerError TerminalOutbound := do
  ensure (tag ≠ "" ∧ tag.utf8ByteSize ≤ maxTagBytes) .invalidTag
  ensure (protocol ≠ "" ∧ protocol.utf8ByteSize ≤ maxProtocolBytes) .invalidProtocol
  ensure (fields.length ≤ maxFieldCount) .tooManyFields
  let _ ← fields.mapM fun e => checkField e.1
  return ⟨tag, protocol, fields⟩

def stringOf : Json → Option String
  | .string s => some s
  | _ => none

def terminalFromComposed (value : Json) :
    Except TerminalOutboundAdapterError TerminalOutbound :=
  match value with
  | .object members => do
    let tag ← okOr ((members.lookup "tag").bind stringOf) .missingTag
    let protocol ← okOr ((members.lookup "type").bind stringOf) .missingProtocol
    (TerminalOutbound.new tag protocol
      (members.filter fun e => e.1 ≠ "tag" ∧ e.1 ≠ "type")).mapError .rejected
  | _ => .error .notObject

def adaptTerminalOutbound (node : DedupedNode) :
    Except TerminalOutboundAdapterError TerminalOutbound :=
  terminalFromComposed (composeOutbound node.node node.nodeId)

def optionKeys : List String :=
  ["flow", "udp_over_tcp", "congestion_control", "udp_relay_mode", "udp_over_stream",
   "zero_rtt_handshake", "heartbeat", "server_ports", "hop_interval", "up_mbps", "down_mbps",
   "idle_session_check_interval", "idle_session_timeout", "min_idle_session", "path", "headers",
   "version", "network"]

theorem key_of_mem_optionMembers {udp : Bool} {o : ProtocolOptions} {e : String × Json}
    (h : e ∈ optionMembers udp o) : e.1 ∈ optionKeys := by
  have hoptional {α : Type} {k : String} {value : α → Json} {a : Option α} (hk : k ∈ optionKeys)
      (he : e ∈ optionalMember k value a) : e.1 ∈ optionKeys := key_of_mem_optionalMember he ▸ hk
  have hsingle {k : String} {value : Json} {p : Prop} (hk : k ∈ optionKeys)
      (he : p ∧ e = (k, value)) : e.1 ∈ optionKeys := by
    rw [he.2]
    exact hk
  cases o with
  | none => cases h
  | vless flow | shadowsocks udpOverTcp => exact hoptional (by decide) h
  | tuic options =>
    simp only [optionMembers, mem_append, mem_ite_nil_right, mem_singleton] at h
    rcases h with (((h | h) | h) | h) | h
    · exact hoptional (by decide) h
    · exact hoptional (by decide) h
    · exact hsingle (by decide) h
    · exact hsingle (by decide) h
    · exact hoptional (by decide) h
  | hysteria2 options =>
    simp only [optionMembers, mem_append, mem_ite_nil_left, mem_singleton] at h
    rcases h with ((h | h) | h) | h
    · exact hsingle (by decide) h
    all_goals exact hoptional (by decide) h
  | anyTls options =>
    simp only [optionMembers, mem_append] at h
    rcases h with (h | h) | h <;> exact hoptional (by decide) h
  | http options =>
    simp only [optionMembers, mem_append, mem_ite_nil_left, mem_singleton] at h
    rcases h with h | h
    · exact hoptional (by decide) h
    · exact hsingle (by decide) h
  | socks options =>
    simp only [optionMembers, mem_append, mem_cons, not_mem_nil, or_false] at h
    rcases h with (rfl | rfl) | h
    · exact (by decide : "version" ∈ optionKeys)
    · exact (by decide : "network" ∈ optionKeys)
    · exact hoptional (by decide) h

attribute [local simp] credentialMembers secretMember lookup

theorem lookup_credentialMembers_tag (c : Credentials) :
    (credentialMembers c).reverse.lookup "tag" = none := by
  cases c with
  | shadowsocks method password plugin =>
    cases plugin <;> simp
  | hysteria2 password obfs =>
    simp [lookup_append, lookup_optionalMember]
  | http username password | socks username password =>
    simp [lookup_append, lookup_optionalMember]
  | _ => simp

theorem member_composeOutbound_tag (node : ProxyNode) (nodeId : String) :
    member (composeOutbound node nodeId) "tag" = some (.string nodeId) := by
  have hoptions : (optionMembers node.inner.capabilities.udp
      node.inner.protocolOptions).reverse.lookup "tag" = none := by
    have hkeys : "tag" ∉ optionKeys := by decide
    rw [lookup_eq_none_iff]
    intro e he
    have hmem := key_of_mem_optionMembers (mem_reverse.mp he)
    have hne : "tag" ≠ e.1 := fun heq => hkeys (heq ▸ hmem)
    simpa using hne
  rw [composeOutbound, member_objectOf, reverse_append, lookup_append, hoptions]
  have hserver (p : Bool) (value : Json) :
      (if p then [] else [("server_port", value)]).reverse.lookup "tag" = none := by
    cases p <;> rfl
  have htls (p : Bool) (value : Json) :
      (if p then [("tls", value)] else []).reverse.lookup "tag" = none := by
    cases p <;> rfl
  have htransport (p : Prop) [Decidable p] (value : Json) :
      (if p then [] else [("transport", value)]).reverse.lookup "tag" = none := by
    split_ifs <;> rfl
  simp only [nodeMembers, reverse_append, lookup_append, lookup_credentialMembers_tag,
    hserver, htls, htransport, Option.none_or]
  rfl

theorem tag_of_adaptTerminalOutbound {node : DedupedNode} {outbound : TerminalOutbound}
    (h : adaptTerminalOutbound node = .ok outbound) : outbound.tag = node.nodeId := by
  have htag := member_composeOutbound_tag node.node node.nodeId
  unfold adaptTerminalOutbound terminalFromComposed at h
  split at h
  next members hvalue =>
    rw [hvalue] at htag
    change members.lookup "tag" = some (.string node.nodeId) at htag
    rw [htag] at h
    simp only [bind_eq_ok, okOr_eq_ok, mapError_eq_ok, TerminalOutbound.new, ensure_eq_ok] at h
    obtain ⟨tag, hsome, protocol, -, -, -, -, -, -, -, -, -, h⟩ := h
    cases h
    cases hsome
    rfl
  · cases h

/-! ## Profiles -/

/-- `ManagedProfile`; what only the text of the configuration depends on is left out. -/
structure ManagedProfile where
  outbounds : List TerminalOutbound
  autoPool : List String

variable (outbounds : List TerminalOutbound)

def validAutoTag (tag : String) : Bool :=
  tag != "" && tag.utf8ByteSize ≤ maxTagBytes && !tag.toList.any Text.isControl &&
    outbounds.any fun outbound => outbound.tag == tag

def ManagedProfile.withAutoPool (profile : ManagedProfile) (autoPool : List String) :
    Except ComposerError ManagedProfile := do
  ensure (autoPool.length ≤ maxAutoNodes ∧ (autoPool = [] → profile.outbounds = []) ∧
    autoPool.all (validAutoTag profile.outbounds) ∧ autoPool.Nodup) .invalidManagedOptions
  return { profile with autoPool := autoPool }

def ManagedProfile.new (autoPool : List String) : Except ComposerError ManagedProfile := do
  ensure (outbounds.length ≤ maxManagedNodes) .tooManyOutbounds
  ensure (∀ outbound ∈ outbounds, outbound.tag ∉ reservedTags) .reservedTag
  ManagedProfile.withAutoPool ⟨outbounds, []⟩ autoPool

def normalizeOutbounds : Except ComposerError (List TerminalOutbound) := do
  ensure (outbounds ≠ []) .emptyOutbounds
  let sorted := outbounds.insertionSort fun a b => a.tag ≤ b.tag
  ensure (sorted.map TerminalOutbound.tag).Nodup .duplicateTag
  return sorted

/-- `CandidateBuildProfile`: the limit of the pool, and the text that the composer writes for
a profile with the settings for capture, control and routing. -/
structure CandidateBuildProfile where
  urltestMaxCandidates : Nat
  compose : ManagedProfile → List UInt8

def managedConfigFromProfile (sha256Hex : Content → String) (settings : CandidateBuildProfile)
    (profile : ManagedProfile) : Except ComposerError (ManagedConfig sha256Hex) := do
  let outbounds ← normalizeOutbounds profile.outbounds
  ensure (profile.autoPool.all fun tag => outbounds.any fun outbound => outbound.tag == tag)
    .invalidManagedOptions
  let bytes := settings.compose { profile with outbounds := outbounds }
  ensure (bytes.length ≤ maxConfigBytes) .configTooLarge
  return { bytes := bytes
           digest := sha256Hex (.config bytes)
           nodeCount := outbounds.length
           digest_eq := rfl }

/-- What `ManagedProfile::new` and `ManagedConfig::from_profile` make of the outbounds of a
candidate. -/
def composeCandidate (sha256Hex : Content → String) (settings : CandidateBuildProfile)
    (outbounds : List TerminalOutbound) (autoPool : List String) :
    Except ComposerError (ManagedConfig sha256Hex) := do
  let profile ← ManagedProfile.new outbounds autoPool
  managedConfigFromProfile sha256Hex settings profile

structure Composed (autoPool : List String) (nodeCount : Nat) : Prop where
  outbounds_ne : outbounds ≠ []
  count : outbounds.length ≤ maxManagedNodes
  tags : (outbounds.map TerminalOutbound.tag).Nodup
  auto_ne : autoPool ≠ []
  auto_length : autoPool.length ≤ maxAutoNodes
  auto_nodup : autoPool.Nodup
  auto_mem : ∀ tag ∈ autoPool, tag ∈ outbounds.map TerminalOutbound.tag
  nodeCount : nodeCount = outbounds.length

theorem composeCandidate_eq_ok {sha256Hex : Content → String} {settings : CandidateBuildProfile}
    {outbounds : List TerminalOutbound} {autoPool : List String} {config : ManagedConfig sha256Hex}
    (h : composeCandidate sha256Hex settings outbounds autoPool = .ok config) :
    Composed outbounds autoPool config.nodeCount := by
  simp only [composeCandidate, ManagedProfile.new, ManagedProfile.withAutoPool,
    managedConfigFromProfile, normalizeOutbounds, bind_eq_ok, ensure_eq_ok, decide_eq_true_eq,
    all_eq_true] at h
  obtain ⟨profile, ⟨-, hcount, -, -, -, ⟨hlength, hempty, hvalid, hnodup⟩, hprofile⟩, sorted,
    ⟨-, hne, -, htags, hsorted⟩, -, -, -, -, h⟩ := h
  cases hprofile
  cases hsorted
  cases h
  have hperm := perm_insertionSort (fun a b : TerminalOutbound => a.tag ≤ b.tag) outbounds
  refine ⟨hne, hcount, (hperm.map _).nodup_iff.mp htags, fun h => hne (hempty h), hlength, hnodup,
    fun tag htag => ?_, hperm.length_eq⟩
  have hany := hvalid tag htag
  simp only [validAutoTag, Bool.and_eq_true, any_eq_true, beq_iff_eq] at hany
  obtain ⟨-, outbound, houtbound, rfl⟩ := hany
  exact mem_map_of_mem houtbound

end NetHop.Build
