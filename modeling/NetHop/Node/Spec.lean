import NetHop.SortedMap
import NetHop.Wire.Validate

/-!
# Proxy nodes

A node as the adapters of the subscription formats hand it over, with every setting
still text, and as the parser keeps it once it has been accepted.  The accepted form
carries the bounds of its texts.
-/

namespace NetHop.Node

open Text Wire

/-! ## Protocols and transports -/

inductive ProxyProtocol where
  | vless
  | vmess
  | shadowsocks
  | trojan
  | hysteria2
  | tuic
  | anyTls
  | http
  | socks
  deriving DecidableEq

namespace ProxyProtocol

def asStr : ProxyProtocol → String
  | vless => "vless"
  | vmess => "vmess"
  | shadowsocks => "shadowsocks"
  | trojan => "trojan"
  | hysteria2 => "hysteria2"
  | tuic => "tuic"
  | anyTls => "anytls"
  | http => "http"
  | socks => "socks"

def fromStr (value : String) : Option ProxyProtocol :=
  match asciiLower value with
  | "vless" => some vless
  | "vmess" => some vmess
  | "ss" | "shadowsocks" => some shadowsocks
  | "trojan" => some trojan
  | "hysteria2" | "hy2" => some hysteria2
  | "tuic" => some tuic
  | "anytls" => some anyTls
  | "http" => some http
  | "socks" | "socks5" => some socks
  | _ => none

theorem fromStr_asStr (p : ProxyProtocol) : fromStr p.asStr = some p := by
  cases p <;> decide

theorem asStr_inj {p q : ProxyProtocol} (h : p.asStr = q.asStr) : p = q := by
  rw [← Option.some_inj, ← fromStr_asStr p, h, fromStr_asStr]

end ProxyProtocol

inductive TransportKind where
  | tcp
  | webSocket
  | http
  | httpUpgrade
  | grpc
  | quic
  deriving DecidableEq

namespace TransportKind

/-- The name of the variant, as `{:?}` writes it. -/
def debug : TransportKind → String
  | tcp => "Tcp"
  | webSocket => "WebSocket"
  | http => "Http"
  | httpUpgrade => "HttpUpgrade"
  | grpc => "Grpc"
  | quic => "Quic"

def fromStr (value : String) : Option TransportKind :=
  match asciiLower value with
  | "tcp" => some tcp
  | "ws" | "websocket" => some webSocket
  | "http" => some http
  | "httpupgrade" | "http-upgrade" => some httpUpgrade
  | "grpc" => some grpc
  | "quic" => some quic
  | _ => none

theorem fromStr_debug (k : TransportKind) : fromStr k.debug = some k := by
  cases k <;> decide

theorem debug_inj {k l : TransportKind} (h : k.debug = l.debug) : k = l := by
  rw [← Option.some_inj, ← fromStr_debug k, h, fromStr_debug]

end TransportKind

/-! ## Texts -/

inductive TextError where
  | empty
  | tooLong
  | control

/-- A text that has passed the checks for the given bound. -/
@[ext] structure BoundedText (max : Nat) where
  value : String
  ne_empty : value ≠ ""
  size_le : value.utf8ByteSize ≤ max
  no_control : value.toList.any isControl = false
  deriving DecidableEq

namespace BoundedText

def new (value : String) (max : Nat) : Except TextError (BoundedText max) :=
  if hempty : value = "" then .error .empty
  else if hlong : max < value.utf8ByteSize then .error .tooLong
  else
    match hcontrol : value.toList.any isControl with
    | true => .error .control
    | false => .ok ⟨value, hempty, Nat.le_of_not_lt hlong, hcontrol⟩

def widen {max max' : Nat} (h : max ≤ max') (t : BoundedText max) : BoundedText max' :=
  ⟨t.value, t.ne_empty, Nat.le_trans t.size_le h, t.no_control⟩

theorem new_eq_ok {value : String} {max : Nat} {t : BoundedText max} :
    new value max = .ok t ↔ t.value = value := by
  constructor
  · intro h
    unfold new at h
    split_ifs at h
    split at h
    · cases h
    · cases h
      rfl
  · rintro rfl
    unfold new
    rw [dif_neg t.ne_empty, dif_neg (Nat.not_lt.mpr t.size_le)]
    split
    · next hcontrol => exact absurd (hcontrol.symm.trans t.no_control) (by decide)
    · rfl

end BoundedText

structure SecretString where
  expose : String

inductive UuidError where
  | shape
  | invalid

structure UuidValue where
  expose : String
  length_le : expose.length ≤ 36

/-- A `Uuid` of the crate `uuid`. -/
structure Uuid where
  hyphenated : UuidValue
  isNil : Bool

/-- `Uuid::parse_str`, which is not part of the source. -/
abbrev UuidCrate := String → Option Uuid

namespace UuidValue

def isHexDigit (c : Char) : Bool := (hexDigitValue c).isSome

def parse (uuids : UuidCrate) (value : String) : Except UuidError UuidValue :=
  let simple := value.utf8ByteSize == 32 && value.toList.all isHexDigit
  let withHyphens := value.utf8ByteSize == 36 &&
    value.toList.zipIdx.all fun (c, i) =>
      if [8, 13, 18, 23].contains i then c == '-' else isHexDigit c
  if !simple && !withHyphens then .error .shape
  else
    match uuids value with
    | none => .error .invalid
    | some uuid => if uuid.isNil then .error .invalid else .ok uuid.hyphenated

end UuidValue

/-- Takes every text of up to 36 characters as it is. -/
def plainUuids : UuidCrate := fun text =>
  if h : text.length ≤ 36 then some ⟨⟨text, h⟩, false⟩ else none

/-! ## Accepted nodes -/

inductive EndpointError where
  | emptyServer
  | serverTooLong
  | invalidServer
  | invalidPort

@[ext] structure Endpoint where
  server : String
  port : UInt16
  size_le : server.utf8ByteSize ≤ 64 * 1024
  port_ne : port ≠ 0

def Endpoint.new (server : String) (port : UInt16) : Except EndpointError Endpoint :=
  if server = "" then .error .emptyServer
  else if hlong : 64 * 1024 < server.utf8ByteSize then .error .serverTooLong
  else if server.toList.any fun c => isWhitespace c || isControl c then .error .invalidServer
  else if hport : port = 0 then .error .invalidPort
  else .ok ⟨server, port, Nat.le_of_not_lt hlong, hport⟩

theorem Endpoint.new_eq_ok {server : String} {port : UInt16} {endpoint : Endpoint}
    (h : Endpoint.new server port = .ok endpoint) :
    endpoint.server = server ∧ endpoint.port = port := by
  unfold Endpoint.new at h
  split_ifs at h
  cases h
  exact ⟨rfl, rfl⟩

structure PluginSpec where
  name : BoundedText 64
  options : SortedMap String (BoundedText 256)

structure Hysteria2Obfs where
  kind : BoundedText 64
  password : SecretString

structure UdpOverTcpOptions where
  enabled : Bool
  version : UInt8

structure Hysteria2Options where
  serverPorts : List (BoundedText 64)
  hopInterval : Option (BoundedText 64)
  upMbps : Option UInt32
  downMbps : Option UInt32

structure TuicOptions where
  congestionControl : Option (BoundedText 64)
  udpRelayMode : Option (BoundedText 64)
  udpOverStream : Bool
  zeroRttHandshake : Bool
  heartbeat : Option (BoundedText 64)

structure AnyTlsOptions where
  idleSessionCheckInterval : Option (BoundedText 64)
  idleSessionTimeout : Option (BoundedText 64)
  minIdleSession : Option UInt32

structure HttpOptions where
  path : Option (BoundedText (8 * 1024))
  headers : SortedMap String SecretString

structure SocksOptions where
  version : BoundedText 8
  udpOverTcp : Option UdpOverTcpOptions

inductive Credentials where
  | vless (uuid : UuidValue)
  | vmess (uuid : UuidValue) (alterId : UInt16) (security : BoundedText 64)
  | shadowsocks (method : BoundedText 64) (password : SecretString) (plugin : Option PluginSpec)
  | trojan (password : SecretString)
  | hysteria2 (password : SecretString) (obfs : Option Hysteria2Obfs)
  | tuic (uuid : UuidValue) (password : SecretString)
  | anyTls (password : SecretString)
  | http (username password : Option SecretString)
  | socks (username password : Option SecretString)

def Credentials.protocol : Credentials → ProxyProtocol
  | .vless _ => .vless
  | .vmess _ _ _ => .vmess
  | .shadowsocks _ _ _ => .shadowsocks
  | .trojan _ => .trojan
  | .hysteria2 _ _ => .hysteria2
  | .tuic _ _ => .tuic
  | .anyTls _ => .anyTls
  | .http _ _ => .http
  | .socks _ _ => .socks

structure RealityOptions where
  publicKey : SecretString
  shortId : Option SecretString
  fingerprint : Option (BoundedText 64)

structure TlsOptions where
  enabled : Bool
  serverName : Option (BoundedText 256)
  insecure : Bool
  alpn : List (BoundedText 64)
  clientFingerprint : Option (BoundedText 64)
  reality : Option RealityOptions

inductive TransportOptions where
  | tcp
  | webSocket (path : BoundedText (8 * 1024)) (headers : SortedMap String (BoundedText (8 * 1024)))
  | http (path : BoundedText (8 * 1024)) (hosts : List (BoundedText 256))
  | httpUpgrade (path : BoundedText (8 * 1024))
      (headers : SortedMap String (BoundedText (8 * 1024)))
  | grpc (serviceName : BoundedText 256)
  | quic
  deriving DecidableEq

def TransportOptions.kind : TransportOptions → TransportKind
  | .tcp => .tcp
  | .webSocket _ _ => .webSocket
  | .http _ _ => .http
  | .httpUpgrade _ _ => .httpUpgrade
  | .grpc _ => .grpc
  | .quic => .quic

inductive ProtocolOptions where
  | none
  | vless (flow : Option (BoundedText 256))
  | shadowsocks (udpOverTcp : Option UdpOverTcpOptions)
  | hysteria2 (options : Hysteria2Options)
  | tuic (options : TuicOptions)
  | anyTls (options : AnyTlsOptions)
  | http (options : HttpOptions)
  | socks (options : SocksOptions)

structure Capabilities where
  tcp : Bool
  udp : Bool
  ipv6 : Bool
  quic : Bool
  tls : Bool

inductive FormatHint where
  | auto
  | uriList
  | base64List
  | clashYaml
  | singboxJson
  | iniProfile
  | surfboardIni
  deriving DecidableEq

structure SourceRef where
  sourceId : String
  itemIndex : UInt32
  format : FormatHint
  line : Option UInt32
  deriving DecidableEq

structure UnvalidatedNode where
  displayName : BoundedText 256
  protocol : ProxyProtocol
  endpoint : Endpoint
  credentials : Credentials
  tls : TlsOptions
  transport : TransportOptions
  protocolOptions : ProtocolOptions
  capabilities : Capabilities
  sourceRefs : List SourceRef

structure ProxyNode where
  nodeId : BoundedText 128
  inner : UnvalidatedNode

/-! ## What the adapters hand over -/

structure SourceLocation where
  itemIndex : UInt32
  line : Option UInt32
  column : Option UInt32
  fieldPath : Option String

structure NodeSpec where
  displayName : Option String
  protocol : String
  server : String
  port : UInt16
  uuid : Option String
  password : Option String
  username : Option String
  method : Option String
  vmessSecurity : Option String
  alterId : Option UInt16
  plugin : Option String
  pluginOptions : SortedMap String String
  tls : Bool
  insecure : Bool
  serverName : Option String
  alpn : List String
  clientFingerprint : Option String
  realityPublicKey : Option String
  realityShortId : Option String
  flow : Option String
  transport : Option String
  path : Option String
  hosts : List String
  serviceName : Option String
  headers : SortedMap String String
  udp : Bool
  udpOverTcp : Option UdpOverTcpOptions
  obfs : Option String
  obfsPassword : Option String
  congestionControl : Option String
  serverPorts : List String
  hopInterval : Option String
  upMbps : Option UInt32
  downMbps : Option UInt32
  udpRelayMode : Option String
  udpOverStream : Bool
  zeroRttHandshake : Bool
  heartbeat : Option String
  idleSessionCheckInterval : Option String
  idleSessionTimeout : Option String
  minIdleSession : Option UInt32
  httpPath : Option String
  httpHeaders : SortedMap String String
  socksVersion : Option String
  sourceRef : Option SourceRef
  location : Option SourceLocation
  unknownCriticalField : Option String
  unknownHarmlessFields : Nat

def NodeSpec.minimal (protocol server : String) (port : UInt16) : NodeSpec where
  displayName := none
  protocol := protocol
  server := server
  port := port
  uuid := none
  password := none
  username := none
  method := none
  vmessSecurity := none
  alterId := none
  plugin := none
  pluginOptions := .empty
  tls := false
  insecure := false
  serverName := none
  alpn := []
  clientFingerprint := none
  realityPublicKey := none
  realityShortId := none
  flow := none
  transport := none
  path := none
  hosts := []
  serviceName := none
  headers := .empty
  udp := false
  udpOverTcp := none
  obfs := none
  obfsPassword := none
  congestionControl := none
  serverPorts := []
  hopInterval := none
  upMbps := none
  downMbps := none
  udpRelayMode := none
  udpOverStream := false
  zeroRttHandshake := false
  heartbeat := none
  idleSessionCheckInterval := none
  idleSessionTimeout := none
  minIdleSession := none
  httpPath := none
  httpHeaders := .empty
  socksVersion := none
  sourceRef := none
  location := none
  unknownCriticalField := none
  unknownHarmlessFields := 0

end NetHop.Node
