import NetHop.Fields
import NetHop.Node.Validate

/-!
# The canonical form of a node

What a node's fingerprint is taken of: its settings as named fields, each name and each
value behind its length.  A list of `field` calls is written here as the list of the
fields they append.
-/

namespace NetHop.Node

open Framing

/-- `map_or("", …)` of an optional text. -/
def orEmpty {max : Nat} (t : Option (BoundedText max)) : String := (t.map (·.value)).getD ""

def secretOrEmpty (t : Option SecretString) : String := (t.map (·.expose)).getD ""

def bit (value : Bool) : String := if value then "1" else "0"

def joinOptions (options : SortedMap String String) : String :=
  ";".intercalate (options.entries.map fun e => e.1 ++ "=" ++ e.2)

def pluginOptions (plugin : PluginSpec) : String :=
  joinOptions (plugin.options.mapValues (·.value))

theorem pluginOptions_eq (plugin : PluginSpec) : pluginOptions plugin =
    ";".intercalate (plugin.options.entries.map fun e => e.1 ++ "=" ++ e.2.value) := by
  rw [pluginOptions, joinOptions, SortedMap.entries_mapValues, List.map_map]
  rfl

def encodeCredentials : Credentials → List (String × String)
  | .vless uuid => [("uuid", uuid.expose)]
  | .vmess uuid alterId security =>
    [("uuid", uuid.expose), ("alter_id", toString alterId.toNat), ("security", security.value)]
  | .shadowsocks method password plugin =>
    [("method", method.value), ("password", password.expose),
     ("plugin", (plugin.map (·.name.value)).getD "")] ++
    (plugin.map fun plugin => ("plugin_opts", pluginOptions plugin)).toList
  | .trojan password | .anyTls password => [("password", password.expose)]
  | .hysteria2 password obfs =>
    ("password", password.expose) ::
      match obfs with
      | none => []
      | some obfs => [("obfs", obfs.kind.value), ("obfs_password", obfs.password.expose)]
  | .tuic uuid password => [("uuid", uuid.expose), ("password", password.expose)]
  | .http username password | .socks username password =>
    [("username", secretOrEmpty username), ("password", secretOrEmpty password)]

def encodeReality : Option RealityOptions → List (String × String)
  | none => []
  | some reality =>
    [("reality_public", reality.publicKey.expose), ("reality_short", secretOrEmpty reality.shortId),
     ("reality_fp", orEmpty reality.fingerprint)]

def encodeTls (tls : TlsOptions) : List (String × String) :=
  [("tls", bit tls.enabled), ("insecure", bit tls.insecure), ("sni", orEmpty tls.serverName)] ++
    tls.alpn.map (fun value => ("alpn", value.value)) ++
    ("utls", orEmpty tls.clientFingerprint) :: encodeReality tls.reality

def encodeHeaders {max : Nat} (headers : SortedMap String (BoundedText max)) :
    List (String × String) :=
  headers.entries.map fun e => (e.1, e.2.value)

def encodeTransport (transport : TransportOptions) : List (String × String) :=
  ("transport", transport.kind.debug) ::
    match transport with
    | .tcp | .quic => []
    | .webSocket path headers | .httpUpgrade path headers =>
      ("path", path.value) :: encodeHeaders headers
    | .http path hosts => ("path", path.value) :: hosts.map fun host => ("host", host.value)
    | .grpc serviceName => [("service", serviceName.value)]

def encodeUdpOverTcp : Option UdpOverTcpOptions → List (String × String)
  | none => []
  | some options =>
    [("udp_over_tcp_enabled", toString options.enabled),
     ("udp_over_tcp_version", toString options.version.toNat)]

/-- An absent number is written as zero. -/
def orZero (n : Option UInt32) : String := toString (n.getD 0).toNat

def encodeProtocolOptions : ProtocolOptions → List (String × String)
  | .none => []
  | .vless flow => [("flow", orEmpty flow)]
  | .tuic options =>
    [("congestion_control", orEmpty options.congestionControl),
     ("udp_relay_mode", orEmpty options.udpRelayMode),
     ("udp_over_stream", toString options.udpOverStream),
     ("zero_rtt_handshake", toString options.zeroRttHandshake),
     ("heartbeat", orEmpty options.heartbeat)]
  | .hysteria2 options =>
    options.serverPorts.map (fun value => ("server_port", value.value)) ++
      [("hop_interval", orEmpty options.hopInterval), ("up_mbps", orZero options.upMbps),
       ("down_mbps", orZero options.downMbps)]
  | .anyTls options =>
    [("idle_session_check_interval", orEmpty options.idleSessionCheckInterval),
     ("idle_session_timeout", orEmpty options.idleSessionTimeout),
     ("min_idle_session", orZero options.minIdleSession)]
  | .shadowsocks udpOverTcp => encodeUdpOverTcp udpOverTcp
  | .http options =>
    ("http_path", orEmpty options.path) ::
      options.headers.entries.map fun e => (e.1, e.2.expose)
  | .socks options =>
    ("socks_version", options.version.value) :: encodeUdpOverTcp options.udpOverTcp

def canonicalFields (node : UnvalidatedNode) : List (String × String) :=
  [("schema", "1"), ("protocol", node.protocol.asStr), ("server", node.endpoint.server),
   ("port", toString node.endpoint.port.toNat)] ++
    encodeCredentials node.credentials ++ encodeTls node.tls ++ encodeTransport node.transport ++
    encodeProtocolOptions node.protocolOptions ++ [("udp", bit node.capabilities.udp)]

def canonicalNodeBytes (node : ProxyNode) : List UInt8 := encodeFields (canonicalFields node.inner)

end NetHop.Node
