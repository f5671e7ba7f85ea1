import NetHop.Node.Canonical

/-!
# The outbound of a node

The JSON object the core is given for a node.  The object is written here as the members
that are inserted into it, in their order.
-/

namespace NetHop.Node

def objectOf (members : List (String × Json)) : Json := .object (SortedMap.collect members).entries

def member (j : Json) (key : String) : Option Json :=
  match j with
  | .object members => members.lookup key
  | _ => none

def number (n : Nat) : Json := .number (.unsigned n)

def textJson {max : Nat} (t : BoundedText max) : Json := .string t.value

/-- A member that is only inserted when there is a value for it. -/
def optionalMember {α : Type} (key : String) (value : α → Json) (a : Option α) :
    List (String × Json) :=
  (a.map fun a => (key, value a)).toList

def udpOverTcpJson (options : UdpOverTcpOptions) : Json :=
  if options.version = 0 ∨ options.version = 2 then .bool options.enabled
  else objectOf [("enabled", .bool options.enabled), ("version", number options.version.toNat)]

def tlsJson (tls : TlsOptions) : Json :=
  objectOf
    ([("enabled", .bool tls.enabled)] ++ optionalMember "server_name" textJson tls.serverName ++
      (if tls.insecure then [("insecure", .bool true)] else []) ++
      (if tls.alpn.isEmpty then [] else [("alpn", .array (tls.alpn.map textJson))]) ++
      optionalMember "utls"
        (fun fingerprint =>
          objectOf [("enabled", .bool true), ("fingerprint", textJson fingerprint)])
        tls.clientFingerprint ++
      optionalMember "reality"
        (fun reality => objectOf
          [("enabled", .bool true), ("public_key", .string reality.publicKey.expose),
           ("short_id", (reality.shortId.map fun id => .string id.expose).getD .null)])
        tls.reality)

def headersJson {max : Nat} (headers : SortedMap String (BoundedText max)) : Json :=
  objectOf (headers.entries.map fun e => (e.1, textJson e.2))

def transportJson : TransportOptions → Json
  | .tcp => objectOf [("type", .string "tcp")]
  | .quic => objectOf [("type", .string "quic")]
  | .webSocket path headers =>
    objectOf [("type", .string "ws"), ("path", textJson path), ("headers", headersJson headers)]
  | .http path hosts =>
    objectOf [("type", .string "http"), ("path", textJson path),
      ("host", .array (hosts.map textJson))]
  | .httpUpgrade path headers =>
    objectOf [("type", .string "httpupgrade"), ("path", textJson path),
      ("headers", headersJson headers)]
  | .grpc serviceName =>
    objectOf [("type", .string "grpc"), ("service_name", textJson serviceName)]

def secretMember (key : String) (secret : SecretString) : String × Json :=
  (key, .string secret.expose)

def credentialMembers : Credentials → List (String × Json)
  | .vless uuid => [("uuid", .string uuid.expose)]
  | .vmess uuid alterId security =>
    [("uuid", .string uuid.expose), ("alter_id", number alterId.toNat),
     ("security", textJson security)]
  | .shadowsocks method password plugin =>
    [("method", textJson method), secretMember "password" password] ++
      match plugin with
      | none => []
      | some plugin =>
        [("plugin", textJson plugin.name), ("plugin_opts", .string (pluginOptions plugin))]
  | .trojan password | .anyTls password => [secretMember "password" password]
  | .hysteria2 password obfs =>
    secretMember "password" password ::
      optionalMember "obfs"
        (fun obfs => objectOf
          [("type", textJson obfs.kind), ("password", .string obfs.password.expose)]) obfs
  | .tuic uuid password => [("uuid", .string uuid.expose), secretMember "password" password]
  | .http username password | .socks username password =>
    optionalMember "username" (fun name => .string name.expose) username ++
      optionalMember "password" (fun password => .string password.expose) password

def portHopping : ProtocolOptions → Bool
  | .hysteria2 options => !options.serverPorts.isEmpty
  | _ => false

def optionMembers (udp : Bool) : ProtocolOptions → List (String × Json)
  | .none => []
  | .vless flow => optionalMember "flow" textJson flow
  | .shadowsocks udpOverTcp => optionalMember "udp_over_tcp" udpOverTcpJson udpOverTcp
  | .tuic options =>
    optionalMember "congestion_control" textJson options.congestionControl ++
      optionalMember "udp_relay_mode" textJson options.udpRelayMode ++
      (if options.udpOverStream then [("udp_over_stream", .bool true)] else []) ++
      (if options.zeroRttHandshake then [("zero_rtt_handshake", .bool true)] else []) ++
      optionalMember "heartbeat" textJson options.heartbeat
  | .hysteria2 options =>
    (if options.serverPorts.isEmpty then []
      else [("server_ports", .array (options.serverPorts.map textJson))]) ++
      optionalMember "hop_interval" textJson options.hopInterval ++
      optionalMember "up_mbps" (fun n => number n.toNat) options.upMbps ++
      optionalMember "down_mbps" (fun n => number n.toNat) options.downMbps
  | .anyTls options =>
    optionalMember "idle_session_check_interval" textJson options.idleSessionCheckInterval ++
      optionalMember "idle_session_timeout" textJson options.idleSessionTimeout ++
      optionalMember "min_idle_session" (fun n => number n.toNat) options.minIdleSession
  | .http options =>
    optionalMember "path" textJson options.path ++
      if options.headers.isEmpty then []
      else [("headers", objectOf (options.headers.entries.map fun e => secretMember e.1 e.2))]
  | .socks options =>
    [("version", textJson options.version),
     ("network", .array (if udp then [.string "tcp", .string "udp"] else [.string "tcp"]))] ++
      optionalMember "udp_over_tcp" udpOverTcpJson options.udpOverTcp

def nodeMembers (node : UnvalidatedNode) (tag : String) : List (String × Json) :=
  [("type", .string node.protocol.asStr), ("tag", .string tag),
   ("server", .string node.endpoint.server)] ++
    (if portHopping node.protocolOptions then []
      else [("server_port", number node.endpoint.port.toNat)]) ++
    credentialMembers node.credentials ++
    (if node.tls.enabled then [("tls", tlsJson node.tls)] else []) ++
    (if node.transport = .tcp then [] else [("transport", transportJson node.transport)])

def composeOutbound (node : ProxyNode) (nodeId : String) : Json :=
  objectOf (nodeMembers node.inner nodeId ++
    optionMembers node.inner.capabilities.udp node.inner.protocolOptions)

end NetHop.Node
