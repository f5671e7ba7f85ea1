import NetHop.Node.Spec

/-!
# Accepting a node

The one place where the settings of a node are judged, whatever format they came from,
and the matrix of the combinations the core has been checked to support.
-/

namespace NetHop.Node

open Text Words SortedMap

/-! ## The capability matrix -/

structure CapabilityQuery where
  protocol : ProxyProtocol
  transport : TransportKind
  tls : Bool
  reality : Bool
  utls : Bool
  udp : Bool
  flow : Option String
  plugin : Option String
  deriving DecidableEq

def CapabilityQuery.fromNode (node : UnvalidatedNode) : CapabilityQuery where
  protocol := node.protocol
  transport := node.transport.kind
  tls := node.tls.enabled
  reality := node.tls.reality.isSome
  utls := node.tls.reality.any fun reality => reality.fingerprint.isSome
  udp := node.capabilities.udp
  flow :=
    match node.protocolOptions with
    | .vless flow => flow.map (·.value)
    | _ => none
  plugin :=
    match node.credentials with
    | .shadowsocks _ _ plugin => plugin.map (·.name.value)
    | _ => none

def CapabilityQuery.display (query : CapabilityQuery) : String :=
  query.protocol.asStr ++ ":" ++ query.transport.debug ++ ":tls=" ++ toString query.tls ++
    ":reality=" ++ toString query.reality ++ ":utls=" ++ toString query.utls ++
    ":udp=" ++ toString query.udp

structure CapabilityEvidence where
  id : String
  checkFixture : String

structure CapabilityEntry where
  query : CapabilityQuery
  supported : Bool
  evidence : Option CapabilityEvidence

structure CapabilityMatrix where
  entries : List CapabilityEntry

def CapabilityMatrix.supports (matrix : CapabilityMatrix) (query : CapabilityQuery) : Bool :=
  matrix.entries.any fun entry =>
    entry.supported && entry.query == query && entry.evidence.isSome

/-- The combinations of the mapping manifest for sing-box 1.13.15. -/
def manifestShapes : List CapabilityQuery :=
  [⟨.vless, .tcp, false, false, false, false, none, none⟩,
   ⟨.vless, .tcp, true, false, false, false, none, none⟩,
   ⟨.vless, .webSocket, true, false, false, false, none, none⟩,
   ⟨.vless, .http, true, false, false, false, none, none⟩,
   ⟨.vless, .httpUpgrade, true, false, false, false, none, none⟩,
   ⟨.vless, .grpc, true, false, false, false, none, none⟩,
   ⟨.vless, .tcp, true, false, false, false, some "xtls-rprx-vision", none⟩,
   ⟨.vless, .tcp, true, true, true, false, none, none⟩,
   ⟨.vless, .tcp, true, true, true, false, some "xtls-rprx-vision", none⟩,
   ⟨.vmess, .tcp, false, false, false, false, none, none⟩,
   ⟨.vmess, .tcp, true, false, false, false, none, none⟩,
   ⟨.vmess, .webSocket, false, false, false, false, none, none⟩,
   ⟨.vmess, .webSocket, true, false, false, false, none, none⟩,
   ⟨.vmess, .http, true, false, false, false, none, none⟩,
   ⟨.vmess, .httpUpgrade, true, false, false, false, none, none⟩,
   ⟨.vmess, .grpc, true, false, false, false, none, none⟩,
   ⟨.shadowsocks, .tcp, false, false, false, false, none, none⟩,
   ⟨.shadowsocks, .tcp, false, false, false, true, none, none⟩,
   ⟨.shadowsocks, .tcp, false, false, false, false, none, some "obfs-local"⟩,
   ⟨.shadowsocks, .tcp, false, false, false, true, none, some "obfs-local"⟩,
   ⟨.shadowsocks, .tcp, false, false, false, false, none, some "v2ray-plugin"⟩,
   ⟨.trojan, .tcp, true, false, false, false, none, none⟩,
   ⟨.trojan, .webSocket, true, false, false, false, none, none⟩,
   ⟨.trojan, .grpc, true, false, false, false, none, none⟩,
   ⟨.hysteria2, .quic, true, false, false, true, none, none⟩,
   ⟨.tuic, .quic, true, false, false, true, none, none⟩,
   ⟨.anyTls, .tcp, true, false, false, false, none, none⟩,
   ⟨.http, .tcp, false, false, false, false, none, none⟩,
   ⟨.http, .tcp, true, false, false, false, none, none⟩,
   ⟨.socks, .tcp, false, false, false, false, none, none⟩,
   ⟨.socks, .tcp, false, false, false, true, none, none⟩]

def CapabilityMatrix.default : CapabilityMatrix where
  entries := manifestShapes.map fun query =>
    { query := query
      supported := true
      evidence := some
        { id := "sing-box-1.13.15-" ++ query.protocol.asStr
          checkFixture := "tests/fixtures/mapping/sing-box-1.13.15-check.json" } }

/-! ## Errors -/

inductive NodeValidationError where
  | credentialProtocolMismatch
  | tooManySourceRefs
  | invalidTlsCombination
  | unsupportedCapability (query : String)
  | emptyCredential
  | unsupportedTransport
  | unsupportedSemantics

inductive SemanticError where
  | unsupportedProtocol
  | invalidEndpoint
  | invalidCredential
  | unsupportedTransport
  | unsupportedSemantics
  | invalidTlsCombination

def mapValidationError : NodeValidationError → SemanticError
  | .invalidTlsCombination => .invalidTlsCombination
  | .emptyCredential => .invalidCredential
  | .unsupportedTransport => .unsupportedTransport
  | .unsupportedSemantics | .unsupportedCapability _ => .unsupportedSemantics
  | .credentialProtocolMismatch | .tooManySourceRefs => .invalidCredential

/-! ## Texts -/

/-- `text(value, max)` with its error replaced. -/
def text (value : String) (max : Nat) (error : SemanticError) :
    Except SemanticError (BoundedText max) :=
  (BoundedText.new value max).mapError fun _ => error

def optionalText (value : Option String) (max : Nat) (error : SemanticError) :
    Except SemanticError (Option (BoundedText max)) :=
  match value with
  | none => pure none
  | some value => return some (← text value max error)

def texts (values : List String) (max : Nat) (error : SemanticError) :
    Except SemanticError (List (BoundedText max)) :=
  values.mapM fun value => text value max error

variable {error : SemanticError} {max : Nat}

@[simp] theorem text_eq_ok {value : String} {t : BoundedText max} :
    text value max error = .ok t ↔ t.value = value := by
  rw [text, mapError_eq_ok, BoundedText.new_eq_ok]

@[simp] theorem optionalText_eq_ok {value : Option String} {t : Option (BoundedText max)} :
    optionalText value max error = .ok t ↔ t.map (·.value) = value := by
  cases value with
  | none =>
    rw [Option.map_eq_none_iff]
    exact ⟨fun h => by cases h; rfl, fun h => by rw [h]; rfl⟩
  | some value =>
    rw [Option.map_eq_some_iff]
    constructor
    · intro h
      obtain ⟨u, hu, h⟩ := bind_eq_ok.mp h
      cases h
      exact ⟨u, rfl, text_eq_ok.mp hu⟩
    · rintro ⟨u, rfl, hu⟩
      exact bind_eq_ok.mpr ⟨u, text_eq_ok.mpr hu, rfl⟩

@[simp] theorem texts_eq_ok {values : List String} {ts : List (BoundedText max)} :
    texts values max error = .ok ts ↔ ts.map (·.value) = values := by
  rw [texts, mapM_eq_ok]
  simp only [text_eq_ok]
  exact forall₂_iff_map_eq

/-! ## TLS -/

def makeReality (spec : NodeSpec) (protocol : ProxyProtocol) :
    Except SemanticError (Option RealityOptions) :=
  match spec.realityPublicKey with
  | none => pure none
  | some publicKey => do
    ensure (protocol == .vless && spec.tls && publicKey != "") .invalidTlsCombination
    let fingerprint ← optionalText spec.clientFingerprint 64 .invalidTlsCombination
    return some
      { publicKey := ⟨publicKey⟩
        shortId := (spec.realityShortId.filter (· != "")).map SecretString.mk
        fingerprint := fingerprint }

def makeTls (spec : NodeSpec) (protocol : ProxyProtocol) : Except SemanticError TlsOptions := do
  let reality ← makeReality spec protocol
  ensure (spec.tls || (spec.serverName.isNone && spec.alpn.isEmpty &&
    spec.clientFingerprint.isNone)) .invalidTlsCombination
  let serverName ← optionalText spec.serverName 256 .invalidTlsCombination
  let alpn ← texts spec.alpn 64 .invalidTlsCombination
  let clientFingerprint ← optionalText spec.clientFingerprint 64 .invalidTlsCombination
  return { enabled := spec.tls, serverName := serverName, insecure := spec.insecure, alpn := alpn,
           clientFingerprint := clientFingerprint, reality := reality }

variable {uuids : UuidCrate} {spec : NodeSpec}
  {protocol : ProxyProtocol} {headers : SortedMap String String} {hosts : List String}
  {path : Option String} {matrix : CapabilityMatrix}

theorem makeReality_eq_ok {reality : Option RealityOptions}
    (h : makeReality spec protocol = .ok reality) :
    ∀ r ∈ reality, spec.realityPublicKey = some r.publicKey.expose ∧
      r.shortId = (spec.realityShortId.filter (· != "")).map SecretString.mk := by
  unfold makeReality at h
  cases hkey : spec.realityPublicKey with
  | none =>
    rw [hkey] at h
    cases h
    exact fun r hr => absurd hr (by simp)
  | some key =>
    simp only [hkey, bind_eq_ok] at h
    obtain ⟨_, -, fingerprint, -, h⟩ := h
    cases h
    intro r hr
    cases hr
    exact ⟨rfl, rfl⟩

theorem makeTls_eq_ok {tls : TlsOptions} (h : makeTls spec protocol = .ok tls) :
    makeReality spec protocol = .ok tls.reality := by
  simp only [makeTls, bind_eq_ok] at h
  obtain ⟨reality, hreality, _, -, serverName, -, alpn, -, fingerprint, -, h⟩ := h
  cases h
  exact hreality

/-! ## Credentials -/

def vmessSecurities : List String := ["auto", "none", "aes-128-gcm", "chacha20-poly1305", "zero"]

def shadowsocksMethods : List String :=
  ["aes-128-gcm", "aes-256-gcm", "chacha20-ietf-poly1305", "2022-blake3-aes-128-gcm",
   "2022-blake3-aes-256-gcm", "2022-blake3-chacha20-poly1305"]

def obfsLocalAccepts (options : SortedMap String String) : Bool :=
  options.keys.all (["obfs", "obfs-host"].contains ·) &&
    (options.get? "obfs").any (["http", "tls"].contains ·)

def v2rayPluginAccepts (options : SortedMap String String) : Bool :=
  options.keys.all (["mode", "host", "path", "tls", "mux"].contains ·) &&
    (options.get? "mode").any (["websocket", "quic"].contains ·)

def boundedOptions (options : SortedMap String String) :
    Except SemanticError (SortedMap String (BoundedText 256)) := do
  let entries ← options.entries.mapM fun e => do
    let value ← text e.2 256 .unsupportedSemantics
    pure (e.1, value)
  return .collect entries

theorem boundedOptions_eq_ok {options : SortedMap String String}
    {bounded : SortedMap String (BoundedText 256)} (h : boundedOptions options = .ok bounded) :
    bounded.mapValues (·.value) = options := by
  obtain ⟨entries, hentries, h⟩ := bind_eq_ok.mp h
  cases h
  refine mapValues_collect ((mapM_eq_ok.mp hentries).imp fun e d hd => ?_)
  obtain ⟨value, hvalue, hd⟩ := bind_eq_ok.mp hd
  cases hd
  exact Prod.ext rfl (text_eq_ok.mp hvalue)

def namedPlugin (name : String) (options : SortedMap String String) :
    Except SemanticError PluginSpec := do
  let options ← boundedOptions options
  let name ← text name 64 .unsupportedSemantics
  return { name := name, options := options }

def makePlugin (spec : NodeSpec) : Except SemanticError (Option PluginSpec) :=
  match spec.plugin with
  | none => do
    ensure spec.pluginOptions.isEmpty .unsupportedSemantics
    return none
  | some plugin =>
    if plugin = "obfs-local" then do
      ensure (obfsLocalAccepts spec.pluginOptions) .unsupportedSemantics
      return some (← namedPlugin "obfs-local" spec.pluginOptions)
    else if plugin = "v2ray-plugin" then do
      ensure (v2rayPluginAccepts spec.pluginOptions) .unsupportedSemantics
      ensure ((spec.pluginOptions.get? "tls").all fun tls => tls == "true" || tls == "false")
        .unsupportedSemantics
      ensure ((spec.pluginOptions.get? "mux").all fun mux => (parseU16 mux.toList).isSome)
        .unsupportedSemantics
      return some (← namedPlugin "v2ray-plugin" spec.pluginOptions)
    else .error .unsupportedSemantics

def requiredPassword (spec : NodeSpec) : Except SemanticError SecretString :=
  okOr ((spec.password.filter (· != "")).map SecretString.mk) .invalidCredential

def requiredUuid (uuids : UuidCrate) (spec : NodeSpec) : Except SemanticError UuidValue := do
  let value ← okOr spec.uuid .invalidCredential
  (UuidValue.parse uuids value).mapError fun _ => .invalidCredential

def optionalUserPassword (spec : NodeSpec) :
    Except SemanticError (Option SecretString × Option SecretString) :=
  match spec.username, spec.password with
  | none, none => pure (none, none)
  | some username, some password => do
    ensure (username != "" && password != "") .invalidCredential
    return (some ⟨username⟩, some ⟨password⟩)
  | _, _ => .error .invalidCredential

def makeObfs (spec : NodeSpec) : Except SemanticError (Option Hysteria2Obfs) :=
  match spec.obfs, spec.obfsPassword with
  | none, none => pure none
  | some obfs, some password => do
    ensure (obfs == "salamander" && password != "") .unsupportedSemantics
    let kind ← text "salamander" 64 .unsupportedSemantics
    return some { kind := kind, password := ⟨password⟩ }
  | _, _ => .error .unsupportedSemantics

def makeCredentials (uuids : UuidCrate) (spec : NodeSpec) (protocol : ProxyProtocol) :
    Except SemanticError Credentials := do
  ensure (protocol == .http || protocol == .socks || spec.username.isNone) .unsupportedSemantics
  ensure (!(protocol == .http || protocol == .socks) ||
    (spec.uuid.isNone && spec.method.isNone && spec.vmessSecurity.isNone &&
      spec.alterId.isNone && spec.plugin.isNone && spec.pluginOptions.isEmpty &&
      spec.obfs.isNone && spec.obfsPassword.isNone)) .unsupportedSemantics
  match protocol with
  | .vless => do
    let uuid ← requiredUuid uuids spec
    return .vless uuid
  | .vmess => do
    ensure (vmessSecurities.contains (spec.vmessSecurity.getD "auto")) .unsupportedSemantics
    let uuid ← requiredUuid uuids spec
    let security ← text (spec.vmessSecurity.getD "auto") 64 .invalidCredential
    return .vmess uuid (spec.alterId.getD 0) security
  | .shadowsocks => do
    let method ← okOr spec.method .invalidCredential
    ensure (shadowsocksMethods.contains method) .unsupportedSemantics
    let plugin ← makePlugin spec
    let method ← text method 64 .invalidCredential
    let password ← requiredPassword spec
    return .shadowsocks method password plugin
  | .trojan => do
    let password ← requiredPassword spec
    return .trojan password
  | .hysteria2 => do
    let obfs ← makeObfs spec
    let password ← requiredPassword spec
    return .hysteria2 password obfs
  | .tuic => do
    let uuid ← requiredUuid uuids spec
    let password ← requiredPassword spec
    return .tuic uuid password
  | .anyTls => do
    let password ← requiredPassword spec
    return .anyTls password
  | .http => do
    let pair ← optionalUserPassword spec
    return .http pair.1 pair.2
  | .socks => do
    let pair ← optionalUserPassword spec
    return .socks pair.1 pair.2

/-- What the credentials of each protocol are made from. -/
inductive CredentialsOf (uuids : UuidCrate) (spec : NodeSpec) : ProxyProtocol → Credentials → Prop
  | vless {uuid} (huuid : requiredUuid uuids spec = .ok uuid) :
      CredentialsOf uuids spec .vless (.vless uuid)
  | vmess {uuid security} (huuid : requiredUuid uuids spec = .ok uuid)
      (hsecurity : security.value = spec.vmessSecurity.getD "auto") :
      CredentialsOf uuids spec .vmess (.vmess uuid (spec.alterId.getD 0) security)
  | shadowsocks {method password plugin} (hmethod : spec.method = some method.value)
      (hplugin : makePlugin spec = .ok plugin) (hpassword : requiredPassword spec = .ok password) :
      CredentialsOf uuids spec .shadowsocks (.shadowsocks method password plugin)
  | trojan {password} (hpassword : requiredPassword spec = .ok password) :
      CredentialsOf uuids spec .trojan (.trojan password)
  | hysteria2 {password obfs} (hobfs : makeObfs spec = .ok obfs)
      (hpassword : requiredPassword spec = .ok password) :
      CredentialsOf uuids spec .hysteria2 (.hysteria2 password obfs)
  | tuic {uuid password} (huuid : requiredUuid uuids spec = .ok uuid)
      (hpassword : requiredPassword spec = .ok password) :
      CredentialsOf uuids spec .tuic (.tuic uuid password)
  | anyTls {password} (hpassword : requiredPassword spec = .ok password) :
      CredentialsOf uuids spec .anyTls (.anyTls password)
  | http {pair} (hpair : optionalUserPassword spec = .ok pair) :
      CredentialsOf uuids spec .http (.http pair.1 pair.2)
  | socks {pair} (hpair : optionalUserPassword spec = .ok pair) :
      CredentialsOf uuids spec .socks (.socks pair.1 pair.2)

/-- A plain proxy takes no setting of the other protocols. -/
def PlainProxy (spec : NodeSpec) : Prop :=
  spec.method = none ∧ spec.plugin = none ∧ spec.pluginOptions.entries = [] ∧
    spec.obfs = none ∧ spec.obfsPassword = none

theorem makeCredentials_eq_ok {credentials : Credentials}
    (h : makeCredentials uuids spec protocol = .ok credentials) :
    CredentialsOf uuids spec protocol credentials ∧
      (protocol = .http ∨ protocol = .socks → PlainProxy spec) := by
  simp only [makeCredentials, bind_eq_ok, ensure_eq_ok] at h
  obtain ⟨-, -, -, hplain, h⟩ := h
  constructor
  · cases protocol <;> simp only [bind_eq_ok, text_eq_ok, okOr_eq_ok] at h
    case vless =>
      obtain ⟨uuid, huuid, h⟩ := h
      cases h
      exact .vless huuid
    case vmess =>
      obtain ⟨-, -, uuid, huuid, security, hsecurity, h⟩ := h
      cases h
      exact .vmess huuid hsecurity
    case shadowsocks =>
      obtain ⟨name, hname, -, -, plugin, hplugin, method, hmethod, password, hpassword, h⟩ := h
      cases h
      exact .shadowsocks (hmethod ▸ hname) hplugin hpassword
    case trojan =>
      obtain ⟨password, hpassword, h⟩ := h
      cases h
      exact .trojan hpassword
    case hysteria2 =>
      obtain ⟨obfs, hobfs, password, hpassword, h⟩ := h
      cases h
      exact .hysteria2 hobfs hpassword
    case tuic =>
      obtain ⟨uuid, huuid, password, hpassword, h⟩ := h
      cases h
      exact .tuic huuid hpassword
    case anyTls =>
      obtain ⟨password, hpassword, h⟩ := h
      cases h
      exact .anyTls hpassword
    case http =>
      obtain ⟨pair, hpair, h⟩ := h
      cases h
      exact .http hpair
    case socks =>
      obtain ⟨pair, hpair, h⟩ := h
      cases h
      exact .socks hpair
  · intro hprotocol
    have hproxy : (protocol == .http || protocol == .socks) = true := by
      rcases hprotocol with rfl | rfl
      · rfl
      · rfl
    simp only [hproxy, Bool.not_true, Bool.false_or, Bool.and_eq_true, Option.isNone_iff_eq_none,
      isEmpty, List.isEmpty_iff] at hplain
    obtain ⟨⟨⟨⟨⟨⟨⟨-, hmethod⟩, -⟩, -⟩, hplugin⟩, hoptions⟩, hobfs⟩, hpassword⟩ := hplain
    exact ⟨hmethod, hplugin, hoptions, hobfs, hpassword⟩

/-! ## Transports -/

def mapHeaders (headers : SortedMap String String) :
    Except SemanticError (SortedMap String (BoundedText (8 * 1024))) := do
  let entries ← headers.entries.mapM fun e => do
    let key ← text e.1 256 .unsupportedSemantics
    let value ← text e.2 (8 * 1024) .unsupportedSemantics
    pure (key.value, value)
  return .collect entries

def mapHttpHeaders (headers : SortedMap String String) :
    Except SemanticError (SortedMap String SecretString) := do
  let entries ← headers.entries.mapM fun e => do
    let key ← text e.1 256 .unsupportedSemantics
    let _ ← text e.2 (8 * 1024) .unsupportedSemantics
    pure (key.value, SecretString.mk e.2)
  return .collect entries

def validHeader (e : String × String) : Prop :=
  e.1.utf8ByteSize ≤ 256 ∧ e.2.utf8ByteSize ≤ 8 * 1024

theorem mapHeaders_eq_ok {bounded : SortedMap String (BoundedText (8 * 1024))}
    (h : mapHeaders headers = .ok bounded) :
    bounded.mapValues (·.value) = headers ∧ ∀ e ∈ headers.entries, validHeader e := by
  obtain ⟨entries, hentries, h⟩ := bind_eq_ok.mp h
  cases h
  have hpairs : List.Forall₂ (fun e d => (d.1, d.2.value) = e ∧ validHeader e)
      headers.entries entries := by
    refine (mapM_eq_ok.mp hentries).imp fun e d hd => ?_
    obtain ⟨key, hkey, hd⟩ := bind_eq_ok.mp hd
    obtain ⟨value, hvalue, hd⟩ := bind_eq_ok.mp hd
    cases hd
    rw [text_eq_ok] at hkey hvalue
    exact ⟨Prod.ext hkey hvalue, hkey ▸ key.size_le, hvalue ▸ value.size_le⟩
  exact ⟨mapValues_collect (hpairs.imp fun _ _ h => h.1),
    forall_of_forall₂ (hpairs.imp fun _ _ h => h.2)⟩

theorem mapHttpHeaders_eq_ok {secret : SortedMap String SecretString}
    (h : mapHttpHeaders headers = .ok secret) :
    secret.mapValues (·.expose) = headers ∧ ∀ e ∈ headers.entries, validHeader e := by
  obtain ⟨entries, hentries, h⟩ := bind_eq_ok.mp h
  cases h
  have hpairs : List.Forall₂ (fun e d => (d.1, d.2.expose) = e ∧ validHeader e)
      headers.entries entries := by
    refine (mapM_eq_ok.mp hentries).imp fun e d hd => ?_
    obtain ⟨key, hkey, hd⟩ := bind_eq_ok.mp hd
    obtain ⟨value, hvalue, hd⟩ := bind_eq_ok.mp hd
    cases hd
    rw [text_eq_ok] at hkey hvalue
    exact ⟨Prod.ext hkey rfl, hkey ▸ key.size_le, hvalue ▸ value.size_le⟩
  exact ⟨mapValues_collect (hpairs.imp fun _ _ h => h.1),
    forall_of_forall₂ (hpairs.imp fun _ _ h => h.2)⟩

/-- `key.eq_ignore_ascii_case("host")` for one of the keys. -/
def namesHost {α : Type} (headers : SortedMap String α) : Bool :=
  headers.keys.any fun key => asciiLower key == "host"

theorem host_fits : 256 ≤ 8 * 1024 := by omega

/-- The first host as a header, unless the headers name a host themselves. -/
def insertHost (hosts : List String) (headers : SortedMap String (BoundedText (8 * 1024))) :
    Except SemanticError (SortedMap String (BoundedText (8 * 1024))) :=
  match hosts with
  | [] => pure headers
  | host :: _ =>
    if namesHost headers then pure headers
    else do
      let host ← text host 256 .unsupportedSemantics
      return headers.insert "Host" (host.widen host_fits)

/-- The path and the headers of a transport that speaks HTTP/1.1. -/
def pathAndHeaders (path : Option String) (hosts : List String)
    (headers : SortedMap String String) :
    Except SemanticError (BoundedText (8 * 1024) × SortedMap String (BoundedText (8 * 1024))) := do
  let path ← text (path.getD "/") (8 * 1024) .unsupportedSemantics
  let headers ← mapHeaders headers
  let headers ← insertHost hosts headers
  ensure (hosts.length ≤ 1) .unsupportedSemantics
  return (path, headers)

def defaultTransport (protocol : ProxyProtocol) : String :=
  if protocol == .hysteria2 || protocol == .tuic then "quic" else "tcp"

def makeTransport (protocol : ProxyProtocol) (requested path : Option String)
    (hosts : List String) (serviceName : Option String) (headers : SortedMap String String) :
    Except SemanticError TransportOptions := do
  ensure (!(protocol == .http || protocol == .socks) || requested.all (· == "tcp"))
    .unsupportedTransport
  let kind ← okOr (TransportKind.fromStr (requested.getD (defaultTransport protocol)))
    .unsupportedTransport
  match kind with
  | .tcp => do
    ensure (path.isNone && hosts.isEmpty && serviceName.isNone && headers.isEmpty)
      .unsupportedSemantics
    return .tcp
  | .webSocket => do
    let pair ← pathAndHeaders path hosts headers
    return .webSocket pair.1 pair.2
  | .httpUpgrade => do
    let pair ← pathAndHeaders path hosts headers
    return .httpUpgrade pair.1 pair.2
  | .http => do
    let path ← text (path.getD "/") (8 * 1024) .unsupportedSemantics
    let hosts ← texts hosts 256 .unsupportedSemantics
    return .http path hosts
  | .grpc => do
    -- host values are rejected instead of silently dropped
    ensure hosts.isEmpty .unsupportedSemantics
    let serviceName ← text (serviceName.getD "grpc") 256 .unsupportedSemantics
    return .grpc serviceName
  | .quic => do
    ensure (path.isNone && hosts.isEmpty && serviceName.isNone && headers.isEmpty)
      .unsupportedSemantics
    return .quic

/-- The headers with the first host among them, unless they name a host themselves. -/
def withHost (hosts : List String) (headers : SortedMap String String) :
    SortedMap String String :=
  match hosts with
  | [] => headers
  | host :: _ => if namesHost headers then headers else headers.insert "Host" host

theorem insertHost_eq_ok {bounded m : SortedMap String (BoundedText (8 * 1024))}
    (h : insertHost hosts bounded = .ok m) :
    m.mapValues (·.value) = withHost hosts (bounded.mapValues (·.value)) ∧
      ∀ e ∈ m.entries, e.1 = "Host" ∨ e ∈ bounded.entries := by
  have hnames : namesHost (bounded.mapValues (·.value)) = namesHost bounded := by
    rw [namesHost, namesHost, keys_mapValues]
  cases hosts with
  | nil =>
    cases h
    exact ⟨rfl, fun e he => .inr he⟩
  | cons host rest =>
    simp only [withHost, hnames]
    simp only [insertHost] at h
    split_ifs at h ⊢
    · cases h
      exact ⟨rfl, fun e he => .inr he⟩
    · obtain ⟨t, ht, h⟩ := bind_eq_ok.mp h
      cases h
      refine ⟨?_, fun e he => ?_⟩
      · rw [mapValues_insert, ← text_eq_ok.mp ht]
        rfl
      · exact (mem_insertEntry he).imp (congrArg Prod.fst) id

theorem pathAndHeaders_eq_ok {p : BoundedText (8 * 1024)}
    {m : SortedMap String (BoundedText (8 * 1024))}
    (h : pathAndHeaders path hosts headers = .ok (p, m)) :
    p.value = path.getD "/" ∧ m.mapValues (·.value) = withHost hosts headers ∧
      hosts.length ≤ 1 ∧ ∀ e ∈ m.entries, e.1.utf8ByteSize ≤ 256 := by
  simp only [pathAndHeaders, bind_eq_ok, text_eq_ok, ensure_eq_ok, decide_eq_true_eq] at h
  obtain ⟨p', hp, bounded, hbounded, m', hm, _, hlength, h⟩ := h
  cases h
  obtain ⟨hvalues, hvalid⟩ := mapHeaders_eq_ok hbounded
  obtain ⟨hheaders, hentries⟩ := insertHost_eq_ok hm
  refine ⟨hp, hvalues ▸ hheaders, hlength, fun e he => ?_⟩
  rcases hentries e he with hhost | he
  · rw [hhost]
    decide
  · refine (hvalid (e.1, e.2.value) ?_).1
    rw [← hvalues]
    exact List.mem_map_of_mem he

inductive TransportOf (path : Option String) (hosts : List String) (serviceName : Option String)
    (headers : SortedMap String String) : TransportOptions → Prop
  | tcp (hpath : path = none) (hhosts : hosts = []) (hservice : serviceName = none)
      (hheaders : headers.entries = []) : TransportOf path hosts serviceName headers .tcp
  | quic (hpath : path = none) (hhosts : hosts = []) (hservice : serviceName = none)
      (hheaders : headers.entries = []) : TransportOf path hosts serviceName headers .quic
  | webSocket {p m} (hpair : pathAndHeaders path hosts headers = .ok (p, m)) :
      TransportOf path hosts serviceName headers (.webSocket p m)
  | httpUpgrade {p m} (hpair : pathAndHeaders path hosts headers = .ok (p, m)) :
      TransportOf path hosts serviceName headers (.httpUpgrade p m)
  | http {p hs} (hpath : p.value = path.getD "/") (hhosts : hs.map (·.value) = hosts) :
      TransportOf path hosts serviceName headers (.http p hs)
  | grpc {s} (hhosts : hosts = []) (hservice : s.value = serviceName.getD "grpc") :
      TransportOf path hosts serviceName headers (.grpc s)

section

variable {requested serviceName : Option String} {transport : TransportOptions}

theorem makeTransport_eq_ok
    (h : makeTransport protocol requested path hosts serviceName headers = .ok transport) :
    TransportOf path hosts serviceName headers transport ∧
      TransportKind.fromStr (requested.getD (defaultTransport protocol)) = some transport.kind := by
  simp only [makeTransport, bind_eq_ok, okOr_eq_ok] at h
  obtain ⟨_, -, kind, hkind, h⟩ := h
  rw [hkind]
  cases kind <;> simp only [bind_eq_ok, ensure_eq_ok, Bool.and_eq_true, Option.isNone_iff_eq_none,
    List.isEmpty_iff, isEmpty, text_eq_ok, texts_eq_ok] at h
  case tcp =>
    obtain ⟨_, ⟨⟨⟨hpath, hhosts⟩, hservice⟩, hheaders⟩, h⟩ := h
    cases h
    exact ⟨.tcp hpath hhosts hservice hheaders, rfl⟩
  case quic =>
    obtain ⟨_, ⟨⟨⟨hpath, hhosts⟩, hservice⟩, hheaders⟩, h⟩ := h
    cases h
    exact ⟨.quic hpath hhosts hservice hheaders, rfl⟩
  case webSocket =>
    obtain ⟨pair, hpair, h⟩ := h
    cases h
    exact ⟨.webSocket hpair, rfl⟩
  case httpUpgrade =>
    obtain ⟨pair, hpair, h⟩ := h
    cases h
    exact ⟨.httpUpgrade hpair, rfl⟩
  case http =>
    obtain ⟨p, hpath, hs, hhosts, h⟩ := h
    cases h
    exact ⟨.http hpath hhosts, rfl⟩
  case grpc =>
    obtain ⟨_, hhosts, s, hservice, h⟩ := h
    cases h
    exact ⟨.grpc hhosts hservice, rfl⟩

theorem makeTransport_proxy (hprotocol : protocol = .http ∨ protocol = .socks)
    (h : makeTransport protocol requested path hosts serviceName headers = .ok transport) :
    transport = .tcp := by
  have hkind := (makeTransport_eq_ok h).2
  simp only [makeTransport, bind_eq_ok, ensure_eq_ok] at h
  obtain ⟨-, hrequested, -⟩ := h
  have hdefault : defaultTransport protocol = "tcp" := by
    rcases hprotocol with rfl | rfl
    · rfl
    · rfl
  have hproxy : (protocol == .http || protocol == .socks) = true := by
    rcases hprotocol with rfl | rfl
    · rfl
    · rfl
  have htcp : requested.getD (defaultTransport protocol) = "tcp" := by
    cases requested with
    | none => exact hdefault
    | some value =>
      rw [hproxy] at hrequested
      exact beq_iff_eq.mp hrequested
  have hsome : TransportKind.fromStr "tcp" = some .tcp := by decide
  rw [htcp, hsome] at hkind
  cases transport with
  | tcp => rfl
  | _ => cases hkind

end

/-! ## Options of one protocol -/

/-- One port, or two with a hyphen between them. -/
def validServerPort (value : String) : Bool :=
  let value := trim value.toList
  match splitOnce '-' value with
  | some (start, stop) =>
    !stop.contains '-' &&
      (parseU16 start).any fun start => (parseU16 stop).any fun stop => start != 0 && start ≤ stop
  | none => (parseU16 value).any (· != 0)

def validServerPorts (values : List String) : Bool :=
  values.isEmpty || (values.length ≤ 64 && values.all validServerPort)

def makeProtocolOptions (spec : NodeSpec) (protocol : ProxyProtocol) :
    Except SemanticError ProtocolOptions :=
  match protocol with
  | .vless => do
    let flow ← optionalText spec.flow 256 .unsupportedSemantics
    return .vless flow
  | .shadowsocks => return .shadowsocks spec.udpOverTcp
  | .hysteria2 => do
    let serverPorts ← texts spec.serverPorts 64 .unsupportedSemantics
    let hopInterval ← optionalText spec.hopInterval 64 .unsupportedSemantics
    return .hysteria2 { serverPorts := serverPorts, hopInterval := hopInterval,
                        upMbps := spec.upMbps, downMbps := spec.downMbps }
  | .tuic => do
    let congestionControl ← optionalText spec.congestionControl 64 .unsupportedSemantics
    let udpRelayMode ← optionalText spec.udpRelayMode 64 .unsupportedSemantics
    let heartbeat ← optionalText spec.heartbeat 64 .unsupportedSemantics
    return .tuic { congestionControl := congestionControl, udpRelayMode := udpRelayMode,
                   udpOverStream := spec.udpOverStream,
                   zeroRttHandshake := spec.zeroRttHandshake, heartbeat := heartbeat }
  | .anyTls => do
    let checkInterval ← optionalText spec.idleSessionCheckInterval 64 .unsupportedSemantics
    let timeout ← optionalText spec.idleSessionTimeout 64 .unsupportedSemantics
    return .anyTls { idleSessionCheckInterval := checkInterval, idleSessionTimeout := timeout,
                     minIdleSession := spec.minIdleSession }
  | .http => do
    let path ← optionalText spec.httpPath (8 * 1024) .unsupportedSemantics
    let headers ← mapHttpHeaders spec.httpHeaders
    return .http { path := path, headers := headers }
  | .socks => do
    let version := spec.socksVersion.getD "5"
    ensure (["4", "4a", "5"].contains version) .unsupportedSemantics
    let version ← text version 8 .unsupportedSemantics
    return .socks { version := version, udpOverTcp := spec.udpOverTcp }
  | .vmess | .trojan => return .none

inductive OptionsFor : ProxyProtocol → ProtocolOptions → Prop
  | vless (flow) : OptionsFor .vless (.vless flow)
  | vmess : OptionsFor .vmess .none
  | shadowsocks (udpOverTcp) : OptionsFor .shadowsocks (.shadowsocks udpOverTcp)
  | trojan : OptionsFor .trojan .none
  | hysteria2 (options) : OptionsFor .hysteria2 (.hysteria2 options)
  | tuic (options) : OptionsFor .tuic (.tuic options)
  | anyTls (options) : OptionsFor .anyTls (.anyTls options)
  | http (options) : OptionsFor .http (.http options)
  | socks (options) : OptionsFor .socks (.socks options)

theorem makeProtocolOptions_for {options : ProtocolOptions}
    (h : makeProtocolOptions spec protocol = .ok options) : OptionsFor protocol options := by
  cases protocol <;> simp only [makeProtocolOptions, bind_eq_ok] at h
  case vless =>
    obtain ⟨flow, -, h⟩ := h
    cases h
    exact .vless flow
  case vmess =>
    cases h
    exact .vmess
  case shadowsocks =>
    cases h
    exact .shadowsocks _
  case trojan =>
    cases h
    exact .trojan
  case hysteria2 =>
    obtain ⟨ports, -, interval, -, h⟩ := h
    cases h
    exact .hysteria2 _
  case tuic =>
    obtain ⟨congestion, -, mode, -, heartbeat, -, h⟩ := h
    cases h
    exact .tuic _
  case anyTls =>
    obtain ⟨interval, -, timeout, -, h⟩ := h
    cases h
    exact .anyTls _
  case http =>
    obtain ⟨path, -, headers, -, h⟩ := h
    cases h
    exact .http _
  case socks =>
    obtain ⟨_, -, version, -, h⟩ := h
    cases h
    exact .socks _

theorem makeProtocolOptions_shadowsocks {udpOverTcp : Option UdpOverTcpOptions}
    (h : makeProtocolOptions spec protocol = .ok (.shadowsocks udpOverTcp)) :
    protocol = .shadowsocks ∧ udpOverTcp = spec.udpOverTcp := by
  cases makeProtocolOptions_for h
  cases h
  exact ⟨rfl, rfl⟩

theorem makeProtocolOptions_http {options : HttpOptions}
    (h : makeProtocolOptions spec protocol = .ok (.http options)) :
    ∀ e ∈ options.headers.entries, validHeader (e.1, e.2.expose) := by
  cases makeProtocolOptions_for h
  simp only [makeProtocolOptions, bind_eq_ok] at h
  obtain ⟨path, -, headers, hheaders, h⟩ := h
  cases h
  obtain ⟨hvalues, hvalid⟩ := mapHttpHeaders_eq_ok hheaders
  intro e he
  apply hvalid
  rw [← hvalues]
  exact List.mem_map_of_mem he

/-! ## The whole node -/

/-- An empty password where the protocol needs one. -/
def Credentials.lacksPassword : Credentials → Bool
  | .shadowsocks _ password _ | .trojan password | .hysteria2 password _ | .anyTls password
  | .tuic _ password => password.expose == ""
  | _ => false

def Credentials.supported : Credentials → Bool
  | .shadowsocks method _ plugin =>
    shadowsocksMethods.contains method.value &&
      plugin.all fun plugin =>
        let options := plugin.options.mapValues (·.value)
        if plugin.name.value = "obfs-local" then obfsLocalAccepts options
        else if plugin.name.value = "v2ray-plugin" then v2rayPluginAccepts options
        else false
  | .vmess _ _ security => vmessSecurities.contains security.value
  | _ => true

def ProxyNode.validate (node : UnvalidatedNode) (matrix : CapabilityMatrix) :
    Except NodeValidationError ProxyNode := do
  ensure (node.protocol == node.credentials.protocol) .credentialProtocolMismatch
  ensure (node.sourceRefs.length ≤ 64) .tooManySourceRefs
  ensure (!node.credentials.lacksPassword) .emptyCredential
  ensure (node.transport.kind != .quic || node.tls.enabled) .invalidTlsCombination
  ensure (!(node.protocol == .hysteria2 || node.protocol == .tuic) ||
    node.transport.kind == .quic) .unsupportedTransport
  ensure (!(node.protocol == .trojan || node.protocol == .anyTls) || node.tls.enabled)
    .invalidTlsCombination
  ensure (node.tls.reality.isNone || (node.protocol == .vless && node.tls.enabled))
    .invalidTlsCombination
  ensure node.credentials.supported .unsupportedSemantics
  let query := CapabilityQuery.fromNode node
  ensure (matrix.supports query) (.unsupportedCapability query.display)
  let nodeId ← (BoundedText.new (node.protocol.asStr ++ "-" ++
    toString node.endpoint.port.toNat) 128).mapError fun _ => .unsupportedCapability "node_id"
  return { nodeId := nodeId, inner := node }

inductive Severity where
  | info
  | warning
  | error

inductive DiagnosticCode where
  | insecureTls
  | unknownField

structure NodeDiagnostic where
  code : DiagnosticCode
  severity : Severity
  location : Option SourceLocation
  protocol : Option ProxyProtocol
  parameters : SortedMap String String

structure SemanticOutcome where
  node : ProxyNode
  warnings : List NodeDiagnostic

def foreignSettings (spec : NodeSpec) (protocol : ProxyProtocol) : Bool :=
  (protocol != .hysteria2 &&
    (!spec.serverPorts.isEmpty || spec.hopInterval.isSome || spec.upMbps.isSome ||
      spec.downMbps.isSome)) ||
  (protocol != .tuic &&
    (spec.congestionControl.isSome || spec.udpRelayMode.isSome || spec.udpOverStream ||
      spec.zeroRttHandshake || spec.heartbeat.isSome)) ||
  (protocol != .anyTls &&
    (spec.idleSessionCheckInterval.isSome || spec.idleSessionTimeout.isSome ||
      spec.minIdleSession.isSome)) ||
  (protocol != .http && (spec.httpPath.isSome || !spec.httpHeaders.isEmpty)) ||
  (protocol != .socks && spec.socksVersion.isSome)

def warningsOf (spec : NodeSpec) (protocol : ProxyProtocol) : List NodeDiagnostic :=
  (if spec.insecure then
    [{ code := .insecureTls, severity := .warning, location := spec.location,
       protocol := some protocol, parameters := .empty }]
   else []) ++
  if spec.unknownHarmlessFields > 0 then
    [{ code := .unknownField, severity := .warning, location := spec.location,
       protocol := some protocol,
       parameters := .collect [("count", toString spec.unknownHarmlessFields)] }]
  else []

def validateNodeSpec (uuids : UuidCrate) (spec : NodeSpec) (matrix : CapabilityMatrix) :
    Except SemanticError SemanticOutcome := do
  ensure spec.unknownCriticalField.isNone .unsupportedSemantics
  let protocol ← okOr (ProxyProtocol.fromStr spec.protocol) .unsupportedProtocol
  ensure (!foreignSettings spec protocol) .unsupportedSemantics
  ensure (!(protocol == .socks && spec.tls)) .invalidTlsCombination
  ensure (!(protocol == .hysteria2 && !validServerPorts spec.serverPorts)) .unsupportedSemantics
  let tls ← makeTls spec protocol
  let credentials ← makeCredentials uuids spec protocol
  let endpoint ← (Endpoint.new spec.server spec.port).mapError fun _ => .invalidEndpoint
  let transport ← makeTransport protocol spec.transport spec.path spec.hosts spec.serviceName
    spec.headers
  let protocolOptions ← makeProtocolOptions spec protocol
  ensure (spec.udpOverTcp.isNone || protocol == .shadowsocks || protocol == .socks)
    .unsupportedSemantics
  ensure (spec.congestionControl.all fun congestion =>
    protocol == .tuic && ["bbr", "cubic", "new_reno"].contains congestion) .unsupportedSemantics
  let displayName ← text (spec.displayName.getD (protocol.asStr ++ "-" ++ endpoint.server ++ ":" ++
    toString endpoint.port.toNat)) 256 .unsupportedSemantics
  let overQuic := protocol == .hysteria2 || protocol == .tuic
  let node ← (ProxyNode.validate
    { displayName := displayName
      protocol := protocol
      endpoint := endpoint
      credentials := credentials
      tls := tls
      transport := transport
      protocolOptions := protocolOptions
      capabilities := { tcp := !overQuic, udp := spec.udp || overQuic, ipv6 := false,
                        quic := overQuic, tls := spec.tls }
      sourceRefs := spec.sourceRef.toList } matrix).mapError mapValidationError
  return { node := node, warnings := warningsOf spec protocol }

structure Built (uuids : UuidCrate) (spec : NodeSpec) (node : UnvalidatedNode) : Prop where
  protocol : ProxyProtocol.fromStr spec.protocol = some node.protocol
  tls : makeTls spec node.protocol = .ok node.tls
  credentials : makeCredentials uuids spec node.protocol = .ok node.credentials
  endpoint : Endpoint.new spec.server spec.port = .ok node.endpoint
  transport : makeTransport node.protocol spec.transport spec.path spec.hosts spec.serviceName
    spec.headers = .ok node.transport
  protocolOptions : makeProtocolOptions spec node.protocol = .ok node.protocolOptions
  udp : node.capabilities.udp =
    (spec.udp || node.protocol == .hysteria2 || node.protocol == .tuic)
  overQuic : node.protocol = .hysteria2 ∨ node.protocol = .tuic → node.transport.kind = .quic

theorem ProxyNode.validate_eq_ok {node : UnvalidatedNode} {accepted : ProxyNode}
    (h : ProxyNode.validate node matrix = .ok accepted) :
    accepted.inner = node ∧ matrix.supports (.fromNode node) = true ∧
      (node.protocol = .hysteria2 ∨ node.protocol = .tuic → node.transport.kind = .quic) := by
  simp only [ProxyNode.validate, bind_eq_ok, ensure_eq_ok] at h
  obtain ⟨-, -, -, -, -, -, -, -, -, hquic, -, -, -, -, -, -, -, hsupports, id, -, h⟩ := h
  cases h
  refine ⟨rfl, hsupports, fun hprotocol => ?_⟩
  rcases hprotocol with hprotocol | hprotocol <;> simpa [hprotocol] using hquic

theorem validateNodeSpec_eq_ok {outcome : SemanticOutcome}
    (h : validateNodeSpec uuids spec matrix = .ok outcome) : Built uuids spec outcome.node.inner ∧
      matrix.supports (.fromNode outcome.node.inner) = true := by
  simp only [validateNodeSpec, bind_eq_ok, ensure_eq_ok, okOr_eq_ok, mapError_eq_ok] at h
  obtain ⟨-, -, protocol, hprotocol, -, -, -, -, -, -, tls, htls, credentials, hcredentials,
    endpoint, hendpoint, transport, htransport, options, hoptions, -, -, -, -, name, -, node,
    hnode, h⟩ := h
  cases h
  obtain ⟨hinner, hsupports, hquic⟩ := ProxyNode.validate_eq_ok hnode
  rw [hinner]
  exact ⟨⟨hprotocol, htls, hcredentials, hendpoint, htransport, hoptions,
    (Bool.or_assoc _ _ _).symm, hquic⟩, hsupports⟩

theorem CapabilityMatrix.mem_of_default_supports {query : CapabilityQuery}
    (h : CapabilityMatrix.default.supports query = true) : query ∈ manifestShapes := by
  rw [CapabilityMatrix.supports, CapabilityMatrix.default, List.any_map, List.any_eq_true] at h
  obtain ⟨shape, hshape, h⟩ := h
  have hsame : shape = query := by simpa using h
  exact hsame ▸ hshape

end NetHop.Node
