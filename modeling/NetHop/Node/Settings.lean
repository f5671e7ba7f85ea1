import NetHop.Node.Fingerprint

/-!
# Settings that count

Two accepted specifications that differ in one setting only.  Their canonical forms differ
exactly when the protocol or the transport of the node uses that setting; a setting that
is not used is not always refused.
-/

namespace NetHop.Node

open Framing List TransportOptions Except SortedMap NodeSpec

variable {uuids : UuidCrate} {a b : NodeSpec} {na nb : UnvalidatedNode}

inductive Setting where
  | path
  | hosts
  | serviceName
  | headers
  | flow
  | method
  | plugin
  | pluginOptions
  | obfs
  | obfsPassword
  | password

open Setting

/-- One setting of `b` put into `a`. -/
def Setting.copy (s : Setting) (b a : NodeSpec) : NodeSpec :=
  match s with
  | path => { a with path := b.path }
  | hosts => { a with hosts := b.hosts }
  | serviceName => { a with serviceName := b.serviceName }
  | headers => { a with headers := b.headers }
  | flow => { a with flow := b.flow }
  | method => { a with method := b.method }
  | plugin => { a with plugin := b.plugin }
  | pluginOptions => { a with pluginOptions := b.pluginOptions }
  | obfs => { a with obfs := b.obfs }
  | obfsPassword => { a with obfsPassword := b.obfsPassword }
  | password => { a with password := b.password }

def Setting.Differs (s : Setting) (a b : NodeSpec) : Prop := b = s.copy b a ∧ a ≠ b

/-! ## Parts of the canonical form -/

/-- The nodes agree in the parts that none of the settings belongs to. -/
structure Agree (a b : UnvalidatedNode) : Prop where
  protocol : b.protocol = a.protocol
  endpoint : b.endpoint = a.endpoint
  tls : b.tls = a.tls
  udp : b.capabilities.udp = a.capabilities.udp

section

variable {a b : UnvalidatedNode}

theorem encodeFields_eq_iff_transport (h : Agree a b) (hcredentials : b.credentials = a.credentials)
    (hoptions : b.protocolOptions = a.protocolOptions) :
    encodeFields (canonicalFields a) = encodeFields (canonicalFields b) ↔
      encodeFields (encodeTransport a.transport) = encodeFields (encodeTransport b.transport) := by
  simp [canonicalFields, h.protocol, h.endpoint, h.tls, h.udp, hcredentials, hoptions]

theorem encodeFields_eq_iff_options (h : Agree a b) (hcredentials : b.credentials = a.credentials)
    (htransport : b.transport = a.transport) :
    encodeFields (canonicalFields a) = encodeFields (canonicalFields b) ↔
      encodeFields (encodeProtocolOptions a.protocolOptions) =
        encodeFields (encodeProtocolOptions b.protocolOptions) := by
  simp [canonicalFields, h.protocol, h.endpoint, h.tls, h.udp, hcredentials, htransport]

end

section

theorem Built.agree (ha : Built uuids a na) (hb : Built uuids b nb)
    (hprotocol : b.protocol = a.protocol)
    (hendpoint : Endpoint.new b.server b.port = Endpoint.new a.server a.port)
    (htls : ∀ p, makeTls b p = makeTls a p) (hudp : b.udp = a.udp) : Agree na nb := by
  have hsame : nb.protocol = na.protocol := by
    have hparse := hb.protocol
    rw [hprotocol, ha.protocol] at hparse
    exact (Option.some_inj.mp hparse).symm
  have hplace := hb.endpoint
  rw [hendpoint, ha.endpoint] at hplace
  have hsecure := hb.tls
  rw [htls, hsame, ha.tls] at hsecure
  exact ⟨hsame, (ok.inj hplace).symm, (ok.inj hsecure).symm, by rw [hb.udp, ha.udp, hudp, hsame]⟩

theorem Agree.made_eq {α : Type} {f : ProxyProtocol → Except SemanticError α} {x y : α}
    (h : Agree na nb) (hx : f na.protocol = .ok x) (hy : f nb.protocol = .ok y) : y = x := by
  rw [h.protocol, hx] at hy
  exact (ok.inj hy).symm

end

/-! ## Transports -/

/-- What a transport of this kind takes from the settings is the same. -/
def sameTransport (kind : TransportKind) (a b : NodeSpec) : Prop :=
  match kind with
  | .tcp | .quic => True
  | .webSocket | .httpUpgrade =>
    a.path.getD "/" = b.path.getD "/" ∧ withHost a.hosts a.headers = withHost b.hosts b.headers
  | .http => a.path.getD "/" = b.path.getD "/" ∧ a.hosts = b.hosts
  | .grpc => a.serviceName.getD "grpc" = b.serviceName.getD "grpc"

abbrev TransportFrom (a : NodeSpec) (t : TransportOptions) : Prop :=
  TransportOf a.path a.hosts a.serviceName a.headers t

theorem mapValues_value_inj {max : Nat} {m m' : SortedMap String (BoundedText max)}
    (h : m.mapValues (·.value) = m'.mapValues (·.value)) : m = m' :=
  encodeHeaders_inj (congrArg entries h)

section

variable {p p' : BoundedText (8 * 1024)} {m m' : SortedMap String (BoundedText (8 * 1024))}

theorem pathAndHeaders_eq_iff (h : pathAndHeaders a.path a.hosts a.headers = .ok (p, m))
    (h' : pathAndHeaders b.path b.hosts b.headers = .ok (p', m')) :
    p = p' ∧ m = m' ↔ a.path.getD "/" = b.path.getD "/" ∧
      withHost a.hosts a.headers = withHost b.hosts b.headers := by
  obtain ⟨hpath, hheaders, -⟩ := pathAndHeaders_eq_ok h
  obtain ⟨hpath', hheaders', -⟩ := pathAndHeaders_eq_ok h'
  rw [← hpath, ← hpath', ← hheaders, ← hheaders']
  constructor
  · rintro ⟨rfl, rfl⟩
    exact ⟨rfl, rfl⟩
  · rintro ⟨hp, hm⟩
    exact ⟨BoundedText.ext hp, mapValues_value_inj hm⟩

theorem TransportOf.eq_iff {t t' : TransportOptions} (h : TransportFrom a t)
    (h' : TransportFrom b t') (hkind : t'.kind = t.kind) : t = t' ↔ sameTransport t.kind a b := by
  cases h <;> cases h' <;> cases hkind
  case webSocket hpair _ _ hpair' =>
    rw [webSocket.injEq]
    exact pathAndHeaders_eq_iff hpair hpair'
  case httpUpgrade hpair _ _ hpair' =>
    rw [httpUpgrade.injEq]
    exact pathAndHeaders_eq_iff hpair hpair'
  case http hpath hhosts _ _ hpath' hhosts' =>
    simp [sameTransport, kind, ← hpath, ← hpath', ← hhosts, ← hhosts',
      (map_injective_iff.mpr fun _ _ => BoundedText.ext).eq_iff]
  case grpc hservice _ _ hservice' =>
    simp [sameTransport, kind, ← hservice, ← hservice']
  all_goals exact iff_of_true rfl trivial

end

/-- The settings of the transport put into another specification. -/
abbrev NodeSpec.withTransport (a b : NodeSpec) : NodeSpec :=
  { a with path := b.path, hosts := b.hosts, serviceName := b.serviceName, headers := b.headers }

theorem encodeFields_eq_iff_sameTransport
    (ha : Built uuids a na) (hb : Built uuids b nb) (hrest : b = a.withTransport b) :
    nb.transport.kind = na.transport.kind ∧
      (encodeFields (canonicalFields na) = encodeFields (canonicalFields nb) ↔
        sameTransport na.transport.kind a b) := by
  obtain ⟨hof, hkind⟩ := makeTransport_eq_ok ha.transport
  obtain ⟨hof', hkind'⟩ := makeTransport_eq_ok hb.transport
  rw [hrest] at hb hkind'
  have hagree : Agree na nb := ha.agree hb rfl rfl (fun _ => rfl) rfl
  rw [hagree.protocol, hkind, Option.some_inj] at hkind'
  rw [encodeFields_eq_iff_transport hagree (hagree.made_eq ha.credentials hb.credentials)
    (hagree.made_eq ha.protocolOptions hb.protocolOptions),
    ← TransportOf.eq_iff hof hof' hkind'.symm]
  refine ⟨hkind'.symm, fun heq => ?_, fun heq => by rw [heq]⟩
  have hfields := encodeFields_inj (fits_encodeTransport hof) (fits_encodeTransport hof') heq
  exact (encodeTransport_append_inj (o := .none) (u := "") (fun _ => rfl) (by rw [hfields])).1

theorem withHost_inj {hosts hosts' : List String} {headers : SortedMap String String}
    (hnames : namesHost headers = false) (hlength : hosts.length ≤ 1) (hlength' : hosts'.length ≤ 1)
    (h : withHost hosts headers = withHost hosts' headers) : hosts = hosts' := by
  have hget : headers.get? "Host" = none := by
    rw [get?, lookup_eq_none_iff]
    intro e he
    have hkey : (Text.asciiLower e.1 == "host") = false := by
      rw [namesHost, any_eq_false] at hnames
      simpa using hnames e.1 (mem_map_of_mem he)
    rw [bne_iff_ne]
    intro heq
    rw [← heq] at hkey
    exact absurd hkey (by decide)
  have hread (l : List String) : (withHost l headers).get? "Host" = l.head? := by
    cases l with
    | nil => exact hget
    | cons host l =>
      rw [withHost, hnames, if_neg Bool.false_ne_true, get?_insert]
      rfl
  have hhead : hosts.head? = hosts'.head? := by rw [← hread, h, hread]
  rcases hosts with _ | ⟨host, _ | _⟩ <;> rcases hosts' with _ | ⟨host', _ | _⟩ <;> simp_all

/-! ## Credentials -/

theorem encodeFields_value_inj {name v v' : String} {fields : List (String × String)}
    (h : encodeFields ((name, v) :: fields) = encodeFields ((name, v') :: fields)) : v = v' := by
  simp only [encodeFields_cons, field, append_assoc, append_cancel_left_eq] at h
  exact textBytes_inj (frame_append_cancel h)

theorem encodeFields_tail_inj {f : String × String} {fields fields' : List (String × String)}
    (h : encodeFields (f :: fields) = encodeFields (f :: fields')) :
    encodeFields fields = encodeFields fields' := append_cancel_left h

variable {spec : NodeSpec}

theorem requiredPassword_eq_ok {password : SecretString}
    (h : requiredPassword spec = .ok password) : spec.password = some password.expose := by
  rw [requiredPassword, okOr_eq_ok] at h
  obtain ⟨value, hvalue, rfl⟩ := Option.map_eq_some_iff.mp h
  exact (Option.filter_eq_some_iff.mp hvalue).1

theorem optionalUserPassword_eq_ok {pair : Option SecretString × Option SecretString}
    (h : optionalUserPassword spec = .ok pair) :
    spec.username = pair.1.map (·.expose) ∧ spec.password = pair.2.map (·.expose) := by
  unfold optionalUserPassword at h
  split at h
  next huser hpassword =>
    cases h
    exact ⟨huser, hpassword⟩
  next username password huser hpassword =>
    obtain ⟨_, -, h⟩ := bind_eq_ok.mp h
    cases h
    exact ⟨huser, hpassword⟩
  · cases h

theorem makeObfs_eq_ok {obfs : Option Hysteria2Obfs} (h : makeObfs spec = .ok obfs) :
    spec.obfs = obfs.map (fun _ => "salamander") ∧
      spec.obfsPassword = obfs.map (·.password.expose) ∧
      ∀ o ∈ obfs, o.kind.value = "salamander" := by
  unfold makeObfs at h
  split at h
  next hobfs hpassword =>
    cases h
    exact ⟨hobfs, hpassword, fun o ho => absurd ho (by simp)⟩
  next name password hobfs hpassword =>
    simp only [bind_eq_ok, ensure_eq_ok, text_eq_ok, Bool.and_eq_true, beq_iff_eq] at h
    obtain ⟨_, ⟨hname, -⟩, kind, hkind, h⟩ := h
    cases h
    refine ⟨by rw [hobfs, hname]; rfl, hpassword, fun o ho => ?_⟩
    cases ho
    exact hkind
  · cases h

variable {options : SortedMap String String}

theorem namedPlugin_name {name : String} {plugin : PluginSpec}
    (h : namedPlugin name options = .ok plugin) : plugin.name.value = name := by
  simp only [namedPlugin, bind_eq_ok, text_eq_ok] at h
  obtain ⟨bounded, -, text, htext, h⟩ := h
  cases h
  exact htext

theorem makePlugin_name {plugin : Option PluginSpec} (h : makePlugin spec = .ok plugin) :
    spec.plugin = plugin.map (·.name.value) ∧
      (plugin = none → spec.pluginOptions.entries = []) := by
  unfold makePlugin at h
  cases hname : spec.plugin with
  | none =>
    simp only [hname, bind_eq_ok, ensure_eq_ok] at h
    obtain ⟨_, hempty, h⟩ := h
    cases h
    exact ⟨rfl, fun _ => isEmpty_iff.mp hempty⟩
  | some name =>
    simp only [hname] at h
    split_ifs at h with hobfs hv2ray
    · simp only [bind_eq_ok] at h
      obtain ⟨-, -, plugin, hplugin, h⟩ := h
      cases h
      exact ⟨by rw [Option.map_some, namedPlugin_name hplugin, hobfs], by simp⟩
    · simp only [bind_eq_ok] at h
      obtain ⟨-, -, -, -, -, -, plugin, hplugin, h⟩ := h
      cases h
      exact ⟨by rw [Option.map_some, namedPlugin_name hplugin, hv2ray], by simp⟩

theorem encodeCredentials_plugin (method : BoundedText 64) (password : SecretString)
    (plugin : PluginSpec) : encodeCredentials (.shadowsocks method password (some plugin)) =
      [("method", method.value), ("password", password.expose), ("plugin", plugin.name.value),
       ("plugin_opts", pluginOptions plugin)] := rfl

theorem encodeCredentials_obfs (password : SecretString) (obfs : Hysteria2Obfs) :
    encodeCredentials (.hysteria2 password (some obfs)) =
      [("password", password.expose), ("obfs", obfs.kind.value),
       ("obfs_password", obfs.password.expose)] := rfl

/-! ## One setting -/

def NodeSpec.hasProtocol (spec : NodeSpec) (protocols : List ProxyProtocol) : Bool :=
  (ProxyProtocol.fromStr spec.protocol).any fun protocol => protocols.contains protocol

/-- The transport, or the one the protocol has by default, is among those of the list. -/
def NodeSpec.hasTransport (spec : NodeSpec) (kinds : List TransportKind) : Bool :=
  (ProxyProtocol.fromStr spec.protocol).any fun protocol =>
    (TransportKind.fromStr (spec.transport.getD (defaultTransport protocol))).any fun kind =>
      kinds.contains kind

/-- The setting is one the node uses, and the two values of it do not mean the same. -/
def Setting.Counts (s : Setting) (a b : NodeSpec) : Prop :=
  match s with
  | path => a.hasTransport [.webSocket, .httpUpgrade, .http] = true ∧
      a.path.getD "/" ≠ b.path.getD "/"
  | hosts => a.hasTransport [.http] = true ∨
      a.hasTransport [.webSocket, .httpUpgrade] = true ∧ namesHost a.headers = false
  | serviceName => a.hasTransport [.grpc] = true ∧
      a.serviceName.getD "grpc" ≠ b.serviceName.getD "grpc"
  | headers => a.hasTransport [.webSocket, .httpUpgrade] = true ∧
      withHost a.hosts a.headers ≠ withHost b.hosts b.headers
  | flow => a.hasProtocol [.vless] = true
  | method | plugin => a.hasProtocol [.shadowsocks] = true
  | pluginOptions => a.hasProtocol [.shadowsocks] = true ∧
      joinOptions a.pluginOptions ≠ joinOptions b.pluginOptions
  | obfs | obfsPassword => a.hasProtocol [.hysteria2] = true
  | password => a.hasProtocol [.vless, .vmess] = false

section

theorem Built.hasProtocol_eq (ha : Built uuids a na) (protocols : List ProxyProtocol) :
    a.hasProtocol protocols = protocols.contains na.protocol := by
  rw [hasProtocol, ha.protocol, Option.any_some]

theorem Built.hasTransport_eq (ha : Built uuids a na) (kinds : List TransportKind) :
    a.hasTransport kinds = kinds.contains na.transport.kind := by
  rw [hasTransport, ha.protocol, Option.any_some, (makeTransport_eq_ok ha.transport).2,
    Option.any_some]

/-- The bytes are the same exactly when the setting does not count. -/
abbrev SameUnless (s : Setting) (a b : NodeSpec) (na nb : UnvalidatedNode) : Prop :=
  encodeFields (canonicalFields na) = encodeFields (canonicalFields nb) ↔ ¬s.Counts a b

variable {x : Option String}

theorem TransportOf.hosts_le {path serviceName : Option String} {hosts : List String}
    {headers : SortedMap String String} {t : TransportOptions}
    (h : TransportOf path hosts serviceName headers t) :
    (t.kind ∈ [.tcp, .quic, .grpc] → hosts = []) ∧
      (t.kind ∈ [.webSocket, .httpUpgrade] → hosts.length ≤ 1) := by
  cases h with
  | tcp _ hhosts | quic _ hhosts | grpc hhosts => simp [hhosts]
  | webSocket hpair | httpUpgrade hpair => simp [kind, (pathAndHeaders_eq_ok hpair).2.2.1]
  | http => simp [kind]

theorem hosts_counts {x : List String} (ha : Built uuids a na)
    (hb : Built uuids { a with hosts := x } nb) (hne : a.hosts ≠ x) :
    SameUnless .hosts a { a with hosts := x } na nb := by
  obtain ⟨hkind, hiff⟩ := encodeFields_eq_iff_sameTransport ha hb rfl
  obtain ⟨hempty, hone⟩ := TransportOf.hosts_le (makeTransport_eq_ok ha.transport).1
  obtain ⟨hempty', hone'⟩ : (nb.transport.kind ∈ [.tcp, .quic, .grpc] → x = []) ∧
      (nb.transport.kind ∈ [.webSocket, .httpUpgrade] → x.length ≤ 1) :=
    TransportOf.hosts_le (makeTransport_eq_ok hb.transport).1
  rw [hkind] at hempty' hone'
  rw [SameUnless, hiff, Setting.Counts, ha.hasTransport_eq, ha.hasTransport_eq]
  have hheader (h : na.transport.kind ∈ [.webSocket, .httpUpgrade]) :
      withHost a.hosts a.headers = withHost x a.headers ↔ namesHost a.headers = true := by
    constructor
    · intro heq
      by_contra hnames
      exact hne (withHost_inj (eq_false_of_ne_true hnames) (hone h) (hone' h) heq)
    · intro hnames
      have hkeep (l : List String) : withHost l a.headers = a.headers := by
        cases l with
        | nil => rfl
        | cons host l => rw [withHost, if_pos hnames]
      rw [hkeep, hkeep]
  generalize na.transport.kind = kind at hempty hempty' hheader ⊢
  cases kind with
  | tcp | quic | grpc => exact absurd ((hempty (by simp)).trans (hempty' (by simp)).symm) hne
  | webSocket | httpUpgrade => simpa [sameTransport] using hheader (by simp)
  | http => simpa [sameTransport] using hne

theorem flow_counts (ha : Built uuids a na) (hb : Built uuids { a with flow := x } nb)
    (hne : a.flow ≠ x) : SameUnless .flow a { a with flow := x } na nb := by
  have hagree : Agree na nb := ha.agree hb rfl rfl (fun _ => rfl) rfl
  rw [SameUnless, encodeFields_eq_iff_options hagree (hagree.made_eq ha.credentials hb.credentials)
    (hagree.made_eq (f := (makeTransport · _ _ _ _ _)) ha.transport hb.transport), Setting.Counts,
    ha.hasProtocol_eq]
  have hoptions := ha.protocolOptions
  have hoptions' := hb.protocolOptions
  rw [hagree.protocol] at hoptions'
  generalize na.protocol = protocol at hoptions hoptions'
  cases protocol with
  | vless =>
    obtain ⟨flow, hflow, hmade⟩ := bind_eq_ok.mp hoptions
    obtain ⟨flow', hflow', hmade'⟩ := bind_eq_ok.mp hoptions'
    rw [← ok.inj hmade, ← ok.inj hmade']
    refine iff_of_false (fun heq => hne ?_) (by simp)
    have hsame := orEmpty_inj.mp (encodeFields_value_inj heq)
    rw [← optionalText_eq_ok.mp hflow, hsame]
    exact optionalText_eq_ok.mp hflow'
  | _ =>
    rw [ok.inj (hoptions.symm.trans hoptions')]
    simp

section

-- the two specifications differ in settings of the credentials only
variable (ha : Built uuids a na) (hb : Built uuids b nb)
  (hrest : b = { a with method := b.method, plugin := b.plugin, pluginOptions := b.pluginOptions,
                        obfs := b.obfs, obfsPassword := b.obfsPassword, password := b.password })

include ha hb hrest

theorem encodeFields_eq_iff_encodeCredentials : nb.protocol = na.protocol ∧
      (encodeFields (canonicalFields na) = encodeFields (canonicalFields nb) ↔
        encodeFields (encodeCredentials na.credentials) =
          encodeFields (encodeCredentials nb.credentials)) := by
  rw [hrest] at hb
  have hagree : Agree na nb := ha.agree hb rfl rfl (fun _ => rfl) rfl
  have htransport := hagree.made_eq (f := (makeTransport · _ _ _ _ _)) ha.transport hb.transport
  have hoptions := hagree.made_eq ha.protocolOptions hb.protocolOptions
  refine ⟨hagree.protocol, ?_⟩
  simp [canonicalFields, hagree.protocol, hagree.endpoint, hagree.tls, hagree.udp, htransport,
    hoptions]

variable {p : ProxyProtocol}

theorem credentials_counts {Q : Prop} (hplain : PlainProxy a → ¬PlainProxy b)
    (hother : ∀ q, q ≠ p → q ≠ .http → q ≠ .socks →
      makeCredentials uuids b q = makeCredentials uuids a q)
    (huses : CredentialsOf uuids a p na.credentials → CredentialsOf uuids b p nb.credentials →
      (encodeFields (encodeCredentials na.credentials) =
        encodeFields (encodeCredentials nb.credentials) ↔ ¬Q)) :
    encodeFields (canonicalFields na) = encodeFields (canonicalFields nb) ↔
      ¬(a.hasProtocol [p] = true ∧ Q) := by
  obtain ⟨hprotocol, hiff⟩ := encodeFields_eq_iff_encodeCredentials ha hb hrest
  have hmade := hb.credentials
  obtain ⟨hof, hproxy⟩ := makeCredentials_eq_ok ha.credentials
  obtain ⟨hof', hproxy'⟩ := makeCredentials_eq_ok hb.credentials
  rw [hprotocol] at hof' hproxy' hmade
  rw [hiff, ha.hasProtocol_eq]
  by_cases hp : na.protocol = p
  · rw [hp] at hof hof'
    simpa [hp] using huses hof hof'
  · have hne : ¬(na.protocol = .http ∨ na.protocol = .socks) := fun h =>
      hplain (hproxy h) (hproxy' h)
    rw [not_or] at hne
    rw [hother _ hp hne.1 hne.2, ha.credentials] at hmade
    simp [hp, ok.inj hmade]

theorem credentials_used (hplain : PlainProxy a → ¬PlainProxy b)
    (hother : ∀ q, q ≠ p → q ≠ .http → q ≠ .socks →
      makeCredentials uuids b q = makeCredentials uuids a q)
    (huses : CredentialsOf uuids a p na.credentials → CredentialsOf uuids b p nb.credentials →
      encodeFields (encodeCredentials na.credentials) ≠
        encodeFields (encodeCredentials nb.credentials)) :
    encodeFields (canonicalFields na) = encodeFields (canonicalFields nb) ↔
      ¬a.hasProtocol [p] = true := by
  have hiff := credentials_counts ha hb hrest hplain hother fun hof hof' =>
    iff_of_false (huses hof hof') (not_not_intro trivial)
  rwa [and_true] at hiff

end

theorem CredentialsOf.of_shadowsocks {c : Credentials} (h : CredentialsOf uuids a .shadowsocks c) :
    ∃ method password plugin, c = .shadowsocks method password plugin ∧
      a.method = some method.value ∧ makePlugin a = .ok plugin ∧
      requiredPassword a = .ok password := by
  cases h with
  | shadowsocks hmethod hplugin hpassword => exact ⟨_, _, _, rfl, hmethod, hplugin, hpassword⟩

theorem CredentialsOf.of_hysteria2 {c : Credentials} (h : CredentialsOf uuids a .hysteria2 c) :
    ∃ password obfs, c = .hysteria2 password obfs ∧ makeObfs a = .ok obfs ∧
      requiredPassword a = .ok password := by
  cases h with
  | hysteria2 hobfs hpassword => exact ⟨_, _, rfl, hobfs, hpassword⟩

theorem makeCredentials_of_ne_shadowsocks {method plugin : Option String}
    (q : ProxyProtocol) (hq : q ≠ .shadowsocks)
    (hhttp : q ≠ .http) (hsocks : q ≠ .socks) :
    makeCredentials uuids
        { a with method := method, plugin := plugin, pluginOptions := options } q =
      makeCredentials uuids a q := by
  cases q <;> first | rfl | contradiction

theorem makeCredentials_of_ne_hysteria2 {obfs obfsPassword : Option String} (q : ProxyProtocol)
    (hq : q ≠ .hysteria2) (hhttp : q ≠ .http) (hsocks : q ≠ .socks) :
    makeCredentials uuids { a with obfs := obfs, obfsPassword := obfsPassword } q =
      makeCredentials uuids a q := by
  cases q <;> first | rfl | contradiction

variable (ha : Built uuids a na)

include ha

theorem method_counts (hb : Built uuids { a with method := x } nb)
    (hne : a.method ≠ x) : SameUnless .method a { a with method := x } na nb := by
  refine credentials_used ha hb rfl (fun h h' => hne (h.1.trans h'.1.symm))
    makeCredentials_of_ne_shadowsocks fun hof hof' heq => hne ?_
  obtain ⟨method, password, plugin, hc, hmethod, hplugin, hpassword⟩ := hof.of_shadowsocks
  obtain ⟨method', password', plugin', hc', hmethod', hplugin', hpassword'⟩ := hof'.of_shadowsocks
  rw [hc, hc', ok.inj (hplugin.symm.trans hplugin'),
    ok.inj (hpassword.symm.trans hpassword')] at heq
  rw [hmethod, encodeFields_value_inj heq]
  exact hmethod'.symm

theorem plugin_counts (hb : Built uuids { a with plugin := x } nb)
    (hne : a.plugin ≠ x) : SameUnless .plugin a { a with plugin := x } na nb := by
  refine credentials_used ha hb rfl (fun h h' => hne (h.2.1.trans h'.2.1.symm))
    makeCredentials_of_ne_shadowsocks fun hof hof' heq => hne ?_
  obtain ⟨method, password, plugin, hc, hmethod, hplugin, hpassword⟩ := hof.of_shadowsocks
  obtain ⟨method', password', plugin', hc', hmethod', hplugin', hpassword'⟩ := hof'.of_shadowsocks
  obtain ⟨hname, hnone⟩ := makePlugin_name hplugin
  obtain ⟨hname', hnone'⟩ := makePlugin_name hplugin'
  have hx : x = plugin'.map (·.name.value) := hname'
  rw [hname, hx]
  rcases plugin with _ | plugin <;> rcases plugin' with _ | plugin'
  · rfl
  · exact absurd (hnone rfl) (makePlugin_eq_ok hplugin').2.2
  · exact absurd (hnone' rfl) (makePlugin_eq_ok hplugin).2.2
  · have hoptions : plugin.options = plugin'.options := mapValues_value_inj
      ((makePlugin_eq_ok hplugin).1.trans (makePlugin_eq_ok hplugin').1.symm)
    have hmethods := BoundedText.ext (Option.some_inj.mp (hmethod.symm.trans hmethod'))
    have htexts : pluginOptions plugin = pluginOptions plugin' := by
      rw [pluginOptions, pluginOptions, hoptions]
    rw [hc, hc', ok.inj (hpassword.symm.trans hpassword'), hmethods,
      encodeCredentials_plugin, encodeCredentials_plugin, htexts] at heq
    exact congrArg some (encodeFields_value_inj (encodeFields_tail_inj (encodeFields_tail_inj heq)))

theorem pluginOptions_counts {x : SortedMap String String}
    (hb : Built uuids { a with pluginOptions := x } nb) (hne : a.pluginOptions ≠ x) :
    SameUnless .pluginOptions a { a with pluginOptions := x } na nb := by
  refine credentials_counts ha hb rfl
    (fun h h' => hne (SortedMap.ext (h.2.2.1.trans h'.2.2.1.symm)))
    makeCredentials_of_ne_shadowsocks fun hof hof' => ?_
  obtain ⟨method, password, plugin, hc, hmethod, hplugin, hpassword⟩ := hof.of_shadowsocks
  obtain ⟨method', password', plugin', hc', hmethod', hplugin', hpassword'⟩ := hof'.of_shadowsocks
  obtain ⟨hname, hnone⟩ := makePlugin_name hplugin
  obtain ⟨hname', hnone'⟩ := makePlugin_name hplugin'
  have hmethods : method = method' :=
    BoundedText.ext (Option.some_inj.mp (hmethod.symm.trans hmethod'))
  have hnames : plugin.map (·.name.value) = plugin'.map (·.name.value) := hname.symm.trans hname'
  rcases plugin with _ | plugin <;> rcases plugin' with _ | plugin' <;> try cases hnames
  · exact absurd (SortedMap.ext ((hnone rfl).trans (hnone' rfl).symm)) hne
  · have hjoin : pluginOptions plugin = joinOptions a.pluginOptions :=
      congrArg joinOptions (makePlugin_eq_ok hplugin).1
    have hjoin' : pluginOptions plugin' = joinOptions x :=
      congrArg joinOptions (makePlugin_eq_ok hplugin').1
    have hsame : plugin.name.value = plugin'.name.value := Option.some_inj.mp hnames
    rw [not_not, hc, hc', hmethods, ok.inj (hpassword.symm.trans hpassword'),
      encodeCredentials_plugin, encodeCredentials_plugin, hsame, hjoin, hjoin']
    refine ⟨fun heq => ?_, fun heq => by rw [heq]⟩
    exact encodeFields_value_inj (encodeFields_tail_inj (encodeFields_tail_inj
      (encodeFields_tail_inj heq)))

theorem obfs_counts (hb : Built uuids { a with obfs := x } nb) (hne : a.obfs ≠ x) :
    SameUnless .obfs a { a with obfs := x } na nb := by
  refine credentials_used ha hb rfl (fun h h' => hne (h.2.2.2.1.trans h'.2.2.2.1.symm))
    makeCredentials_of_ne_hysteria2 fun hof hof' _ => hne ?_
  obtain ⟨password, obfs, -, hobfs, -⟩ := hof.of_hysteria2
  obtain ⟨password', obfs', -, hobfs', -⟩ := hof'.of_hysteria2
  obtain ⟨hname, hsecret, -⟩ := makeObfs_eq_ok hobfs
  obtain ⟨hname', hsecret', -⟩ := makeObfs_eq_ok hobfs'
  have hsecrets := hsecret.symm.trans hsecret'
  have hx : x = obfs'.map fun _ => "salamander" := hname'
  rw [hname, hx]
  cases obfs <;> cases obfs' <;> first | rfl | cases hsecrets

theorem obfsPassword_counts (hb : Built uuids { a with obfsPassword := x } nb)
    (hne : a.obfsPassword ≠ x) : SameUnless .obfsPassword a { a with obfsPassword := x } na nb := by
  refine credentials_used ha hb rfl (fun h h' => hne (h.2.2.2.2.trans h'.2.2.2.2.symm))
    makeCredentials_of_ne_hysteria2 fun hof hof' heq => hne ?_
  obtain ⟨password, obfs, hc, hobfs, hpassword⟩ := hof.of_hysteria2
  obtain ⟨password', obfs', hc', hobfs', hpassword'⟩ := hof'.of_hysteria2
  obtain ⟨hname, hsecret, hkind⟩ := makeObfs_eq_ok hobfs
  obtain ⟨hname', hsecret', hkind'⟩ := makeObfs_eq_ok hobfs'
  have hx : x = obfs'.map (·.password.expose) := hsecret'
  have hnames := hname.symm.trans hname'
  rw [hsecret, hx]
  rcases obfs with _ | obfs <;> rcases obfs' with _ | obfs' <;> try cases hnames
  · rfl
  · have hkinds := BoundedText.ext ((hkind _ rfl).trans (hkind' _ rfl).symm)
    rw [hc, hc', ok.inj (hpassword.symm.trans hpassword'), encodeCredentials_obfs,
      encodeCredentials_obfs, hkinds] at heq
    exact congrArg some (encodeFields_value_inj (encodeFields_tail_inj (encodeFields_tail_inj heq)))

theorem password_counts (hb : Built uuids { a with password := x } nb)
    (hne : a.password ≠ x) : SameUnless .password a { a with password := x } na nb := by
  obtain ⟨hprotocol, hiff⟩ := encodeFields_eq_iff_encodeCredentials ha hb rfl
  have hmade := ha.credentials
  have hmade' := hb.credentials
  rw [hprotocol] at hmade'
  have hof := (makeCredentials_eq_ok hmade).1
  have hof' := (makeCredentials_eq_ok hmade').1
  rw [SameUnless, hiff, Setting.Counts, ha.hasProtocol_eq]
  -- a password that is used stands in front of the same fields in both forms
  have hused {v v' : SecretString} {fields : List (String × String)}
      (hv : requiredPassword a = .ok v) (hv' : requiredPassword { a with password := x } = .ok v') :
      encodeFields (("password", v.expose) :: fields) ≠
        encodeFields (("password", v'.expose) :: fields) := by
    intro heq
    have hx : x = some v'.expose := requiredPassword_eq_ok hv'
    exact hne (by rw [requiredPassword_eq_ok hv, hx, encodeFields_value_inj heq])
  have hpair {v v' : Option SecretString × Option SecretString}
      (hv : optionalUserPassword a = .ok v)
      (hv' : optionalUserPassword { a with password := x } = .ok v') :
      encodeFields [("username", secretOrEmpty v.1), ("password", secretOrEmpty v.2)] ≠
        encodeFields [("username", secretOrEmpty v'.1), ("password", secretOrEmpty v'.2)] := by
    intro heq
    obtain ⟨hname, hsecret⟩ := optionalUserPassword_eq_ok hv
    obtain ⟨hname', hsecret'⟩ := optionalUserPassword_eq_ok hv'
    have hnames : secretOrEmpty v.1 = secretOrEmpty v'.1 := by
      rw [secretOrEmpty, secretOrEmpty, ← hname, ← hname']
    rw [hnames] at heq
    have hsame := secretOrEmpty_inj (optionalUserPassword_given hv).2
      (optionalUserPassword_given hv').2 (encodeFields_value_inj (encodeFields_tail_inj heq))
    have hx : x = v'.2.map (·.expose) := hsecret'
    exact hne (by rw [hsecret, hx, hsame])
  generalize na.protocol = protocol, na.credentials = c, nb.credentials = c' at *
  cases hof <;> cases hof'
  case vless huuid _ huuid' => simp [ok.inj (huuid.symm.trans huuid')]
  case vmess =>
    rw [ok.inj (hmade.symm.trans hmade')]
    simp
  all_goals refine iff_of_false ?_ (by simp)
  case shadowsocks hmethod hplugin hpassword _ _ _ hmethod' hplugin' hpassword' =>
    intro heq
    have hmethods := BoundedText.ext (Option.some_inj.mp (hmethod.symm.trans hmethod'))
    rw [ok.inj (hplugin.symm.trans hplugin'), hmethods] at heq
    exact hused hpassword hpassword' (encodeFields_tail_inj heq)
  case trojan hpassword _ hpassword' => exact hused hpassword hpassword'
  case anyTls hpassword _ hpassword' => exact hused hpassword hpassword'
  case hysteria2 hobfs hpassword _ _ hobfs' hpassword' =>
    rw [ok.inj (hobfs.symm.trans hobfs')]
    exact hused hpassword hpassword'
  case tuic huuid hpassword _ _ huuid' hpassword' =>
    intro heq
    rw [ok.inj (huuid.symm.trans huuid')] at heq
    exact hused hpassword hpassword' (encodeFields_tail_inj heq)
  case http hv _ hv' => exact hpair hv hv'
  case socks hv _ hv' => exact hpair hv hv'

end

/-! ## Every setting -/

/-- The canonical forms of two accepted specifications that differ in one setting differ
exactly when the node uses that setting. -/
theorem canonicalNodeBytes_ne_iff_counts {s : Setting} {a b : NodeSpec}
    {matrix : CapabilityMatrix} {outcome outcome' : SemanticOutcome}
    (ha : validateNodeSpec uuids a matrix = .ok outcome)
    (hb : validateNodeSpec uuids b matrix = .ok outcome') (hdiffers : s.Differs a b) :
    canonicalNodeBytes outcome.node ≠ canonicalNodeBytes outcome'.node ↔ s.Counts a b := by
  have ha := (validateNodeSpec_eq_ok ha).1
  have hb := (validateNodeSpec_eq_ok hb).1
  obtain ⟨hcopy, hne⟩ := hdiffers
  refine not_iff_comm.mp (.symm ?_)
  rw [hcopy] at hb hne ⊢
  cases s with
  | path | serviceName | headers =>
    rw [canonicalNodeBytes, canonicalNodeBytes, (encodeFields_eq_iff_sameTransport ha hb rfl).2,
      Setting.Counts, ha.hasTransport_eq]
    cases outcome.node.inner.transport.kind <;> simp [sameTransport, copy]
  | hosts => exact hosts_counts ha hb fun h => hne (by rw [copy, ← h])
  | flow => exact flow_counts ha hb fun h => hne (by rw [copy, ← h])
  | method => exact method_counts ha hb fun h => hne (by rw [copy, ← h])
  | plugin => exact plugin_counts ha hb fun h => hne (by rw [copy, ← h])
  | pluginOptions => exact pluginOptions_counts ha hb fun h => hne (by rw [copy, ← h])
  | obfs => exact obfs_counts ha hb fun h => hne (by rw [copy, ← h])
  | obfsPassword => exact obfsPassword_counts ha hb fun h => hne (by rw [copy, ← h])
  | password => exact password_counts ha hb fun h => hne (by rw [copy, ← h])

def webSocketPath (path : String) : NodeSpec :=
  { minimal "trojan" "node.example" 443 with
    password := some "secret", tls := true, transport := some "ws", path := some path }

theorem webSocketPath_told_apart :
    ∃ outcome outcome', validateNodeSpec plainUuids (webSocketPath "/a") .default = .ok outcome ∧
      validateNodeSpec plainUuids (webSocketPath "/b") .default = .ok outcome' ∧
      canonicalNodeBytes outcome.node ≠ canonicalNodeBytes outcome'.node := by
  have haccepted : ∀ path ∈ ["/a", "/b"],
      (merged plainUuids (webSocketPath path) (webSocketPath path) .default).isSome = true := by
    decide +kernel
  obtain ⟨pair, hpair⟩ := Option.isSome_iff_exists.mp (haccepted "/a" (by decide))
  obtain ⟨pair', hpair'⟩ := Option.isSome_iff_exists.mp (haccepted "/b" (by decide))
  obtain ⟨outcome, -, h, -⟩ := exists_of_merged hpair
  obtain ⟨outcome', -, h', -⟩ := exists_of_merged hpair'
  have hdiffers : path.Differs (webSocketPath "/a") (webSocketPath "/b") :=
    ⟨rfl, fun hsame => absurd (congrArg path hsame) (by decide)⟩
  exact ⟨outcome, outcome', h, h', (canonicalNodeBytes_ne_iff_counts h h' hdiffers).mpr
    ⟨by decide, by decide⟩⟩

/-! ## A setting that is dropped -/

def grpcPath (path : String) : NodeSpec :=
  { minimal "vless" "node.example" 443 with
    uuid := some "b831381d-6324-4d53-ad4f-8cda48b30811", tls := true,
    transport := some "grpc", path := some path }

theorem grpcPath_dropped :
    ∃ outcome outcome', validateNodeSpec plainUuids (grpcPath "/a") .default = .ok outcome ∧
      validateNodeSpec plainUuids (grpcPath "/b") .default = .ok outcome' ∧
      path.Differs (grpcPath "/a") (grpcPath "/b") ∧
      canonicalNodeBytes outcome.node = canonicalNodeBytes outcome'.node := by
  have hsome : (merged plainUuids (grpcPath "/a") (grpcPath "/b") .default).isSome = true := by
    decide +kernel
  obtain ⟨pair, hpair⟩ := Option.isSome_iff_exists.mp hsome
  obtain ⟨outcome, outcome', h, h', -, heq⟩ := exists_of_merged hpair
  refine ⟨outcome, outcome', h, h', ⟨rfl, fun hsame => ?_⟩, heq⟩
  exact absurd (congrArg path hsame) (by decide)

end NetHop.Node
