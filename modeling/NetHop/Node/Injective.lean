import Mathlib
import NetHop.Node.Outbound
import NetHop.Node.Plugin

/-!
# Reading a canonical form

The canonical form of an accepted node gives its settings back.  The fields of one part
are read off in front of the fields that follow; only the headers have free names, and
they are found by counting the fields behind them.
-/

namespace NetHop.Node

open Framing List

/-! ## Values -/

variable {max : Nat}

@[simp] theorem orEmpty_inj {t t' : Option (BoundedText max)} :
    orEmpty t = orEmpty t' ↔ t = t' := by
  refine ⟨fun h => ?_, congrArg orEmpty⟩
  rcases t with _ | u <;> rcases t' with _ | u'
  · rfl
  · exact absurd h.symm u'.ne_empty
  · exact absurd h u.ne_empty
  · exact congrArg some (BoundedText.ext h)

/-- A secret that is there is not empty. -/
def Given (t : Option SecretString) : Prop := ∀ s ∈ t, s.expose ≠ ""

theorem secretOrEmpty_inj {t t' : Option SecretString} (ht : Given t) (ht' : Given t')
    (h : secretOrEmpty t = secretOrEmpty t') : t = t' := by
  rcases t with _ | u <;> rcases t' with _ | u'
  · rfl
  · exact absurd h.symm (ht' u' rfl)
  · exact absurd h (ht u rfl)
  · exact congrArg some (congrArg SecretString.mk h)

@[simp] theorem bit_inj {b b' : Bool} : bit b = bit b' ↔ b = b' := by
  revert b b'
  decide

@[simp] theorem toString_bool_inj {b b' : Bool} : toString b = toString b' ↔ b = b' := by
  revert b b'
  decide

@[simp] theorem orZero_inj {n n' : Option UInt32} : orZero n = orZero n' ↔ n.getD 0 = n'.getD 0 :=
  Nat.repr_inj.trans UInt32.toNat_inj

@[simp] theorem value_inj {t t' : BoundedText max} : t.value = t'.value ↔ t = t' :=
  BoundedText.ext_iff.symm

theorem repeated_values_inj {name : String} {l l' : List (BoundedText max)}
    {r r' : List (String × String)} (hr : ∀ f ∈ r.head?, f.1 ≠ name)
    (hr' : ∀ f ∈ r'.head?, f.1 ≠ name)
    (h : l.map (fun t => (name, t.value)) ++ r = l'.map (fun t => (name, t.value)) ++ r') :
    l = l' ∧ r = r' := by
  have hmap (l : List (BoundedText max)) :
      l.map (fun t => (name, t.value)) = (l.map (·.value)).map (name, ·) := by
    rw [map_map]
    rfl
  rw [hmap, hmap] at h
  refine (repeated_append_inj hr hr' h).imp_left fun hvalues => ?_
  exact map_injective_iff.mpr (fun _ _ => BoundedText.ext) hvalues

/-! ## Credentials -/

def Credentials.Complete : Credentials → Prop
  | .http username password | .socks username password => Given username ∧ Given password
  | _ => True

variable {r r' : List (String × String)}
attribute [local simp] encodeCredentials credentialMembers secretMember encodeUdpOverTcp textJson

variable {v v' : String}

theorem encodeCredentials_append_inj {c c' : Credentials}
    (hprotocol : c.protocol = c'.protocol) (hc : c.Complete) (hc' : c'.Complete)
    (h : encodeCredentials c ++ ("tls", v) :: r = encodeCredentials c' ++ ("tls", v') :: r') :
    credentialMembers c = credentialMembers c' ∧ v = v' ∧ r = r' := by
  -- credentials of two protocols are none of the same
  cases c <;> cases c' <;> cases hprotocol
  case shadowsocks method password plugin method' password' plugin' =>
    cases plugin <;> cases plugin' <;> simp at h <;>
      simp [h]
  case hysteria2 password obfs password' obfs' =>
    cases obfs <;> cases obfs' <;> simp at h
    · simp [h]
    · simp [optionalMember, h]
  case http username password username' password' =>
    simp at h
    rw [secretOrEmpty_inj hc.1 hc'.1 h.1, secretOrEmpty_inj hc.2 hc'.2 h.2.1]
    exact ⟨rfl, h.2.2⟩
  case socks username password username' password' =>
    simp at h
    rw [secretOrEmpty_inj hc.1 hc'.1 h.1, secretOrEmpty_inj hc.2 hc'.2 h.2.1]
    exact ⟨rfl, h.2.2⟩
  all_goals
    simp at h
    simp [h]

/-! ## TLS -/

def TlsOptions.Complete (tls : TlsOptions) : Prop := ∀ r ∈ tls.reality, Given r.shortId

theorem encodeReality_append_inj {t t' : Option RealityOptions}
    (ht : ∀ x ∈ t, Given x.shortId) (ht' : ∀ x ∈ t', Given x.shortId)
    (h : encodeReality t ++ ("transport", v) :: r = encodeReality t' ++ ("transport", v') :: r') :
    t = t' ∧ v = v' ∧ r = r' := by
  rcases t with _ | ⟨⟨key⟩, short, fingerprint⟩ <;>
    rcases t' with _ | ⟨⟨key'⟩, short', fingerprint'⟩ <;> simp [encodeReality] at h
  · exact ⟨rfl, h⟩
  · obtain ⟨rfl, hshort, rfl, hrest⟩ := h
    cases secretOrEmpty_inj (ht _ rfl) (ht' _ rfl) hshort
    exact ⟨rfl, hrest⟩

theorem encodeTls_append_inj {t t' : TlsOptions} (ht : t.Complete) (ht' : t'.Complete)
    (h : encodeTls t ++ ("transport", v) :: r = encodeTls t' ++ ("transport", v') :: r') :
    t = t' ∧ v = v' ∧ r = r' := by
  obtain ⟨enabled, name, insecure, alpn, print, reality⟩ := t
  obtain ⟨enabled', name', insecure', alpn', print', reality'⟩ := t'
  simp only [encodeTls, cons_append, nil_append, append_assoc, cons.injEq,
    Prod.mk.injEq, true_and, bit_inj, orEmpty_inj] at h
  obtain ⟨rfl, rfl, rfl, h⟩ := h
  obtain ⟨rfl, htail⟩ := repeated_values_inj (by simp) (by simp) h
  obtain ⟨hprint, hlast⟩ := cons.inj htail
  cases orEmpty_inj.mp (Prod.ext_iff.mp hprint).2
  obtain ⟨hreality, hrest⟩ := encodeReality_append_inj ht ht' hlast
  cases (hreality : reality = reality')
  exact ⟨rfl, hrest⟩

/-! ## Options -/

def ProtocolOptions.fill : ProtocolOptions → ProtocolOptions
  | .hysteria2 options =>
    .hysteria2 { options with upMbps := some (options.upMbps.getD 0),
                              downMbps := some (options.downMbps.getD 0) }
  | .anyTls options =>
    .anyTls { options with minIdleSession := some (options.minIdleSession.getD 0) }
  | options => options

variable {u u' : String}

theorem encodeUdpOverTcp_append_inj {t t' : Option UdpOverTcpOptions}
    (h : encodeUdpOverTcp t ++ [("udp", u)] = encodeUdpOverTcp t' ++ [("udp", u')]) :
    t = t' ∧ u = u' := by
  rcases t with _ | ⟨enabled, version⟩ <;> rcases t' with _ | ⟨enabled', version'⟩ <;>
    simp at h
  · exact ⟨rfl, h⟩
  · simpa [UInt8.toNat_inj, and_assoc] using h

variable {o o' : ProtocolOptions}

theorem encodeProtocolOptions_append_inj {protocol : ProxyProtocol}
    (ho : OptionsFor protocol o) (ho' : OptionsFor protocol o')
    (h : encodeProtocolOptions o ++ [("udp", u)] = encodeProtocolOptions o' ++ [("udp", u')]) :
    o.fill = o'.fill ∧ u = u' := by
  cases ho <;> cases ho'
  case shadowsocks udpOverTcp udpOverTcp' =>
    obtain ⟨rfl, hu⟩ := encodeUdpOverTcp_append_inj h
    exact ⟨rfl, hu⟩
  case hysteria2 options options' =>
    simp only [encodeProtocolOptions, append_assoc] at h
    obtain ⟨hports, h⟩ := repeated_values_inj (by simp) (by simp) h
    simp at h
    simp [ProtocolOptions.fill, hports, h]
  case tuic options options' =>
    obtain ⟨congestion, mode, stream, zero, heartbeat⟩ := options
    simp [encodeProtocolOptions] at h
    simp [h]
  case http options options' =>
    obtain ⟨path, headers⟩ := options
    obtain ⟨path', headers'⟩ := options'
    simp only [encodeProtocolOptions, cons_append, cons.injEq, Prod.mk.injEq,
      true_and, orEmpty_inj] at h
    obtain ⟨rfl, h⟩ := h
    obtain ⟨hheaders, hu⟩ := append_inj' h rfl
    have hheaders : headers = headers' := by
      apply SortedMap.ext
      refine map_injective_iff.mpr ?_ hheaders
      rintro ⟨k, ⟨s⟩⟩ ⟨k', ⟨s'⟩⟩ heq
      cases heq
      rfl
    rw [hheaders]
    simpa using hu
  case socks options options' =>
    obtain ⟨version, udpOverTcp⟩ := options
    simp only [encodeProtocolOptions, cons_append, cons.injEq, Prod.mk.injEq,
      true_and, value_inj] at h
    obtain ⟨rfl, h⟩ := h
    obtain ⟨rfl, hu⟩ := encodeUdpOverTcp_append_inj h
    exact ⟨rfl, hu⟩
  all_goals simpa [encodeProtocolOptions, ProtocolOptions.fill, and_assoc] using h

/-! ## Transports -/

def TransportOptions.hasHeaders : TransportOptions → Bool
  | .webSocket _ _ | .httpUpgrade _ _ => true
  | _ => false

theorem encodeHeaders_inj {m m' : SortedMap String (BoundedText max)}
    (h : encodeHeaders m = encodeHeaders m') : m = m' := by
  apply SortedMap.ext
  refine map_injective_iff.mpr ?_ h
  rintro ⟨k, t⟩ ⟨k', t'⟩ heq
  obtain ⟨hk, ht⟩ := Prod.ext_iff.mp heq
  exact Prod.ext hk (BoundedText.ext ht)

theorem head_encodeProtocolOptions_ne (o : ProtocolOptions) (u : String) :
    ∀ f ∈ (encodeProtocolOptions o ++ [("udp", u)]).head?, f.1 ≠ "host" := by
  rcases o with _ | _ | (_ | _) | ⟨_ | _⟩ | _ | _ | _ | _ <;>
    simp [encodeProtocolOptions]

theorem encodeTransport_append_inj {t t' : TransportOptions} (hlength : t.hasHeaders = true →
      (encodeProtocolOptions o).length = (encodeProtocolOptions o').length)
    (h : encodeTransport t ++ (encodeProtocolOptions o ++ [("udp", u)]) =
      encodeTransport t' ++ (encodeProtocolOptions o' ++ [("udp", u')])) :
    t = t' ∧ encodeProtocolOptions o ++ [("udp", u)] =
      encodeProtocolOptions o' ++ [("udp", u')] := by
  obtain ⟨hname, hbody⟩ := cons.inj h
  have hkind : t.kind = t'.kind := TransportKind.debug_inj (Prod.ext_iff.mp hname).2
  have hheaders {path path' : BoundedText (8 * 1024)}
      {headers headers' : SortedMap String (BoundedText (8 * 1024))} (hhas : t.hasHeaders = true)
      (h : ("path", path.value) :: encodeHeaders headers ++ (encodeProtocolOptions o ++
          [("udp", u)]) =
        ("path", path'.value) :: encodeHeaders headers' ++ (encodeProtocolOptions o' ++
          [("udp", u')])) :
      path = path' ∧ headers = headers' ∧
        encodeProtocolOptions o ++ [("udp", u)] = encodeProtocolOptions o' ++ [("udp", u')] := by
    obtain ⟨hpath, h⟩ := cons.inj h
    obtain ⟨hheaders, hrest⟩ := append_inj' h (by simp [hlength hhas])
    exact ⟨BoundedText.ext (Prod.ext_iff.mp hpath).2, encodeHeaders_inj hheaders, hrest⟩
  cases t <;> cases t' <;> cases hkind
  case webSocket path headers path' headers' =>
    obtain ⟨rfl, rfl, hrest⟩ := hheaders rfl hbody
    exact ⟨rfl, hrest⟩
  case httpUpgrade path headers path' headers' =>
    obtain ⟨rfl, rfl, hrest⟩ := hheaders rfl hbody
    exact ⟨rfl, hrest⟩
  case http path hosts path' hosts' =>
    obtain ⟨hpath, hhosts⟩ := cons.inj hbody
    obtain ⟨hsame, hrest⟩ := repeated_values_inj (head_encodeProtocolOptions_ne o u)
      (head_encodeProtocolOptions_ne o' u') hhosts
    rw [hsame, value_inj.mp (Prod.ext_iff.mp hpath).2]
    exact ⟨rfl, hrest⟩
  all_goals simpa using hbody

/-! ## Nodes -/

/-- What acceptance says about the parts of a node together. -/
structure WellFormed (node : UnvalidatedNode) : Prop where
  protocol : node.credentials.protocol = node.protocol
  credentials : node.credentials.Complete
  tls : node.tls.Complete
  options : OptionsFor node.protocol node.protocolOptions
  headers : node.transport.hasHeaders = true →
    node.protocol ∉ [.hysteria2, .tuic, .http, .socks]

variable {uuids : UuidCrate} {pair : Option SecretString × Option SecretString} {spec : NodeSpec}

theorem optionalUserPassword_given (h : optionalUserPassword spec = .ok pair) :
    Given pair.1 ∧ Given pair.2 := by
  unfold optionalUserPassword at h
  split at h
  · cases h
    exact ⟨fun s hs => absurd hs (by simp), fun s hs => absurd hs (by simp)⟩
  · simp only [bind_eq_ok, ensure_eq_ok, Bool.and_eq_true, bne_iff_ne] at h
    obtain ⟨_, ⟨hname, hpassword⟩, h⟩ := h
    cases h
    exact ⟨fun s hs => by cases hs; exact hname, fun s hs => by cases hs; exact hpassword⟩
  · cases h

variable {credentials : Credentials}

section

variable {protocol : ProxyProtocol} (h : CredentialsOf uuids spec protocol credentials)

include h

theorem CredentialsOf.protocol_eq : credentials.protocol = protocol := by
  cases h <;> rfl

theorem CredentialsOf.complete : credentials.Complete := by
  cases h with
  | http hpair | socks hpair => exact optionalUserPassword_given hpair
  | _ => trivial

end

variable {node : UnvalidatedNode}

theorem Built.wellFormed (h : Built uuids spec node) : WellFormed node := by
  have hcredentials := (makeCredentials_eq_ok h.credentials).1
  refine ⟨hcredentials.protocol_eq, hcredentials.complete, fun r hr => ?_,
    makeProtocolOptions_for h.protocolOptions, fun hheaders hmem => ?_⟩
  · rw [(makeReality_eq_ok (makeTls_eq_ok h.tls) r hr).2]
    intro s hs
    obtain ⟨value, hvalue, rfl⟩ := Option.map_eq_some_iff.mp hs
    simpa using (Option.filter_eq_some_iff.mp hvalue).2
  · simp only [mem_cons, not_mem_nil, or_false] at hmem
    have hkind : node.transport.kind = .tcp ∨ node.transport.kind = .quic := by
      rcases hmem with hprotocol | hprotocol | hprotocol | hprotocol
      · exact .inr (h.overQuic (.inl hprotocol))
      · exact .inr (h.overQuic (.inr hprotocol))
      · exact .inl (by rw [makeTransport_proxy (.inl hprotocol) h.transport]; rfl)
      · exact .inl (by rw [makeTransport_proxy (.inr hprotocol) h.transport]; rfl)
    generalize node.transport = transport at hheaders hkind
    cases transport with
    | webSocket path headers | httpUpgrade path headers => simp [TransportOptions.kind] at hkind
    | _ => cases hheaders

/-- The headers of a Shadowsocks node are followed by as many fields in both nodes. -/
def SameTail (a b : UnvalidatedNode) : Prop :=
  a.transport.hasHeaders = true → ∀ x y, a.protocolOptions = .shadowsocks x →
    b.protocolOptions = .shadowsocks y → x.isSome = y.isSome

variable {a b : UnvalidatedNode}

theorem length_encodeProtocolOptions (ha : WellFormed a)
    (hb : WellFormed b) (hprotocol : a.protocol = b.protocol) (htail : SameTail a b)
    (hheaders : a.transport.hasHeaders = true) : (encodeProtocolOptions a.protocolOptions).length =
      (encodeProtocolOptions b.protocolOptions).length := by
  have hother := ha.headers hheaders
  have hsame := htail hheaders
  have hoptions := ha.options
  have hoptions' := hb.options
  rw [← hprotocol] at hoptions'
  generalize a.protocol = protocol at hother hoptions hoptions'
  generalize a.protocolOptions = o at hsame hoptions
  generalize b.protocolOptions = o' at hsame hoptions'
  cases hoptions with
  | vless flow | vmess | trojan | anyTls options =>
    cases hoptions'
    rfl
  | shadowsocks x =>
    cases hoptions' with
    | shadowsocks y =>
      have hsome := hsame x y rfl rfl
      cases x with
      | none =>
        cases y with
        | none => rfl
        | some y => cases hsome
      | some x =>
        cases y with
        | none => cases hsome
        | some y => rfl
  | hysteria2 options | tuic options | http options | socks options => exact absurd (by simp) hother

/-- The settings of two nodes are the same, up to zero for an absent number. -/
structure SameSettings (a b : UnvalidatedNode) : Prop where
  protocol : a.protocol = b.protocol
  server : a.endpoint.server = b.endpoint.server
  port : a.endpoint.port = b.endpoint.port
  credentials : credentialMembers a.credentials = credentialMembers b.credentials
  tls : a.tls = b.tls
  transport : a.transport = b.transport
  options : a.protocolOptions.fill = b.protocolOptions.fill
  udp : a.capabilities.udp = b.capabilities.udp

theorem canonicalFields_inj (ha : WellFormed a) (hb : WellFormed b)
    (htail : SameTail a b) (h : canonicalFields a = canonicalFields b) : SameSettings a b := by
  simp only [canonicalFields, append_assoc, cons_append, nil_append,
    cons.injEq, Prod.mk.injEq, true_and] at h
  obtain ⟨hprotocol, hserver, hport, h⟩ := h
  have hprotocol := ProxyProtocol.asStr_inj hprotocol
  have hkind : a.credentials.protocol = b.credentials.protocol := by
    rw [ha.protocol, hb.protocol, hprotocol]
  obtain ⟨hcredentials, hv, hr⟩ :=
    encodeCredentials_append_inj hkind ha.credentials hb.credentials h
  have htls : encodeTls a.tls ++ (encodeTransport a.transport ++
      (encodeProtocolOptions a.protocolOptions ++ [("udp", bit a.capabilities.udp)])) =
      encodeTls b.tls ++ (encodeTransport b.transport ++
      (encodeProtocolOptions b.protocolOptions ++ [("udp", bit b.capabilities.udp)])) :=
    cons_eq_cons.mpr ⟨by rw [hv], hr⟩
  obtain ⟨htls, hv, hr⟩ := encodeTls_append_inj ha.tls hb.tls htls
  obtain ⟨htransport, h⟩ := encodeTransport_append_inj
    (length_encodeProtocolOptions ha hb hprotocol htail) (cons_eq_cons.mpr ⟨by rw [hv], hr⟩)
  obtain ⟨hoptions, hudp⟩ := encodeProtocolOptions_append_inj ha.options (hprotocol ▸ hb.options) h
  exact ⟨hprotocol, hserver, UInt16.toNat_inj.mp (Nat.repr_injective hport), hcredentials, htls,
    htransport, hoptions, bit_inj.mp hudp⟩

/-! ## Lengths -/

/-- The secrets a node is given, whose length nothing bounds. -/
def NodeSpec.secrets (spec : NodeSpec) : List String :=
  [spec.password, spec.username, spec.obfsPassword, spec.realityPublicKey,
   spec.realityShortId].reduceOption

def Short (spec : NodeSpec) : Prop := ∀ t ∈ spec.secrets, t.utf8ByteSize < 2 ^ 32

def Small (t : String) : Prop := t.utf8ByteSize < 2 ^ 32

instance (t : String) : Decidable (Small t) := inferInstanceAs (Decidable (_ < _))

@[simp] theorem fits_iff {name value : String} :
    Fits (name, value) ↔ Small name ∧ Small value := .rfl

theorem utf8ByteSize_le (t : String) : t.utf8ByteSize ≤ 4 * t.length := by
  have hlist (l : List Char) : String.utf8Len l ≤ 4 * l.length := by
    induction l with
    | nil => exact Nat.le_refl 0
    | cons c l ih =>
      have hc := c.utf8Size_le_four
      rw [String.utf8Len_cons, length_cons]
      omega
  have ht := hlist t.toList
  rwa [← String.utf8ByteSize_ofList, String.ofList_toList, String.length_toList] at ht

theorem small_of_length {t : String} (h : t.length ≤ 1000) : Small t := by
  have hsize := utf8ByteSize_le t
  unfold Small
  omega

@[simp] theorem small_value (hmax : max ≤ 8 * 1024) (t : BoundedText max) : Small t.value := by
  have hsize := t.size_le
  unfold Small
  omega

@[simp] theorem small_orEmpty (hmax : max ≤ 8 * 1024) (t : Option (BoundedText max)) :
    Small (orEmpty t) := by
  cases t with
  | none => exact (by decide : Small "")
  | some t => exact small_value hmax t

theorem small_repr {n : Nat} (h : n < 2 ^ 64) : Small n.repr := by
  have hlength := Text.length_toString_le h
  exact small_of_length (hlength.trans (by omega))

@[simp] theorem small_orZero (n : Option UInt32) : Small (orZero n) :=
  small_repr (by have := (n.getD 0).toNat_lt; omega)

@[simp] theorem small_bit (b : Bool) : Small (bit b) := by cases b <;> decide

@[simp] theorem small_toString (b : Bool) : Small (toString b) := by cases b <;> decide

@[simp] theorem small_uuid (uuid : UuidValue) : Small uuid.expose :=
  small_of_length (by have := uuid.length_le; omega)

theorem size_intercalate_le {l : List String} {bound : Nat} (h : ∀ t ∈ l, t.utf8ByteSize ≤ bound) :
    (";".intercalate l).utf8ByteSize ≤ l.length * (bound + 1) := by
  induction l with
  | nil => simp
  | cons t l ih =>
    obtain ⟨ht, hl⟩ := forall_mem_cons.mp h
    have hrest := ih hl
    cases l with
    | nil =>
      simp
      omega
    | cons u l =>
      have hsemicolon : ";".utf8ByteSize = 1 := by decide
      rw [String.intercalate_cons_cons, String.utf8ByteSize_append, String.utf8ByteSize_append,
        length_cons, hsemicolon, Nat.succ_mul]
      omega

theorem small_pluginOptions {plugin : PluginSpec}
    (h : makePlugin spec = .ok (some plugin)) : Small (pluginOptions plugin) := by
  obtain ⟨hoptions, hkeys, -⟩ := makePlugin_eq_ok h
  have hsame : plugin.options.keys = spec.pluginOptions.keys := by
    rw [← hoptions, SortedMap.keys_mapValues]
  have hcount : plugin.options.entries.length ≤ 7 := by
    have hsub := (subperm_of_subset plugin.options.nodup_keys
      (fun k hk => hkeys k (hsame ▸ hk) : plugin.options.keys ⊆ pluginKeys)).length_le
    simpa [SortedMap.keys, pluginKeys] using hsub
  have hshort : ∀ k ∈ pluginKeys, k.utf8ByteSize ≤ 9 := by decide
  have heach : ∀ t ∈ plugin.options.entries.map (fun e => e.1 ++ "=" ++ e.2.value),
      t.utf8ByteSize ≤ 266 := by
    intro t ht
    obtain ⟨e, he, rfl⟩ := mem_map.mp ht
    have hkey := hshort e.1 (hkeys e.1 (hsame ▸ mem_map_of_mem he))
    have hvalue := e.2.size_le
    have hequals : "=".utf8ByteSize = 1 := by decide
    rw [String.utf8ByteSize_append, String.utf8ByteSize_append]
    omega
  have hsize := size_intercalate_le heach
  rw [length_map] at hsize
  unfold Small
  rw [pluginOptions_eq]
  omega

section

variable {uuids : UuidCrate} {spec : NodeSpec} {protocol : ProxyProtocol}

section

variable (hshort : Short spec)

include hshort

theorem short_of_mem {t : Option String}
    (ht : t ∈ [spec.password, spec.username, spec.obfsPassword, spec.realityPublicKey,
      spec.realityShortId]) {value : String} (h : t = some value) : Small value :=
  hshort value (reduceOption_mem_iff.mpr (h ▸ ht))

theorem small_requiredPassword {password : SecretString}
    (h : requiredPassword spec = .ok password) : Small password.expose := by
  rw [requiredPassword, okOr_eq_ok] at h
  obtain ⟨value, hvalue, rfl⟩ := Option.map_eq_some_iff.mp h
  exact short_of_mem hshort (by simp) (Option.filter_eq_some_iff.mp hvalue).1

theorem small_optionalUserPassword (h : optionalUserPassword spec = .ok pair) :
    Small (secretOrEmpty pair.1) ∧ Small (secretOrEmpty pair.2) := by
  unfold optionalUserPassword at h
  split at h
  · cases h
    decide
  next username password huser hpassword =>
    obtain ⟨_, -, h⟩ := bind_eq_ok.mp h
    cases h
    exact ⟨short_of_mem hshort (by simp) huser, short_of_mem hshort (by simp) hpassword⟩
  · cases h

theorem small_makeObfs {obfs : Hysteria2Obfs}
    (h : makeObfs spec = .ok (some obfs)) : Small obfs.password.expose := by
  unfold makeObfs at h
  split at h
  · cases h
  next name password hname hpassword =>
    simp only [bind_eq_ok] at h
    obtain ⟨_, -, kind, -, h⟩ := h
    cases h
    exact short_of_mem hshort (by simp) hpassword
  · cases h

theorem fits_encodeCredentials (h : CredentialsOf uuids spec protocol credentials) :
    ∀ f ∈ encodeCredentials credentials, Fits f := by
  cases h with
  | vless _ => simp +decide
  | vmess _ _ =>
    have halter : Small (spec.alterId.getD 0).toNat.repr :=
      small_repr (by have := (spec.alterId.getD 0).toNat_lt; omega)
    simp +decide [halter]
  | @shadowsocks method password plugin _ hplugin hpassword =>
    have hpassword := small_requiredPassword hshort hpassword
    cases plugin with
    | none => simp +decide [hpassword]
    | some plugin => simp +decide [hpassword, small_pluginOptions hplugin]
  | trojan hpassword =>
    simp +decide [small_requiredPassword hshort hpassword]
  | @hysteria2 password obfs hobfs hpassword =>
    have hpassword := small_requiredPassword hshort hpassword
    cases obfs with
    | none => simp +decide [hpassword]
    | some obfs => simp +decide [hpassword, small_makeObfs hshort hobfs]
  | tuic _ hpassword | anyTls hpassword =>
    simp +decide [small_requiredPassword hshort hpassword]
  | http hpair
  | socks hpair => simp +decide [small_optionalUserPassword hshort hpair]

theorem fits_encodeTls {tls : TlsOptions}
    (h : makeReality spec protocol = .ok tls.reality) : ∀ f ∈ encodeTls tls, Fits f := by
  have hreality : ∀ f ∈ encodeReality tls.reality, Fits f := by
    cases hr : tls.reality with
    | none => exact fun f hf => absurd hf not_mem_nil
    | some r =>
      obtain ⟨hkey, hid⟩ := makeReality_eq_ok h r hr
      have hkey : Small r.publicKey.expose := short_of_mem hshort (by simp) hkey
      have hid : Small (secretOrEmpty r.shortId) := by
        rw [hid]
        cases hs : spec.realityShortId.filter (· != "") with
        | none => decide
        | some id => exact short_of_mem hshort (by simp) (Option.filter_eq_some_iff.mp hs).1
      simp +decide [encodeReality, hkey, hid]
  simp only [encodeTls, forall_mem_append, forall_mem_map, forall_mem_cons]
  exact ⟨by simp +decide, by simp +decide, hreality⟩

end

theorem fits_encodeTransport {path : Option String} {hosts : List String}
    {serviceName : Option String} {headers : SortedMap String String}
    {transport : TransportOptions} (h : TransportOf path hosts serviceName headers transport) :
    ∀ f ∈ encodeTransport transport, Fits f := by
  have hkind (k : TransportKind) : Small k.debug := by cases k <;> decide
  have hheaders {p : BoundedText (8 * 1024)} {m : SortedMap String (BoundedText (8 * 1024))}
      (hpair : pathAndHeaders path hosts headers = .ok (p, m)) : ∀ f ∈ encodeHeaders m, Fits f := by
    intro f hf
    obtain ⟨e, he, rfl⟩ := mem_map.mp hf
    have hkey := (pathAndHeaders_eq_ok hpair).2.2.2 e he
    exact ⟨by simp only; omega, small_value (by omega) e.2⟩
  refine forall_mem_cons.mpr ⟨by simp +decide [hkind], ?_⟩
  cases h with
  | webSocket hpair
  | httpUpgrade hpair => exact forall_mem_cons.mpr ⟨by simp +decide, hheaders hpair⟩
  | _ => simp +decide

theorem fits_encodeUdpOverTcp (options : Option UdpOverTcpOptions) :
    ∀ f ∈ encodeUdpOverTcp options, Fits f := by
  cases options with
  | none => exact fun f hf => absurd hf not_mem_nil
  | some options =>
    have hversion : Small options.version.toNat.repr :=
      small_repr (by have := options.version.toNat_lt; omega)
    simp +decide [hversion]

theorem fits_encodeProtocolOptions {options : ProtocolOptions}
    (h : makeProtocolOptions spec protocol = .ok options) :
    ∀ f ∈ encodeProtocolOptions options, Fits f := by
  cases options with
  | shadowsocks udpOverTcp => exact fits_encodeUdpOverTcp udpOverTcp
  | hysteria2 options =>
    simp only [encodeProtocolOptions, forall_mem_append, forall_mem_map]
    simp +decide
  | http options =>
    simp only [encodeProtocolOptions, forall_mem_cons, forall_mem_map]
    refine ⟨by simp +decide, fun e he => ?_⟩
    obtain ⟨hkey, hvalue⟩ := makeProtocolOptions_http h e he
    simp only at hkey hvalue
    exact ⟨by simp only; omega, by simp only; omega⟩
  | socks options =>
    simp only [encodeProtocolOptions, forall_mem_cons]
    exact ⟨by simp +decide, fits_encodeUdpOverTcp _⟩
  | _ => simp +decide [encodeProtocolOptions]

end

variable {uuids : UuidCrate} {spec : NodeSpec}

theorem fits_canonicalFields (h : Built uuids spec node) (hshort : Short spec) :
    ∀ f ∈ canonicalFields node, Fits f := by
  have hprotocol (p : ProxyProtocol) : Small p.asStr := by cases p <;> decide
  have hport : Small node.endpoint.port.toNat.repr :=
    small_repr (by have := node.endpoint.port.toNat_lt; omega)
  have hserver : Small node.endpoint.server := by
    have hsize := node.endpoint.size_le
    unfold Small
    omega
  simp only [canonicalFields, cons_append, nil_append, forall_mem_cons, forall_mem_append]
  refine ⟨by simp +decide, by simp +decide [hprotocol], by simp +decide [hserver],
    by simp +decide [hport], ⟨⟨⟨?_, ?_⟩, ?_⟩, ?_⟩, by simp +decide, by simp⟩
  · exact fits_encodeCredentials hshort (makeCredentials_eq_ok h.credentials).1
  · exact fits_encodeTls hshort (makeTls_eq_ok h.tls)
  · exact fits_encodeTransport (makeTransport_eq_ok h.transport).1
  · exact fits_encodeProtocolOptions h.protocolOptions

end NetHop.Node
