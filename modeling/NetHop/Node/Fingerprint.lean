import NetHop.Node.Injective

/-!
# Equal fingerprints

Nodes with the same canonical form are merged, so the canonical form has to tell apart
what the core would be given differently.  It does, but for a number that is left out,
which is written as zero.
-/

namespace NetHop.Node

open Framing List String Option NodeSpec

/-! ## Outbounds -/

/-- The numbers of an outbound that may be left out. -/
def zeroKeys : List String := ["up_mbps", "down_mbps", "min_idle_session"]

/-- The value of a member, with zero for a number that is left out. -/
def countsAs (key : String) (value : Option Json) : Option Json :=
  if key ∈ zeroKeys then some (value.getD (number 0)) else value

theorem member_objectOf (members : List (String × Json)) (key : String) :
    member (objectOf members) key = members.reverse.lookup key := SortedMap.get?_collect members key

theorem lookup_optionalMember {α : Type} (key k : String) (value : α → Json) (a : Option α) :
    (optionalMember k value a).reverse.lookup key = if key = k then a.map value else none := by
  cases a with
  | none => simp [optionalMember]
  | some a =>
    change [(k, value a)].lookup key = _
    rw [SortedMap.lookup_cons]
    rfl

variable {key : String}

theorem lookup_optionMembers_fill (hkey : key ∉ zeroKeys) (udp : Bool) (o : ProtocolOptions) :
    (optionMembers udp o).reverse.lookup key = (optionMembers udp o.fill).reverse.lookup key := by
  simp only [zeroKeys, mem_cons, not_mem_nil, or_false, not_or] at hkey
  obtain ⟨hup, hdown, hidle⟩ := hkey
  cases o with
  | hysteria2 options =>
    simp only [optionMembers, ProtocolOptions.fill, reverse_append, lookup_append,
      lookup_optionalMember, if_neg hup, if_neg hdown]
  | anyTls options =>
    simp only [optionMembers, ProtocolOptions.fill, reverse_append, lookup_append,
      lookup_optionalMember, if_neg hidle]
  | _ => rfl

theorem lookup_optionMembers_zero (hkey : key ∈ zeroKeys) (udp : Bool) (o : ProtocolOptions) :
    ((optionMembers udp o).reverse.lookup key).getD (number 0) =
      ((optionMembers udp o.fill).reverse.lookup key).getD (number 0) := by
  simp only [zeroKeys, mem_cons, not_mem_nil, or_false] at hkey
  cases o with
  | hysteria2 options =>
    obtain ⟨ports, hop, up, down⟩ := options
    simp only [optionMembers, ProtocolOptions.fill, reverse_append, lookup_append,
      lookup_optionalMember]
    have hports : (if ports.isEmpty then []
        else [("server_ports", Json.array (ports.map textJson))]).reverse.lookup key = none := by
      rcases hkey with rfl | rfl | rfl <;> cases ports <;> rfl
    rw [hports]
    rcases hkey with rfl | rfl | rfl
    · cases up <;> simp [number]
    · cases down <;> simp [number]
    · simp
  | anyTls options =>
    obtain ⟨check, timeout, idle⟩ := options
    simp only [optionMembers, ProtocolOptions.fill, reverse_append, lookup_append,
      lookup_optionalMember]
    rcases hkey with rfl | rfl | rfl
    · simp
    · simp
    · cases idle <;> simp [number]
  | _ => rfl

/-- The members an outbound can have apart from the protocol's own options. -/
def nodeKeys : List String :=
  ["type", "tag", "server", "server_port", "uuid", "alter_id", "security", "method", "password",
   "plugin", "plugin_opts", "obfs", "username", "tls", "transport"]

variable {e : String × Json}

theorem key_of_mem_optionalMember {α : Type} {k : String} {value : α → Json} {a : Option α}
    (h : e ∈ optionalMember k value a) : e.1 = k := by
  cases a with
  | none => cases h
  | some a =>
    rw [mem_singleton.mp h]

theorem key_of_mem_credentialMembers {c : Credentials} (h : e ∈ credentialMembers c) :
    e.1 ∈ nodeKeys := by
  have hmem : e.1 ∈ ["uuid", "alter_id", "security", "method", "password", "plugin",
      "plugin_opts", "obfs", "username"] := by
    cases c with
    | vless uuid => simp_all [credentialMembers]
    | vmess uuid alterId security =>
      simp only [credentialMembers, mem_cons, not_mem_nil, or_false] at h
      rcases h with rfl | rfl | rfl <;> simp
    | shadowsocks method password plugin =>
      cases plugin with
      | none =>
        simp only [credentialMembers, secretMember, append_nil, mem_cons,
          not_mem_nil, or_false] at h
        rcases h with rfl | rfl <;> simp
      | some plugin =>
        simp only [credentialMembers, secretMember, cons_append, nil_append,
          mem_cons, not_mem_nil, or_false] at h
        rcases h with rfl | rfl | rfl | rfl <;> simp
    | trojan password | anyTls password => simp_all [credentialMembers, secretMember]
    | hysteria2 password obfs =>
      rcases mem_cons.mp h with rfl | h
      · simp [secretMember]
      · simp [key_of_mem_optionalMember h]
    | tuic uuid password =>
      simp only [credentialMembers, secretMember, mem_cons, not_mem_nil, or_false] at h
      rcases h with rfl | rfl <;> simp
    | http username password | socks username password =>
      rcases mem_append.mp h with h | h <;> simp [key_of_mem_optionalMember h]
  have hsub : ∀ k ∈ ["uuid", "alter_id", "security", "method", "password", "plugin",
      "plugin_opts", "obfs", "username"], k ∈ nodeKeys := by decide
  exact hsub _ hmem

variable {node : UnvalidatedNode}

theorem key_of_mem_nodeMembers {tag : String} (h : e ∈ nodeMembers node tag) : e.1 ∈ nodeKeys := by
  simp only [nodeMembers, mem_append] at h
  rcases h with ((((h | h) | h) | h) | h)
  · simp only [mem_cons, not_mem_nil, or_false] at h
    rcases h with rfl | rfl | rfl <;> simp [nodeKeys]
  · split at h
    · cases h
    · rw [mem_singleton.mp h]
      simp [nodeKeys]
  · exact key_of_mem_credentialMembers h
  · split at h
    · rw [mem_singleton.mp h]
      simp [nodeKeys]
    · cases h
  · split at h
    · cases h
    · rw [mem_singleton.mp h]
      simp [nodeKeys]

theorem lookup_nodeMembers_zero (hkey : key ∈ zeroKeys) (node : UnvalidatedNode) (tag : String) :
    (nodeMembers node tag).reverse.lookup key = none := by
  have hdisjoint : ∀ k ∈ zeroKeys, k ∉ nodeKeys := by decide
  rw [lookup_eq_none_iff]
  intro e he
  have hmem := key_of_mem_nodeMembers (mem_reverse.mp he)
  have hne : key ≠ e.1 := fun heq => hdisjoint key hkey (by rwa [heq])
  simpa using hne

theorem portHopping_fill (o : ProtocolOptions) : portHopping o.fill = portHopping o := by
  cases o <;> rfl

theorem lookup_nodeMembers {a b : UnvalidatedNode} (h : SameSettings a b) (hkey : key ≠ "tag")
    (tag tag' : String) :
    (nodeMembers a tag).reverse.lookup key = (nodeMembers b tag').reverse.lookup key := by
  have hhopping : portHopping a.protocolOptions = portHopping b.protocolOptions := by
    rw [← portHopping_fill, h.options, portHopping_fill]
  simp only [nodeMembers, h.protocol, h.server, h.port, h.credentials, h.tls, h.transport, hhopping,
    reverse_append, lookup_append]
  simp [SortedMap.lookup_cons, hkey]

theorem member_composeOutbound {a b : ProxyNode} (h : SameSettings a.inner b.inner)
    (hkey : key ≠ "tag") (tag tag' : String) : countsAs key (member (composeOutbound a tag) key) =
      countsAs key (member (composeOutbound b tag') key) := by
  rw [composeOutbound, composeOutbound, member_objectOf, member_objectOf, reverse_append,
    reverse_append, lookup_append, lookup_append]
  by_cases hzero : key ∈ zeroKeys
  · rw [lookup_nodeMembers_zero hzero, lookup_nodeMembers_zero hzero, or_none,
      or_none, countsAs, countsAs, if_pos hzero, if_pos hzero,
      lookup_optionMembers_zero hzero, h.options, h.udp, ← lookup_optionMembers_zero hzero]
  · rw [lookup_optionMembers_fill hzero, lookup_nodeMembers h hkey tag tag', h.options, h.udp,
      ← lookup_optionMembers_fill hzero]

/-! ## Merged nodes -/

/-- A Shadowsocks node whose headers could pass for its options. -/
def HeadersBeforeOptions (node : UnvalidatedNode) : Prop :=
  node.protocol = .shadowsocks ∧ node.transport.hasHeaders = true

variable {uuids : UuidCrate}

/-- With the built-in matrix there is no such node. -/
theorem not_headersBeforeOptions_of_default {spec : NodeSpec} {outcome : SemanticOutcome}
    (h : validateNodeSpec uuids spec .default = .ok outcome) :
    ¬HeadersBeforeOptions outcome.node.inner := by
  have hshapes : ∀ query ∈ manifestShapes, query.protocol = .shadowsocks →
      query.transport = .tcp := by
    decide
  rintro ⟨hprotocol, hheaders⟩
  have hkind : outcome.node.inner.transport.kind = .tcp :=
    hshapes _ (CapabilityMatrix.mem_of_default_supports (validateNodeSpec_eq_ok h).2) hprotocol
  generalize outcome.node.inner.transport = transport at hheaders hkind
  cases transport with
  | webSocket path headers | httpUpgrade path headers => cases hkind
  | _ => cases hheaders

/-- Nodes with one canonical form are given to the core alike: every member but the tag is
the same, where a number that is left out counts as zero. -/
theorem composeOutbound_of_canonicalNodeBytes_eq {spec spec' : NodeSpec}
    {matrix matrix' : CapabilityMatrix} {outcome outcome' : SemanticOutcome}
    (h : validateNodeSpec uuids spec matrix = .ok outcome)
    (h' : validateNodeSpec uuids spec' matrix' = .ok outcome')
    (hshort : Short spec) (hshort' : Short spec') (hudp : HeadersBeforeOptions outcome.node.inner →
      spec.udpOverTcp.isSome = spec'.udpOverTcp.isSome)
    (heq : canonicalNodeBytes outcome.node = canonicalNodeBytes outcome'.node)
    {key : String} (hkey : key ≠ "tag") (tag tag' : String) :
    countsAs key (member (composeOutbound outcome.node tag) key) =
      countsAs key (member (composeOutbound outcome'.node tag') key) := by
  have hbuilt := (validateNodeSpec_eq_ok h).1
  have hbuilt' := (validateNodeSpec_eq_ok h').1
  have hfields := encodeFields_inj (fits_canonicalFields hbuilt hshort)
    (fits_canonicalFields hbuilt' hshort') heq
  have htail : SameTail outcome.node.inner outcome'.node.inner := by
    intro hheaders x y hx hy
    have hoptions := hbuilt.protocolOptions
    have hoptions' := hbuilt'.protocolOptions
    rw [hx] at hoptions
    rw [hy] at hoptions'
    obtain ⟨hprotocol, hgiven⟩ := makeProtocolOptions_shadowsocks hoptions
    obtain ⟨-, hgiven'⟩ := makeProtocolOptions_shadowsocks hoptions'
    rw [hgiven, hgiven']
    exact hudp ⟨hprotocol, hheaders⟩
  exact member_composeOutbound
    (canonicalFields_inj hbuilt.wellFormed hbuilt'.wellFormed htail hfields) hkey tag tag'

/-! ## What the canonical form does not tell apart -/

def merged (uuids : UuidCrate) (spec spec' : NodeSpec) (matrix : CapabilityMatrix) :
    Option (ProxyNode × ProxyNode) :=
  match validateNodeSpec uuids spec matrix, validateNodeSpec uuids spec' matrix with
  | .ok outcome, .ok outcome' =>
    if canonicalNodeBytes outcome.node = canonicalNodeBytes outcome'.node then
      some (outcome.node, outcome'.node)
    else none
  | _, _ => none

variable {matrix : CapabilityMatrix} {spec spec' : NodeSpec}

theorem exists_of_merged {pair : ProxyNode × ProxyNode}
    (h : merged uuids spec spec' matrix = some pair) :
    ∃ outcome outcome', validateNodeSpec uuids spec matrix = .ok outcome ∧
      validateNodeSpec uuids spec' matrix = .ok outcome' ∧ pair = (outcome.node, outcome'.node) ∧
      canonicalNodeBytes outcome.node = canonicalNodeBytes outcome'.node := by
  unfold merged at h
  split at h
  next outcome outcome' houtcome houtcome' =>
    split_ifs at h with heq
    cases h
    exact ⟨outcome, outcome', houtcome, houtcome', rfl, heq⟩
  · cases h

def hysteriaUp (up : Option UInt32) : NodeSpec :=
  { minimal "hysteria2" "node.example" 443 with
    password := some "secret", tls := true, upMbps := up }

theorem hysteriaUp_short (up : Option UInt32) : Short (hysteriaUp up) := by
  intro t ht
  have hsecret : t = "secret" := by simpa [secrets, hysteriaUp, minimal] using ht
  rw [hsecret]
  decide

theorem hysteriaUp_merged :
    ∃ outcome outcome', validateNodeSpec plainUuids (hysteriaUp none) .default = .ok outcome ∧
      validateNodeSpec plainUuids (hysteriaUp (some 0)) .default = .ok outcome' ∧
      countsAs "up_mbps" (member (composeOutbound outcome.node "a") "up_mbps") =
        countsAs "up_mbps" (member (composeOutbound outcome'.node "b") "up_mbps") := by
  have hsome :
      (merged plainUuids (hysteriaUp none) (hysteriaUp (some 0)) .default).isSome = true := by
    decide +kernel
  obtain ⟨pair, hpair⟩ := isSome_iff_exists.mp hsome
  obtain ⟨outcome, outcome', h, h', -, heq⟩ := exists_of_merged hpair
  refine ⟨outcome, outcome', h, h', composeOutbound_of_canonicalNodeBytes_eq h h'
    (hysteriaUp_short _) (hysteriaUp_short _)
    (fun hforms => absurd hforms (not_headersBeforeOptions_of_default h)) heq (by decide) "a" "b"⟩

def socksUser (username password : String) : NodeSpec :=
  { minimal "socks" "node.example" 1080 with
    username := some username, password := some password }

variable {username password : String}

theorem socksUser_credentials (hname : username ≠ "") (hpassword : password ≠ "") :
    makeCredentials uuids (socksUser username password) .socks =
      .ok (.socks (some ⟨username⟩) (some ⟨password⟩)) := by
  have hpair : optionalUserPassword (socksUser username password) =
      .ok (some ⟨username⟩, some ⟨password⟩) := by
    refine bind_eq_ok.mpr ⟨(), ensure_eq_ok.mpr ?_, rfl⟩
    rw [Bool.and_eq_true, bne_iff_ne, bne_iff_ne]
    exact ⟨hname, hpassword⟩
  exact bind_eq_ok.mpr ⟨(), rfl, bind_eq_ok.mpr ⟨(), rfl, bind_eq_ok.mpr ⟨_, hpair, rfl⟩⟩⟩

theorem validate_socks {u w u' w' : Option SecretString} {accepted : ProxyNode}
    (h : ProxyNode.validate { node with credentials := .socks u w } matrix = .ok accepted) :
    ∃ accepted', ProxyNode.validate { node with credentials := .socks u' w' } matrix =
      .ok accepted' := by
  simp only [ProxyNode.validate, bind_eq_ok, ensure_eq_ok] at h
  obtain ⟨_, h1, _, h2, _, h3, _, h4, _, h5, _, h6, _, h7, _, h8, _, h9, id, hid, -⟩ := h
  exact exists_ensure_bind h1 (exists_ensure_bind h2 (exists_ensure_bind h3 (exists_ensure_bind h4
    (exists_ensure_bind h5 (exists_ensure_bind h6 (exists_ensure_bind h7 (exists_ensure_bind h8
    (exists_ensure_bind h9 (exists_bind_eq_ok hid ⟨_, rfl⟩)))))))))

section

variable (hname : username ≠ "") (hpassword : password ≠ "")

include hname hpassword

theorem socksUser_accepted : ∃ outcome,
    validateNodeSpec plainUuids (socksUser username password) .default = .ok outcome := by
  have hsample :
      (merged plainUuids (socksUser "u" "w") (socksUser "u" "w") .default).isSome = true := by
    decide +kernel
  obtain ⟨pair, hpair⟩ := isSome_iff_exists.mp hsample
  obtain ⟨outcome, -, h, -⟩ := exists_of_merged hpair
  simp only [validateNodeSpec, bind_eq_ok, ensure_eq_ok, okOr_eq_ok, mapError_eq_ok] at h
  obtain ⟨_, h1, protocol, hprotocol, _, h2, _, h3, _, h4, tls, htls, credentials, hcredentials,
    endpoint, hendpoint, transport, htransport, options, hoptions, _, h5, _, h6, name, hdisplay,
    node, hnode, -⟩ := h
  have hsocks : ProxyProtocol.fromStr "socks" = some .socks := by decide
  have hkind : protocol = .socks := some_inj.mp (hprotocol.symm.trans hsocks)
  subst hkind
  have hsame := hcredentials.symm.trans (socksUser_credentials (by decide) (by decide))
  cases hsame
  obtain ⟨accepted, haccepted⟩ := @validate_socks
    ⟨name, .socks, endpoint, .socks none none, tls, transport, options,
      ⟨true, false, false, false, false⟩, []⟩ _ _ _ (some ⟨username⟩) (some ⟨password⟩) _ hnode
  exact exists_ensure_bind h1 (exists_bind_eq_ok (okOr_eq_ok.mpr hprotocol)
    (exists_ensure_bind h2 (exists_ensure_bind h3 (exists_ensure_bind h4 (exists_bind_eq_ok htls
    (exists_bind_eq_ok (socksUser_credentials hname hpassword)
    (exists_bind_eq_ok (mapError_eq_ok.mpr hendpoint) (exists_bind_eq_ok htransport
    (exists_bind_eq_ok hoptions (exists_ensure_bind h5
    (exists_ensure_bind h6 (exists_bind_eq_ok hdisplay
    (exists_bind_eq_ok (mapError_eq_ok.mpr haccepted) ⟨_, rfl⟩)))))))))))))

theorem socksUser_built (h : Built uuids (socksUser username password) node) :
    node.protocol = .socks ∧ node.credentials = .socks (some ⟨username⟩) (some ⟨password⟩) := by
  have hsocks : ProxyProtocol.fromStr "socks" = some .socks := by decide
  have hprotocol : node.protocol = .socks := some_inj.mp (h.protocol.symm.trans hsocks)
  have hcredentials := h.credentials
  rw [hprotocol, socksUser_credentials hname hpassword] at hcredentials
  exact ⟨hprotocol, (Except.ok.inj hcredentials).symm⟩

theorem socksUser_canonicalFields (h : Built uuids (socksUser username password) node) :
    canonicalFields node = [("schema", "1"), ("protocol", "socks"), ("server", "node.example"),
       ("port", toString (1080 : UInt16).toNat)] ++
        [("username", username), ("password", password)] ++
        [("tls", "0"), ("insecure", "0"), ("sni", ""), ("utls", ""), ("transport", "Tcp"),
         ("socks_version", "5"), ("udp", "0")] := by
  obtain ⟨hprotocol, hcredentials⟩ := socksUser_built hname hpassword h
  have htls := h.tls
  have htransport := h.transport
  have hoptions := h.protocolOptions
  have hudp := h.udp
  obtain ⟨hserver, hport⟩ := Endpoint.new_eq_ok h.endpoint
  rw [hprotocol] at htls htransport hoptions hudp
  have htls : node.tls = ⟨false, none, false, [], none, none⟩ := (Except.ok.inj htls).symm
  obtain ⟨version, hversion, hoptions⟩ : ∃ version : BoundedText 8, version.value = "5" ∧
      node.protocolOptions = .socks ⟨version, none⟩ := by
    simp only [makeProtocolOptions, bind_eq_ok, text_eq_ok] at hoptions
    obtain ⟨_, -, version, hversion, hoptions⟩ := hoptions
    exact ⟨version, hversion, (Except.ok.inj hoptions).symm⟩
  rw [canonicalFields, hprotocol, hserver, hport, hcredentials, htls,
    makeTransport_proxy (.inr rfl) htransport, hoptions, hudp]
  simp only [encodeProtocolOptions, hversion]
  rfl

end

/-- The bytes in front of a password of one byte. -/
def passwordHeader : String := "\x00\x00\x00\x08password\x00\x00\x00\x01"

theorem textBytes_passwordHeader :
    textBytes passwordHeader = frame (textBytes "password") ++ toBeBytes 4 1 := by decide

/-- A length that does not fit into four bytes is cut, so bytes of a value are taken for
the name and the length of the next field. -/
theorem encode_cut {x : String} (hx : x.utf8ByteSize = 2 ^ 32 - 16) :
    encodeFields [("username", "u" ++ passwordHeader ++ x), ("password", "w")] =
      encodeFields [("username", "u"), ("password", x ++ passwordHeader ++ "w")] := by
  have hlong : toBeBytes 4 (2 ^ 32 + 1) = toBeBytes 4 1 := by decide
  have hsize : ("u" ++ passwordHeader ++ x).utf8ByteSize = 2 ^ 32 + 1 := by
    have hfront : ("u" ++ passwordHeader).utf8ByteSize = 17 := by decide
    rw [utf8ByteSize_append, hfront]
    omega
  have hsize' : (x ++ passwordHeader ++ "w").utf8ByteSize = 2 ^ 32 + 1 := by
    have hback : passwordHeader.utf8ByteSize = 16 := by decide
    have hw : "w".utf8ByteSize = 1 := by decide
    rw [utf8ByteSize_append, utf8ByteSize_append]
    omega
  have hu : "u".utf8ByteSize = 1 := by decide
  have hw : "w".utf8ByteSize = 1 := by decide
  simp only [encodeFields_cons, encodeFields_nil, field, frame, length_textBytes, hsize, hsize',
    hu, hw, hlong]
  simp [frame, textBytes_append, textBytes_passwordHeader]

theorem exists_size (n : Nat) : ∃ x : String, x.utf8ByteSize = n := by
  refine ⟨ofList (replicate n 'x'), ?_⟩
  rw [utf8ByteSize_ofList]
  induction n with
  | zero => rfl
  | succ n ih =>
    rw [replicate_succ, utf8Len_cons, ih]
    rfl

def shadowsocksHeaders (headers : List (String × String))
    (udpOverTcp : Option UdpOverTcpOptions) : NodeSpec :=
  { minimal "ss" "node.example" 443 with
    method := some "aes-128-gcm", password := some "secret", transport := some "ws",
    headers := .collect headers, udpOverTcp := udpOverTcp }

/-- A matrix that admits Shadowsocks over WebSocket, as the shipped one does not. -/
def webSocketMatrix : CapabilityMatrix where
  entries :=
    [{ query := ⟨.shadowsocks, .webSocket, false, false, false, false, none, none⟩
       supported := true
       evidence := some { id := "e", checkFixture := "f" } }]

theorem exists_of_merged_any
    (h : (merged uuids spec spec' matrix).any (fun pair =>
      (member (composeOutbound pair.1 "n") key).isSome !=
        (member (composeOutbound pair.2 "n") key).isSome) = true) :
    ∃ outcome outcome', validateNodeSpec uuids spec matrix = .ok outcome ∧
      validateNodeSpec uuids spec' matrix = .ok outcome' ∧
      canonicalNodeBytes outcome.node = canonicalNodeBytes outcome'.node ∧
      member (composeOutbound outcome.node "n") key ≠
        member (composeOutbound outcome'.node "n") key := by
  rw [Option.any_eq_true] at h
  obtain ⟨pair, hpair, hdiffer⟩ := h
  obtain ⟨outcome, outcome', houtcome, houtcome', rfl, heq⟩ := exists_of_merged hpair
  refine ⟨outcome, outcome', houtcome, houtcome', heq, fun hsame => ?_⟩
  rw [hsame, bne_self_eq_false] at hdiffer
  cases hdiffer

theorem member_username {node : ProxyNode} (hprotocol : node.inner.protocol = .socks)
    (hcredentials : node.inner.credentials = .socks (some ⟨username⟩) (some ⟨password⟩))
    (hoptions : OptionsFor node.inner.protocol node.inner.protocolOptions) (tag : String) :
    member (composeOutbound node tag) "username" = some (.string username) := by
  rw [hprotocol] at hoptions
  obtain ⟨options, hsocks⟩ : ∃ options, node.inner.protocolOptions = .socks options := by
    generalize node.inner.protocolOptions = o at hoptions
    cases hoptions with
    | socks options => exact ⟨options, rfl⟩
  have htls (b : Bool) (j : Json) :
      (if b then [("tls", j)] else []).reverse.lookup "username" = none := by
    cases b <;> rfl
  have htransport (b : Prop) [Decidable b] (j : Json) :
      (if b then [] else [("transport", j)]).reverse.lookup "username" = none := by
    split <;> rfl
  rw [composeOutbound, member_objectOf, hsocks, optionMembers, nodeMembers, hcredentials]
  simp only [credentialMembers, reverse_append, lookup_append, lookup_optionalMember,
    htls, htransport]
  simp [SortedMap.lookup_cons]

/-- A bandwidth that is left out and one of zero, a user name of more than four gibibytes and
a long password, and headers that pass for options are each merged, although the core would
be given different outbounds. -/
theorem merged_outbounds_differ :
    (∃ outcome outcome', validateNodeSpec plainUuids (hysteriaUp none) .default = .ok outcome ∧
        validateNodeSpec plainUuids (hysteriaUp (some 0)) .default = .ok outcome' ∧
        canonicalNodeBytes outcome.node = canonicalNodeBytes outcome'.node ∧
        member (composeOutbound outcome.node "n") "up_mbps" ≠
          member (composeOutbound outcome'.node "n") "up_mbps") ∧
      (∃ spec spec' outcome outcome', validateNodeSpec plainUuids spec .default = .ok outcome ∧
        validateNodeSpec plainUuids spec' .default = .ok outcome' ∧
        canonicalNodeBytes outcome.node = canonicalNodeBytes outcome'.node ∧
        member (composeOutbound outcome.node "n") "username" ≠
          member (composeOutbound outcome'.node "n") "username") ∧
      ∃ spec spec' outcome outcome',
        validateNodeSpec plainUuids spec webSocketMatrix = .ok outcome ∧
        validateNodeSpec plainUuids spec' webSocketMatrix = .ok outcome' ∧
        canonicalNodeBytes outcome.node = canonicalNodeBytes outcome'.node ∧
        member (composeOutbound outcome.node "n") "udp_over_tcp" ≠
          member (composeOutbound outcome'.node "n") "udp_over_tcp" := by
  refine ⟨exists_of_merged_any (by decide +kernel), ?_, ?_⟩
  · obtain ⟨x, hx⟩ := exists_size (2 ^ 32 - 16)
    have hname : "u" ++ passwordHeader ++ x ≠ "" := by simp
    have hpassword : x ++ passwordHeader ++ "w" ≠ "" := by simp
    obtain ⟨outcome, h⟩ := socksUser_accepted hname (by decide : "w" ≠ "")
    obtain ⟨outcome', h'⟩ := socksUser_accepted (by decide : "u" ≠ "") hpassword
    have hbuilt := (validateNodeSpec_eq_ok h).1
    have hbuilt' := (validateNodeSpec_eq_ok h').1
    refine ⟨_, _, outcome, outcome', h, h', ?_, ?_⟩
    · rw [canonicalNodeBytes, canonicalNodeBytes,
        socksUser_canonicalFields hname (by decide) hbuilt,
        socksUser_canonicalFields (by decide) hpassword hbuilt', encodeFields_append,
        encodeFields_append, encode_cut hx, encodeFields_append, encodeFields_append]
    · obtain ⟨hprotocol, hcredentials⟩ := socksUser_built hname (by decide) hbuilt
      obtain ⟨hprotocol', hcredentials'⟩ := socksUser_built (by decide) hpassword hbuilt'
      rw [member_username hprotocol hcredentials hbuilt.wellFormed.options,
        member_username hprotocol' hcredentials' hbuilt'.wellFormed.options]
      intro hsame
      have hsize := congrArg utf8ByteSize (Json.string.inj (some_inj.mp hsame))
      have hu : "u".utf8ByteSize = 1 := by decide
      rw [utf8ByteSize_append] at hsize
      omega
  · exact ⟨shadowsocksHeaders [("udp_over_tcp_enabled", "true"), ("udp_over_tcp_version", "2")]
        none,
      shadowsocksHeaders [] (some ⟨true, 2⟩), exists_of_merged_any (by decide +kernel)⟩

end NetHop.Node
