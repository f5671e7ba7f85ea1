import NetHop.Fetch.Adapter

/-!
# Where a fetch goes

Which requests a fetch sends and which addresses it connects to, over every answer of the
network.  Without a proxy the host of every request resolves to addresses that may be
fetched from.  With the local proxy the host is left to the proxy, and neither a literal
address nor what the proxy makes of a name is looked at.
-/

namespace NetHop.Fetch

open List Traced Event Nat

variable {localProxy : Option SocketAddr} {hop : Nat} {υ : Type}

/-! ## What a name resolves to -/

def DohRecord.address (record : DohRecord) : Option IpAddr :=
  if record.recordType = 1 ∨ record.recordType = 28 then record.data else none

def DohReply.addresses (reply : DohReply) : List IpAddr :=
  (reply.body.map fun answer => answer.answers.filterMap DohRecord.address).getD []

def Network.answered (net : Network) (hop : Nat) (name : String) (type : RecordType) :
    List IpAddr :=
  match net.dohReply hop name type with
  | .ok reply => reply.addresses
  | .error _ => []

def Network.addresses (net : Network) (hop : Nat) : Host → List IpAddr
  | .ipv4 address => [address]
  | .domain name | .ipv6 name _ => net.answered hop name .a ++ net.answered hop name .aaaa

/-- The addresses a request for a host goes to: those of the resolver, or those the proxy
is handed or finds. -/
def Network.targets (net : Network) (proxied : Bool) (hop : Nat) (host : Host) : List IpAddr :=
  if proxied then
    match host with
    | .ipv4 address | .ipv6 _ address => [address]
    | .domain name => net.proxied hop name
  else net.addresses hop host

/-- A request for a URL goes to addresses that may be fetched from. -/
def HostAllowed (net : Network) (proxied : Bool) (hop : Nat) (url : Url) : Prop :=
  ∀ host ∈ url.host, ∀ address ∈ net.targets proxied hop host,
    isDeniedSsrfAddress address = false

variable {addrs : List SocketAddr}

section

variable {scheme : String}

@[simp] theorem addressIsAllowed_none (address : SocketAddr) :
    addressIsAllowed none scheme address = !isDeniedSsrfAddress address.ip := by
  simp [addressIsAllowed]

theorem resolveAddresses_eq_ok {addresses : List IpAddr} {port : UInt16}
    (h : resolveAddresses localProxy scheme addresses port = .ok addrs) :
    addrs = addresses.map (⟨·, port⟩) ∧
      ∀ address ∈ addresses, addressIsAllowed localProxy scheme ⟨address, port⟩ = true := by
  simp only [resolveAddresses, bind_eq_ok, mapM_eq_ok] at h
  obtain ⟨resolved, hresolved, -, -, h⟩ := h
  cases h
  have hpairs : List.Forall₂ (fun address (socket : SocketAddr) =>
      socket = ⟨address, port⟩ ∧ addressIsAllowed localProxy scheme ⟨address, port⟩ = true)
      addresses addrs := by
    refine hresolved.imp fun address socket hsocket => ?_
    simp only [ensure_eq_ok] at hsocket
    obtain ⟨-, hallowed, hsocket⟩ := hsocket
    cases hsocket
    exact ⟨rfl, hallowed⟩
  refine ⟨?_, forall_of_forall₂ (hpairs.imp fun _ _ h => h.2)⟩
  exact (forall₂_iff_map_eq.mp (hpairs.flip.imp fun _ _ h => h.1.symm)).symm

end

variable {addresses found : SortedMap IpAddr Unit}

theorem insertRecord_eq_ok {record : DohRecord} (h : insertRecord addresses record = .ok found)
    (address : IpAddr) :
    address ∈ found.keys ↔ record.address = some address ∨ address ∈ addresses.keys := by
  unfold insertRecord at h
  unfold DohRecord.address
  split_ifs at h ⊢ with htype
  · simp only [bind_eq_ok, okOr_eq_ok] at h
    obtain ⟨new, hnew, -, -, h⟩ := h
    cases h
    rw [SortedMap.mem_keys_insert, hnew, Option.some_inj, eq_comm]
  · cases h
    simp

theorem foldlM_insertRecord_eq_ok {records : List DohRecord}
    (h : records.foldlM insertRecord addresses = .ok found) (address : IpAddr) :
    address ∈ found.keys ↔
      address ∈ records.filterMap DohRecord.address ∨ address ∈ addresses.keys := by
  induction records generalizing addresses with
  | nil =>
    cases h
    simp
  | cons record records ih =>
    obtain ⟨middle, hmiddle, h⟩ := bind_eq_ok.mp h
    rw [ih h, insertRecord_eq_ok hmiddle, mem_filterMap, mem_filterMap]
    simp only [mem_cons, exists_eq_or_imp]
    rw [or_assoc]
    exact or_left_comm

variable {e : Event} {target : Target}

section

variable {net : Network}

theorem resolveRecordType_eq_ok {name : String} {type : RecordType}
    (h : (resolveRecordType net hop name type addresses).result = .ok found) (address : IpAddr) :
    address ∈ found.keys ↔ address ∈ net.answered hop name type ∨ address ∈ addresses.keys := by
  simp only [resolveRecordType, result_bind_eq_ok, result_lift, okOr_eq_ok] at h
  obtain ⟨-, -, -, -, reply, hreply, -, -, answer, hanswer, h⟩ := h
  obtain ⟨-, -, h⟩ := bind_eq_ok.mp h
  rw [foldlM_insertRecord_eq_ok h]
  simp [Network.answered, hreply, DohReply.addresses, hanswer]

theorem resolve_eq_ok (h : (resolve net hop localProxy target).result = .ok addrs) :
    (∀ address, address ∈ net.addresses hop target.host ↔ ⟨address, target.port⟩ ∈ addrs) ∧
      (∀ address ∈ addrs, addressIsAllowed localProxy target.scheme address = true ∧
        address.port = target.port) := by
  obtain ⟨scheme, host, port⟩ := target
  obtain ⟨found, hfound, hsame⟩ : ∃ found,
      resolveAddresses localProxy scheme found port = .ok addrs ∧
        ∀ address, address ∈ net.addresses hop host ↔ address ∈ found := by
    cases host with
    | ipv4 address => exact ⟨[address], h, fun _ => .rfl⟩
    | domain name | ipv6 name address =>
      simp only [resolve, result_bind_eq_ok, result_lift] at h
      obtain ⟨first, hfirst, second, hsecond, h⟩ := h
      refine ⟨second.keys, h, fun address => ?_⟩
      rw [resolveRecordType_eq_ok hsecond, resolveRecordType_eq_ok hfirst, Network.addresses,
        mem_append]
      simp [SortedMap.keys, or_comm]
  obtain ⟨rfl, hallowed⟩ := resolveAddresses_eq_ok hfound
  constructor
  · intro address
    simp [hsame]
  · intro address haddress
    obtain ⟨ip, hip, rfl⟩ := mem_map.mp haddress
    exact ⟨hallowed ip hip, rfl⟩

/-! ## Where connections go -/

variable {tcp : SocketAddr → Except ConnectError SocketAddr}

theorem connectFirst_trace {approved : List SocketAddr}
    (h : e ∈ (connectFirst tcp hop approved addrs).trace) :
    ∃ address ∈ addrs, e = .dial hop address ∨ e = .peer hop address := by
  induction addrs with
  | nil => exact absurd h not_mem_nil
  | cons address addrs ih =>
    rw [connectFirst, mem_trace_bind] at h
    rcases h with h | ⟨-, -, h⟩
    · exact ⟨address, mem_cons_self, .inl (mem_singleton.mp h)⟩
    cases htcp : tcp address with
    | ok peer =>
      simp only [htcp, mem_trace_bind, trace_lift, result_lift,
        trace_emit, trace_pure, not_mem_nil, false_or, and_false, exists_false, or_false,
        mem_singleton, ensure_eq_ok, Bool.and_eq_true, beq_iff_eq] at h
      obtain ⟨-, ⟨hpeer, -⟩, h⟩ := h
      exact ⟨address, mem_cons_self, .inr (hpeer ▸ h)⟩
    | error error =>
      cases error with
      | refused =>
        rw [htcp] at h
        obtain ⟨other, hmem, he⟩ := ih h
        exact ⟨other, mem_cons_of_mem _ hmem, he⟩
      | timedOut | other =>
        rw [htcp] at h
        exact absurd h not_mem_nil

theorem connect_trace {scheme : String} (h : e ∈ (connect tcp hop localProxy scheme addrs).trace) :
    ∃ address ∈ addrs, e = .dial hop address ∨ e = .peer hop address := by
  rw [connect, mem_trace_bind] at h
  rcases h with h | ⟨-, -, h⟩
  · exact absurd h not_mem_nil
  · exact connectFirst_trace h

theorem resolve_trace (h : e ∈ (resolve net hop localProxy target).trace) :
    e = .dial hop dohAddress ∨ e = .peer hop dohAddress := by
  have hrecord {name : String} {type : RecordType} {addresses : SortedMap IpAddr Unit}
      (h : e ∈ (resolveRecordType net hop name type addresses).trace) :
      e = .dial hop dohAddress ∨ e = .peer hop dohAddress := by
    simp only [resolveRecordType, mem_trace_bind, trace_lift, result_lift,
      not_mem_nil, false_or, and_false, exists_false, or_false] at h
    obtain ⟨fixed, hfixed, h⟩ := h
    obtain ⟨address, haddress, he⟩ := connect_trace h
    rw [(resolveAddresses_eq_ok hfixed).1, map_singleton, mem_singleton] at haddress
    rw [haddress] at he
    exact he
  unfold resolve at h
  cases hhost : target.host with
  | ipv4 address =>
    rw [hhost] at h
    exact absurd h not_mem_nil
  | domain name | ipv6 name address =>
    simp only [hhost, mem_trace_bind, trace_lift, not_mem_nil, and_false,
      exists_false, or_false] at h
    rcases h with h | ⟨first, -, h⟩ <;> exact hrecord h

theorem connectTarget_trace (h : e ∈ (connectTarget net hop localProxy target).trace) :
    ∃ address, (e = .dial hop address ∨ e = .peer hop address) ∧
      (address = dohAddress ∨ address.ip ∈ net.addresses hop target.host ∧
        addressIsAllowed localProxy target.scheme address = true ∧ address.port = target.port) := by
  rw [connectTarget, mem_trace_bind] at h
  rcases h with h | ⟨addrs, haddrs, h⟩
  · exact ⟨dohAddress, resolve_trace h, .inl rfl⟩
  · obtain ⟨hall, hallowed⟩ := resolve_eq_ok haddrs
    obtain ⟨address, hmem, he⟩ := connect_trace h
    obtain ⟨hthis, hport⟩ := hallowed address hmem
    exact ⟨address, he, .inr ⟨(hall _).mpr (hport ▸ hmem), hthis, hport⟩⟩

theorem connectTarget_proxy {proxy : SocketAddr} (hloopback : proxy.ip.isLoopback = true) :
    (∃ peer, (connectTarget net hop (some proxy) ⟨"http", .ipv4 proxy.ip, proxy.port⟩).result =
      .ok peer) ↔ net.connect hop proxy = .ok proxy := by
  have hallowed : addressIsAllowed (some proxy) "http" proxy = true := by
    simp [addressIsAllowed, hloopback]
  have hresolve : resolveAddresses (some proxy) "http" [proxy.ip] proxy.port = .ok [proxy] :=
    bind_eq_ok.mpr ⟨[proxy], mapM_eq_ok.mpr (.cons (bind_eq_ok.mpr
      ⟨(), ensure_eq_ok.mpr hallowed, rfl⟩) .nil), rfl⟩
  simp only [connectTarget, resolve, connect, connectFirst, result_bind_eq_ok,
    result_lift, hresolve, Except.ok.injEq, exists_eq_left', ensure_eq_ok]
  cases htcp : net.connect hop proxy with
  | ok peer =>
    simp [result_bind_eq_ok, hallowed]
  | error error =>
    cases error <;> simp [hallowed]

def connectedTo (localProxy : Option SocketAddr) (target : Target) : Target :=
  match localProxy with
  | none => target
  | some proxy => ⟨"http", .ipv4 proxy.ip, proxy.port⟩

variable {request : Request}

theorem call_trace (h : e ∈ (call net hop localProxy request).trace) :
    ∃ target, targetOf request.url = .ok target ∧ request.url.scheme = "https" ∧
      (e ∈ (connectTarget net hop localProxy (connectedTo localProxy target)).trace ∨
        e = .request hop request ∧
          ∃ peer, (connectTarget net hop localProxy (connectedTo localProxy target)).result =
            .ok peer) := by
  simp only [call, mem_trace_bind, trace_lift, result_lift,
    trace_emit, not_mem_nil, false_or, and_false, exists_false, or_false,
    mem_singleton, ensure_eq_ok, beq_iff_eq] at h
  obtain ⟨-, hscheme, target, htarget, h⟩ := h
  refine ⟨target, htarget, hscheme, ?_⟩
  rcases h with h | ⟨peer, hpeer, h⟩
  · exact .inl h
  · exact .inr ⟨h, peer, hpeer⟩

theorem request_of_call {hop' : Nat} {request' : Request}
    (h : .request hop' request' ∈ (call net hop localProxy request).trace) :
    hop' = hop ∧ request' = request ∧ request.url.scheme = "https" ∧
      ∃ target peer, targetOf request.url = .ok target ∧
        (connectTarget net hop localProxy (connectedTo localProxy target)).result = .ok peer := by
  obtain ⟨target, htarget, hscheme, h | ⟨hevent, peer, hpeer⟩⟩ := call_trace h
  · obtain ⟨address, hevent | hevent, -⟩ := connectTarget_trace h
    · cases hevent
    · cases hevent
  · cases hevent
    exact ⟨rfl, rfl, hscheme, target, peer, htarget, hpeer⟩

theorem request_mem_call {peer : SocketAddr} (hscheme : request.url.scheme = "https")
    (htarget : targetOf request.url = .ok target)
    (hpeer : (connectTarget net hop localProxy (connectedTo localProxy target)).result = .ok peer) :
    .request hop request ∈ (call net hop localProxy request).trace := by
  simp only [call, mem_trace_bind, trace_lift, result_lift,
    trace_emit, not_mem_nil, false_or, and_false, exists_false, or_false,
    mem_singleton, ensure_eq_ok, beq_iff_eq]
  exact ⟨(), hscheme, target, htarget, .inr ⟨peer, hpeer, trivial⟩⟩

def Event.isRequest : Event → Bool
  | .request _ _ => true
  | _ => false

theorem countP_call_le : (call net hop localProxy request).trace.countP isRequest ≤ 1 := by
  have hnone (target : Target) :
      (connectTarget net hop localProxy target).trace.countP isRequest = 0 := by
    rw [countP_eq_zero]
    intro e he
    obtain ⟨address, rfl | rfl, -⟩ := connectTarget_trace he <;> simp [isRequest]
  refine countP_trace_lift_bind_le fun _ _ => ?_
  refine countP_trace_lift_bind_le fun target _ => ?_
  refine countP_trace_bind_le (n := 0) (m := 1) (hnone _).le fun _ _ => ?_
  exact countP_trace_bind_le (n := 1) (m := 0) (le_refl 1) fun _ _ => le_refl 0

end

/-! ## Rounds -/

variable {response : Response} {current : Url} {seen : Nat}

section

variable (lib : Library υ) (call : Nat → Request → Traced Event UreqError Response)
  (endpoint : FetchEndpoint) (profile : RequestProfile) (cache : SourceCache υ)
  (policy : FetchPolicy) (maxBodyBytes : Nat)

/-- The URL a fetch is redirected to from a round that asks for another one. -/
inductive Visited : Nat → Url → Nat → Url → Prop
  | here (hop : Nat) (url : Url) : Visited hop url hop url
  | redirect {seen hop : Nat} {current next url : Url} {response : Response}
      (hcall : (call seen (requestFor lib cache profile current)).result = .ok response)
      (hread : readResponse lib endpoint cache policy maxBodyBytes seen current response =
        .ok (.redirect next))
      (hrest : Visited (seen + 1) next hop url) : Visited seen current hop url

variable {lib call endpoint profile cache policy maxBodyBytes}

theorem readResponse_redirect {next : Url}
    (h : readResponse lib endpoint cache policy maxBodyBytes seen current response =
      .ok (.redirect next)) :
    seen < policy.maxRedirects ∧ ValidUrl next := by
  unfold readResponse at h
  split_ifs at h
  · simp only [bind_eq_ok] at h
    obtain ⟨_, -, h⟩ := h
    cases h
  · simp only [bind_eq_ok, asFetch, mapError_eq_ok, nextRedirect, validateFetchUrl, ensure_eq_ok,
      okOr_eq_ok, decide_eq_true_eq, beq_iff_eq, Bool.and_eq_true, Option.isNone_iff_eq_none] at h
    obtain ⟨location, -, next', ⟨-, hseen, target, -, url, -, -, hscheme, -, ⟨hname, hpassword⟩, -,
      hhost, hurl⟩, h⟩ := h
    cases h
    cases hurl
    exact ⟨hseen, hscheme, hname, hpassword, hhost⟩
  · simp only [bind_eq_ok] at h
    obtain ⟨_, -, h⟩ := h
    cases h

theorem mem_trace_fetchLoop {rounds : Nat}
    (h : e ∈ (fetchLoop lib call endpoint profile cache policy maxBodyBytes rounds seen
      current).trace) :
    ∃ hop url, Visited lib call endpoint profile cache policy maxBodyBytes seen current hop url ∧
      e ∈ (call hop (requestFor lib cache profile url)).trace := by
  induction rounds generalizing seen current with
  | zero => exact absurd h not_mem_nil
  | succ rounds ih =>
    simp only [fetchLoop, mem_trace_bind, trace_mapError, result_mapError,
      mapError_eq_ok, trace_lift, result_lift, not_mem_nil, false_or] at h
    rcases h with h | ⟨response, hcall, round, hread, h⟩
    · exact ⟨seen, current, .here seen current, h⟩
    · cases round with
      | done outcome => exact absurd h not_mem_nil
      | redirect next =>
        obtain ⟨hop, url, hvisited, he⟩ := ih h
        exact ⟨hop, url, .redirect hcall hread hvisited, he⟩

theorem trace_fetchLoop_of_visited {rounds : Nat} {url : Url}
    (hrounds : policy.maxRedirects < seen + rounds) (hseen : seen ≤ policy.maxRedirects)
    (hvisited : Visited lib call endpoint profile cache policy maxBodyBytes seen current hop url)
    (he : e ∈ (call hop (requestFor lib cache profile url)).trace) :
    e ∈ (fetchLoop lib call endpoint profile cache policy maxBodyBytes rounds seen
      current).trace := by
  induction hvisited generalizing rounds with
  | here hop url =>
    cases rounds with
    | zero => omega
    | succ rounds =>
      rw [fetchLoop, mem_trace_bind]
      exact .inl he
  | redirect hcall hread hrest ih =>
    have hlimit := (readResponse_redirect hread).1
    cases rounds with
    | zero => omega
    | succ rounds =>
      simp only [fetchLoop, mem_trace_bind, trace_mapError,
        result_mapError, mapError_eq_ok, trace_lift, result_lift, not_mem_nil, false_or]
      exact .inr ⟨_, hcall, _, hread, ih (by omega) (by omega) he⟩

theorem countP_fetchLoop_le (hcall : ∀ hop request,
    (call hop request).trace.countP isRequest ≤ 1) (rounds seen : Nat) (current : Url) :
    (fetchLoop lib call endpoint profile cache policy maxBodyBytes rounds seen
      current).trace.countP isRequest ≤ rounds := by
  induction rounds generalizing seen current with
  | zero => exact le_refl 0
  | succ rounds ih =>
    rw [fetchLoop, add_comm rounds 1]
    refine countP_trace_bind_le (hcall _ _) fun response _ => ?_
    refine countP_trace_lift_bind_le fun round _ => ?_
    cases round with
    | done outcome => exact zero_le _
    | redirect next => exact ih _ _

theorem Visited.snoc {url next : Url}
    (h : Visited lib call endpoint profile cache policy maxBodyBytes seen current hop url)
    (hcall : (call hop (requestFor lib cache profile url)).result = .ok response)
    (hread : readResponse lib endpoint cache policy maxBodyBytes hop url response =
      .ok (.redirect next)) :
    Visited lib call endpoint profile cache policy maxBodyBytes seen current (hop + 1) next := by
  induction h with
  | here hop url => exact .redirect hcall hread (.here _ _)
  | redirect hcall' hread' hrest ih => exact .redirect hcall' hread' (ih hcall hread)

end

/-! ## The whole fetch -/

variable {proxy : LocalFetchProxy}

section

variable (lib : Library υ) (net : Network) (endpoint : FetchEndpoint) (profile : RequestProfile)
  (cache : SourceCache υ) (policy : FetchPolicy) (maxBodyBytes : Nat)

/-- The URL of each hop, as the answers of the servers redirect from one to the next. -/
inductive Hop : Nat → Url → Prop
  | first : Hop 0 endpoint.url
  | next {hop : Nat} {url next : Url} {response : Response} (h : Hop hop url)
      (hreply : net.reply hop (requestFor lib cache profile url) = .ok response)
      (hread : readResponse lib endpoint cache policy maxBodyBytes hop url response =
        .ok (.redirect next)) : Hop (hop + 1) next

structure Guarded (localProxy : Option LocalFetchProxy) (trace : List Event) : Prop where
  requests_le : trace.countP isRequest ≤ policy.maxRedirects + 1
  https : ∀ hop request, .request hop request ∈ trace → request.url.scheme = "https"
  hosts : ∀ hop request, .request hop request ∈ trace →
    HostAllowed net localProxy.isSome hop request.url
  connections : ∀ hop address, .dial hop address ∈ trace ∨ .peer hop address ∈ trace →
    address = dohAddress ∨ (∃ proxy ∈ localProxy, address = proxy.endpoint) ∨
      ∃ url host, Hop lib net endpoint profile cache policy maxBodyBytes hop url ∧
        url.host = some host ∧ address.ip ∈ net.addresses hop host ∧
        isDeniedSsrfAddress address.ip = false

variable {lib net endpoint profile cache policy maxBodyBytes} {url : Url}

theorem Hop.valid (h : Hop lib net endpoint profile cache policy maxBodyBytes hop url) :
    ValidUrl url := by
  induction h with
  | first => exact endpoint.valid
  | next h hreply hread ih => exact (readResponse_redirect hread).2

theorem call_eq_ok {request : Request}
    (h : (call net hop localProxy request).result = .ok response) :
    net.reply hop request = .ok response := by
  simp only [call, result_bind_eq_ok, result_lift] at h
  obtain ⟨-, -, target, -, peer, -, -, -, h⟩ := h
  exact h

theorem Visited.isHop
    (hcurrent : Hop lib net endpoint profile cache policy maxBodyBytes seen current)
    (h : Visited lib (fun hop request => call net hop localProxy request) endpoint profile cache
      policy maxBodyBytes seen current hop url) :
    Hop lib net endpoint profile cache policy maxBodyBytes hop url := by
  induction h with
  | here => exact hcurrent
  | redirect hcall hread hrest ih => exact ih (.next hcurrent (call_eq_ok hcall) hread)

/-- Through the proxy a request is sent at every hop that is come to, whatever its host is. -/
theorem Hop.requested (h : Hop lib net endpoint profile cache policy maxBodyBytes hop url)
    (hconnect : ∀ k ≤ hop, net.connect k proxy.endpoint = .ok proxy.endpoint) :
    Visited lib (fun hop request => call net hop (some proxy.endpoint) request) endpoint profile
      cache policy maxBodyBytes 0 endpoint.url hop url ∧
    .request hop (requestFor lib cache profile url) ∈
      (call net hop (some proxy.endpoint) (requestFor lib cache profile url)).trace := by
  have hsent {k : Nat} {u : Url} (hu : ValidUrl u)
      (hk : net.connect k proxy.endpoint = .ok proxy.endpoint) : ∃ target peer,
      targetOf u = .ok target ∧ (connectTarget net k (some proxy.endpoint)
        (connectedTo (some proxy.endpoint) target)).result = .ok peer := by
    obtain ⟨host, hhost⟩ := Option.isSome_iff_exists.mp hu.host
    obtain ⟨peer, hpeer⟩ := (connectTarget_proxy proxy.loopback).mpr hk
    exact ⟨_, peer, bind_eq_ok.mpr ⟨host, okOr_eq_ok.mpr hhost, rfl⟩, hpeer⟩
  have hvalid := h.valid
  obtain ⟨target, peer, htarget, hpeer⟩ := hsent hvalid (hconnect hop (le_refl hop))
  refine ⟨?_, request_mem_call hvalid.scheme htarget hpeer⟩
  clear hpeer htarget target peer
  induction h with
  | first => exact .here _ _
  | @next hop url next response h hreply hread ih =>
    have hvalid := h.valid
    obtain ⟨target, peer, htarget, hpeer⟩ := hsent hvalid (hconnect hop (by omega))
    have hcall : (call net hop (some proxy.endpoint)
        (requestFor lib cache profile url)).result = .ok response := by
      simp only [call, result_bind_eq_ok, result_lift, ensure_eq_ok]
      exact ⟨(), beq_iff_eq.mpr hvalid.scheme, target, htarget, peer, hpeer, (), rfl, hreply⟩
    exact (ih (fun k hk => hconnect k (by omega)) hvalid).snoc hcall hread

theorem hostAllowed_of_connectTarget {peer : SocketAddr} (htarget : targetOf url = .ok target)
    (h : (connectTarget net hop none target).result = .ok peer) :
    HostAllowed net false hop url := by
  obtain ⟨addrs, haddrs, -⟩ := result_bind_eq_ok.mp h
  obtain ⟨hall, hallowed⟩ := resolve_eq_ok haddrs
  simp only [targetOf, bind_eq_ok, okOr_eq_ok] at htarget
  obtain ⟨host, hhost, htarget⟩ := htarget
  cases htarget
  intro host' hhost' address haddress
  have hsame : host' = host := Option.some_inj.mp (hhost'.symm.trans hhost)
  simpa using (hallowed _ ((hall address).mp (hsame ▸ haddress))).1

theorem Visited.connects
    (h : Visited lib (fun hop request => call net hop (some proxy.endpoint) request) endpoint
      profile cache policy maxBodyBytes seen current hop url) :
    ∀ k, seen ≤ k → k < hop → net.connect k proxy.endpoint = .ok proxy.endpoint := by
  induction h with
  | here => exact fun k hle hlt => absurd hlt (not_lt.mpr hle)
  | @redirect seen hop current next url response hcall hread hrest ih =>
    intro k hle hlt
    rcases eq_or_lt_of_le hle with rfl | hlt'
    · simp only [call, result_bind_eq_ok, result_lift] at hcall
      obtain ⟨-, -, target, -, peer, hpeer, -⟩ := hcall
      exact (connectTarget_proxy proxy.loopback).mp ⟨peer, hpeer⟩
    · exact ih k hlt' hlt

theorem request_mem_fetchEndpoint
    (h : Hop lib net endpoint profile cache policy maxBodyBytes hop url)
    (hconnect : ∀ k ≤ hop, net.connect k proxy.endpoint = .ok proxy.endpoint) :
    .request hop (requestFor lib cache profile url) ∈
      (fetchEndpoint lib net endpoint profile cache policy maxBodyBytes (some proxy)).trace := by
  obtain ⟨hvisited, hrequest⟩ := h.requested hconnect
  exact trace_fetchLoop_of_visited (by omega) (by omega) hvisited hrequest

theorem connection_of_call {localProxy : Option LocalFetchProxy} {k : Nat} {address : SocketAddr}
    (hhop : Hop lib net endpoint profile cache policy maxBodyBytes hop url)
    (h : e ∈ (call net hop (localProxy.map (·.endpoint)) (requestFor lib cache profile url)).trace)
    (he : e = .dial k address ∨ e = .peer k address) :
    address = dohAddress ∨ (∃ proxy ∈ localProxy, address = proxy.endpoint) ∨
      ∃ url host, Hop lib net endpoint profile cache policy maxBodyBytes k url ∧
        url.host = some host ∧ address.ip ∈ net.addresses k host ∧
        isDeniedSsrfAddress address.ip = false := by
  obtain ⟨target, htarget, -, h | ⟨hrequest, -⟩⟩ := call_trace h
  · obtain ⟨other, hother, hwhere⟩ := connectTarget_trace h
    obtain ⟨rfl, rfl⟩ : k = hop ∧ address = other := by
      rcases he with rfl | rfl
      · rcases hother with h | h
        · cases h
          exact ⟨rfl, rfl⟩
        · cases h
      · rcases hother with h | h
        · cases h
        · cases h
          exact ⟨rfl, rfl⟩
    rcases hwhere with hdoh | ⟨haddress, hallowed, hport⟩
    · exact .inl hdoh
    cases localProxy with
    | none =>
      simp only [targetOf, bind_eq_ok, okOr_eq_ok] at htarget
      obtain ⟨host, hhost, htarget⟩ := htarget
      cases htarget
      refine .inr (.inr ⟨url, host, hhop, hhost, haddress, ?_⟩)
      simpa [connectedTo] using hallowed
    | some proxy =>
      -- only the proxy itself is resolved
      refine .inr (.inl ⟨proxy, rfl, ?_⟩)
      have hip : address.ip = proxy.endpoint.ip := mem_singleton.mp haddress
      have hsame : address.port = proxy.endpoint.port := hport
      calc address = ⟨address.ip, address.port⟩ := rfl
        _ = proxy.endpoint := by rw [hip, hsame]
  · rcases he with rfl | rfl
    · cases hrequest
    · cases hrequest

/-- A fetch keeps to what is asked of it exactly when no hop that is asked through the local
proxy has a host that is, or that the proxy resolves to, an address that may not be fetched
from. -/
theorem fetchEndpoint_guarded_iff (localProxy : Option LocalFetchProxy) :
    Guarded lib net endpoint profile cache policy maxBodyBytes localProxy
        (fetchEndpoint lib net endpoint profile cache policy maxBodyBytes localProxy).trace ↔
      ∀ proxy ∈ localProxy, ∀ hop url,
        Hop lib net endpoint profile cache policy maxBodyBytes hop url →
        (∀ k ≤ hop, net.connect k proxy.endpoint = .ok proxy.endpoint) →
        HostAllowed net true hop url := by
  constructor
  · rintro hguarded proxy rfl hop url hhop hconnect
    exact hguarded.hosts hop _ (request_mem_fetchEndpoint hhop hconnect)
  · intro hproxy
    have hvisit {e : Event}
        (he : e ∈ (fetchEndpoint lib net endpoint profile cache policy maxBodyBytes
          localProxy).trace) : ∃ hop url, Visited lib
          (fun hop request => call net hop (localProxy.map (·.endpoint)) request) endpoint profile
          cache policy maxBodyBytes 0 endpoint.url hop url ∧
          e ∈ (call net hop (localProxy.map (·.endpoint))
            (requestFor lib cache profile url)).trace := mem_trace_fetchLoop he
    constructor
    · exact countP_fetchLoop_le (fun _ _ => countP_call_le) _ _ _
    · intro hop request he
      obtain ⟨hop', url, -, he⟩ := hvisit he
      obtain ⟨-, rfl, hscheme, -⟩ := request_of_call he
      exact hscheme
    · intro hop request he
      obtain ⟨hop', url, hvisited, he⟩ := hvisit he
      obtain ⟨rfl, rfl, -, target, peer, htarget, hpeer⟩ := request_of_call he
      cases localProxy with
      | none => exact hostAllowed_of_connectTarget htarget hpeer
      | some proxy =>
        refine hproxy proxy rfl hop url (hvisited.isHop .first) fun k hk => ?_
        rcases eq_or_lt_of_le hk with rfl | hlt
        · exact (connectTarget_proxy proxy.loopback).mp ⟨peer, hpeer⟩
        · exact hvisited.connects k (zero_le k) hlt
    · rintro hop address (he | he)
      · obtain ⟨hop', url, hvisited, he⟩ := hvisit he
        exact connection_of_call (hvisited.isHop .first) he (.inl rfl)
      · obtain ⟨hop', url, hvisited, he⟩ := hvisit he
        exact connection_of_call (hvisited.isHop .first) he (.inr rfl)

end

/-! ## A host that is not asked about -/

def plainLibrary : Library Unit where
  parseUrl _ := none
  joinUrl _ _ := none
  sha256 text := text
  gunzip _ := ⟨[], none⟩
  parseSubscriptionUserinfo _ := none

def lanUrl : Url where
  text := "https://10.0.0.1/sub"
  scheme := "https"
  username := ""
  password := none
  host := some (.ipv4 (.v4 10 0 0 1))
  port := none

def lanEndpoint : FetchEndpoint where
  url := lanUrl
  kind := .primary
  valid := ⟨rfl, rfl, rfl, rfl⟩

def mixedInbound : LocalFetchProxy where
  endpoint := ⟨.v4 127 0 0 1, 7890⟩
  loopback := rfl
  port_ne := by decide

/-- A network where every connection is made and every request is answered. -/
def openNetwork : Network where
  proxied _ _ := []
  connect _ address := .ok address
  dohConnect _ _ address := .ok address
  dohReply _ _ _ := .error .other
  reply _ _ := .ok ⟨200, [], ⟨[], none⟩⟩

theorem lanEndpoint_asked_through_proxy :
    ¬Guarded plainLibrary openNetwork lanEndpoint .netHopGeneric {} .default 1024
      (some mixedInbound) (fetchEndpoint plainLibrary openNetwork lanEndpoint .netHopGeneric {}
        .default 1024 (some mixedInbound)).trace := by
  intro h
  have hallowed := h.hosts 0 _ (request_mem_fetchEndpoint .first fun _ _ => rfl)
  have hdenied := hallowed (.ipv4 (.v4 10 0 0 1)) rfl (.v4 10 0 0 1) (mem_singleton_self _)
  exact absurd hdenied (by decide)

end NetHop.Fetch
