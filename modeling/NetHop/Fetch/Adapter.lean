import NetHop.Fetch.Address
import NetHop.Fetch.Cache
import NetHop.Traced

/-!
# Fetching over the network

How one endpoint is asked for a subscription: the resolver and the connector that judge
every address, and the loop that follows redirects itself.  What the network answers is
given hop by hop; what the fetch does is written down as it goes.
-/

namespace NetHop.Fetch

open Text Traced

/-! ## URLs -/

/-- The host of a URL.  An IPv6 address stands in brackets, so `str::parse::<IpAddr>` does
not take the text of it for an address. -/
inductive Host where
  | domain (name : String)
  | ipv4 (address : IpAddr)
  | ipv6 (text : String) (address : IpAddr)
  deriving DecidableEq

structure Url where
  text : String
  scheme : String
  username : String
  password : Option String
  host : Option Host
  port : Option UInt16
  deriving DecidableEq

/-- Bytes read from a stream up to its end or to an error. -/
structure BodyRead where
  bytes : List UInt8
  error : Option FetchPolicyError

structure Library (υ : Type) where
  parseUrl : String → Option Url
  joinUrl : Url → String → Option Url
  /-- `Digest::sha256` of a text. -/
  sha256 : String → String
  /-- `MultiGzDecoder`. -/
  gunzip : List UInt8 → BodyRead
  parseSubscriptionUserinfo : String → Option υ

structure ValidUrl (url : Url) : Prop where
  scheme : url.scheme = "https"
  username : url.username = ""
  password : url.password = none
  host : url.host.isSome = true

/-- `validate_source_url` with its errors renamed. -/
def validateFetchUrl {υ : Type} (lib : Library υ) (value : String) :
    Except FetchPolicyError Url := do
  let url ← okOr (lib.parseUrl value) .missingHost
  ensure (url.scheme == "https") .nonHttps
  ensure (url.username == "" && url.password.isNone) .userInfo
  ensure url.host.isSome .missingHost
  return url

structure FetchEndpoint where
  url : Url
  kind : FetchEndpointKind
  valid : ValidUrl url

/-- A proxy on the device itself.  The name and the password it is given are left out. -/
structure LocalFetchProxy where
  endpoint : SocketAddr
  loopback : endpoint.ip.isLoopback = true
  port_ne : endpoint.port ≠ 0

structure FetchPolicy where
  maxRedirects : Nat
  maxMirrors : Nat

def FetchPolicy.default : FetchPolicy where
  maxRedirects := 3
  maxMirrors := 3

def nextRedirect {υ : Type} (lib : Library υ) (current : Url) (location : String)
    (redirectsSeen : Nat) (policy : FetchPolicy) : Except FetchPolicyError Url := do
  ensure (redirectsSeen < policy.maxRedirects) .redirectLimit
  let target ← okOr (lib.joinUrl current location) .invalidRedirect
  validateFetchUrl lib target.text

/-! ## Requests and answers -/

inductive RequestProfile where
  | netHopGeneric
  | mihomo
  | clashStandard
  | surfboard
  | singBox
  | singBoxAndroid

def RequestProfile.userAgent : RequestProfile → String
  | netHopGeneric => "NetHop/0.1"
  | mihomo => "clash.meta"
  | clashStandard => "clash"
  | surfboard => "Surfboard"
  | singBox => "sing-box"
  | singBoxAndroid => "SFA"

def RequestProfile.accept : RequestProfile → String
  | netHopGeneric => "*/*"
  | mihomo => "application/yaml, text/yaml, */*"
  | clashStandard => "application/yaml, text/yaml, */*"
  | surfboard => "text/plain, */*"
  | singBox => "application/json, */*"
  | singBoxAndroid => "application/json, */*"

structure Request where
  url : Url
  headers : List (String × String)
  deriving DecidableEq

/-- The headers that make a request conditional. -/
def validatorNames : List String := ["If-None-Match", "If-Modified-Since"]

def Request.carriesValidators (request : Request) : Bool :=
  request.headers.any fun header => validatorNames.contains header.1

/-- A header value that is no visible text is kept as `none`. -/
structure Response where
  status : Nat
  headers : List (String × Option String)
  body : BodyRead

inductive UreqError where
  | timeout
  | deniedAddress
  | peerMismatch
  | statusCode
  | hostNotFound
  | ioTimedOut
  | other

def mapUreqError : UreqError → FetchError
  | .timeout => .timeout
  | .deniedAddress => .policy .deniedAddress
  | .peerMismatch => .policy .peerMismatch
  | .statusCode => .httpStatus
  | .ioTimedOut => .timeout
  | .hostNotFound | .other => .network

inductive RecordType where
  | a
  | aaaa

/-- A record of the answer, with what `str::parse::<IpAddr>` makes of its data. -/
structure DohRecord where
  recordType : Nat
  data : Option IpAddr

structure DohResponse where
  status : Nat
  answers : List DohRecord

/-- The answer of the DNS server; a body that is too long or no such document is `none`. -/
structure DohReply where
  status : Nat
  body : Option DohResponse

inductive ConnectError where
  | refused
  | timedOut
  | other

/-- What the network answers at each hop of a fetch.  A connection tells the address of
the peer it reached; a proxy finds the addresses of a domain itself. -/
structure Network where
  proxied : Nat → String → List IpAddr
  connect : Nat → SocketAddr → Except ConnectError SocketAddr
  dohConnect : Nat → RecordType → SocketAddr → Except ConnectError SocketAddr
  dohReply : Nat → String → RecordType → Except UreqError DohReply
  reply : Nat → Request → Except UreqError Response

inductive Event where
  /-- A connection is tried at a hop. -/
  | dial (hop : Nat) (address : SocketAddr)
  /-- A connection to a peer is used. -/
  | peer (hop : Nat) (address : SocketAddr)
  /-- A request of the subscription is sent. -/
  | request (hop : Nat) (request : Request)
  deriving DecidableEq

/-! ## Resolving -/

def dohAddress : SocketAddr := ⟨.v4 223 5 5 5, 443⟩

def maxResolvedAddresses : Nat := 16

/-- One record put among the addresses found so far. -/
def insertRecord (addresses : SortedMap IpAddr Unit) (record : DohRecord) :
    Except UreqError (SortedMap IpAddr Unit) :=
  if record.recordType = 1 ∨ record.recordType = 28 then do
    let address ← okOr record.data .hostNotFound
    let addresses := addresses.insert address ()
    ensure (addresses.entries.length ≤ maxResolvedAddresses) .hostNotFound
    return addresses
  else return addresses

def extendDohAddresses (answer : DohResponse) (addresses : SortedMap IpAddr Unit) :
    Except UreqError (SortedMap IpAddr Unit) := do
  ensure (answer.status == 0) .hostNotFound
  answer.answers.foldlM insertRecord addresses

structure Target where
  scheme : String
  host : Host
  port : UInt16

/-- The address may be connected to: it is not denied, or it is that of the local proxy. -/
def addressIsAllowed (localProxy : Option SocketAddr) (scheme : String) (address : SocketAddr) :
    Bool :=
  !isDeniedSsrfAddress address.ip ||
    (scheme == "http" && localProxy == some address && address.ip.isLoopback)

def resolveAddresses (localProxy : Option SocketAddr) (scheme : String) (addresses : List IpAddr)
    (port : UInt16) : Except UreqError (List SocketAddr) := do
  let resolved ← addresses.mapM fun address => do
    ensure (addressIsAllowed localProxy scheme ⟨address, port⟩) .deniedAddress
    return (⟨address, port⟩ : SocketAddr)
  ensure (!resolved.isEmpty) .hostNotFound
  return resolved

/-! ## Connecting -/

def connectFirst (tcp : SocketAddr → Except ConnectError SocketAddr) (hop : Nat)
    (approved : List SocketAddr) : List SocketAddr → Traced Event UreqError SocketAddr
  | [] => .lift (.error .other)
  | address :: rest => do
    emit (.dial hop address)
    match tcp address with
    | .ok peer => do
      lift (ensure (peer == address && approved.contains peer) .peerMismatch)
      emit (.peer hop peer)
      return peer
    | .error .refused => connectFirst tcp hop approved rest
    | .error .timedOut => .lift (.error .timeout)
    | .error .other => .lift (.error .other)

/-- `SafeTcpConnector::connect` without a transport before it. -/
def connect (tcp : SocketAddr → Except ConnectError SocketAddr) (hop : Nat)
    (localProxy : Option SocketAddr) (scheme : String) (addrs : List SocketAddr) :
    Traced Event UreqError SocketAddr := do
  lift (ensure (!addrs.isEmpty && addrs.all (addressIsAllowed localProxy scheme))
    .deniedAddress)
  connectFirst tcp hop addrs addrs

section

variable (net : Network) (hop : Nat)

/-- `resolve_record_type`: the agent for DNS resolves to one fixed address. -/
def resolveRecordType (host : String) (type : RecordType) (addresses : SortedMap IpAddr Unit) :
    Traced Event UreqError (SortedMap IpAddr Unit) := do
  let fixed ← lift (resolveAddresses none "https" [dohAddress.ip] dohAddress.port)
  let _ ← connect (net.dohConnect hop type) hop none "https" fixed
  let reply ← lift (net.dohReply hop host type)
  lift (ensure (reply.status == 200) .hostNotFound)
  let answer ← lift (okOr reply.body .hostNotFound)
  lift (extendDohAddresses answer addresses)

/-- `SafeDohResolver::resolve`. -/
def resolve (localProxy : Option SocketAddr) (target : Target) :
    Traced Event UreqError (List SocketAddr) :=
  match target.host with
  | .ipv4 address => .lift (resolveAddresses localProxy target.scheme [address] target.port)
  | .domain name | .ipv6 name _ => do
    let addresses ← resolveRecordType net hop name .a .empty
    let addresses ← resolveRecordType net hop name .aaaa addresses
    lift (resolveAddresses localProxy target.scheme addresses.keys target.port)

def connectTarget (localProxy : Option SocketAddr) (target : Target) :
    Traced Event UreqError SocketAddr := do
  let addrs ← resolve net hop localProxy target
  connect (net.connect hop) hop localProxy target.scheme addrs

/-- `uri.host()` and `uri.port_u16().unwrap_or(443)`. -/
def targetOf (url : Url) : Except UreqError Target := do
  let host ← okOr url.host .hostNotFound
  return ⟨url.scheme, host, url.port.getD 443⟩

/-- A call of the agent.  With a proxy only the proxy is resolved and connected to, and the
host of the request is left to it. -/
def call (localProxy : Option SocketAddr) (request : Request) :
    Traced Event UreqError Response := do
  lift (ensure (request.url.scheme == "https") .other)
  let target ← lift (targetOf request.url)
  let _ ← connectTarget net hop localProxy
    (match localProxy with
    | none => target
    | some proxy => ⟨"http", .ipv4 proxy.ip, proxy.port⟩)
  emit (.request hop request)
  lift (net.reply hop request)

end

/-! ## Reading an answer -/

section

variable {υ : Type} (lib : Library υ)

/-- `value.to_str().ok()` of a header. -/
def Response.text (response : Response) (name : String) : Option String :=
  (response.headers.lookup name).join

def readBounded (reader : BodyRead) (limit : Nat) : Except FetchPolicyError (List UInt8) :=
  if reader.bytes.length > limit then .error .bodyTooLarge
  else match reader.error with
    | some error => .error error
    | none => .ok reader.bytes

inductive ContentEncoding where
  | identity
  | gzip

def ContentEncoding.fromHeader (value : Option String) : Except FetchPolicyError ContentEncoding :=
  match (value.map fun value => String.ofList (trim value.toList)).filter (· != "") with
  | none => .ok .identity
  | some value =>
    if value = "identity" then .ok .identity
    else if value = "gzip" then .ok .gzip
    else .error .unsupportedContentEncoding

def decodeResponseBody (reader : BodyRead) (encoding : ContentEncoding)
    (encodedLength : Option Nat) (maxBodyBytes : Nat) :
    Except FetchPolicyError (List UInt8) := do
  ensure (encodedLength.all (· ≤ maxBodyBytes)) .bodyTooLarge
  let encoded ← readBounded reader maxBodyBytes
  match encoding with
  | .identity => return encoded
  | .gzip => readBounded (lib.gunzip encoded) maxBodyBytes

def boundedHeader (response : Response) (name : String) :
    Except FetchPolicyError (Option String) :=
  match response.headers.lookup name with
  | none => .ok none
  | some none => .error .invalidResponseMetadata
  | some (some value) =>
    if value.utf8ByteSize > 8 * 1024 then .error .invalidResponseMetadata else .ok (some value)

def contentLength (response : Response) : Except FetchPolicyError (Option Nat) :=
  match response.headers.lookup "content-length" with
  | none => .ok none
  | some value => do
    let length ← okOr (value.bind fun text => parseU64 text.toList) .invalidResponseMetadata
    return some length

def acceptResponse (endpoint : FetchEndpoint) (endpointDigest : String) (response : Response)
    (maxBodyBytes : Nat) : Except FetchPolicyError (FetchOutcome υ) := do
  let encodedLength ← contentLength response
  ensure (encodedLength.all (· ≤ maxBodyBytes)) .bodyTooLarge
  let encoding ← ContentEncoding.fromHeader (response.text "content-encoding")
  let etag ← boundedHeader response "etag"
  let lastModified ← boundedHeader response "last-modified"
  let contentType ← boundedHeader response "content-type"
  let body ← decodeResponseBody lib response.body encoding encodedLength maxBodyBytes
  return { body := body, endpointKind := endpoint.kind, endpointDigest := endpointDigest,
           contentType := contentType, etag := etag, lastModified := lastModified,
           subscriptionUserinfo :=
             (response.text "subscription-userinfo").bind lib.parseSubscriptionUserinfo
           notModified := false }

def notModifiedOutcome (cache : SourceCache υ) (endpoint : FetchEndpoint)
    (endpointDigest : String) : Except FetchPolicyError (FetchOutcome υ) := do
  let body ← cache.applyNotModified
  return { body := body, endpointKind := endpoint.kind, endpointDigest := endpointDigest,
           contentType := none, etag := none, lastModified := none,
           subscriptionUserinfo := cache.subscriptionUserinfo, notModified := true }

/-! ## Following redirects -/

def redirectStatuses : List Nat := [301, 302, 303, 307, 308]

def requestFor (cache : SourceCache υ) (profile : RequestProfile) (current : Url) : Request where
  url := current
  headers := [("User-Agent", profile.userAgent), ("Accept", profile.accept),
      ("Accept-Encoding", "gzip")] ++ cache.conditionalHeadersFor (lib.sha256 current.text)

/-- What one round of the loop comes to. -/
inductive Round (υ : Type) where
  | done (outcome : FetchOutcome υ)
  | redirect (next : Url)

def readResponse (endpoint : FetchEndpoint) (cache : SourceCache υ) (policy : FetchPolicy)
    (maxBodyBytes redirectsSeen : Nat) (current : Url) (response : Response) :
    Except FetchError (Round υ) :=
  let endpointDigest := lib.sha256 current.text
  if response.status = 304 then do
    let outcome ← asFetch (notModifiedOutcome cache endpoint endpointDigest)
    return .done outcome
  else if redirectStatuses.contains response.status then do
    let location ← asFetch (okOr (response.text "location") .invalidRedirect)
    let next ← asFetch (nextRedirect lib current location redirectsSeen policy)
    return .redirect next
  else if 200 ≤ response.status ∧ response.status < 300 then do
    let outcome ← asFetch (acceptResponse lib endpoint endpointDigest response maxBodyBytes)
    return .done outcome
  else .error .httpStatus

/-- The loop of `fetch_with_agent`.  It makes one round more than there may be redirects,
and the last one cannot end in a redirect. -/
def fetchLoop (call : Nat → Request → Traced Event UreqError Response) (endpoint : FetchEndpoint)
    (profile : RequestProfile) (cache : SourceCache υ) (policy : FetchPolicy)
    (maxBodyBytes : Nat) : Nat → Nat → Url → Traced Event FetchError (FetchOutcome υ)
  | 0, _, _ => .lift (.error (.policy .redirectLimit))
  | rounds + 1, redirectsSeen, current => do
    let response ← (call redirectsSeen (requestFor lib cache profile current)).mapError
      mapUreqError
    let round ← lift
      (readResponse lib endpoint cache policy maxBodyBytes redirectsSeen current response)
    match round with
    | .done outcome => return outcome
    | .redirect next =>
      fetchLoop call endpoint profile cache policy maxBodyBytes rounds (redirectsSeen + 1) next

def fetchEndpoint (net : Network) (endpoint : FetchEndpoint) (profile : RequestProfile)
    (cache : SourceCache υ) (policy : FetchPolicy) (maxBodyBytes : Nat)
    (localProxy : Option LocalFetchProxy) : Traced Event FetchError (FetchOutcome υ) :=
  fetchLoop lib (fun hop request => call net hop (localProxy.map (·.endpoint)) request) endpoint
    profile cache policy maxBodyBytes (policy.maxRedirects + 1) 0 endpoint.url

end

end NetHop.Fetch
