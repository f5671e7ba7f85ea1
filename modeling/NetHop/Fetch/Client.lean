import NetHop.Fetch.Guard
import NetHop.Runs

/-!
# Fetching a source again and again

The endpoints of a source are asked in turn, each through the local proxy first if there
is one, and what is accepted is kept.  An answer that says that nothing was modified
stands for the body that was kept; over every run of fetches it is the body of the URL
that was asked, as long as no server gives that answer to a request without validators.
-/

namespace NetHop.Fetch

open Traced SourceCache

inductive CandidateAcceptance where
  | accepted
  | formatRejected
  | acceptedZero
  deriving DecidableEq

section

variable {υ : Type} (lib : Library υ) (policy : FetchPolicy) (maxBodyBytes : Nat)

/-- What one fetch is given: the endpoints, and what the network answers to each of them,
through the proxy and without it. -/
structure FetchInput where
  endpoints : List FetchEndpoint
  profile : RequestProfile
  localProxy : Option LocalFetchProxy
  nets : Nat → Bool → Network
  inspect : List UInt8 → CandidateAcceptance

/-- The closure of `FetchClient::fetch`: through the proxy first, then directly. -/
def execute (cache : SourceCache υ) (input : FetchInput) (i : Nat) (endpoint : FetchEndpoint) :
    Traced Event FetchError (FetchOutcome υ) :=
  let direct := fetchEndpoint lib (input.nets i false) endpoint input.profile cache policy
    maxBodyBytes none
  match input.localProxy with
  | none => direct
  | some proxy => do
    let proxied : Except FetchError (FetchOutcome υ) ←
      (fetchEndpoint lib (input.nets i true) endpoint input.profile cache policy maxBodyBytes
        (some proxy)).attempt
    match proxied with
    | .ok outcome => return outcome
    | .error _ => direct

/-- `fetch_with_executor`: the first endpoint whose body is accepted. -/
def fetchWithExecutor (execute : Nat → FetchEndpoint → Traced Event FetchError (FetchOutcome υ))
    (inspect : List UInt8 → CandidateAcceptance) :
    Nat → Option FetchError → List FetchEndpoint → Traced Event FetchError (FetchOutcome υ)
  | _, lastError, [] => .lift (.error (lastError.getD .mirrorsExhausted))
  | i, lastError, endpoint :: endpoints => do
    let executed : Except FetchError (FetchOutcome υ) ← (execute i endpoint).attempt
    match executed with
    | .error error => fetchWithExecutor execute inspect (i + 1) (some error) endpoints
    | .ok outcome =>
      if inspect outcome.body = .accepted then return outcome
      else fetchWithExecutor execute inspect (i + 1) lastError endpoints

def fetch (cache : SourceCache υ) (input : FetchInput) :
    Traced Event FetchError (FetchOutcome υ) :=
  fetchWithExecutor (execute lib policy maxBodyBytes cache input) input.inspect 0 none
    input.endpoints

/-! ## Runs -/

def Event.request? : Event → Option Request
  | .request _ sent => some sent
  | _ => none

def lastRequest (trace : List Event) : Option Request := (trace.filterMap Event.request?).getLast?

/-- The cache of a source, and the URLs and bodies that were accepted, the latest first. -/
structure SourceState (υ : Type) where
  cache : SourceCache υ
  accepted : List (String × List UInt8)

def SourceState.initial : SourceState υ := ⟨{}, []⟩

def SourceState.lastAccepted (s : SourceState υ) (url : String) : Option (List UInt8) :=
  s.accepted.lookup url

inductive Action where
  /-- The source is fetched, and what comes back is committed to the cache. -/
  | fetch (input : FetchInput)
  /-- The process is started again with the body it finds in its file. -/
  | reopen (body : Option (List UInt8))

def acceptedAfter (accepted : List (String × List UInt8)) (trace : List Event)
    (outcome : FetchOutcome υ) : List (String × List UInt8) :=
  if outcome.notModified then accepted
  else (lastRequest trace).toList.map (fun request => (request.url.text, outcome.body)) ++ accepted

def step (s : SourceState υ) : Action → SourceState υ
  | .fetch input =>
    let fetched := fetch lib policy maxBodyBytes s.cache input
    match fetched.result with
    | .error _ => s
    | .ok outcome =>
      match s.cache.commit outcome maxBodyBytes with
      | .error _ => s
      | .ok cache => ⟨cache, acceptedAfter s.accepted fetched.trace outcome⟩
  | .reopen none => { s with cache := {} }
  | .reopen (some body) =>
    match applySuccess {} body none none maxBodyBytes with
    | .error _ => { s with cache := {} }
    | .ok cache => { s with cache := cache }

/-- A fetch that comes back not modified sent its last request with validators, and brings the
body last accepted from the URL of that request. -/
def Stands (s : SourceState υ) : Action → Prop
  | .reopen _ => True
  | .fetch input =>
    let fetched := fetch lib policy maxBodyBytes s.cache input
    ∀ outcome, fetched.result = .ok outcome → outcome.notModified = true →
      ∃ request, lastRequest fetched.trace = some request ∧ request.carriesValidators = true ∧
        s.lastAccepted request.url.text = some outcome.body

/-- No server answers "not modified" to a request without validators. -/
def Solicited : Action → Prop
  | .reopen _ => True
  | .fetch input => ∀ i proxied hop request response,
      (input.nets i proxied).reply hop request = .ok response → response.status = 304 →
        request.carriesValidators = true

end

/-! ## The request an outcome comes from -/

variable {response : Response} {localProxy : Option SocketAddr}

section

variable {υ : Type} {lib : Library υ} {policy : FetchPolicy} {maxBodyBytes : Nat}
  {cache : SourceCache υ} {request : Request}

theorem lastRequest_append {front back : List Event}
    (h : lastRequest back = some request) : lastRequest (front ++ back) = some request := by
  rw [lastRequest] at h ⊢
  rw [List.filterMap_append, List.getLast?_append, h, Option.some_or]

/-- What an outcome tells about the request it answers. -/
structure Answers (lib : Library υ) (maxBodyBytes : Nat) (cache : SourceCache υ)
    (solicited : Prop) (request : Request) (outcome : FetchOutcome υ) : Prop where
  headers : ∃ profile, request = requestFor lib cache profile request.url
  digest : outcome.endpointDigest = lib.sha256 request.url.text
  fresh : outcome.notModified = false → outcome.body.length ≤ maxBodyBytes
  kept : outcome.notModified = true → cache.lastKnownGood = some outcome.body
  validators : outcome.notModified = true → solicited → request.carriesValidators = true

theorem lastRequest_call {net : Network} {hop : Nat}
    (h : (call net hop localProxy request).result = .ok response) :
    lastRequest (call net hop localProxy request).trace = some request := by
  simp only [call, result_bind_eq_ok, result_lift] at h
  obtain ⟨_, hscheme, target, htarget, peer, hpeer, -⟩ := h
  unfold call
  rw [bind_of_ok hscheme, bind_of_ok htarget, bind_of_ok hpeer]
  exact lastRequest_append (lastRequest_append (lastRequest_append rfl))

variable {reader : BodyRead}

theorem length_readBounded {limit : Nat} {bytes : List UInt8}
    (h : readBounded reader limit = .ok bytes) : bytes.length ≤ limit := by
  unfold readBounded at h
  split_ifs at h with hlong
  cases herror : reader.error with
  | some error =>
    rw [herror] at h
    cases h
  | none =>
    rw [herror] at h
    cases h
    omega

theorem length_decodeResponseBody {encoding : ContentEncoding}
    {encodedLength : Option Nat} {body : List UInt8}
    (h : decodeResponseBody lib reader encoding encodedLength maxBodyBytes = .ok body) :
    body.length ≤ maxBodyBytes := by
  simp only [decodeResponseBody, bind_eq_ok] at h
  obtain ⟨-, -, encoded, hencoded, h⟩ := h
  cases encoding with
  | identity =>
    cases h
    exact length_readBounded hencoded
  | gzip => exact length_readBounded h

variable {outcome : FetchOutcome υ} {endpoint : FetchEndpoint}

theorem acceptResponse_eq_ok {digest : String}
    (h : acceptResponse lib endpoint digest response maxBodyBytes = .ok outcome) :
    outcome.notModified = false ∧ outcome.endpointDigest = digest ∧
      outcome.body.length ≤ maxBodyBytes := by
  simp only [acceptResponse, bind_eq_ok] at h
  obtain ⟨length, -, _, -, encoding, -, etag, -, modified, -, type, -, body, hbody, h⟩ := h
  cases h
  exact ⟨rfl, rfl, length_decodeResponseBody hbody⟩

theorem notModifiedOutcome_eq_ok {digest : String}
    (h : notModifiedOutcome cache endpoint digest = .ok outcome) :
    outcome.notModified = true ∧ outcome.endpointDigest = digest ∧
      cache.lastKnownGood = some outcome.body := by
  simp only [notModifiedOutcome, applyNotModified, bind_eq_ok, okOr_eq_ok] at h
  obtain ⟨body, hbody, h⟩ := h
  cases h
  exact ⟨rfl, rfl, hbody⟩

theorem readResponse_done {seen : Nat} {current : Url}
    (h : readResponse lib endpoint cache policy maxBodyBytes seen current response =
      .ok (.done outcome)) :
    outcome.endpointDigest = lib.sha256 current.text ∧
      (outcome.notModified = true ∧ response.status = 304 ∧
          cache.lastKnownGood = some outcome.body ∨
        outcome.notModified = false ∧ outcome.body.length ≤ maxBodyBytes) := by
  unfold readResponse at h
  split_ifs at h with hstatus
  · simp only [bind_eq_ok, asFetch, mapError_eq_ok] at h
    obtain ⟨outcome', houtcome, h⟩ := h
    cases h
    obtain ⟨hmodified, hdigest, hbody⟩ := notModifiedOutcome_eq_ok houtcome
    exact ⟨hdigest, .inl ⟨hmodified, hstatus, hbody⟩⟩
  · simp only [bind_eq_ok] at h
    obtain ⟨_, -, _, -, h⟩ := h
    cases h
  · simp only [bind_eq_ok, asFetch, mapError_eq_ok] at h
    obtain ⟨outcome', houtcome, h⟩ := h
    cases h
    obtain ⟨hmodified, hdigest, hlength⟩ := acceptResponse_eq_ok houtcome
    exact ⟨hdigest, .inr ⟨hmodified, hlength⟩⟩

theorem fetchLoop_answers {net : Network} {profile : RequestProfile} {rounds seen : Nat}
    {current : Url} (solicited : Prop)
    (hsolicited : solicited → ∀ hop request response, net.reply hop request = .ok response →
      response.status = 304 → request.carriesValidators = true)
    (h : (fetchLoop lib (fun hop request => call net hop localProxy request) endpoint profile
      cache policy maxBodyBytes rounds seen current).result = .ok outcome) :
    ∃ request, lastRequest (fetchLoop lib (fun hop request => call net hop localProxy request)
        endpoint profile cache policy maxBodyBytes rounds seen current).trace = some request ∧
      Answers lib maxBodyBytes cache solicited request outcome := by
  induction rounds generalizing seen current with
  | zero => cases h
  | succ rounds ih =>
    simp only [fetchLoop, result_bind_eq_ok, result_mapError, mapError_eq_ok, result_lift] at h
    obtain ⟨response, hcall, round, hread, h⟩ := h
    have hcall' : ((call net seen localProxy (requestFor lib cache profile current)).mapError
        mapUreqError).result = .ok response := by
      rw [result_mapError, mapError_eq_ok]
      exact hcall
    rw [fetchLoop, bind_of_ok hcall', bind_of_ok hread]
    cases round with
    | done final =>
      cases h
      obtain ⟨hdigest, hwhich⟩ := readResponse_done hread
      refine ⟨requestFor lib cache profile current, ?_, ⟨profile, rfl⟩, hdigest, ?_, ?_, ?_⟩
      · simpa using lastRequest_call hcall
      · intro hfresh
        rcases hwhich with ⟨hmodified, -⟩ | ⟨-, hlength⟩
        · rw [hmodified] at hfresh
          cases hfresh
        · exact hlength
      · intro hmodified
        rcases hwhich with ⟨-, -, hbody⟩ | ⟨hfresh, -⟩
        · exact hbody
        · rw [hmodified] at hfresh
          cases hfresh
      · intro hmodified hcondition
        rcases hwhich with ⟨-, hstatus, -⟩ | ⟨hfresh, -⟩
        · exact hsolicited hcondition seen _ response (call_eq_ok hcall) hstatus
        · rw [hmodified] at hfresh
          cases hfresh
    | redirect next =>
      obtain ⟨request, hlast, hanswers⟩ := ih h
      exact ⟨request, lastRequest_append (lastRequest_append hlast), hanswers⟩

variable {input : FetchInput}

theorem execute_answers {i : Nat}
    (h : (execute lib policy maxBodyBytes cache input i endpoint).result = .ok outcome) :
    ∃ request, lastRequest (execute lib policy maxBodyBytes cache input i endpoint).trace =
        some request ∧
      Answers lib maxBodyBytes cache (Solicited (.fetch input)) request outcome := by
  have hdirect (h : (fetchEndpoint lib (input.nets i false) endpoint input.profile cache policy
      maxBodyBytes none).result = .ok outcome) :=
    fetchLoop_answers (Solicited (.fetch input)) (fun hs => hs i false) h
  unfold execute at h ⊢
  cases hproxy : input.localProxy with
  | none =>
    rw [hproxy] at h
    exact hdirect h
  | some proxy =>
    simp only [hproxy] at h ⊢
    obtain ⟨proxied, hproxied, h⟩ := result_bind_eq_ok.mp h
    rw [bind_of_ok hproxied]
    cases proxied with
    | ok final =>
      cases h
      obtain ⟨request, hlast, hanswers⟩ := fetchLoop_answers
        (Solicited (.fetch input)) (fun hs => hs i true) (Except.ok.inj hproxied)
      refine ⟨request, ?_, hanswers⟩
      simp only [trace_attempt, trace_pure, List.append_nil]
      exact hlast
    | error error =>
      obtain ⟨request, hlast, hanswers⟩ := hdirect h
      exact ⟨request, lastRequest_append hlast, hanswers⟩

theorem fetchWithExecutor_answers
    {run : Nat → FetchEndpoint → Traced Event FetchError (FetchOutcome υ)}
    {inspect : List UInt8 → CandidateAcceptance} {i : Nat} {lastError : Option FetchError}
    {endpoints : List FetchEndpoint} {solicited : Prop}
    (hrun : ∀ i endpoint outcome, (run i endpoint).result = .ok outcome →
      ∃ request, lastRequest (run i endpoint).trace = some request ∧
        Answers lib maxBodyBytes cache solicited request outcome)
    (h : (fetchWithExecutor run inspect i lastError endpoints).result = .ok outcome) :
    ∃ request, lastRequest (fetchWithExecutor run inspect i lastError endpoints).trace =
        some request ∧ Answers lib maxBodyBytes cache solicited request outcome := by
  induction endpoints generalizing i lastError with
  | nil => cases h
  | cons endpoint endpoints ih =>
    obtain ⟨executed, hexecuted, h⟩ := result_bind_eq_ok.mp h
    rw [fetchWithExecutor, bind_of_ok hexecuted]
    cases executed with
    | error error =>
      obtain ⟨request, hlast, hanswers⟩ := ih h
      exact ⟨request, lastRequest_append hlast, hanswers⟩
    | ok final =>
      by_cases haccepted : inspect final.body = .accepted
      · simp only [if_pos haccepted] at h ⊢
        cases h
        obtain ⟨request, hlast, hanswers⟩ := hrun i endpoint _ (Except.ok.inj hexecuted)
        exact ⟨request, by simpa using hlast, hanswers⟩
      · simp only [if_neg haccepted] at h ⊢
        obtain ⟨request, hlast, hanswers⟩ := ih h
        exact ⟨request, lastRequest_append hlast, hanswers⟩

theorem fetch_answers (h : (fetch lib policy maxBodyBytes cache input).result = .ok outcome) :
    ∃ request, lastRequest (fetch lib policy maxBodyBytes cache input).trace = some request ∧
      Answers lib maxBodyBytes cache (Solicited (.fetch input)) request outcome :=
  fetchWithExecutor_answers (fun _ _ _ => execute_answers) h

/-! ## The invariant -/

def Asks (lib : Library υ) (policy : FetchPolicy) (maxBodyBytes : Nat) (urls : Set String)
    (s : SourceState υ) : Action → Prop
  | .reopen _ => True
  | .fetch input => ∀ request, lastRequest (fetch lib policy maxBodyBytes s.cache input).trace =
      some request → request.url.text ∈ urls

/-- The validators that are kept belong to the body and the URL accepted last. -/
def Bound (lib : Library υ) (urls : Set String) (s : SourceState υ) : Prop :=
  ∀ digest, s.cache.validatorEndpoint = some digest →
    ∃ url body rest, s.accepted = (url, body) :: rest ∧ url ∈ urls ∧ lib.sha256 url = digest ∧
      s.cache.lastKnownGood = some body

variable {urls : Set String}

theorem bound_step (s : SourceState υ) (action : Action) (hs : Bound lib urls s)
    (hasks : Asks lib policy maxBodyBytes urls s action) :
    Bound lib urls (step lib policy maxBodyBytes s action) := by
  cases action with
  | reopen body =>
    cases body with
    | none => exact fun digest h => by cases h
    | some body =>
      cases happly : applySuccess (υ := υ) {} body none none maxBodyBytes with
      | error error =>
        simp only [step, happly]
        exact fun digest h => by cases h
      | ok cache =>
        simp only [step, happly]
        simp only [applySuccess, bind_eq_ok] at happly
        obtain ⟨_, -, happly⟩ := happly
        cases happly
        exact fun digest h => by cases h
  | fetch input =>
    unfold step
    cases hresult : (fetch lib policy maxBodyBytes s.cache input).result with
    | error error => simpa only [hresult] using hs
    | ok outcome =>
      simp only [hresult]
      cases hcommit : s.cache.commit outcome maxBodyBytes with
      | error error => exact hs
      | ok cache =>
        obtain ⟨request, hlast, hanswers⟩ := fetch_answers hresult
        unfold commit at hcommit
        cases hmodified : outcome.notModified with
        | true =>
          rw [hmodified] at hcommit
          cases hcommit
          rw [acceptedAfter, if_pos hmodified]
          exact hs
        | false =>
          rw [hmodified] at hcommit
          obtain ⟨_, -, hcommit⟩ := bind_eq_ok.mp hcommit
          cases hcommit
          intro digest hdigest
          cases hdigest
          refine ⟨request.url.text, outcome.body, s.accepted, ?_, hasks request hlast,
            hanswers.digest.symm, rfl⟩
          simp [acceptedAfter, hmodified, hlast]

theorem stands_of_solicited (hsha : urls.InjOn lib.sha256) {s : SourceState υ}
    {action : Action} (hs : Bound lib urls s)
    (hasks : Asks lib policy maxBodyBytes urls s action) (hsolicited : Solicited action) :
    Stands lib policy maxBodyBytes s action := by
  cases action with
  | reopen body => trivial
  | fetch input =>
    intro outcome hresult hmodified
    obtain ⟨request, hlast, hanswers⟩ := fetch_answers hresult
    have hcarries := hanswers.validators hmodified hsolicited
    refine ⟨request, hlast, hcarries, ?_⟩
    obtain ⟨profile, hrequest⟩ := hanswers.headers
    have hsent : s.cache.conditionalHeadersFor (lib.sha256 request.url.text) ≠ [] := by
      intro hnone
      rw [hrequest, Request.carriesValidators, requestFor, hnone] at hcarries
      exact absurd hcarries (by simp [validatorNames])
    obtain ⟨url, body, rest, haccepted, hknown, hdigest, hbody⟩ :=
      hs _ (validatorEndpoint_of_conditionalHeadersFor hsent)
    have hurl : url = request.url.text := hsha hknown (hasks request hlast) hdigest
    rw [SourceState.lastAccepted, haccepted, hurl, List.lookup_cons_self, ← hbody]
    exact hanswers.kept hmodified

/-- Over every run in which servers answer "not modified" to conditional requests only, such
an answer stands for the body last accepted from the URL that was asked. -/
theorem run_stands (hsha : urls.InjOn lib.sha256) {actions : List Action}
    (h : ∀ action ∈ actions, Solicited action)
    (hasks : Runs.Guarded (step lib policy maxBodyBytes) (Asks lib policy maxBodyBytes urls)
      .initial actions) :
    Runs.Guarded (step lib policy maxBodyBytes) (Stands lib policy maxBodyBytes) .initial
      actions := by
  have hinitial : Bound lib urls (.initial : SourceState υ) := fun digest h => by cases h
  refine .ensures (I := Bound lib urls) (fun s action hs hguard => ?_) hinitial
    (hasks.and_of_forall h)
  exact ⟨stands_of_solicited hsha hs hguard.1 hguard.2, bound_step s action hs hguard.1⟩

end

/-! ## Answers with and without validators -/

def plainUrl (text : String) : Url where
  text := text
  scheme := "https"
  username := ""
  password := none
  host := some (.ipv4 (.v4 1 1 1 1))
  port := none

def plainEndpoint (text : String) : FetchEndpoint where
  url := plainUrl text
  kind := .primary
  valid := ⟨rfl, rfl, rfl, rfl⟩

def answering (reply : Request → Response) : Network where
  proxied _ _ := []
  connect _ address := .ok address
  dohConnect _ _ address := .ok address
  dohReply _ _ _ := .error .other
  reply _ request := .ok (reply request)

def plainFetch (text : String) (reply : Request → Response) : Action :=
  .fetch { endpoints := [plainEndpoint text], profile := .netHopGeneric, localProxy := none,
           nets := fun _ _ => answering reply, inspect := fun _ => .accepted }

def freshResponse : Response := ⟨200, [("etag", some "v1")], ⟨[1, 2, 3], none⟩⟩

def notModifiedResponse : Response := ⟨304, [], ⟨[], none⟩⟩

def revalidating : Action :=
  plainFetch "https://one.example/sub" fun request =>
    if request.carriesValidators then notModifiedResponse else freshResponse

theorem revalidating_stands :
    Runs.Guarded (step plainLibrary .default 1024) (Stands plainLibrary .default 1024) .initial
        [revalidating, revalidating] ∧
      ((step plainLibrary .default 1024 .initial revalidating).cache.conditionalHeadersFor
        "https://one.example/sub") = [("If-None-Match", "v1")] := by
  have hsha : Set.univ.InjOn plainLibrary.sha256 := fun _ _ _ _ h => h
  refine ⟨run_stands hsha (fun action haction => ?_)
    ⟨fun _ _ => trivial, fun _ _ => trivial, trivial⟩, by decide +kernel⟩
  have hsame : action = revalidating := by simpa using haction
  rw [hsame]
  intro i proxied hop request response hreply hstatus
  by_contra hnone
  cases hreply
  simp only [if_neg hnone] at hstatus
  exact absurd hstatus (by decide)

/-- A body with a validator, then "not modified" from another URL, which was sent none. -/
def unsolicited : Action := plainFetch "https://two.example/sub" fun _ => notModifiedResponse

theorem unsolicited_not_stands :
    ¬Runs.Guarded (step plainLibrary .default 1024) (Stands plainLibrary .default 1024) .initial
      [revalidating, unsolicited] := by
  rintro ⟨-, h, -⟩
  obtain ⟨request, hlast, hcarries, -⟩ := h ⟨[1, 2, 3], .primary, "https://two.example/sub", none,
    none, none, none, true⟩ (by rfl) rfl
  have hnone : (lastRequest (fetch plainLibrary .default 1024
      (step plainLibrary .default 1024 .initial revalidating).cache
      { endpoints := [plainEndpoint "https://two.example/sub"], profile := .netHopGeneric,
        localProxy := none, nets := fun _ _ => answering fun _ => notModifiedResponse,
        inspect := fun _ => .accepted }).trace).map Request.carriesValidators = some false := by
    decide +kernel
  rw [hlast, Option.map_some, hcarries] at hnone
  cases hnone

end NetHop.Fetch
