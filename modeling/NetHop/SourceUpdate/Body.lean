import NetHop.Fetch.Client
import NetHop.SourceUpdate.Inputs

/-!
# Fetching with a body on disk

The last body of every source is kept in a file.  The file is read before the first fetch of
a process and written after every fetch; where one of the two fails, so does the fetch, even
if a server had a body to give.
-/

namespace NetHop.SourceUpdate

open Fetch

/-- A cache file: what `symlink_metadata` says of it, and what is read from it. -/
inductive CacheFile where
  | missing
  | inaccessible
  | found (isFile isPrivate : Bool) (length : Nat) (content : Option (List UInt8))

abbrev BodyCache := SourceCache SubscriptionUserInfo

variable (maxBodyBytes : Nat)

def restoreCache : Option CacheFile → Except SourceUpdateError BodyCache
  | none => .ok {}
  | some .missing => .ok {}
  | some .inaccessible => .error .cache
  | some (.found isFile isPrivate length content) => do
    ensure (isFile && length != 0 && length ≤ maxBodyBytes && isPrivate) .cache
    let body ← okOr content .cache
    (SourceCache.applySuccess {} body none none maxBodyBytes).mapError fun _ => .cache

/-- `HttpSourceBodyFetcher::fetch`.  The cache is `held` if it is in memory, there is a file
if there is a cache root, and `written` is what becomes of writing it. -/
def fetchBody (lib : Library SubscriptionUserInfo) (policy : FetchPolicy) (held : Option BodyCache)
    (file : Option CacheFile) (written : Bool) (input : FetchInput) :
    Except SourceUpdateError SourceBody := do
  let cache ← held.elim (restoreCache maxBodyBytes file) .ok
  match (fetch lib policy maxBodyBytes cache input).result with
  | .error _ =>
    okOr (cache.lastKnownGood.map fun body =>
      ⟨body, .lastKnownGood, cache.subscriptionUserinfo⟩) .fetch
  | .ok outcome => do
    let _ ← (cache.commit outcome maxBodyBytes).mapError fun _ => .fetch
    ensure (file.isNone || written) .cache
    return ⟨outcome.body, if outcome.notModified then .notModified else .fresh,
      outcome.subscriptionUserinfo⟩

/-- The cache the servers are asked with, an empty one where there is none. -/
def cacheInUse (held : Option BodyCache) (file : Option CacheFile) : BodyCache :=
  held.getD ((restoreCache maxBodyBytes file).toOption.getD {})

/-- There is no cache file, or one that can be used. -/
def Usable : Option CacheFile → Prop
  | none => True
  | some .missing => True
  | some .inaccessible => False
  | some (.found isFile isPrivate length content) =>
    isFile = true ∧ isPrivate = true ∧ 0 < length ∧ length ≤ maxBodyBytes ∧
      ∃ body, content = some body ∧ body.length ≤ maxBodyBytes

variable {maxBodyBytes}

theorem restoreCache_eq_ok {file : Option CacheFile} :
    (∃ cache, restoreCache maxBodyBytes file = .ok cache) ↔ Usable maxBodyBytes file := by
  match file with
  | none | some .missing | some .inaccessible => simp [restoreCache, Usable]
  | some (.found isFile isPrivate length content) =>
    simp only [restoreCache, SourceCache.applySuccess, bind_eq_ok, ensure_eq_ok, okOr_eq_ok,
      mapError_eq_ok, Bool.and_eq_true, bne_iff_ne, decide_eq_true_eq, Usable, Nat.pos_iff_ne_zero]
    constructor
    · rintro ⟨-, -, ⟨⟨⟨hfile, hzero⟩, hlength⟩, hprivate⟩, body, hbody, -, hfits, -⟩
      exact ⟨hfile, hprivate, hzero, hlength, body, hbody, hfits⟩
    · rintro ⟨hfile, hprivate, hzero, hlength, body, hbody, hfits⟩
      exact ⟨_, (), ⟨⟨⟨hfile, hzero⟩, hlength⟩, hprivate⟩, body, hbody, (), hfits, rfl⟩

section

variable {lib : Library SubscriptionUserInfo} {policy : FetchPolicy} {held : Option BodyCache}
  {file : Option CacheFile} {written : Bool} {input : FetchInput}
  {outcome : FetchOutcome SubscriptionUserInfo} {cache : BodyCache}

theorem fetchBody_of_cache (hcache : held.elim (restoreCache maxBodyBytes file) .ok = .ok cache)
    (h : (fetch lib policy maxBodyBytes cache input).result = .ok outcome) :
    (∃ body, fetchBody maxBodyBytes lib policy held file written input = .ok body ∧
      body.bytes = outcome.body) ↔ file = none ∨ written = true := by
  -- what was fetched fits into the cache
  have hcommit : ∃ cache', cache.commit outcome maxBodyBytes = .ok cache' := by
    obtain ⟨_, -, hanswers⟩ := fetch_answers h
    unfold SourceCache.commit
    split
    · exact ⟨_, rfl⟩
    · next hfresh =>
      exact ⟨_, bind_eq_ok.mpr ⟨(), by simpa using hanswers.fresh (by simpa using hfresh), rfl⟩⟩
  obtain ⟨cache', hcommit⟩ := hcommit
  simp only [fetchBody, hcache, h, hcommit, bind_eq_ok, Except.ok.injEq, exists_eq_left',
    mapError_eq_ok, ensure_eq_ok]
  constructor
  · rintro ⟨body, ⟨_, hwritten, -⟩, -⟩
    simpa using hwritten
  · intro hwritten
    exact ⟨_, ⟨(), by simpa using hwritten, rfl⟩, rfl⟩

/-- A body that a server gives is brought back exactly if the cache file could be used, where
it was looked at, and could be written. -/
theorem fetchBody_iff
    (h : (fetch lib policy maxBodyBytes (cacheInUse maxBodyBytes held file) input).result =
      .ok outcome) : (∃ body, fetchBody maxBodyBytes lib policy held file written input = .ok body ∧
        body.bytes = outcome.body) ↔
      (held.isSome ∨ Usable maxBodyBytes file) ∧ (file = none ∨ written = true) := by
  cases held with
  | some cache => simpa using fetchBody_of_cache rfl h
  | none =>
    rw [← restoreCache_eq_ok]
    cases hrestore : restoreCache maxBodyBytes file with
    | error error => simp [fetchBody, hrestore]
    | ok cache =>
      simp only [cacheInUse, hrestore] at h
      have hcache : (none : Option BodyCache).elim (restoreCache maxBodyBytes file) .ok =
          .ok cache := hrestore
      simpa using fetchBody_of_cache hcache h

end

/-! ## A server that answers -/

def answeringLibrary : Library SubscriptionUserInfo :=
  { plainLibrary with parseSubscriptionUserinfo := fun _ => none }

def answeredInput : FetchInput :=
  { endpoints := [plainEndpoint "https://one.example/sub"], profile := .netHopGeneric,
    localProxy := none, nets := fun _ _ => answering fun _ => freshResponse,
    inspect := fun _ => .accepted }

def answeredOutcome : FetchOutcome SubscriptionUserInfo :=
  ⟨[1, 2, 3], .primary, "https://one.example/sub", none, some "v1", none, none, false⟩

theorem answered_without_file : ∃ body, fetchBody 1024 answeringLibrary .default none
    (some .missing) true answeredInput = .ok body ∧ body.bytes = [1, 2, 3] := by
  have hanswer : (fetch answeringLibrary .default 1024 (cacheInUse 1024 none (some .missing))
      answeredInput).result = .ok answeredOutcome := rfl
  exact (fetchBody_iff hanswer).mpr ⟨.inr trivial, .inr rfl⟩

/-- A cache file of no length. -/
theorem answered_with_empty_file :
    (fetch answeringLibrary .default 1024 {} answeredInput).result = .ok answeredOutcome ∧
      fetchBody 1024 answeringLibrary .default none (some (.found true true 0 (some []))) true
        answeredInput = .error .cache := ⟨rfl, rfl⟩

end NetHop.SourceUpdate
