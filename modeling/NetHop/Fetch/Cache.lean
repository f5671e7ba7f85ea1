import NetHop.Checked
import NetHop.Words

/-!
# What is kept of a source

The last body that was accepted from a source, with the validators the server gave it and
the endpoint they came from.  The validators are sent to that endpoint only.
-/

namespace NetHop.Fetch

open Text

inductive FetchPolicyError where
  | invalidLocalProxy
  | nonHttps
  | userInfo
  | missingHost
  | deniedAddress
  | peerMismatch
  | redirectLimit
  | invalidRedirect
  | headersTooLarge
  | bodyTooLarge
  | unsupportedContentEncoding
  | invalidResponseMetadata
  | responseTimeout
  | cacheMiss
  | tooManyMirrors

inductive FetchError where
  | policy (error : FetchPolicyError)
  | network
  | timeout
  | httpStatus
  | mirrorsExhausted

def FetchError.ofPolicy : FetchPolicyError → FetchError
  | .responseTimeout => .timeout
  | error => .policy error

def asFetch {α : Type} (x : Except FetchPolicyError α) : Except FetchError α :=
  x.mapError FetchError.ofPolicy

inductive FetchEndpointKind where
  | primary
  | mirror

/-- What a fetch brings back.  The type of the traffic figures a server may add is left open. -/
structure FetchOutcome (υ : Type) where
  body : List UInt8
  endpointKind : FetchEndpointKind
  endpointDigest : String
  contentType : Option String
  etag : Option String
  lastModified : Option String
  subscriptionUserinfo : Option υ
  notModified : Bool

structure SourceCache (υ : Type) where
  etag : Option String := none
  lastModified : Option String := none
  validatorEndpoint : Option String := none
  lastKnownGood : Option (List UInt8) := none
  subscriptionUserinfo : Option υ := none

namespace SourceCache

variable {υ : Type} (cache : SourceCache υ)

def conditionalHeaders : List (String × String) :=
  (cache.etag.map fun etag => ("If-None-Match", etag)).toList ++
    (cache.lastModified.map fun lastModified => ("If-Modified-Since", lastModified)).toList

def conditionalHeadersFor (endpointDigest : String) : List (String × String) :=
  if cache.validatorEndpoint = some endpointDigest then cache.conditionalHeaders else []

def applySuccess (body : List UInt8) (etag lastModified : Option String)
    (maxBodyBytes : Nat) : Except FetchPolicyError (SourceCache υ) := do
  ensure (body.length ≤ maxBodyBytes) .bodyTooLarge
  return { cache with lastKnownGood := some body, etag := etag, lastModified := lastModified,
                      validatorEndpoint := none }

def commit (outcome : FetchOutcome υ) (maxBodyBytes : Nat) :
    Except FetchPolicyError (SourceCache υ) :=
  if outcome.notModified then return cache
  else do
    ensure (outcome.body.length ≤ maxBodyBytes) .bodyTooLarge
    return { lastKnownGood := some outcome.body, etag := outcome.etag,
             lastModified := outcome.lastModified,
             validatorEndpoint := some outcome.endpointDigest,
             subscriptionUserinfo := outcome.subscriptionUserinfo }

def applyNotModified : Except FetchPolicyError (List UInt8) :=
  okOr cache.lastKnownGood .cacheMiss

theorem validatorEndpoint_of_conditionalHeadersFor {cache : SourceCache υ} {digest : String}
    (h : cache.conditionalHeadersFor digest ≠ []) : cache.validatorEndpoint = some digest := by
  by_contra hne
  rw [conditionalHeadersFor, if_neg hne] at h
  exact h rfl

end SourceCache

end NetHop.Fetch
