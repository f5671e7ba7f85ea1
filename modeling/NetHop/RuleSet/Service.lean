import NetHop.Runs
import NetHop.RuleSet.Publish

/-!
# The rule-set update service

`RuleSetUpdateService` of `ruleset_update.rs` keeps at most one transaction and
drives the store through it.  A reopening is a new process on the same directory.
-/

namespace NetHop.RuleSet

open FaultIo Io

inductive RuleSetUpdateError where
  | fetch
  | missingProvider
  | admission
  | invalidState

inductive RuleSetUpdatePreparation where
  | unchanged
  | prepared

inductive RuleSetPurpose where
  | cnDomainDirect
  | cnIpDirect

/-- One provider of the manifest and what the fetcher answers for it. -/
structure ProviderAnswer where
  purpose : RuleSetPurpose
  body : Option Bytes

def fetchBodies : List ProviderAnswer → Option Bytes → Option Bytes →
    Except RuleSetUpdateError (Option Bytes × Option Bytes)
  | [], cnDomain, cnIp => .ok (cnDomain, cnIp)
  | provider :: rest, cnDomain, cnIp =>
    match provider.body with
    | none => .error .fetch
    | some body =>
      match provider.purpose with
      | .cnDomainDirect => fetchBodies rest (some body) cnIp
      | .cnIpDirect => fetchBodies rest cnDomain (some body)

def fetchPair (providers : List ProviderAnswer) : Except RuleSetUpdateError Pair :=
  match fetchBodies providers none none with
  | .error e => .error e
  | .ok (some cnDomain, some cnIp) => .ok (cnDomain, cnIp)
  | .ok _ => .error .missingProvider

inductive RuleSetUpdateTransaction where
  | prepared (p : PreparedRuleSet)
  | published (p : PublishedRuleSet)

structure Service where
  transaction : Option RuleSetUpdateTransaction
  disk : Store

variable {providers : List ProviderAnswer}

namespace Service

abbrev Call (α : Type) := Io Service RuleSetUpdateError α

/-- A call to the store with `map_err(|_| RuleSetUpdateError::Admission)`. -/
def onStore {α : Type} (m : Run α) : Call α :=
  mapError (fun _ => .admission) (zoom Service.disk (fun d w => { w with disk := d }) m)

def setTransaction (transaction : Option RuleSetUpdateTransaction) : Call Unit :=
  modify fun w => { w with transaction := transaction }

variable (st : RuleSetStore)

def prepareUpdate (φ : Faults) (tag : Tag) (providers : List ProviderAnswer)
    (checks : Bool) : Call RuleSetUpdatePreparation := do
  match ← gets Service.transaction with
  | some _ => throw .invalidState
  | none => do
    let pair ← ofExcept (fetchPair providers)
    match ← onStore (prepare st φ tag pair checks) with
    | .unchanged => pure .unchanged
    | .prepared p => do
      setTransaction (some (.prepared p))
      pure .prepared

/-- `publish_update`: the transaction is taken out first, also one that is
already published. -/
def publishUpdate (φ : Faults) : Call Unit := do
  let transaction ← gets Service.transaction
  setTransaction none
  match transaction with
  | some (.prepared p) => do
    let published ← onStore (publish st φ p)
    setTransaction (some (.published published))
  | _ => throw .invalidState

def commitUpdate (φ : Faults) : Call Unit := do
  match ← gets Service.transaction with
  | some (.published p) => do
    onStore (commit st φ p)
    setTransaction none
  | _ => throw .invalidState

/-- `rollback_update`: a prepared transaction is dropped with its candidate. -/
def rollbackUpdate (φ : Faults) : Call Unit := do
  match ← gets Service.transaction with
  | none => throw .invalidState
  | some (.prepared p) => do
    setTransaction none
    onStore (dropCandidate φ p.tag.candidate)
  | some (.published p) => do
    onStore (rollback st φ p)
    setTransaction none

/-! ## Runs -/

inductive Action where
  | prepare (φ : Faults) (tag : Tag) (providers : List ProviderAnswer) (checks : Bool)
  | publish (φ : Faults)
  | commit (φ : Faults)
  | rollback (φ : Faults)
  | reopen (φ : Faults)

/-- What a call leaves; a process that is killed loses its transaction. -/
def after {ε α : Type} : Outcome ε α × Service → Service
  | (.crashed, w) => { w with transaction := none }
  | (_, w) => w

def exec (w : Service) : Action → Service
  | .prepare φ tag providers checks => after (prepareUpdate st φ tag providers checks w)
  | .publish φ => after (publishUpdate st φ w)
  | .commit φ => after (commitUpdate st φ w)
  | .rollback φ => after (rollbackUpdate st φ w)
  | .reopen φ => ⟨none, (openStore φ w.disk).2⟩

def Action.offered : Action → Option Pair
  | .prepare _ _ providers _ => (fetchPair providers).toOption
  | _ => none

/-! What one action does, by the transaction it finds. -/

variable {st : RuleSetStore} {φ : Faults} {w : Service}

theorem after_onStore_bind {α β : Type} (m : Run α) (f : α → Call β) (w : Service) :
    after ((onStore m >>= f) w) = match m w.disk with
      | (.done a, d) => after (f a { w with disk := d })
      | (.error _, d) => { w with disk := d }
      | (.crashed, d) => ⟨none, d⟩ := by
  rw [bind_apply]
  unfold onStore mapError zoom
  rcases m w.disk with ⟨o, d⟩
  cases o <;> rfl

theorem exec_prepare_free {tag : Tag} {checks : Bool} {pair : Pair} (h : w.transaction = none)
    (hpair : fetchPair providers = .ok pair) : exec st w (.prepare φ tag providers checks) =
      match prepare st φ tag pair checks w.disk with
      | (.done (.prepared p), d) => ⟨some (.prepared p), d⟩
      | (_, d) => ⟨none, d⟩ := by
  obtain ⟨transaction, disk⟩ := w
  cases h
  change after ((ofExcept (fetchPair providers) >>= _) _) = _
  rw [hpair]
  change after ((onStore (prepare st φ tag pair checks) >>= _) _) = _
  rw [after_onStore_bind]
  rcases prepare st φ tag pair checks disk with ⟨(_ | _) | _ | _, d⟩ <;> rfl

theorem exec_prepare_other {tag : Tag} {checks : Bool}
    (h : w.transaction ≠ none ∨ ∃ e, fetchPair providers = .error e) :
    exec st w (.prepare φ tag providers checks) = w := by
  obtain ⟨transaction, disk⟩ := w
  cases transaction with
  | some x => rfl
  | none =>
    obtain ⟨e, he⟩ := h.resolve_left (fun hne => hne rfl)
    change after ((ofExcept (fetchPair providers) >>= _) _) = _
    rw [he]
    rfl

theorem exec_publish_prepared {p : PreparedRuleSet} (h : w.transaction = some (.prepared p)) :
    exec st w (.publish φ) = match publish st φ p w.disk with
      | (.done published, d) => ⟨some (.published published), d⟩
      | (_, d) => ⟨none, d⟩ := by
  obtain ⟨transaction, disk⟩ := w
  cases h
  change after ((onStore (publish st φ p) >>= _) _) = _
  rw [after_onStore_bind]
  rcases publish st φ p disk with ⟨_ | _ | _, d⟩ <;> rfl

theorem exec_publish_other (h : ∀ p, w.transaction ≠ some (.prepared p)) :
    exec st w (.publish φ) = ⟨none, w.disk⟩ := by
  obtain ⟨transaction, disk⟩ := w
  rcases transaction with _ | (p | p)
  · rfl
  · exact absurd rfl (h p)
  · rfl

variable {p : PublishedRuleSet}

theorem exec_commit_published (h : w.transaction = some (.published p)) :
    exec st w (.commit φ) = match commit st φ p w.disk with
      | (.error _, d) => ⟨some (.published p), d⟩
      | (_, d) => ⟨none, d⟩ := by
  obtain ⟨transaction, disk⟩ := w
  cases h
  change after ((onStore (commit st φ p) >>= _) _) = _
  rw [after_onStore_bind]
  rcases commit st φ p disk with ⟨_ | _ | _, d⟩ <;> rfl

theorem exec_commit_other (h : ∀ p, w.transaction ≠ some (.published p)) :
    exec st w (.commit φ) = w := by
  obtain ⟨transaction, disk⟩ := w
  rcases transaction with _ | (p | p)
  · rfl
  · rfl
  · exact absurd rfl (h p)

theorem exec_rollback_published (h : w.transaction = some (.published p)) :
    exec st w (.rollback φ) = match rollback st φ p w.disk with
      | (.error _, d) => ⟨some (.published p), d⟩
      | (_, d) => ⟨none, d⟩ := by
  obtain ⟨transaction, disk⟩ := w
  cases h
  change after ((onStore (rollback st φ p) >>= _) _) = _
  rw [after_onStore_bind]
  rcases rollback st φ p disk with ⟨_ | _ | _, d⟩ <;> rfl

theorem exec_rollback_prepared {p : PreparedRuleSet} (h : w.transaction = some (.prepared p)) :
    exec st w (.rollback φ) = ⟨none, (dropCandidate φ p.tag.candidate w.disk).2⟩ := by
  obtain ⟨transaction, disk⟩ := w
  cases h
  change after (onStore (dropCandidate φ p.tag.candidate) ⟨none, disk⟩) = _
  unfold onStore mapError zoom
  rcases hrun : dropCandidate φ p.tag.candidate disk with ⟨_ | _ | _, d⟩ <;> simp [after]

theorem exec_rollback_none (h : w.transaction = none) : exec st w (.rollback φ) = w := by
  obtain ⟨transaction, disk⟩ := w
  cases h
  rfl

end Service

end NetHop.RuleSet
