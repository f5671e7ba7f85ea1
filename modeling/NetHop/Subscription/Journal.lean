import NetHop.FaultIo.Trace
import NetHop.Generation.Store

/-!
# The commit journal

`CommitJournalStore` of `subscription_transaction.rs`: the journal file of a
subscription change, the configuration staged beside it, and what the next
start does with them.  The journal and the staged names are entries of the
runtime root; sealed generations are entries of `generations` under it.  A file
replacement goes through `atomic_write` and is one atomic effect; the journal is
represented by the value its JSON text parses to.
-/

namespace NetHop.Subscription

open FaultIo Io Tree

abbrev Bytes := List UInt8

/-- SHA-256 in hexadecimal: any function whose results look like digests. -/
structure Sha256 where
  hex : Bytes → String
  length_hex : ∀ b, (hex b).length = 64
  digits_hex : ∀ b, (hex b).toList.all
    (fun c => c.isDigit || (decide ('a' ≤ c) && decide (c ≤ 'f'))) = true

inductive CommitPhase where
  | prepared
  | checked
  | sealed
  | journaled
  | configPublished
  | generationPublished
  | committed
  deriving DecidableEq

namespace CommitPhase

def rank : CommitPhase → Nat
  | .prepared => 0
  | .checked => 1
  | .sealed => 2
  | .journaled => 3
  | .configPublished => 4
  | .generationPublished => 5
  | .committed => 6

/-- The `snake_case` name in the JSON text. -/
def name : CommitPhase → String
  | .prepared => "prepared"
  | .checked => "checked"
  | .sealed => "sealed"
  | .journaled => "journaled"
  | .configPublished => "config_published"
  | .generationPublished => "generation_published"
  | .committed => "committed"

end CommitPhase

inductive TransactionError where
  | invalidRoot
  | invalidJournal
  | phaseRegression
  | readFailed
  | writeFailed
  | recoveryBlocked

structure CommitJournal where
  schema : Nat
  oldConfigDigest : String
  newConfigDigest : String
  oldGeneration : Option Nat
  newGeneration : Nat
  phase : CommitPhase
  stagedGeneration : String
  stagedConfig : String

def journalSchema : Nat := 1

def maxJournalBytes : Nat := 4096

def maxConfigBytes : Nat := 256 * 1024

/-- `valid_staged_name`; every accepted name is ASCII, so its length in
characters is its length in bytes. -/
def validStagedName (value stem : String) : Bool :=
  stem.toList.isPrefixOf value.toList && decide (value.length ≤ 128) &&
    (value.toList.drop stem.length).all fun c => c.isAlphanum || c == '-' || c == '_'

def validDigest (value : String) : Bool :=
  value.length == 64 &&
    value.toList.all fun c => c.isDigit || (decide ('a' ≤ c) && decide (c ≤ 'f'))

variable (φ : Faults) (sha : Sha256)

theorem Sha256.validDigest_hex (b : Bytes) : validDigest (sha.hex b) = true := by
  unfold validDigest
  rw [sha.length_hex, sha.digits_hex]
  rfl

namespace CommitJournal

variable (j : CommitJournal)

def valid : Bool :=
  j.schema == journalSchema && validDigest j.oldConfigDigest && validDigest j.newConfigDigest &&
    j.newGeneration != 0 && j.oldGeneration != some 0 &&
    validStagedName j.stagedGeneration ".candidate-" &&
    validStagedName j.stagedConfig ".candidate-config-"

def advance (phase : CommitPhase) : Except TransactionError CommitJournal :=
  if phase.rank < j.phase.rank then .error .phaseRegression else .ok { j with phase := phase }

/-- The JSON text; a valid journal has no character that needs an escape. -/
def jsonText : String :=
  "\x7b\"schema\":" ++ toString j.schema ++
  ",\"old_config_digest\":\"" ++ j.oldConfigDigest ++
  "\",\"new_config_digest\":\"" ++ j.newConfigDigest ++
  "\",\"old_generation\":" ++ (j.oldGeneration.map toString).getD "null" ++
  ",\"new_generation\":" ++ toString j.newGeneration ++
  ",\"phase\":\"" ++ j.phase.name ++
  "\",\"staged_generation\":\"" ++ j.stagedGeneration ++
  "\",\"staged_config\":\"" ++ j.stagedConfig ++ "\"\x7d"

theorem length_jsonText :
    j.jsonText.length = (toString j.schema).length + j.oldConfigDigest.length +
      j.newConfigDigest.length + ((j.oldGeneration.map toString).getD "null").length +
      (toString j.newGeneration).length + j.phase.name.length + j.stagedGeneration.length +
      j.stagedConfig.length + 146 := by
  unfold jsonText
  simp only [String.length_append]
  rw [show "\x7b\"schema\":".length = 10 by decide,
    show ",\"old_config_digest\":\"".length = 22 by decide,
    show "\",\"new_config_digest\":\"".length = 23 by decide,
    show "\",\"old_generation\":".length = 19 by decide,
    show ",\"new_generation\":".length = 18 by decide, show ",\"phase\":\"".length = 10 by decide,
    show "\",\"staged_generation\":\"".length = 23 by decide,
    show "\",\"staged_config\":\"".length = 19 by decide, show "\"\x7d".length = 2 by decide]
  omega

end CommitJournal

/-! ## The disk -/

inductive RootName where
  | journal
  | entry (name : String)
  deriving DecidableEq

inductive RootContent where
  | journal (j : CommitJournal)
  | bytes (b : Bytes)

/-- What `fs::read` returns. -/
def RootContent.raw : RootContent → Bytes
  | .journal j => j.jsonText.toUTF8.toList
  | .bytes b => b

abbrev Root := Tree RootName String RootContent

abbrev Generations := Tree Nat Generation.ChildName Generation.Content

/-- `canonical` is what reading the published configuration gives, `current`
the generation the pointer of the generation store names. -/
structure Disk where
  canonical : Option Bytes
  root : Root
  sealed : Generations
  current : Option Nat

/-- The calls of a transaction and of a recovery that touch the disk. -/
inductive Site where
  | readJournal
  | stageConfig
  | writeJournal (phase : CommitPhase)
  | publishConfig
  | restoreConfig
  | rollbackConfig
  | republishConfig
  | sealGeneration
  | switchCurrent
  | discardGeneration
  | removeStagedGeneration
  | removeGeneration
  | removeStagedConfig
  | clearJournal
  deriving DecidableEq

abbrev Faults := Site → Fault

def noFaults : Faults := fun _ => .none

abbrev Run (α : Type) := Io Disk TransactionError α

def onRoot {α : Type} (m : Io Root TransactionError α) : Run α :=
  zoom Disk.root (fun r s => { s with root := r }) m

def onSealed {α : Type} (m : Io Generations TransactionError α) : Run α :=
  zoom Disk.sealed (fun g s => { s with sealed := g }) m

def Disk.putFile (n : RootName) (content : RootContent) (s : Disk) : Disk :=
  { s with root := s.root.set n (.file content true) }

def Disk.putCanonical (b : Bytes) (s : Disk) : Disk := { s with canonical := some b }

/-- `worker_config::atomic_write` on an entry of the root: a rename does not
replace a directory. -/
def atomicWrite (φ : Fault) (n : RootName) (content : RootContent) : Run Unit :=
  step φ .writeFailed fun s =>
    match s.root.get n with
    | some (.dir _) => none
    | _ => some [Disk.putFile n content]

/-- `atomic_write` on the canonical configuration. -/
def writeCanonical (φ : Fault) (b : Bytes) : Run Unit :=
  step φ .writeFailed fun _ => some [Disk.putCanonical b]

section Owned

variable {ν κ β : Type} [DecidableEq ν] [DecidableEq κ]

def removeOwnedStaged (φ : Fault) (n : ν) : Io (Tree ν κ β) TransactionError Unit := do
  match ← gets fun t : Tree ν κ β => t.get n with
  | none => pure ()
  | some (.leaf (.symlink _)) => throw .invalidJournal
  | some (.dir _) => removeDirAll φ .writeFailed n
  | some (.leaf (.file _)) => removeFile φ .writeFailed n
  | some (.leaf .special) => throw .invalidJournal

def owned : Option (Node κ β) → Bool
  | none => true
  | some (.dir _) => true
  | some (.leaf (.file _)) => true
  | _ => false

theorem removeOwnedStaged_eq_done {φ : Fault} {n : ν} {t t' : Tree ν κ β} {u : Unit} :
    removeOwnedStaged φ n t = (.done u, t') ↔
      (t.get n = none ∨ φ = .none) ∧ owned (t.get n) = true ∧ t' = unlink n t := by
  unfold removeOwnedStaged
  rw [gets_bind_apply]
  rcases h : t.get n with _ | ⟨⟨f⟩ | ⟨target⟩ | _⟩ | children
  · have hsame : unlink n t = t := Dir.del_of_get_eq_none h
    simp [owned, hsame, eq_comm]
  · simp [owned, removeFile_eq_done, h]
  · simp [owned]
  · simp [owned]
  · simp [owned, removeDirAll_eq_done, h, removable]

theorem frame_removeOwnedStaged {φ : Fault} {n m : ν} (h : m ≠ n) {v : Option (Node κ β)} :
    Frames m v (removeOwnedStaged φ n) := by
  refine .bind (.look _) fun node => ?_
  rcases node with _ | ⟨⟨f⟩ | ⟨target⟩ | _⟩ | children
  · exact .ret _
  · exact frame_removeFile h
  · exact .fail _
  · exact .fail _
  · exact frame_removeDirAll h

end Owned

/-! ## The journal store -/

def load : Run (Option CommitJournal) := do
  match ← gets fun s : Disk => s.root.get .journal with
  | none => pure none
  | some (.leaf (.file ⟨.journal j, true⟩)) =>
    if maxJournalBytes < j.jsonText.length then throw .invalidJournal
    else do
      probe (φ .readJournal) .readFailed
      if j.valid then pure (some j) else throw .invalidJournal
  | some _ => throw .invalidJournal

variable (j : CommitJournal)

def write : Run Unit :=
  if j.valid then
    if maxJournalBytes < j.jsonText.length then throw .invalidJournal
    else atomicWrite (φ (.writeJournal j.phase)) .journal (.journal j)
  else throw .invalidJournal

def stageConfig (φ : Faults) (sha : Sha256) (j : CommitJournal) (bytes : Bytes) : Run Unit :=
  if j.valid then
    if bytes.isEmpty || decide (maxConfigBytes < bytes.length) ||
        sha.hex bytes != j.newConfigDigest then throw .invalidJournal
    else atomicWrite (φ .stageConfig) (.entry j.stagedConfig) (.bytes bytes)
  else throw .invalidJournal

/-- The journal handed back is the one the source's `&mut` argument holds. -/
def advanceAndWrite (phase : CommitPhase) : Run CommitJournal := do
  let candidate ← ofExcept (j.advance phase)
  write φ candidate
  pure candidate

/-- `clear`: a journal that is not there is cleared already. -/
def clear : Run Unit :=
  onRoot do
    match ← gets fun t : Root => t.get .journal with
    | none => pure ()
    | some _ => removeFile (φ .clearJournal) .writeFailed .journal

def removeStagedConfig (φ : Faults) (j : CommitJournal) : Run Unit :=
  onRoot (removeOwnedStaged (φ .removeStagedConfig) (.entry j.stagedConfig))

def complete : Run Unit := do
  let j ← advanceAndWrite φ j .committed
  removeStagedConfig φ j
  clear φ

def abort : Run Unit := do
  removeStagedConfig φ j
  clear φ

/-! ## Recovery -/

inductive RecoveryAction where
  | discardStaged
  | completeConfigPublish
  | clearJournal
  deriving DecidableEq

/-- What stands at the staged configuration's name, when it can be read. -/
def stagedBytes (s : Disk) : Option Bytes :=
  ((s.root.get (.entry j.stagedConfig)).bind Node.read).map RootContent.raw

def recoverDecision (current : Option Nat) (s : Disk) : Except TransactionError RecoveryAction :=
  if current = some j.newGeneration then
    if s.canonical.map sha.hex = some j.newConfigDigest then .ok .clearJournal
    else if (stagedBytes j s).map sha.hex = some j.newConfigDigest then
      .ok .completeConfigPublish
    else .error .recoveryBlocked
  else .ok .discardStaged

def discardStaged : Run Unit := do
  onRoot (removeOwnedStaged (φ .removeStagedGeneration) (.entry j.stagedGeneration))
  onSealed (removeOwnedStaged (φ .removeGeneration) j.newGeneration)
  removeStagedConfig φ j
  clear φ

def completeConfigPublish : Run Unit := do
  match ← gets (stagedBytes j) with
  | none => throw .recoveryBlocked
  | some bytes =>
    if sha.hex bytes ≠ j.newConfigDigest then throw .recoveryBlocked
    else do
      writeCanonical (φ .publishConfig) bytes
      let j ← ofExcept (j.advance .committed)
      write φ j
      removeStagedConfig φ j
      clear φ

/-- What each action does; clearing removes the staged configuration and the
journal, as an abort does. -/
def perform : RecoveryAction → Run Unit
  | .discardStaged => discardStaged φ j
  | .completeConfigPublish => completeConfigPublish φ sha j
  | .clearJournal => abort φ j

def resolve (current : Option Nat) : Run RecoveryAction := do
  let decision ← gets (recoverDecision sha j current)
  let action ← ofExcept decision
  perform φ sha j action
  pure action

def recover (current : Option Nat) : Run RecoveryAction := do
  match ← load φ with
  | none => pure .clearJournal
  | some j => resolve φ sha j current

/-- The next start: the pointer is read, then the journal is recovered. -/
def restart : Run RecoveryAction := do
  let current ← gets Disk.current
  recover φ sha current

/-! ## What the calls leave alone -/

theorem keeps_onRoot {α : Type} {I : Disk → Prop} (m : Io Root TransactionError α)
    (h : ∀ r s, I s → I { s with root := r }) : Io.Keeps I (onRoot m) := fun s hs => h _ s hs

section Keeps

variable {φ : Faults} {sha : Sha256} {I : Disk → Prop} (h : ∀ r s, I s → I { s with root := r })

include h

theorem keeps_atomicWrite {ψ : Fault} {n : RootName} {content : RootContent} :
    Io.Keeps I (atomicWrite ψ n content) := by
  refine .step fun s fs heff f hf t ht => ?_
  split at heff
  · cases heff
  · cases heff
    rw [List.mem_singleton] at hf
    subst hf
    exact h _ t ht

theorem keeps_write (j : CommitJournal) : Keeps I (write φ j) := by
  unfold write
  split
  · split
    · exact .fail _
    · exact keeps_atomicWrite h
  · exact .fail _

theorem keeps_abort (j : CommitJournal) : Keeps I (abort φ j) :=
  .bind (keeps_onRoot _ h) fun _ => keeps_onRoot _ h

theorem keeps_discardStaged (hg : ∀ g s, I s → I { s with sealed := g }) (j : CommitJournal) :
    Keeps I (discardStaged φ j) := by
  refine .bind (keeps_onRoot _ h) fun _ => ?_
  exact .bind (fun s hs => hg _ s hs) fun _ => keeps_abort h j

theorem keeps_afterPublish {j : CommitJournal} : Keeps I (do
      let j ← ofExcept (j.advance .committed)
      write φ j
      removeStagedConfig φ j
      clear φ : Run Unit) := by
  refine .bind (.ofExcept _) fun j => ?_
  exact .bind (keeps_write h j) fun _ => keeps_abort h j

theorem keeps_completeConfigPublish (hc : ∀ b s, I s → I (Disk.putCanonical b s))
    (j : CommitJournal) : Keeps I (completeConfigPublish φ sha j) := by
  refine .bind (.look _) fun bytes => ?_
  split
  · exact .fail _
  split
  · exact .fail _
  refine .bind (.step fun s fs heff f hf t ht => ?_) fun _ =>
    keeps_afterPublish h
  cases heff
  rw [List.mem_singleton] at hf
  subst hf
  exact hc _ t ht

end Keeps

end NetHop.Subscription
