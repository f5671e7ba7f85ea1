import NetHop.Subscription.Journal

/-!
# A subscription change

The driver in `handle` that changes a subscription under a commit
journal.  What the rest of the daemon answers is a `Plan`: whether the
configuration is accepted, what the update that follows does to the generation
store, and what the runtime reports afterwards.
-/

namespace NetHop.Subscription

open FaultIo Io String
open Generation

/-- A request that passed its preview: the checkpoint of the configuration, the
bytes to publish, and the generation that runs. -/
structure Transaction where
  sha : Sha256
  oldBytes : Bytes
  newBytes : Bytes
  running : Option GenerationId
  newBytes_ne_nil : newBytes ≠ []
  newBytes_small : newBytes.length ≤ maxConfigBytes

namespace Transaction

variable (tx : Transaction)

/-- `old_generation.and_then(checked_add(1)).unwrap_or(1)`. -/
def newGeneration : Nat :=
  match tx.running with
  | some g => if g.get + 1 < 2 ^ 64 then g.get + 1 else 1
  | none => 1

def journal : CommitJournal where
  schema := journalSchema
  oldConfigDigest := tx.sha.hex tx.oldBytes
  newConfigDigest := tx.sha.hex tx.newBytes
  oldGeneration := tx.running.map GenerationId.get
  newGeneration := tx.newGeneration
  phase := .prepared
  stagedGeneration := ".candidate-" ++ toString tx.newGeneration ++ "-transaction"
  stagedConfig := ".candidate-config-" ++ toString tx.newGeneration

/-- The journal as it stands on disk in a phase. -/
def journalAt (phase : CommitPhase) : CommitJournal :=
  { tx.journal with phase := phase }

theorem newGeneration_pos : 0 < tx.newGeneration := by
  unfold newGeneration
  split
  · split <;> omega
  · omega

theorem newGeneration_lt : tx.newGeneration < 2 ^ 64 := by
  unfold newGeneration
  split
  · split <;> omega
  · omega

theorem running_ne_newGeneration : tx.running.map GenerationId.get ≠ some tx.newGeneration := by
  unfold newGeneration
  cases h : tx.running with
  | none => simp
  | some g =>
    simp only [Option.map_some, ne_eq, Option.some.injEq]
    split <;> omega

end Transaction

theorem validStagedName_append (stem tail : String) {n : Nat} (hn : n < 2 ^ 64)
    (htail : (tail.toList.all fun c => c.isAlphanum || c == '-' || c == '_') = true)
    (hlen : stem.length + 20 + tail.length ≤ 128) :
    validStagedName (stem ++ toString n ++ tail) stem = true := by
  have hdigits : ((toString n).toList.all fun c => c.isAlphanum || c == '-' || c == '_') =
      true := by
    rw [List.all_eq_true]
    intro c hc
    simp [Char.isAlphanum, Text.isDigit_of_mem_toString hc]
  have hlength := Text.length_toString_le hn
  have hdrop : (stem ++ toString n ++ tail).toList.drop stem.length =
      (toString n).toList ++ tail.toList := by
    simp [toList_append, ← length_toList]
  have hshort : (stem ++ toString n ++ tail).length ≤ 128 := by
    rw [length_append, length_append]
    omega
  unfold validStagedName
  rw [hdrop, List.all_append, hdigits, htail, decide_eq_true hshort]
  simp [toList_append]

namespace Transaction

variable (tx : Transaction)

theorem valid_journalAt (phase : CommitPhase) : (tx.journalAt phase).valid = true := by
  have hpos := tx.newGeneration_pos
  have hgen : validStagedName tx.journal.stagedGeneration ".candidate-" = true :=
    validStagedName_append _ "-transaction" tx.newGeneration_lt (by decide) (by decide)
  have hconfig : validStagedName tx.journal.stagedConfig ".candidate-config-" = true := by
    have := validStagedName_append ".candidate-config-" "" tx.newGeneration_lt
      (by decide) (by decide)
    simpa [journal] using this
  have hold : tx.journal.oldGeneration ≠ some 0 := by
    unfold journal
    cases tx.running with
    | none => simp
    | some g =>
      have := g.pos
      simp only [Option.map_some, ne_eq, Option.some.injEq]
      omega
  have hnew : tx.journal.newGeneration ≠ 0 := by
    unfold journal
    simp only
    omega
  unfold CommitJournal.valid journalAt
  simp [hgen, hconfig, hold, hnew]
  simp [journal, Sha256.validDigest_hex]

theorem stagedGeneration_ne_stagedConfig :
    tx.journal.stagedGeneration ≠ tx.journal.stagedConfig := by
  intro h
  have hlist := congrArg (fun name => name.toList.drop 11) h
  obtain ⟨c, digits, hdigits⟩ : ∃ c digits, Nat.toDigits 10 tx.newGeneration = c :: digits :=
    List.exists_cons_of_ne_nil Nat.toDigits_ne_nil
  have hc : c.isDigit = true :=
    Nat.isDigit_of_mem_toDigits (by omega) (by omega) (hdigits ▸ List.mem_cons_self)
  simp [journal, toList_append, hdigits] at hlist
  rw [hlist.1] at hc
  exact absurd hc (by decide)

/-- Every journal of the transaction is far below the limit. -/
theorem length_jsonText_le (phase : CommitPhase) :
    (tx.journalAt phase).jsonText.length ≤ maxJournalBytes := by
  have hnew := Text.length_toString_le tx.newGeneration_lt
  have hold : ((tx.journal.oldGeneration.map toString).getD "null").length ≤ 20 := by
    unfold journal
    cases tx.running with
    | none =>
      change "null".length ≤ 20
      decide
    | some g => exact Text.length_toString_le g.lt
  have hphase : phase.name.length ≤ 20 := by cases phase <;> decide
  have hgen : tx.journal.stagedGeneration.length = (toString tx.newGeneration).length + 23 := by
    unfold journal
    rw [length_append, length_append, show ".candidate-".length = 11 by decide,
      show "-transaction".length = 12 by decide]
    omega
  have hconfig : tx.journal.stagedConfig.length = (toString tx.newGeneration).length + 18 := by
    unfold journal
    rw [length_append, show ".candidate-config-".length = 18 by decide]
    omega
  have hdigests : tx.journal.oldConfigDigest.length = 64 ∧
      tx.journal.newConfigDigest.length = 64 := ⟨tx.sha.length_hex _, tx.sha.length_hex _⟩
  have hschema : (toString tx.journal.schema).length = 1 := by
    change (toString journalSchema).length = 1
    decide
  rw [CommitJournal.length_jsonText]
  change (toString tx.journal.schema).length + tx.journal.oldConfigDigest.length +
    tx.journal.newConfigDigest.length +
    ((tx.journal.oldGeneration.map toString).getD "null").length +
    (toString tx.newGeneration).length + phase.name.length +
    tx.journal.stagedGeneration.length + tx.journal.stagedConfig.length + 146 ≤ 4096
  omega

end Transaction

/-! ## The driver -/

/-- What the update that follows a change does to the generation store. -/
inductive UpdateKind where
  | skipped
  | discarded
  | committed
  deriving DecidableEq

/-- The update as the driver sees it: whether the commands went through, the
generation that runs afterwards, and whether the source registry lets a
configuration be rolled back. -/
structure Update where
  kind : UpdateKind
  content : Dir ChildName (Leaf Content)
  completed : Bool
  running : Option Nat
  registryRestored : Bool

/-- How the rest of the daemon takes a change. -/
inductive Plan where
  | refused
  | registryRefused
  | applied (u : Update)

inductive Reply where
  | completed
  | transactionFailed
  | applyRolledBack
  | configRejected

/-- `SourceUpdateService::next_generation` on a pointer that was read. -/
def nextGeneration : Option Nat → Option Nat
  | none => some 1
  | some c => if c + 1 < 2 ^ 64 then some (c + 1) else none

def Disk.sealAs (r : Nat) (children : Dir ChildName (Leaf Content)) (s : Disk) : Disk :=
  { s with sealed := s.sealed.set r (.dir children) }

def Disk.unseal (r : Nat) (s : Disk) : Disk := { s with sealed := Tree.unlink r s.sealed }

def Disk.unsealChild (r : Nat) (child : ChildName) (s : Disk) : Disk :=
  { s with sealed := Tree.unlinkChild r child s.sealed }

def Disk.pointTo (r : Nat) (s : Disk) : Disk := { s with current := some r }

def sealGeneration (φ : Faults) (r : Nat) (children : Dir ChildName (Leaf Content)) : Run Unit :=
  step (φ .sealGeneration) .writeFailed fun s =>
    if (s.sealed.get r).isNone then some [Disk.sealAs r children] else none

def switchCurrent (φ : Faults) (r : Nat) : Run Unit :=
  step (φ .switchCurrent) .writeFailed fun _ => some [Disk.pointTo r]

/-- `remove_dir_all`, one entry after the other. -/
def discardGeneration (φ : Faults) (r : Nat) : Run Unit :=
  onSealed (Tree.removeDirAll (φ .discardGeneration) .writeFailed r)

variable (φ : Faults)

/-- The update takes its number from the store, not from the journal. -/
def runUpdate (u : Update) : Run Unit :=
  match u.kind with
  | .skipped => pure ()
  | kind => do
    match ← gets fun s : Disk => nextGeneration s.current with
    | none => throw .writeFailed
    | some r =>
      sealGeneration φ r u.content
      if kind = .committed then switchCurrent φ r else discardGeneration φ r

variable (tx : Transaction)

/-- The file is written and, the registry having refused, put back. -/
def publishAndRestore : Run Unit := do
  writeCanonical (φ .publishConfig) tx.newBytes
  ignore (writeCanonical (φ .restoreConfig) tx.oldBytes)

/-- `commit_subscription_document`. -/
def publishConfig (φ : Faults) (tx : Transaction) (registry : Bool) : Run Unit :=
  if registry then writeCanonical (φ .publishConfig) tx.newBytes
  else do
    publishAndRestore φ tx
    throw .writeFailed

/-- `rollback_config_transaction`. -/
def rollbackConfig (φ : Faults) (tx : Transaction) (registry : Bool) : Run Unit := do
  writeCanonical (φ .rollbackConfig) tx.oldBytes
  if registry then pure ()
  else ignore (writeCanonical (φ .republishConfig) tx.newBytes)

variable (j : CommitJournal)

def writePhases (u : Update) : Run Unit :=
  if u.running = some tx.newGeneration then do
    let j ← advanceAndWrite φ j .generationPublished
    complete φ j
  else complete φ j

def finishUpdate (u : Update) : Run Reply := do
  match ← attempt (writePhases φ tx j u) with
  | .ok _ => pure .completed
  | .error _ => do
    ignore (rollbackConfig φ tx u.registryRestored)
    pure .transactionFailed

def undoUpdate (u : Update) : Run Reply := do
  ignore (rollbackConfig φ tx u.registryRestored)
  ignore (abort φ j)
  pure .applyRolledBack

def applyUpdate (u : Update) : Run Reply := do
  match ← attempt (runUpdate φ u) with
  | .ok _ => if u.completed then finishUpdate φ tx j u else undoUpdate φ tx j u
  | .error _ => undoUpdate φ tx j u

end NetHop.Subscription
