import NetHop.FaultIo.Trace

/-!
# The rule-set store

`RuleSetStore` of `ruleset.rs`: a directory with the two current rule-set files,
a candidate pair in a directory of its own, backups of the pair that is being
replaced, and a journal that names them.  The journal is represented by the
value its JSON text parses to; while it is written it is `cut`.
-/

namespace NetHop.RuleSet

open FaultIo Io Tree

abbrev Bytes := List UInt8

/-- The entries of the root, by what the store does with their names. -/
inductive RuleName where
  | domain
  | ip
  | journal
  | previousDomain (suffix : String)
  | previousIp (suffix : String)
  | candidate (suffix : String)
  | other (name : String)
  deriving DecidableEq

inductive CandidateFile where
  | domain
  | ip
  | config
  | other (name : String)
  deriving DecidableEq

structure RuleSetJournal where
  schema : String
  candidate : RuleName
  previousDomain : RuleName
  previousIp : RuleName
  deriving DecidableEq

inductive RuleContent where
  | bytes (b : Bytes)
  | journal (j : RuleSetJournal)
  | checkConfig
  | cut
  deriving DecidableEq

/-- A file is created empty, holds prefixes of its content, then all of it. -/
instance : Writable RuleContent where
  empty := .bytes []
  torn
    | .bytes b => b.inits.map .bytes
    | _ => [.cut]

inductive RuleSetError where
  | invalidRoot
  | invalidCurrent
  | invalidCandidate
  | candidateTooLarge
  | stageFailed
  | checkFailed
  | publishFailed
  | foreignTransaction
  | commitFailed
  | rollbackFailed
  deriving DecidableEq

abbrev Store := Tree RuleName CandidateFile RuleContent

/-- The calls to the file system. -/
inductive Site where
  | createCandidate
  | writeDomain
  | writeIp
  | writeConfig
  | syncCandidate
  | dropCandidate
  | writeJournal
  | syncJournal
  | backupDomain
  | backupIp
  | installDomain
  | installIp
  | syncPublish
  | clearDomain
  | clearIp
  | restoreDomain
  | restoreIp
  | removeCandidate
  | removeJournal
  | syncRemoval
  | dropPreviousDomain
  | dropPreviousIp
  | syncCommit
  | readJournal
  | findPair
  | findPreviousDomain
  | findPreviousIp
  | findDomain
  | findIp
  | findCandidate
  | listRoot
  | cleanup (name : RuleName)
  | syncCleanup
  deriving DecidableEq

abbrev Faults := Site → Fault

def noFaults : Faults := fun _ => .none

abbrev Run (α : Type) := Io Store RuleSetError α

/-- `io::Result<()>`. -/
abbrev Sys := Io Store Unit Unit

/-- `exists`, `symlink_metadata(..).is_ok()` and the like: an error of the lookup
counts as nothing being there.  A process killed here is one killed before its
next step. -/
def sees {ε : Type} (φ : Fault) (look : Store → Bool) : Io Store ε Bool :=
  gets fun t => !decide φ.Fails && look t

theorem sees_eq {ε : Type} {φ : Fault} {look : Store → Bool} (h : ¬ φ.Fails) :
    (sees φ look : Io Store ε Bool) = gets look := by
  simp [sees, h]

/-! ## Names -/

/-- The process and the sequence number a transaction is named after. -/
structure Tag where
  process : Nat
  sequence : Nat
  process_lt : process < 2 ^ 32
  sequence_lt : sequence < 2 ^ 64

namespace Tag

variable (tag : Tag)

def text : String := toString tag.process ++ "-" ++ toString tag.sequence

def candidate (tag : Tag) : RuleName := .candidate tag.text

def previousDomain (tag : Tag) : RuleName := .previousDomain (tag.text ++ ".srs")

def previousIp (tag : Tag) : RuleName := .previousIp (tag.text ++ ".srs")

end Tag

def journalSchema : String := "nethop-ruleset-transaction-v1"

/-- The part of `valid_transaction_name` after the stem was recognised. -/
def plainName (value : String) : Bool :=
  decide (value.length ≤ 128) &&
    value.toList.all fun c => c.isAlphanum || c == '.' || c == '-'

/-- The checks of a journal that was read.  Accepted names are short, so the
journal stays far below the limit of 4096 bytes. -/
def RuleSetJournal.valid (j : RuleSetJournal) : Bool :=
  j.schema == journalSchema &&
    (match j.candidate with
      | .candidate suffix => plainName (".candidate-ruleset-" ++ suffix)
      | _ => false) &&
    (match j.previousDomain with
      | .previousDomain suffix => plainName (".previous-domain-" ++ suffix)
      | _ => false) &&
    (match j.previousIp with
      | .previousIp suffix => plainName (".previous-ip-" ++ suffix)
      | _ => false)

variable (st : RuleSetStore) (φ : Faults) (tag : Tag)

def Tag.journal : RuleSetJournal where
  schema := journalSchema
  candidate := tag.candidate
  previousDomain := tag.previousDomain
  previousIp := tag.previousIp

/-! ## Preparing a candidate -/

/-- A pair of rule sets: the domains and the addresses. -/
abbrev Pair := Bytes × Bytes

/-- `is_regular_non_symlink`. -/
def isRegular (t : Store) (n : RuleName) : Bool := (t.get n).any Node.isFile

structure RuleSetStore where
  root : String
  maxBytesPerFile : Nat

structure PreparedRuleSet where
  root : String
  tag : Tag

structure PublishedRuleSet where
  root : String
  tag : Tag

def validateCandidate (bytes : Bytes) : Except RuleSetError Unit :=
  if st.maxBytesPerFile < bytes.length then .error .candidateTooLarge
  else if bytes.length < 4 || !([83, 82, 83] : Bytes).isPrefixOf bytes then
    .error .invalidCandidate
  else .ok ()

def sameContent (t : Store) (n : RuleName) (bytes : Bytes) : Bool :=
  ((t.get n).bind Node.read) == some (.bytes bytes)

/-- `stage_and_check`: `checks` is the verdict of the checker. -/
def stageAndCheck (c : RuleName) (pair : Pair) (checks : Bool) : Run Unit := do
  writeNew (φ .writeDomain) .stageFailed (.child c .domain) (.bytes pair.1)
  writeNew (φ .writeIp) .stageFailed (.child c .ip) (.bytes pair.2)
  writeNew (φ .writeConfig) .stageFailed (.child c .config) .checkConfig
  syncDirectory (φ .syncCandidate) .stageFailed
  if checks then pure () else throw .checkFailed

/-- `fs::remove_dir_all(candidate)` with its result dropped. -/
def dropCandidate (φ : Faults) (c : RuleName) : Run Unit :=
  ignore (removeDirAll (φ .dropCandidate) () c : Sys)

inductive RuleSetPreparation where
  | unchanged
  | prepared (p : PreparedRuleSet)

/-- The part of `prepare` that stages a pair that differs from the current one. -/
def stagePair (pair : Pair) (checks : Bool) : Run RuleSetPreparation := do
  createDir (φ .createCandidate) .stageFailed tag.candidate
  match ← attempt (stageAndCheck φ tag.candidate pair checks) with
  | .ok _ => pure (.prepared ⟨st.root, tag⟩)
  | .error e => do
    dropCandidate φ tag.candidate
    throw e

def prepare (pair : Pair) (checks : Bool) : Run RuleSetPreparation := do
  ofExcept (validateCandidate st pair.1)
  ofExcept (validateCandidate st pair.2)
  -- An error of `validate_current` and one of the reads after it are the same error.
  if ← sees (φ .findPair) fun t => isRegular t .domain && isRegular t .ip then do
    let same ← gets fun t : Store =>
      sameContent t .domain pair.1 && sameContent t .ip pair.2
    if same then pure .unchanged
    else stagePair st φ tag pair checks
  else throw .invalidCurrent

/-! ## Publishing -/

def removeJournal (φ : Faults) : Sys := do
  removeFile (φ .removeJournal) () .journal
  syncDirectory (φ .syncRemoval) ()

/-- `restore_pair`: the outcome is an error either way, the milder one when both
backups are back. -/
def restorePair : Run RuleSetError := do
  ignore (removeFile (φ .clearDomain) () .domain : Sys)
  ignore (removeFile (φ .clearIp) () .ip : Sys)
  let domain ← succeeds (rename (φ .restoreDomain) () tag.previousDomain .domain : Sys)
  let ip ← succeeds (rename (φ .restoreIp) () tag.previousIp .ip : Sys)
  pure (if domain && ip then .publishFailed else .rollbackFailed)

/-- The exits of `publish_candidate` once both backups were made. -/
def undoInstall : Run Unit := do
  let error ← restorePair φ tag
  let removed ← succeeds (removeJournal φ)
  throw (if error = .publishFailed && removed then .publishFailed else .rollbackFailed)

/-- The two candidate files take the places of the current ones. -/
def installPair : Run Unit := do
  if ← succeeds (renameOut (φ .installDomain) () tag.candidate .domain .domain : Sys) then
    let installed ←
      succeeds (renameOut (φ .installIp) () tag.candidate .ip .ip : Sys)
    if ← andAlso installed (succeeds (syncDirectory (φ .syncPublish) () : Sys)) then
      pure ()
    else undoInstall φ tag
  else undoInstall φ tag

/-- The exit of `publish_candidate` when the second backup fails. -/
def undoBackup : Run Unit := do
  let restored ← succeeds (rename (φ .restoreDomain) () tag.previousDomain .domain : Sys)
  let removed ← succeeds (removeJournal φ)
  throw (if restored && removed then .publishFailed else .rollbackFailed)

/-- The current files are moved aside, then the candidate's take their places. -/
def swapPair : Run Unit := do
  if ← succeeds (rename (φ .backupDomain) () .domain tag.previousDomain : Sys) then
    if ← succeeds (rename (φ .backupIp) () .ip tag.previousIp : Sys) then
      installPair φ tag
    else undoBackup φ tag
  else do
    ignore (removeJournal φ)
    throw .publishFailed

def publishCandidate : Run PublishedRuleSet := do
  let domain ← sees (φ .findPreviousDomain) (pathExists · tag.previousDomain)
  let ip ← sees (φ .findPreviousIp) (pathExists · tag.previousIp)
  if domain || ip then throw .publishFailed
  else do
    writeNew (φ .writeJournal) .publishFailed (.entry .journal) (.journal tag.journal)
    if ← succeeds (syncDirectory (φ .syncJournal) () : Sys) then
      swapPair φ tag
      pure ⟨st.root, tag⟩
    else do
      ignore (removeFile (φ .removeJournal) () .journal : Sys)
      throw .publishFailed

/-- `publish`: the candidate directory goes on success, and on failure when the
token is dropped. -/
def publish (p : PreparedRuleSet) : Run PublishedRuleSet :=
  if p.root ≠ st.root then do
    dropCandidate φ p.tag.candidate
    throw .foreignTransaction
  else do
    match ← attempt (publishCandidate st φ p.tag) with
    | .ok published => do
      ignore (removeDirAll (φ .removeCandidate) () p.tag.candidate : Sys)
      pure published
    | .error e => do
      dropCandidate φ p.tag.candidate
      throw e

/-! ## Settling a publication -/

def commit (p : PublishedRuleSet) : Run Unit :=
  if p.root = st.root then do
    mapError (fun _ => .commitFailed) (removeJournal φ)
    ignore (removeFile (φ .dropPreviousDomain) () p.tag.previousDomain : Sys)
    ignore (removeFile (φ .dropPreviousIp) () p.tag.previousIp : Sys)
    ignore (syncDirectory (φ .syncCommit) () : Sys)
  else throw .foreignTransaction

def rollback (p : PublishedRuleSet) : Run Unit :=
  if p.root = st.root then do
    let outcome ← restorePair φ p.tag
    if outcome = .publishFailed then
      mapError (fun _ => .rollbackFailed) (removeJournal φ)
    else throw .rollbackFailed
  else throw .foreignTransaction

/-! ## Opening -/

/-- `symlink_metadata(current).is_ok() && remove_file(current).is_err()`, negated. -/
def clearPlace (clear : Fault) (current : RuleName) (there : Bool) : Io Store Unit Bool :=
  if there then succeeds (removeFile clear () current : Sys) else pure true

def restoreIfPresent (findPrevious findCurrent clear restore : Fault)
    (current previous : RuleName) : Io Store Unit Bool := do
  if ← sees findPrevious (isRegular · previous) then do
    let there ← sees findCurrent fun t => (t.get current).isSome
    let cleared ← clearPlace clear current there
    andAlso cleared (succeeds (rename restore () previous current : Sys))
  else sees findCurrent (isRegular · current)

/-- Both halves are put back, the second only after the first. -/
def restoreHalves (j : RuleSetJournal) : Io Store Unit Bool := do
  let domain ← restoreIfPresent (φ .findPreviousDomain) (φ .findDomain) (φ .clearDomain)
    (φ .restoreDomain) .domain j.previousDomain
  andAlso domain (restoreIfPresent (φ .findPreviousIp) (φ .findIp) (φ .clearIp)
    (φ .restoreIp) .ip j.previousIp)

/-- The candidate the journal names goes, then the journal. -/
def finishReplay (j : RuleSetJournal) : Sys := do
  if ← sees (φ .findCandidate) fun t => (t.get j.candidate).isSome then
    if ← gets fun t : Store => (t.get j.candidate).any Node.isDir then
      removeDirAll (φ .removeCandidate) () j.candidate
      removeJournal φ
    else throw ()
  else removeJournal φ

/-- The part of `recover_interrupted_transaction` that follows a valid journal. -/
def replay (j : RuleSetJournal) : Sys := do
  if ← restoreHalves φ j then finishReplay φ j else throw ()

/-- What is made of the entry at the journal's name. -/
def replayJournal : Sys := do
  match ← gets fun t : Store => t.get .journal with
  | none => pure ()
  | some (.leaf (.file f)) =>
    match f.content with
    | .journal j => if j.valid then replay φ j else throw ()
    | _ => throw ()
  | some _ => throw ()

/-- `recover_interrupted_transaction`: an error of looking the journal up is the
error of reading it. -/
def recoverInterrupted : Sys := do
  probe (φ .readJournal) ()
  replayJournal φ

/-- One entry of `cleanup_stale_transactions`; the answer says whether it was
removed.  An error of its `metadata` is the error of a removal without an effect. -/
def cleanupEntry (n : RuleName) : Io Store Unit Bool :=
  match n with
  | .previousDomain _ | .previousIp _ => do
    if ← gets fun t : Store => isRegular t n then
      removeFile (φ (.cleanup n)) () n
      pure true
    else throw ()
  | .candidate _ => do
    if ← gets fun t : Store => (t.get n).any Node.isDir then
      removeDirAll (φ (.cleanup n)) () n
      pure true
    else throw ()
  | _ => pure false

def cleanupEntries (φ : Faults) : List RuleName → Io Store Unit Bool
  | [] => pure false
  | n :: ns => do
    let removed ← cleanupEntry φ n
    let rest ← cleanupEntries φ ns
    pure (removed || rest)

/-- `cleanup_stale_transactions`, over the entries in the order of the listing. -/
def cleanupStale : Sys := do
  probe (φ .listRoot) ()
  let names ← gets fun t : Store => t.names
  if ← cleanupEntries φ names then syncDirectory (φ .syncCleanup) () else pure ()

/-- `RuleSetStore::open` on a root that passed its checks. -/
def openStore : Run Unit := do
  mapError (fun _ => .rollbackFailed) (recoverInterrupted φ)
  mapError (fun _ => .invalidRoot) (cleanupStale φ)

end NetHop.RuleSet
