import NetHop.Generation.Store

/-!
# The source update service

`SourceUpdateService` prepares a generation from the configured sources and
commits it together with a manual source or a set of node overrides.  Every call
to one of its three stores either fails without effect, as its flag in
`Failures` says, or behaves as the store does when the system is healthy.
-/

namespace NetHop.SourceUpdate

open FaultIo Generation Io

inductive SourceUpdateError where
  | fetch
  | cache
  | conversion
  | generationExhausted
  | build
  | publish (error : CoreError)
  | candidateDigestMismatch
  | unknownSource
  | manualSource
  | nodeOverride
  deriving DecidableEq

inductive FormatHint where
  | auto | uriList | base64List | clashYaml | singboxJson | iniProfile | surfboardIni

/-- The manual source on disk: a header line with the format and a body, or text
that does not decode. -/
inductive ManualFile where
  | encoded (format : FormatHint) (bytes : List UInt8)
  | foreign

inductive ManualSourceError where
  | invalidFile | invalidBody | read | write

inductive NodeOverrideError where
  | invalidFile | read | write

inductive OverrideFile (Ω : Type) where
  | stored (overrides : Ω)
  | foreign

structure PendingManualSource where
  bytes : List UInt8
  formatHint : FormatHint

structure SourceUpdateReport where
  generation : GenerationId
  sourceCount : Nat
  accepted : Nat
  duplicate : Nat
  nodeCount : Nat

structure PreparedSourceUpdate (Ω : Type) where
  token : SealedGeneration
  pendingManual : Option PendingManualSource
  pendingNodeOverrides : Option Ω
  report : SourceUpdateReport

/-- What the service works on: the files of its three stores and its own
`node_overrides`.  `compensations` records, for the statements only, which of the
calls whose result is dropped succeeded. -/
structure World (Ω : Type) where
  manual : Option ManualFile
  overrides : Option (OverrideFile Ω)
  generations : Store
  nodeOverrides : Ω
  compensations : List Bool

/-- Which calls return an error without effect. -/
structure Failures where
  manualReplace : Bool
  manualRestore : Bool
  overrideLoad : Bool
  overrideReplace : Bool
  overrideRestore : Bool
  readCurrent : Bool
  prepareCandidate : Bool
  check : Bool
  sealCandidate : Bool
  discardPrepared : Bool
  commitGeneration : Bool
  discardSealed : Bool

def noFailures : Failures :=
  ⟨false, false, false, false, false, false, false, false, false, false, false, false⟩

/-- The fixed parts of the service; `validOverrides` stands for
`NodeOverrideSet::validate` with the size limit of the file. -/
structure Service (Ω : Type) where
  store : GenerationStore
  hasManualStore : Bool
  hasNodeOverrideStore : Bool
  emptyOverrides : Ω
  validOverrides : Ω → Bool

abbrev Update (Ω α : Type) : Type := Io (World Ω) SourceUpdateError α

variable {Ω : Type}

def maxBodyBytes : Nat := 5 * 1024 * 1024

def validBody (bytes : List UInt8) : Bool := !bytes.isEmpty && bytes.length ≤ maxBodyBytes

/-! ## The manual source store -/

/-- `ManualSourceStore::replace`; the checkpoint is the previous file. -/
def manualReplace (fails : Bool) (manual : PendingManualSource) :
    Io (World Ω) ManualSourceError (Option ManualFile) :=
  if !validBody manual.bytes then throw .invalidBody
  else do
    let previous ← gets World.manual
    if fails then
      throw .write
    else
      modify fun w => { w with manual := some (.encoded manual.formatHint manual.bytes) }
      pure previous

def decodes : ManualFile → Bool
  | .encoded _ bytes => validBody bytes
  | .foreign => false

def manualRestore (fails : Bool) (checkpoint : Option ManualFile) :
    Io (World Ω) ManualSourceError Unit :=
  match checkpoint with
  | some previous =>
    if !decodes previous then throw .invalidFile
    else if fails then throw .write
    else modify fun w => { w with manual := some previous }
  | none =>
    if fails then throw .write
    else modify fun w => { w with manual := none }

/-! ## The node override store -/

variable {I : World Ω → Prop}

namespace Service

variable (sv : Service Ω) (f : Failures)

/-- What `NodeOverrideStore::load` makes of the file. -/
def loadOverrides : Option (OverrideFile Ω) → Except NodeOverrideError Ω
  | none => .ok sv.emptyOverrides
  | some (.stored overrides) =>
    if sv.validOverrides overrides then .ok overrides else .error .invalidFile
  | some .foreign => .error .invalidFile

def overrideLoad : Io (World Ω) NodeOverrideError Ω :=
  if f.overrideLoad then throw .read
  else do
    let file ← gets World.overrides
    ofExcept (sv.loadOverrides file)

def overrideReplace (fails : Bool) (overrides : Ω) : Io (World Ω) NodeOverrideError Unit :=
  if !sv.validOverrides overrides then throw .invalidFile
  else if fails then throw .write
  else modify fun w => { w with overrides := some (.stored overrides) }

/-! ## The generation store -/

/-- A call of the generation store that may fail without effect. -/
def onGenerations {α : Type} (fails : Bool) (m : Run α) : Io (World Ω) CoreError α :=
  if fails then throw (ioError "store")
  else zoom World.generations (fun s w => { w with generations := s }) m

/-- `let _ = call`, with the result recorded. -/
def compensate {ε α : Type} (m : Io (World Ω) ε α) : Update Ω Unit := do
  let result ← attempt m
  modify fun w =>
    { w with compensations := w.compensations ++ [result.toBool] }

def discardSealed (p : PreparedSourceUpdate Ω) : Io (World Ω) CoreError Unit :=
  onGenerations f.discardSealed (sv.store.discardSealed noFaults p.token)

/-! ## Preparing -/

def nextGeneration : Update Ω GenerationId := do
  let current ← mapError .publish
    (onGenerations f.readCurrent (currentGeneration noFaults))
  match current with
  | some generation =>
    if h : generation.get + 1 < 2 ^ 64 then pure ⟨generation.get + 1, Nat.succ_pos _, h⟩
    else throw .generationExhausted
  | none => pure .first

/-- What a prepare call is asked for.  `build` is the outcome of fetching,
converting and building for the number it is given. -/
structure Request (sha256Hex : Content → String) (Ω : Type) where
  build : (g : GenerationId) →
    Except SourceUpdateError { c : Candidate sha256Hex // c.generation = g }
  pendingManual : Option PendingManualSource
  pendingNodeOverrides : Option Ω
  sourceCount : Nat
  accepted : Nat
  duplicate : Nat

/-- The tail shared by `prepare_inputs` and `prepare_import`. -/
def sealUpdate (request : Request sv.store.sha256Hex Ω)
    (candidate : Candidate sv.store.sha256Hex) (prepared : PreparedCandidate) :
    Update Ω (PreparedSourceUpdate Ω) := do
  let discard := onGenerations f.discardPrepared (sv.store.discardPrepared noFaults prepared)
  if f.check then
    compensate discard
    throw (.publish .validationFailed)
  else
    let sealing ← attempt
      (onGenerations f.sealCandidate (sv.store.sealCandidate noFaults prepared))
    match sealing with
    | .error e =>
      compensate discard
      throw (.publish e)
    | .ok token =>
      pure ⟨token, request.pendingManual, request.pendingNodeOverrides,
        ⟨candidate.generation, request.sourceCount, request.accepted, request.duplicate,
          candidate.config.nodeCount⟩⟩

/-- `prepare` and its variants.  An import needs the manual store, a change of the
overrides needs the override store. -/
def prepare (request : Request sv.store.sha256Hex Ω) : Update Ω (PreparedSourceUpdate Ω) :=
  if request.pendingManual.isSome && !sv.hasManualStore then throw .manualSource
  else if request.pendingNodeOverrides.isSome && !sv.hasNodeOverrideStore then
    throw .nodeOverride
  else do
    let generation ← nextGeneration f
    let candidate ← ofExcept (request.build generation)
    let prepared ← mapError .publish
      (onGenerations f.prepareCandidate (sv.store.prepareCandidate noFaults candidate.val))
    sv.sealUpdate f request candidate.val prepared

/-! ## Committing -/

variable (p : PreparedSourceUpdate Ω)

/-- The manual source part of `commit`; the result is the checkpoint. -/
def replaceManual : Update Ω (Option (Option ManualFile)) :=
  match p.pendingManual with
  | none => pure none
  | some manual =>
    if !sv.hasManualStore then throw .manualSource
    else do
      let result ← attempt (manualReplace f.manualReplace manual)
      match result with
      | .ok checkpoint => pure (some checkpoint)
      | .error _ =>
        compensate (sv.discardSealed f p)
        throw .manualSource

/-- `if let (Some(store), Some(checkpoint)) = .. { let _ = store.restore(checkpoint); }`. -/
def restoreManual (checkpoint : Option (Option ManualFile)) : Update Ω Unit :=
  match checkpoint with
  | some previous =>
    if sv.hasManualStore then compensate (manualRestore f.manualRestore previous) else pure ()
  | none => pure ()

/-- The override part of `commit`. -/
def replaceOverrides (manual : Option (Option ManualFile)) : Update Ω (Option Ω) :=
  match p.pendingNodeOverrides with
  | none => pure none
  | some overrides =>
    if !sv.hasNodeOverrideStore then throw .nodeOverride
    else do
      let checkpoint ← mapError (fun _ => .nodeOverride) (sv.overrideLoad f)
      let result ← attempt (sv.overrideReplace f.overrideReplace overrides)
      match result with
      | .ok () => pure (some checkpoint)
      | .error _ =>
        sv.restoreManual f manual
        compensate (sv.discardSealed f p)
        throw .nodeOverride

def restoreOverrides (checkpoint : Option Ω) : Update Ω Unit :=
  match checkpoint with
  | some previous =>
    if sv.hasNodeOverrideStore then
      compensate (sv.overrideReplace f.overrideRestore previous)
    else pure ()
  | none => pure ()

/-- The last part of `commit`. -/
def commitPrepared (manual : Option (Option ManualFile))
    (overrides : Option Ω) : Update Ω SourceUpdateReport := do
  let result ← attempt
    (onGenerations f.commitGeneration (sv.store.commitGeneration noFaults p.token))
  match result with
  | .error e =>
    sv.restoreManual f manual
    sv.restoreOverrides f overrides
    compensate (sv.discardSealed f p)
    throw (.publish e)
  | .ok () =>
    modify fun w =>
      { w with nodeOverrides := p.pendingNodeOverrides.getD w.nodeOverrides }
    pure p.report

def commit : Update Ω SourceUpdateReport := do
  let manual ← sv.replaceManual f p
  let overrides ← sv.replaceOverrides f p manual
  sv.commitPrepared f p manual overrides

def discard : Update Ω Unit :=
  mapError .publish (sv.discardSealed f p)

/-! ## What the calls leave alone -/

theorem keeps_onGenerations {I : Store → Prop} {α : Type} {fails : Bool} {m : Run α}
    (h : Io.Keeps I m) : Io.Keeps (fun w : World Ω => I w.generations) (onGenerations fails m) := by
  intro w hw
  cases fails with
  | true => exact hw
  | false => exact h w.generations hw

theorem keeps_compensate {ε α : Type} {m : Io (World Ω) ε α}
    (hlog : ∀ w log, I w → I { w with compensations := log }) (h : Io.Keeps I m) :
    Io.Keeps I (compensate m) := .bind (.attempt h) fun _ => .modify fun w hw => hlog w _ hw

theorem keeps_nextGeneration (f : Failures) :
    Io.Keeps I (nextGeneration f : Update Ω GenerationId) := by
  refine .bind (.mapError ?_) fun current => ?_
  · intro w hw
    have hsame : (onGenerations f.readCurrent (currentGeneration noFaults) w).2 = w := by
      unfold onGenerations
      cases f.readCurrent with
      | true => rfl
      | false =>
        have := GenerationStore.keeps_currentGeneration (φ := noFaults)
          (I := fun s => s = w.generations) w.generations rfl
        simp [zoom, this]
    rw [hsame]
    exact hw
  · split
    · split
      · exact .ret _
      · exact .fail _
    · exact .ret _

end Service

/-! ## A service to run the operations on -/

def sampleService : Service (List Nat) where
  store := sampleStore
  hasManualStore := true
  hasNodeOverrideStore := true
  emptyOverrides := []
  validOverrides := fun _ => true

def sampleStart : World (List Nat) where
  manual := none
  overrides := none
  generations := Dir.empty
  nodeOverrides := []
  compensations := []

def sampleRequest (manual : Option PendingManualSource) (overrides : Option (List Nat)) :
    Service.Request sampleStore.sha256Hex (List Nat) where
  build := fun g => .ok ⟨sampleCandidate g, rfl⟩
  pendingManual := manual
  pendingNodeOverrides := overrides
  sourceCount := 1
  accepted := 1
  duplicate := 0

end NetHop.SourceUpdate
