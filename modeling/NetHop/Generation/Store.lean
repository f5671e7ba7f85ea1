import NetHop.Generation.Candidate

/-!
# The generation store

`GenerationStore` and its operations.  The state is the `generations` directory.
Every file system call of an operation has a `Site`, and a run is given the
fault of each site.  Looking a path up (`exists`, `symlink_metadata`) is such a call, and
one that fails finds nothing there.
-/

namespace NetHop.Generation

open FaultIo Text Io Tree

inductive EntryName where
  | current
  | currentTemp (generation : Nat)
  | candidate (generation processId : Nat)
  | sealed (generation : Nat)
  deriving DecidableEq

/-- The files of one generation: `config.json`, `nodes.json`, `manifest.json`. -/
inductive ChildName where
  | config
  | nodes
  | manifest
  deriving DecidableEq

abbrev Store : Type := Tree EntryName ChildName Content

/-- What is looked up: the pointer, the number of a new candidate and its directory, the stable
path before a generation is sealed, the directories to discard, and of a generation that is
verified `config.json` and `manifest.json` in their directory, and `nodes.json`. -/
inductive Look where
  | current | reserved | stale | final | prepared | sealed | files | nodes

inductive Site where
  | removeStale | createCandidate | writeConfig | writeRegistry | writeManifest
  | syncCandidate | removeFailed | renameSealed | syncSealed | readManifest
  | readConfig | readRegistry | writeCurrent | renameCurrent | syncCurrent
  | removePrepared | readCurrent | removeSealed | syncDiscard | look (l : Look)

abbrev Faults : Type := Site → Fault

def noFaults : Faults := fun _ => .none

@[simp] theorem noFaults_apply (site : Site) : noFaults site = .none := rfl

abbrev Run (α : Type) : Type := Io Store CoreError α

/-- A token for a written candidate.  Its fields are private in the source, so it
always names a candidate directory of its generation. -/
structure PreparedCandidate where
  storeRoot : String
  generation : GenerationId
  directory : EntryName
  directory_eq : ∃ processId, directory = .candidate generation.get processId

/-- A token for a generation at its stable path. -/
structure SealedGeneration where
  storeRoot : String
  generation : GenerationId
  directory : EntryName
  directory_eq : directory = .sealed generation.get

/-- The store with what its methods take from the process they run in: the
process id and SHA-256. -/
structure GenerationStore where
  root : String
  processId : Nat
  sha256Hex : Content → String

def isPrivateRegularFile : Option (Leaf Content) → Bool
  | some (.file f) => f.isPrivate
  | _ => false

def pointerValue (node : Option (Node ChildName Content)) : Except CoreError GenerationId :=
  match node.bind Node.read with
  | some (.text chars) =>
    match parseU64 (trim chars) with
    | some value => GenerationId.new value
    | none => .error .invalidCurrentPointer
  | some _ => .error .invalidCurrentPointer
  | none => .error (ioError "read_current")

def currentGeneration (φ : Faults) : Run (Option GenerationId) := do
  let found ← lookup (φ (.look .current)) (pathExists · .current)
  if found then
    probe (φ .readCurrent) (ioError "read_current")
    let node ← gets (Dir.get · .current)
    ofExcept ((pointerValue node).map some)
  else
    pure none

def contentOf : Option (Leaf Content) → Content
  | some leaf => leaf.read.getD .cut
  | none => .cut

/-- The body of `remove_directory_if_present`. -/
def removeDirectoryIfPresent (look φ : Fault) (n : EntryName) (operation : String) : Run Unit := do
  let found ← lookup look (pathExists · n)
  if found then removeDirAll φ (ioError operation) n else pure ()

namespace GenerationStore

variable (st : GenerationStore) (φ : Faults)

def checkRegistry (expected : String) (nodeCount : Nat)
    (children : Dir ChildName (Leaf Content)) : Run Unit := do
  let found ← lookup (φ (.look .nodes)) fun _ => isPrivateRegularFile (children.get .nodes)
  if !found then
    throw (publishError "verify_node_registry"
      "generation node registry is missing or insecure")
  else do
    probe (φ .readRegistry) (ioError "read_node_registry")
    match contentOf (children.get .nodes) with
    | .registry registry =>
      if expected ≠ st.sha256Hex (.registry registry)
          ∨ registry.schema ≠ nodeRegistrySchema
          ∨ registry.records.length ≠ nodeCount then
        throw (publishError "verify_node_registry"
          "generation node registry does not match manifest")
      else
        pure ()
    | _ =>
      throw (publishError "verify_node_registry" "generation node registry is invalid")

variable (generation : GenerationId)

def checkManifest (children : Dir ChildName (Leaf Content))
    (manifest : GenerationManifest) : Run Unit :=
  if manifest.schema ≠ manifestSchema
      ∨ manifest.generation ≠ generation.get
      ∨ manifest.configSha256 ≠ st.sha256Hex (contentOf (children.get .config)) then
    throw (publishError "verify_manifest" "generation manifest does not match config")
  else
    match manifest.nodeRegistrySha256 with
    | some expected => st.checkRegistry φ expected manifest.nodeCount children
    | none => do
      let found ← lookup (φ (.look .nodes)) fun _ => (children.get .nodes).any Leaf.resolves
      if found then
        throw (publishError "verify_node_registry"
          "unbound generation node registry is not allowed")
      else
        pure ()

/-- A directory with a configuration and a manifest of its owner. -/
def hasFiles : Option (Node ChildName Content) → Bool
  | some (.dir children) => isPrivateRegularFile (children.get .config) &&
      isPrivateRegularFile (children.get .manifest)
  | _ => false

/-- `ensure_sealed_exists` for what stands at `generations/{generation}`. -/
def checkSealed (node : Option (Node ChildName Content)) : Run Unit := do
  let found ← lookup (φ (.look .files)) fun _ => hasFiles node
  match found, node with
  | true, some (.dir children) =>
    probe (φ .readManifest) (ioError "read_manifest")
    match contentOf (children.get .manifest) with
    | .manifest manifest =>
      probe (φ .readConfig) (ioError "read_config")
      st.checkManifest φ generation children manifest
    | _ => throw (publishError "verify_manifest" "generation manifest is invalid")
  | _, _ => throw (publishError "verify_generation" "generation is incomplete or missing")

def ensureSealedExists : Run Unit := do
  let node ← gets (Dir.get · (.sealed generation.get))
  st.checkSealed φ generation node

def ensureOwned (tokenRoot : String) : Run Unit :=
  if tokenRoot = st.root then pure ()
  else
    throw (publishError "verify_store_owner" "generation token belongs to another store")

def writeNodeRegistry (registry : Option GenerationNodeRegistry) (directory : EntryName) :
    Run Unit :=
  match registry with
  | some registry =>
    writeSync (φ .writeRegistry) (ioError "write_node_registry")
      (.child directory .nodes) (.registry registry)
  | none => pure ()

variable (candidate : Candidate st.sha256Hex)

def writeCandidate (directory : EntryName) : Run Unit := do
  writeSync (φ .writeConfig) (ioError "write_config") (.child directory .config)
    (.config candidate.config.bytes)
  writeNodeRegistry φ candidate.nodeRegistry directory
  writeSync (φ .writeManifest) (ioError "write_manifest") (.child directory .manifest)
    (.manifest candidate.manifest)
  syncDirectory (φ .syncCandidate) (ioError "sync_candidate")

def candidateDirectory : EntryName :=
  .candidate generation.get st.processId

/-- `prepare_candidate` once the number is known to be free. -/
def stageCandidate : Run PreparedCandidate := do
  let directory := st.candidateDirectory candidate.generation
  removeDirectoryIfPresent (φ (.look .stale)) (φ .removeStale) directory "remove_stale_candidate"
  createDir (φ .createCandidate) (ioError "create_candidate") directory
  let result ← attempt (st.writeCandidate φ candidate directory)
  match result with
  | .error e =>
    ignore (removeDirAll (φ .removeFailed) (ioError "remove_candidate") directory)
    throw e
  | .ok () =>
    pure ⟨st.root, candidate.generation, directory, st.processId, rfl⟩

def prepareCandidate : Run PreparedCandidate := do
  let reserved ← lookup (φ (.look .reserved)) (pathExists · (.sealed candidate.generation.get))
  if reserved then
    throw (publishError "reserve_generation" "generation already exists")
  else
    st.stageCandidate φ candidate

variable (prepared : PreparedCandidate)

def sealCandidate : Run SealedGeneration := do
  st.ensureOwned prepared.storeRoot
  let finalDir := .sealed prepared.generation.get
  let reserved ← lookup (φ (.look .final)) (pathExists · finalDir)
  if reserved then
    throw (publishError "seal_generation" "generation already exists")
  else
    rename (φ .renameSealed) (ioError "seal_generation") prepared.directory finalDir
    syncDirectory (φ .syncSealed) (ioError "sync_generations")
    pure ⟨st.root, prepared.generation, finalDir, rfl⟩

def pointerText : Content :=
  .text (formatU64 generation.get ++ ['\n'])

def writeCurrent (generation : GenerationId) : Run Unit := do
  let currentTemp := .currentTemp generation.get
  writeSync (φ .writeCurrent) (ioError "write_current") (.entry currentTemp)
    (pointerText generation)
  rename (φ .renameCurrent) (ioError "publish_current") currentTemp .current
  syncDirectory (φ .syncCurrent) (ioError "sync_generations")

variable (token : SealedGeneration)

def commitGeneration : Run Unit := do
  st.ensureOwned token.storeRoot
  st.ensureSealedExists φ token.generation
  writeCurrent φ token.generation

def discardPrepared : Run Unit := do
  st.ensureOwned prepared.storeRoot
  removeDirectoryIfPresent (φ (.look .prepared)) (φ .removePrepared) prepared.directory
    "discard_candidate"

/-- `discard_sealed` once the pointer has been read. -/
def removeInactive (current : Option GenerationId) : Run Unit :=
  if current = some token.generation then
    throw (publishError "discard_generation" "active generation cannot be discarded")
  else do
    removeDirectoryIfPresent (φ (.look .sealed)) (φ .removeSealed) token.directory
      "discard_generation"
    syncDirectory (φ .syncDiscard) (ioError "sync_generations")

def discardSealed : Run Unit := do
  st.ensureOwned token.storeRoot
  let current ← currentGeneration φ
  removeInactive φ token current

def rollbackTo : Run Unit := do
  st.ensureSealedExists φ generation
  writeCurrent φ generation

def publishSealed : Run Unit := do
  let committing ← attempt (st.commitGeneration φ token)
  match committing with
  | .error e =>
    ignore (st.discardSealed φ token)
    throw e
  | .ok () => pure ()

/-- `publish_with_path` once the candidate is validated. -/
def publishPrepared : Run Unit := do
  let sealing ← attempt (st.sealCandidate φ prepared)
  match sealing with
  | .error e =>
    ignore (st.discardPrepared φ prepared)
    throw e
  | .ok token => st.publishSealed φ token

def publishWithPath (validate : EntryName → List UInt8 → Except CoreError Unit) : Run Unit := do
  let prepared ← st.prepareCandidate φ candidate
  match validate prepared.directory candidate.config.bytes with
  | .error e =>
    ignore (st.discardPrepared φ prepared)
    throw e
  | .ok () => st.publishPrepared φ prepared

def publish (validate : List UInt8 → Except CoreError Unit) : Run Unit :=
  st.publishWithPath φ candidate fun _ bytes => validate bytes

/-! ## What the operations leave alone -/

section Frame

variable {st : GenerationStore} {φ : Faults} {m : EntryName} {v : Option (Node ChildName Content)}
  {I : Store → Prop}

theorem keeps_currentGeneration : Io.Keeps I (currentGeneration φ) := by
  refine .bind (.lookup _ _) fun found => ?_
  split
  · refine .bind (.probe _ _) fun _ => ?_
    exact .bind (.look _) fun _ => .ofExcept _
  · exact .ret _

theorem keeps_ensureOwned {tokenRoot : String} : Io.Keeps I (st.ensureOwned tokenRoot) := by
  unfold ensureOwned
  split
  · exact .ret _
  · exact .fail _

variable {children : Dir ChildName (Leaf Content)}

theorem keeps_checkRegistry {expected : String} {nodeCount : Nat} :
    Io.Keeps I (st.checkRegistry φ expected nodeCount children) := by
  refine .bind (.lookup _ _) fun found => ?_
  split
  · exact .fail _
  · refine .bind (.probe _ _) fun _ => ?_
    split
    · split
      · exact .fail _
      · exact .ret _
    · exact .fail _

variable {generation : GenerationId}

theorem keeps_checkManifest {manifest : GenerationManifest} :
    Io.Keeps I (st.checkManifest φ generation children manifest) := by
  unfold checkManifest
  split
  · exact .fail _
  · split
    · exact keeps_checkRegistry
    · refine .bind (.lookup _ _) fun found => ?_
      split
      · exact .fail _
      · exact .ret _

theorem keeps_checkSealed {node : Option (Node ChildName Content)} :
    Io.Keeps I (st.checkSealed φ generation node) := by
  refine .bind (.lookup _ _) fun found => ?_
  split
  · refine .bind (.probe _ _) fun _ => ?_
    split
    · exact .bind (.probe _ _) fun _ => keeps_checkManifest
    · exact .fail _
  · exact .fail _

theorem keeps_ensureSealedExists : Io.Keeps I (st.ensureSealedExists φ generation) :=
  .bind (.look _) fun _ => keeps_checkSealed

theorem frame_removeDirectoryIfPresent {l f : Fault} {n : EntryName} {operation : String}
    (h : m ≠ n) : Frames m v (removeDirectoryIfPresent l f n operation) := by
  refine .bind (.lookup _ _) fun found => ?_
  split
  · exact frame_removeDirAll h
  · exact .ret _

variable {candidate : Candidate st.sha256Hex}

theorem frame_writeCandidate {directory : EntryName}
    (h : m ≠ directory) : Frames m v (st.writeCandidate φ candidate directory) := by
  refine .bind (frame_writeSync h) fun _ => ?_
  refine .bind ?_ fun _ => ?_
  · unfold writeNodeRegistry
    split
    · exact frame_writeSync h
    · exact .ret _
  · exact .bind (frame_writeSync h) fun _ => frame_syncDirectory

theorem frame_prepareCandidate (h : m ≠ st.candidateDirectory candidate.generation) :
    Frames m v (st.prepareCandidate φ candidate) := by
  refine .bind (.lookup _ _) fun reserved => ?_
  split
  · exact .fail _
  · refine .bind (frame_removeDirectoryIfPresent h) fun _ => ?_
    refine .bind (frame_createDir h) fun _ => ?_
    refine .bind (.attempt (frame_writeCandidate h)) fun result => ?_
    split
    · exact .bind (.ignore (frame_removeDirAll h)) fun _ =>
        .fail _
    · exact .ret _

variable {prepared : PreparedCandidate}

theorem frame_sealCandidate (hdir : m ≠ prepared.directory)
    (hfinal : m ≠ .sealed prepared.generation.get) : Frames m v (st.sealCandidate φ prepared) := by
  refine .bind keeps_ensureOwned fun _ => ?_
  refine .bind (.lookup _ _) fun reserved => ?_
  split
  · exact .fail _
  · refine .bind (frame_rename hdir hfinal) fun _ => ?_
    exact .bind frame_syncDirectory fun _ => .ret _

theorem frame_rollbackTo (hcur : m ≠ .current) (htemp : m ≠ .currentTemp generation.get) :
    Frames m v (st.rollbackTo φ generation) :=
  .bind keeps_ensureSealedExists fun _ => .bind (frame_writeSync htemp) fun _ =>
    .bind (frame_rename htemp hcur) fun _ => frame_syncDirectory

variable {token : SealedGeneration}

theorem frame_commitGeneration (hcur : m ≠ .current)
    (htemp : m ≠ .currentTemp token.generation.get) : Frames m v (st.commitGeneration φ token) :=
  .bind keeps_ensureOwned fun _ => frame_rollbackTo hcur htemp

theorem frame_discardPrepared (h : m ≠ prepared.directory) :
    Frames m v (st.discardPrepared φ prepared) :=
  .bind keeps_ensureOwned fun _ => frame_removeDirectoryIfPresent h

theorem frame_removeInactive {current : Option GenerationId} (h : m ≠ token.directory) :
    Frames m v (removeInactive φ token current) := by
  unfold removeInactive
  split
  · exact .fail _
  · exact .bind (frame_removeDirectoryIfPresent h) fun _ => frame_syncDirectory

theorem frame_discardSealed (h : m ≠ token.directory) : Frames m v (st.discardSealed φ token) :=
  .bind keeps_ensureOwned fun _ =>
    .bind keeps_currentGeneration fun _ => frame_removeInactive h

end Frame

end GenerationStore

/-! ## A store to run the operations on -/

def sampleStore : GenerationStore where
  root := "/data"
  processId := 7
  sha256Hex
    | .config _ => "config"
    | .registry _ => "registry"
    | _ => "other"

variable (generation : GenerationId)

def sampleCandidate : Candidate sampleStore.sha256Hex :=
  Candidate.new generation ⟨[123, 125], "config", 1, rfl⟩

end NetHop.Generation
