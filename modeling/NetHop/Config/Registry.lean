import NetHop.Wire.Types

/-!
# The source registry

The registry binds the sources of a configuration to identifiers of their own.  It keeps
digests of names and addresses, never the texts.  For a new configuration the sources are
gone through in order; each takes over an entry of the active binding that no source before
it has claimed, or gets a new identifier.
-/

namespace NetHop.Config

open Text

/-! ## Identifiers -/

structure SourceId where
  value : String
  deriving DecidableEq

inductive RegistryError where
  | invalidPath
  | invalidRegistry
  | corruptRegistry
  | entropyUnavailable
  | identityCollision
  | writeFailed

def validSourceIdText (value : String) : Bool :=
  value != "" && value.utf8ByteSize ≤ 128 &&
    value.toList.all fun c => c.isAlphanum || c == '.' || c == '_' || c == ':' || c == '-'

def SourceId.new (value : String) : Option SourceId :=
  if validSourceIdText value then some ⟨value⟩ else none

def manualSourceId : SourceId := ⟨"src_00000000000000000000000000000000"⟩

def maxIdAttempts : Nat := 16

def hexByte (b : UInt8) : List Char := [Nat.digitChar (b.toNat / 16), Nat.digitChar (b.toNat % 16)]

def hex (bytes : List UInt8) : String := String.ofList (bytes.flatMap hexByte)

/-- The answers of the source of random bytes; it fails where there is none. -/
abbrev Entropy := List (Option (Vector UInt8 16))

def Entropy.fill : Entropy → Except RegistryError (Vector UInt8 16 × Entropy)
  | some bytes :: entropy => .ok (bytes, entropy)
  | _ => .error .entropyUnavailable

/-! ## Bindings -/

structure RegistryEntry where
  sourceId : SourceId
  nameDigest : String
  urlDigest : String
  deriving DecidableEq

structure RegistryBinding where
  configDigest : String
  entries : List RegistryEntry
  deriving DecidableEq

structure RegistryState where
  active : Option RegistryBinding := none
  pending : Option RegistryBinding := none

structure NodeFilter where
  includeNames : List String := []
  excludeNames : List String := []
  excludedNodeIds : List String := []
  protocols : List String := []
  deriving DecidableEq

structure UserSource where
  name : String
  enabled : Bool
  url : String
  mirrors : List String := []
  formatHint : Wire.SubscriptionFormatHint := .auto
  requestProfile : Wire.SubscriptionRequestProfile := .singBoxAndroid
  filter : NodeFilter := {}

structure ConfigSnapshot where
  digest : String
  mode : Wire.SubscriptionMode
  sources : List UserSource

structure SourceDefinition where
  id : SourceId
  name : String
  enabled : Bool
  url : String
  mirrors : List String
  expectedFormat : Wire.SubscriptionFormatHint
  requestProfile : Wire.SubscriptionRequestProfile
  filter : NodeFilter

structure SourceConfig where
  sourceConfigDigest : String
  configDigest : String
  mode : Wire.SubscriptionMode
  sources : List SourceDefinition

structure Hash where
  digest : String → String
  sourceConfig : Wire.SubscriptionMode → List SourceDefinition → String

/-- What `prepare` returns, and the state it writes, if any. -/
structure PreparedSourceConfig where
  sourceConfig : SourceConfig
  binding : RegistryBinding
  activate : Bool
  written : Option RegistryState

/-! ## Preparing a configuration -/

section

variable (hash : Hash)

def defineSource (id : SourceId) (source : UserSource) : SourceDefinition where
  id := id
  name := source.name
  enabled := source.enabled
  url := source.url
  mirrors := source.mirrors
  expectedFormat := source.formatHint
  requestProfile := source.requestProfile
  filter := source.filter

def registryEntry (id : SourceId) (source : UserSource) : RegistryEntry where
  sourceId := id
  nameDigest := hash.digest source.name
  urlDigest := hash.digest source.url

def entryMatches (entry : RegistryEntry) (source : UserSource) : Bool :=
  entry.nameDigest == hash.digest source.name && entry.urlDigest == hash.digest source.url

variable (state : RegistryState) (snapshot : ConfigSnapshot)

def bindingMatches (binding : RegistryBinding) : Bool :=
  binding.configDigest == snapshot.digest &&
    binding.entries.length == snapshot.sources.length &&
    (binding.entries.zip snapshot.sources).all fun p => entryMatches hash p.1 p.2

def sourceConfigOf (sources : List SourceDefinition) : SourceConfig where
  sourceConfigDigest := hash.sourceConfig snapshot.mode sources
  configDigest := snapshot.digest
  mode := snapshot.mode
  sources := sources

def sourceConfigFromBinding (binding : RegistryBinding) : SourceConfig :=
  sourceConfigOf hash snapshot
    ((binding.entries.zip snapshot.sources).map fun p => defineSource p.1.sourceId p.2)

def findEntry (entries : List RegistryEntry) (claimed : List Nat)
    (holds : RegistryEntry → Bool) : Option Nat :=
  (List.range entries.length).find? fun k => !claimed.contains k && (entries[k]?).any holds

def allocateId (assigned : List SourceId) (previous : List RegistryEntry) :
    Nat → Entropy → Except RegistryError (SourceId × Entropy)
  | 0, _ => .error .identityCollision
  | attempts + 1, entropy => do
    let (bytes, entropy) ← entropy.fill
    let id ← okOr (SourceId.new ("src_" ++ hex bytes.toList)) .invalidRegistry
    if id ≠ manualSourceId ∧ id ∉ assigned ∧ ∀ entry ∈ previous, entry.sourceId ≠ id then
      return (id, entropy)
    else allocateId assigned previous attempts entropy

/-- What the pass over the sources has done so far. -/
structure Assignment where
  claimed : List Nat := []
  assigned : List SourceId := []
  entropy : Entropy

/-- The entry a source without a preferred identifier takes over: one with its address, else
one with its name. -/
def matchEntry (previous : List RegistryEntry) (claimed : List Nat) (source : UserSource) :
    Option Nat :=
  (if source.url ≠ "" then
      findEntry previous claimed fun entry => entry.urlDigest == hash.digest source.url
    else none).or
    (findEntry previous claimed fun entry => entry.nameDigest == hash.digest source.name)

def matchSource (previous : List RegistryEntry) (claimed : List Nat)
    (preferred : Option SourceId) (source : UserSource) : Except RegistryError (Option Nat) :=
  match preferred with
  | some id => do
    let index ← okOr (findEntry previous claimed fun entry => entry.sourceId == id)
      .invalidRegistry
    return some index
  | none => .ok (matchEntry hash previous claimed source)

def takeId (previous : List RegistryEntry) (state : Assignment) (matched : Option Nat) :
    Except RegistryError (SourceId × Assignment) :=
  match matched.bind fun k => (previous[k]?).map fun entry => (k, entry.sourceId) with
  | some (k, id) =>
    .ok (id, { state with claimed := k :: state.claimed, assigned := id :: state.assigned })
  | none => do
    let (id, entropy) ← allocateId state.assigned previous maxIdAttempts state.entropy
    return (id, { state with assigned := id :: state.assigned, entropy := entropy })

/-- The pass over the sources, with the preferred identifiers of those still to come. -/
def assignIds (previous : List RegistryEntry) :
    List UserSource → List (Option SourceId) → Assignment → Except RegistryError (List SourceId)
  | [], _, _ => .ok []
  | source :: sources, preferred, state => do
    let matched ← matchSource hash previous state.claimed preferred.head?.join source
    let (id, state) ← takeId previous state matched
    let ids ← assignIds previous sources preferred.tail state
    return id :: ids

def RegistryState.previous : List RegistryEntry :=
  match state.active with
  | some binding => binding.entries
  | none => []

def bindFresh (entropy : Entropy)
    (preferred : List (Option SourceId)) : Except RegistryError PreparedSourceConfig := do
  let ids ← assignIds hash state.previous snapshot.sources preferred { entropy := entropy }
  let binding : RegistryBinding :=
    ⟨snapshot.digest, (ids.zip snapshot.sources).map fun p => registryEntry hash p.1 p.2⟩
  return {
    sourceConfig := sourceConfigOf hash snapshot
      ((ids.zip snapshot.sources).map fun p => defineSource p.1 p.2)
    binding := binding
    activate := true
    written := some { state with pending := some binding } }

/-- `prepare_with_preferred_ids` on the state it has loaded. -/
def prepareWithPreferredIds (entropy : Entropy) (preferred : List (Option SourceId)) :
    Except RegistryError PreparedSourceConfig :=
  if preferred ≠ [] ∧ preferred.length ≠ snapshot.sources.length then .error .invalidRegistry
  else
    match state.active.filter (bindingMatches hash snapshot) with
    | some binding => .ok {
        sourceConfig := sourceConfigFromBinding hash snapshot binding
        binding := binding
        activate := false
        written := if state.pending.isSome then some { state with pending := none } else none }
    | none =>
      match state.pending.filter (bindingMatches hash snapshot) with
      | some binding => .ok {
          sourceConfig := sourceConfigFromBinding hash snapshot binding
          binding := binding
          activate := true
          written := none }
      | none => bindFresh hash state snapshot entropy preferred

def prepare (entropy : Entropy) : Except RegistryError PreparedSourceConfig :=
  prepareWithPreferredIds hash state snapshot entropy []

end

end NetHop.Config
