import NetHop.FaultIo.Dir
import NetHop.Text

/-!
# Generations and candidates

The data of the generation store: generation numbers, the manifest and the node
registry written next to a config, and the `Candidate` that bundles them.  The
JSON text of a manifest or a registry is represented by the value it parses to,
so what is hashed is a `Content`.
-/

namespace NetHop.Generation

open FaultIo

/-- The text of an error: fixed by the code, or handed on from the system. -/
inductive Message where
  | fixed (text : String)
  | system
  deriving DecidableEq

inductive CoreError where
  | invalidGenerationId
  | validationFailed
  | generationPublishFailed (operation : String) (message : Message)
  | invalidCurrentPointer
  deriving DecidableEq

def publishError (operation message : String) : CoreError :=
  .generationPublishFailed operation (.fixed message)

def ioError (operation : String) : CoreError :=
  .generationPublishFailed operation .system

structure GenerationId where
  get : Nat
  pos : 0 < get
  lt : get < 2 ^ 64

@[ext] theorem GenerationId.ext {a b : GenerationId} (h : a.get = b.get) : a = b := by
  cases a
  simp_all

instance : DecidableEq GenerationId := fun _ _ => decidable_of_iff _ GenerationId.ext_iff.symm

def GenerationId.first : GenerationId := ⟨1, by decide, by decide⟩

def GenerationId.second : GenerationId := ⟨2, by decide, by decide⟩

def GenerationId.new (value : Nat) : Except CoreError GenerationId :=
  if h : 0 < value ∧ value < 2 ^ 64 then .ok ⟨value, h.1, h.2⟩
  else .error .invalidGenerationId

@[simp] theorem GenerationId.new_get (g : GenerationId) : GenerationId.new g.get = .ok g := by
  unfold GenerationId.new
  rw [dif_pos ⟨g.pos, g.lt⟩]

def manifestSchema : String := "nethop-generation-v1"

def nodeRegistrySchema : String := "nethop-generation-nodes-v3"

/-- `manifest.json`.  A manifest read back may name any number. -/
structure GenerationManifest where
  schema : String
  generation : Nat
  configSha256 : String
  nodeCount : Nat
  nodeRegistrySha256 : Option String
  sourceConfigDigest : Option String
  sourceIds : List String

structure GenerationNodeRecord where
  stableNodeId : String
  internalTag : String
  displayName : String
  protocol : String
  sourceIds : List String
  autoCandidate : Bool
  displayTerritoryCode : Option String

/-- `nodes.json`. -/
structure GenerationNodeRegistry where
  schema : String
  autoPool : List String
  records : List GenerationNodeRecord

/-- What a file of the store holds: the decimal pointer, a config, a manifest, a
registry, or JSON text that was cut short. -/
inductive Content where
  | text (chars : List Char)
  | config (bytes : List UInt8)
  | manifest (m : GenerationManifest)
  | registry (r : GenerationNodeRegistry)
  | cut

/-- Text and bytes are cut at any place; a JSON object that is cut is no JSON. -/
instance : Writable Content where
  empty := .text []
  torn
    | .text chars => (List.range chars.length).map fun n => .text (chars.take n)
    | .config bytes => (List.range bytes.length).map fun n => .config (bytes.take n)
    | .manifest _ => [.cut]
    | .registry _ => [.cut]
    | .cut => [.cut]

variable (sha256Hex : Content → String)

structure ManagedConfig where
  bytes : List UInt8
  digest : String
  nodeCount : Nat
  digest_eq : digest = sha256Hex (.config bytes)

/-- A manifest that describes the files written next to it. -/
structure Describes (g : GenerationId) (bytes : List UInt8)
    (registry : Option GenerationNodeRegistry) (m : GenerationManifest) : Prop where
  schema : m.schema = manifestSchema
  generation : m.generation = g.get
  config : m.configSha256 = sha256Hex (.config bytes)
  digest : m.nodeRegistrySha256 = registry.map fun r => sha256Hex (.registry r)
  records : ∀ r ∈ registry, r.schema = nodeRegistrySchema ∧ r.records.length = m.nodeCount

/-- A generation ready to be written.  The fields are private in the source, so
every candidate comes from the constructors below and its manifest is right. -/
structure Candidate where
  generation : GenerationId
  config : ManagedConfig sha256Hex
  manifest : GenerationManifest
  nodeRegistry : Option GenerationNodeRegistry
  nodeCount_eq : manifest.nodeCount = config.nodeCount
  describes : Describes sha256Hex generation config.bytes nodeRegistry manifest

namespace Candidate

variable {sha256Hex : Content → String}

def new (generation : GenerationId) (config : ManagedConfig sha256Hex) :
    Candidate sha256Hex where
  generation := generation
  config := config
  manifest :=
    { schema := manifestSchema
      generation := generation.get
      configSha256 := config.digest
      nodeCount := config.nodeCount
      nodeRegistrySha256 := none
      sourceConfigDigest := none
      sourceIds := [] }
  nodeRegistry := none
  nodeCount_eq := rfl
  describes :=
    { schema := rfl
      generation := rfl
      config := config.digest_eq
      digest := rfl
      records := by simp }

/-- `Candidate::with_node_registry`; a registry in the source always carries the
schema its constructor wrote. -/
def withNodeRegistry (c : Candidate sha256Hex)
    (registry : { r : GenerationNodeRegistry // r.schema = nodeRegistrySchema }) :
    Except CoreError (Candidate sha256Hex) :=
  if h : registry.val.records.length = c.config.nodeCount then
    .ok
      { c with
        manifest :=
          { c.manifest with nodeRegistrySha256 := some (sha256Hex (.registry registry.val)) }
        nodeRegistry := some registry.val
        describes :=
          { schema := c.describes.schema
            generation := c.describes.generation
            config := c.describes.config
            digest := rfl
            records := by
              rintro r ⟨⟩
              exact ⟨registry.property, h.trans c.nodeCount_eq.symm⟩ } }
  else
    .error (publishError "node_registry"
      "generation node registry does not match terminal node count")

def isLowerHex (c : Char) : Bool := c.isDigit || ('a' ≤ c && c ≤ 'f')

def validSourceId (id : String) : Bool :=
  id.startsWith "src_" && id.utf8ByteSize == 36 && (id.toList.drop 4).all isLowerHex

def bindSources (c : Candidate sha256Hex) (sourceConfigDigest : String)
    (sourceIds : List String) : Except CoreError (Candidate sha256Hex) :=
  let validDigest :=
    sourceConfigDigest.utf8ByteSize == 64 && sourceConfigDigest.toList.all isLowerHex
  let validIds := !sourceIds.isEmpty && decide (sourceIds.length ≤ 16) &&
    sourceIds.all validSourceId
  if !validDigest || !validIds then
    .error (publishError "bind_sources" "source generation binding is invalid")
  else
    .ok
      { c with
        manifest :=
          { c.manifest with sourceConfigDigest := some sourceConfigDigest, sourceIds := sourceIds }
        describes :=
          { schema := c.describes.schema
            generation := c.describes.generation
            config := c.describes.config
            digest := c.describes.digest
            records := c.describes.records } }

end Candidate

end NetHop.Generation
