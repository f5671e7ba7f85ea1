import NetHop.Build.Candidate
import NetHop.Config.Document
import NetHop.SourceUpdate.Service

/-!
# The inputs of an update

The part of `prepare_inputs` after the bodies are there: a stored manual source is added, the
bodies are converted, and a candidate is built and bound to the sources.
-/

namespace NetHop.SourceUpdate

open Build Config Generation

/-! ## Bodies -/

inductive SourceBodyOrigin where
  | fresh
  | notModified
  | lastKnownGood
  | localBody

structure SubscriptionUserInfo where
  uploadBytes : Option Nat
  downloadBytes : Option Nat
  totalBytes : Option Nat
  expireAt : Option Int

structure SourceBody where
  bytes : List UInt8
  origin : SourceBodyOrigin
  subscriptionUserinfo : Option SubscriptionUserInfo

/-! ## Inputs -/

structure ManualSource where
  formatHint : Node.FormatHint
  bytes : List UInt8

def parserHint : Wire.SubscriptionFormatHint → Node.FormatHint
  | .auto => .auto
  | .uriList => .uriList
  | .base64List => .base64List
  | .clashYaml => .clashYaml
  | .singboxJson => .singboxJson
  | .surfboardIni => .surfboardIni

variable (config : SourceConfig)

def activeSources : List SourceDefinition :=
  config.sources.filter SourceDefinition.active

def activeIds : List String :=
  (activeSources config).map fun source => source.id.value

def sourceInput (source : SourceDefinition) (bytes : List UInt8) : FilteredSourceInput :=
  ⟨⟨source.id.value, parserHint source.expectedFormat, bytes⟩, source.filter⟩

def excludedNodes : List String :=
  config.sources.flatMap fun source => source.filter.excludedNodeIds

/-- `manual_filter`: the nodes that any source excludes are excluded here too. -/
def manualFilter : Except SourceUpdateError NodeFilter :=
  (newFilterWithNodeIds [] [] (sorted (excludedNodes config)).dedup []).mapError
    fun _ => .conversion

def manualInput (manual : ManualSource) : Except SourceUpdateError FilteredSourceInput := do
  let filter ← manualFilter config
  return ⟨⟨manualSourceId.value, manual.formatHint, manual.bytes⟩, filter⟩

variable (manual : Option ManualSource)

/-- The inputs with that of a stored manual source. -/
def withManual (inputs : List FilteredSourceInput) :
    Except SourceUpdateError (List FilteredSourceInput) :=
  match manual with
  | none => .ok inputs
  | some manual => do
    let input ← manualInput config manual
    return inputs ++ [input]

/-! ## The candidate of an update -/

def poolMode : Wire.SubscriptionMode :=
  if manual.isSome then .merge else config.mode

def poolIds : List String :=
  activeIds config ++ if manual.isSome then [manualSourceId.value] else []

/-- What an update works with besides its inputs. -/
structure Workshop where
  lib : Library
  matrix : Node.CapabilityMatrix
  sha256Hex : Content → String
  settings : CandidateBuildProfile

namespace Workshop

variable (shop : Workshop)

def digestOf (bytes : List UInt8) : String := hex (shop.lib.sha256 bytes).toList

def effectiveSourceDigest (config : SourceConfig) (manual : Option ManualSource) : String :=
  match manual with
  | none => config.sourceConfigDigest
  | some manual => shop.digestOf ("nethop-effective-sources-v1\x00".toUTF8.toList ++
      config.sourceConfigDigest.toUTF8.toList ++ [0] ++
        (shop.digestOf manual.bytes).toUTF8.toList)

/-- The part of `prepare_inputs` that builds the candidate and binds it to its sources. -/
def buildBound (config : SourceConfig) (manual : Option ManualSource) (generation : GenerationId)
    (conversion : StableConversion) : Except SourceUpdateError (Candidate shop.sha256Hex) := do
  ensure (conversion.sourceSuccess ∧ conversion.nodes ≠ []) .conversion
  let candidate ← (buildCandidate shop.sha256Hex generation conversion shop.settings
    (poolMode config manual) (poolIds config manual)).mapError fun _ => .build
  (candidate.bindSources (shop.effectiveSourceDigest config manual)
    (poolIds config manual)).mapError .publish

/-- The part of `prepare_inputs` from the bodies to the bound candidate. -/
def convertAndBuild (config : SourceConfig) (manual : Option ManualSource)
    (generation : GenerationId) (inputs : List FilteredSourceInput) :
    Except SourceUpdateError (StableConversion × Candidate shop.sha256Hex) := do
  let inputs ← withManual config manual inputs
  let conversion := convertFilteredSources shop.lib shop.matrix inputs
  let candidate ← shop.buildBound config manual generation conversion
  return (conversion, candidate)

end Workshop

end NetHop.SourceUpdate
