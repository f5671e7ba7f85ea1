import NetHop.Config.Registry
import NetHop.Generation.Candidate
import NetHop.Node.Canonical
import Mathlib.Data.Vector.Defs

/-!
# From the bodies of the sources to nodes

`convert_filtered_sources`: the body of each source is read by the adapter of its format,
every node that is read carries a reference to its source, and nodes with one fingerprint
become one node with the references of all.  The adapters themselves are a parameter; what
they hand over is validated here.
-/

namespace NetHop.Build

open Node Config Generation
open List hiding Vector

/-! ## Inputs -/

structure SourceInput where
  sourceId : String
  formatHint : FormatHint
  bytes : List UInt8

structure FilteredSourceInput where
  source : SourceInput
  filter : NodeFilter

/-- A node as an adapter found it, with the place in the body. -/
structure ReadNode where
  itemIndex : UInt32
  format : FormatHint
  line : Option UInt32
  spec : NodeSpec

/-- What an adapter makes of a body.  An item that is no node is `none`. -/
structure ReadBody where
  items : List (Option ReadNode)
  diagnostics : Nat

/-- The parts of the conversion that are not modelled: the hash, the reading of UUIDs, the
adapters and the guess of a territory from names. -/
structure Library where
  sha256 : List UInt8 → Vector UInt8 32
  uuids : UuidCrate
  readBody : FormatHint → List UInt8 → ReadBody
  inferDisplayTerritory : List String → Option String

/-! ## Identifiers of nodes -/

def fingerprintDomain : List UInt8 := "nethop-node-v1\x00".toUTF8.toList

variable (lib : Library)

def fingerprintNode (node : ProxyNode) : Vector UInt8 32 :=
  lib.sha256 (fingerprintDomain ++ canonicalNodeBytes node)

def displayId (fingerprint : Vector UInt8 32) : String :=
  "nh1s-" ++ hex (fingerprint.toList.take 8)

/-- A node id as `StableNodeId::new`, the node filter and the node registry accept it. -/
def validNodeId (id : String) : Bool :=
  id.startsWith "nh1s-" && id.utf8ByteSize == 21 &&
    (id.toList.drop 5).all Candidate.isLowerHex

/-! ## Filters -/

def maxFilterRules : Nat := 32

def maxFilterPatternBytes : Nat := 128

inductive NodeFilterError where
  | invalidRule
  | duplicateRule
  deriving DecidableEq

def validPattern (pattern : String) : Bool :=
  pattern != "" && pattern.utf8ByteSize ≤ maxFilterPatternBytes &&
    !pattern.toList.any Text.isControl

def sorted (texts : List String) : List String := texts.insertionSort (· ≤ ·)

def newFilter (includeNames excludeNames protocols : List String) :
    Except NodeFilterError NodeFilter := do
  ensure (includeNames.length + excludeNames.length ≤ maxFilterRules ∧
    (includeNames ++ excludeNames).all validPattern ∧ protocols.length ≤ 9) .invalidRule
  ensure (includeNames.Nodup ∧ excludeNames.Nodup ∧ protocols.Nodup) .duplicateRule
  return { includeNames := sorted includeNames, excludeNames := sorted excludeNames,
           excludedNodeIds := [], protocols := sorted protocols }

def newFilterWithNodeIds (includeNames excludeNames excludedNodeIds protocols : List String) :
    Except NodeFilterError NodeFilter := do
  let filter ← newFilter includeNames excludeNames protocols
  ensure (excludedNodeIds.length ≤ maxFilterRules ∧ excludedNodeIds.all validNodeId) .invalidRule
  ensure excludedNodeIds.Nodup .duplicateRule
  return { filter with excludedNodeIds := sorted excludedNodeIds }

def containsAsciiCaseInsensitive (haystack needle : String) : Bool :=
  needle != "" &&
    decide (needle.toLower.toList <:+: haystack.toLower.toList)

/-- `NodeFilter::accepts`; the binary searches are in sorted lists. -/
def accepts (filter : NodeFilter) (node : ProxyNode) : Bool :=
  let name := node.inner.displayName.value
  (filter.protocols.isEmpty || filter.protocols.contains node.inner.protocol.asStr) &&
    (filter.includeNames.isEmpty ||
      filter.includeNames.any (containsAsciiCaseInsensitive name)) &&
    !filter.excludeNames.any (containsAsciiCaseInsensitive name) &&
    !filter.excludedNodeIds.contains (displayId (fingerprintNode lib node))

/-! ## Batches -/

structure SourceBatch where
  sourceId : String
  nodes : List ProxyNode
  rejected : Nat
  warnings : Nat

def ReadNode.referring (item : ReadNode) (sourceId : String) : NodeSpec :=
  { item.spec with
    sourceRef := some ⟨sourceId, item.itemIndex, item.format, item.line⟩ }

variable (matrix : CapabilityMatrix)

/-- An adapter has the node validated; `none` is a rejected one. -/
def readNode (sourceId : String) (item : Option ReadNode) : Option ProxyNode := do
  let item ← item
  let outcome ← (validateNodeSpec lib.uuids (item.referring sourceId) matrix).toOption
  return outcome.node

def readBatch (input : FilteredSourceInput) : SourceBatch :=
  let body := lib.readBody input.source.formatHint input.source.bytes
  let items := body.items.map (readNode lib matrix input.source.sourceId)
  let accepted := items.filterMap id
  let kept := accepted.filter (accepts lib input.filter)
  { sourceId := input.source.sourceId
    nodes := kept
    rejected := items.countP Option.isNone + (accepted.length - kept.length)
    warnings := body.diagnostics }

/-! ## Nodes of several sources -/

structure DedupedNode where
  fingerprint : Vector UInt8 32
  nodeId : String
  node : ProxyNode
  sourceRefs : List SourceRef
  aliases : List String
  displayTerritoryCode : Option String
  firstSourceOrder : Nat
  firstItemIndex : UInt32

structure SourceOutcome where
  accepted : Nat
  duplicate : Nat
  rejected : Nat
  warnings : Nat

/-- `MAX_SOURCE_REFS`, the limit a parser is built with. -/
def maxSourceRefs : Nat := 64

def mergeRefs (target : List SourceRef) : List SourceRef → List SourceRef
  | [] => target
  | reference :: refs =>
    if maxSourceRefs ≤ target.length then target
    else mergeRefs (if reference ∈ target then target else target ++ [reference]) refs

/-- A node that was there before takes over the references and the name of another. -/
def DedupedNode.absorb (node : ProxyNode) (existing : DedupedNode) : DedupedNode :=
  let display := node.inner.displayName.value
  { existing with
    sourceRefs := mergeRefs existing.sourceRefs node.inner.sourceRefs
    aliases :=
      if display ∉ existing.aliases ∧ existing.aliases.length < maxSourceRefs then
        existing.aliases ++ [display]
      else existing.aliases }

def DedupedNode.first (sourceOrder : Nat) (node : ProxyNode) : DedupedNode :=
  let fingerprint := fingerprintNode lib node
  let sourceRefs := mergeRefs [] node.inner.sourceRefs
  { fingerprint := fingerprint
    nodeId := displayId fingerprint
    node := node
    sourceRefs := sourceRefs
    aliases := [node.inner.displayName.value]
    displayTerritoryCode := none
    firstSourceOrder := sourceOrder
    firstItemIndex := (sourceRefs.head?.map SourceRef.itemIndex).getD 0 }

/-- One node of a batch: whether it is a duplicate, and the nodes with it. -/
def dedupeNode (sourceOrder : Nat) (nodes : List DedupedNode) (node : ProxyNode) :
    Bool × List DedupedNode :=
  match nodes.findIdx? fun existing => existing.fingerprint == fingerprintNode lib node with
  | some index => (true, nodes.modify index (DedupedNode.absorb node))
  | none => (false, nodes ++ [DedupedNode.first lib sourceOrder node])

def dedupeNodes (lib : Library) (sourceOrder : Nat) :
    List ProxyNode → List DedupedNode → SourceOutcome → List DedupedNode × SourceOutcome
  | [], nodes, outcome => (nodes, outcome)
  | node :: rest, nodes, outcome =>
    let (duplicate, nodes) := dedupeNode lib sourceOrder nodes node
    dedupeNodes lib sourceOrder rest nodes
      (if duplicate then { outcome with duplicate := outcome.duplicate + 1 }
       else { outcome with accepted := outcome.accepted + 1 })

def dedupeBatches (lib : Library) : Nat → List SourceBatch → List DedupedNode →
    SortedMap String SourceOutcome → List DedupedNode × SortedMap String SourceOutcome
  | _, [], nodes, outcomes => (nodes, outcomes)
  | sourceOrder, batch :: batches, nodes, outcomes =>
    let (nodes, outcome) :=
      dedupeNodes lib sourceOrder batch.nodes nodes ⟨0, 0, batch.rejected, batch.warnings⟩
    dedupeBatches lib (sourceOrder + 1) batches nodes (outcomes.insert batch.sourceId outcome)

def DedupedNode.comesBefore (a b : DedupedNode) : Bool :=
  decide (a.firstSourceOrder < b.firstSourceOrder) ||
    (a.firstSourceOrder == b.firstSourceOrder &&
      (decide (a.firstItemIndex < b.firstItemIndex) ||
        (a.firstItemIndex == b.firstItemIndex && decide (a.nodeId ≤ b.nodeId))))

def dedupeSources (batches : List SourceBatch) :
    List DedupedNode × SortedMap String SourceOutcome :=
  let (nodes, outcomes) := dedupeBatches lib 0 batches [] .empty
  ((nodes.map fun node =>
      { node with displayTerritoryCode := lib.inferDisplayTerritory node.aliases }).insertionSort
    fun a b => a.comesBefore b = true, outcomes)

/-! ## Conversions -/

/-- `StableConversion` with the parts of its summary that are read. -/
structure StableConversion where
  nodes : List DedupedNode
  sourceOutcomes : SortedMap String SourceOutcome

namespace StableConversion

def accepted (conversion : StableConversion) : Nat := conversion.nodes.length

def duplicate (conversion : StableConversion) : Nat :=
  (conversion.sourceOutcomes.values.map SourceOutcome.duplicate).sum

def sourceSuccess (conversion : StableConversion) : Bool :=
  0 < conversion.accepted + conversion.duplicate

end StableConversion

def convertFilteredSources (inputs : List FilteredSourceInput) : StableConversion :=
  let (nodes, outcomes) := dedupeSources lib (inputs.map (readBatch lib matrix))
  ⟨nodes, outcomes⟩

/-! ## What a converted node carries -/

/-- A node whose references are to the given sources and whose id is that of its
fingerprint. -/
structure StemsFrom (sources : List String) (node : DedupedNode) : Prop where
  nodeId : node.nodeId = displayId node.fingerprint
  refs_ne : node.sourceRefs ≠ []
  refs : ∀ reference ∈ node.sourceRefs, reference.sourceId ∈ sources

variable {lib : Library} {matrix : CapabilityMatrix} {sources : List String}

theorem mem_mergeRefs {refs target : List SourceRef} {reference : SourceRef}
    (h : reference ∈ mergeRefs target refs) : reference ∈ target ∨ reference ∈ refs := by
  induction refs generalizing target with
  | nil => exact .inl h
  | cons r refs ih =>
    unfold mergeRefs at h
    split_ifs at h with hfull hmem
    · exact .inl h
    · exact (ih h).imp_right (mem_cons_of_mem _)
    · rcases ih h with h | h
      · rcases mem_append.mp h with h | h
        · exact .inl h
        · exact .inr (mem_cons.mpr (.inl (mem_singleton.mp h)))
      · exact .inr (mem_cons_of_mem _ h)

theorem subset_mergeRefs (target refs : List SourceRef) : target ⊆ mergeRefs target refs := by
  induction refs generalizing target with
  | nil => exact .refl _
  | cons r refs ih =>
    unfold mergeRefs
    split_ifs with hfull hmem
    · exact .refl _
    · exact ih target
    · exact fun x hx => ih _ (mem_append_left _ hx)

theorem mergeRefs_nil_ne {refs : List SourceRef} (h : refs ≠ []) : mergeRefs [] refs ≠ [] := by
  cases refs with
  | nil => exact absurd rfl h
  | cons r refs =>
    have hmem : r ∈ mergeRefs [r] refs := subset_mergeRefs [r] refs mem_cons_self
    exact ne_nil_of_mem hmem

theorem sourceRefs_of_validateNodeSpec {spec : NodeSpec} {outcome : SemanticOutcome}
    (h : validateNodeSpec lib.uuids spec matrix = .ok outcome) :
    outcome.node.inner.sourceRefs = spec.sourceRef.toList := by
  simp only [validateNodeSpec, bind_eq_ok, ensure_eq_ok, okOr_eq_ok, mapError_eq_ok] at h
  obtain ⟨-, -, protocol, -, -, -, -, -, -, -, tls, -, credentials, -, endpoint, -, transport, -,
    options, -, -, -, -, -, name, -, node, hnode, h⟩ := h
  cases h
  rw [(ProxyNode.validate_eq_ok hnode).1]

variable {node : ProxyNode}

theorem sourceRefs_of_readNode {sourceId : String} {item : Option ReadNode}
    (h : readNode lib matrix sourceId item = some node) :
    ∃ reference, node.inner.sourceRefs = [reference] ∧ reference.sourceId = sourceId := by
  simp only [readNode, Option.bind_eq_bind, Option.bind_eq_some_iff, Option.pure_def,
    Option.some.injEq] at h
  obtain ⟨item, -, outcome, houtcome, rfl⟩ := h
  cases hvalid : validateNodeSpec lib.uuids (item.referring sourceId) matrix with
  | error e =>
    rw [hvalid] at houtcome
    cases houtcome
  | ok found =>
    rw [hvalid] at houtcome
    cases houtcome
    exact ⟨_, sourceRefs_of_validateNodeSpec hvalid, rfl⟩

def Attributed (sources : List String) (node : ProxyNode) : Prop :=
  node.inner.sourceRefs ≠ [] ∧
    ∀ reference ∈ node.inner.sourceRefs, reference.sourceId ∈ sources

theorem stemsFrom_first (sourceOrder : Nat) (h : Attributed sources node) :
    StemsFrom sources (.first lib sourceOrder node) where
  nodeId := rfl
  refs_ne := mergeRefs_nil_ne h.1
  refs := fun reference hreference =>
    h.2 reference ((mem_mergeRefs hreference).resolve_left not_mem_nil)

theorem StemsFrom.absorb {existing : DedupedNode} (hexisting : StemsFrom sources existing)
    (h : Attributed sources node) : StemsFrom sources (existing.absorb node) where
  nodeId := hexisting.nodeId
  refs_ne := by
    obtain ⟨reference, hreference⟩ := exists_mem_of_ne_nil _ hexisting.refs_ne
    exact ne_nil_of_mem (subset_mergeRefs _ _ hreference)
  refs := fun reference hreference =>
    (mem_mergeRefs hreference).elim (hexisting.refs reference) (h.2 reference)

theorem forall_mem_modify {α : Type} {P : α → Prop} {f : α → α} {l : List α} {i : Nat}
    (h : ∀ x ∈ l, P x) (hf : ∀ x ∈ l, P (f x)) : ∀ x ∈ l.modify i f, P x := by
  induction l generalizing i with
  | nil => simp
  | cons a l ih =>
    obtain ⟨ha, hl⟩ := forall_mem_cons.mp h
    obtain ⟨hfa, hfl⟩ := forall_mem_cons.mp hf
    cases i with
    | zero => exact forall_mem_cons.mpr ⟨hfa, hl⟩
    | succ i => exact forall_mem_cons.mpr ⟨ha, ih hl hfl⟩

variable {nodes : List DedupedNode} {sourceOrder : Nat}

section

variable (hnodes : ∀ d ∈ nodes, StemsFrom sources d)

include hnodes

theorem dedupeNode_stemsFrom (h : Attributed sources node) :
    ∀ d ∈ (dedupeNode lib sourceOrder nodes node).2, StemsFrom sources d := by
  unfold dedupeNode
  split
  · exact forall_mem_modify hnodes fun d hd => (hnodes d hd).absorb h
  · rw [forall_mem_append, forall_mem_singleton]
    exact ⟨hnodes, stemsFrom_first sourceOrder h⟩

theorem dedupeNodes_stemsFrom {rest : List ProxyNode} {outcome : SourceOutcome}
    (h : ∀ node ∈ rest, Attributed sources node) :
    ∀ d ∈ (dedupeNodes lib sourceOrder rest nodes outcome).1, StemsFrom sources d := by
  induction rest generalizing nodes outcome with
  | nil => exact hnodes
  | cons node rest ih =>
    obtain ⟨hnode, hrest⟩ := forall_mem_cons.mp h
    exact ih (dedupeNode_stemsFrom hnodes hnode) hrest

theorem dedupeBatches_stemsFrom {batches : List SourceBatch}
    {outcomes : SortedMap String SourceOutcome}
    (h : ∀ batch ∈ batches, ∀ node ∈ batch.nodes, Attributed sources node) :
    ∀ d ∈ (dedupeBatches lib sourceOrder batches nodes outcomes).1, StemsFrom sources d := by
  induction batches generalizing sourceOrder nodes outcomes with
  | nil => exact hnodes
  | cons batch batches ih =>
    obtain ⟨hbatch, hbatches⟩ := forall_mem_cons.mp h
    exact ih (dedupeNodes_stemsFrom hnodes hbatch) hbatches

end

/-- Every node of a conversion stems from the sources whose bodies were converted. -/
theorem convertFilteredSources_stemsFrom {inputs : List FilteredSourceInput}
    (h : ∀ input ∈ inputs, input.source.sourceId ∈ sources) :
    ∀ node ∈ (convertFilteredSources lib matrix inputs).nodes, StemsFrom sources node := by
  have hbatches : ∀ batch ∈ inputs.map (readBatch lib matrix), ∀ node ∈ batch.nodes,
      Attributed sources node := by
    intro batch hbatch node hnode
    obtain ⟨input, hinput, rfl⟩ := mem_map.mp hbatch
    obtain ⟨read, hread, rfl⟩ := mem_filterMap.mp (mem_filter.mp hnode).1
    obtain ⟨item, -, hitem⟩ := mem_map.mp hread
    obtain ⟨reference, hrefs, hsource⟩ := sourceRefs_of_readNode hitem
    unfold Attributed
    rw [hrefs, forall_mem_singleton, hsource]
    exact ⟨cons_ne_nil _ _, h input hinput⟩
  intro node hnode
  obtain ⟨found, hfound, rfl⟩ := mem_map.mp ((mem_insertionSort _).mp hnode)
  have hstems : StemsFrom sources found :=
    dedupeBatches_stemsFrom (fun d hd => absurd hd not_mem_nil) hbatches found hfound
  exact ⟨hstems.nodeId, hstems.refs_ne, hstems.refs⟩

end NetHop.Build
