import NetHop.Build.Composer

/-!
# Building a candidate

`build_candidate`: the nodes of a conversion are attributed to their sources, the pools are
filled, the configuration is composed, and every node is recorded in the registry that goes
with it.
-/

namespace NetHop.Build

open Node Generation Candidate DedupedNode Bool GenerationNodeRecord Config
open NodeAttribution
open List hiding Vector

/-! ## Node records -/

def maxGenerationNodes : Nat := 2000

def maxNodeNameBytes : Nat := 128

def maxSourceIds : Nat := 16

/-- The characters that fit into a number of bytes. -/
def takeBytes : Nat → List Char → List Char
  | _, [] => []
  | n, c :: cs => if c.utf8Size ≤ n then c :: takeBytes (n - c.utf8Size) cs else []

def boundedDisplayName (value : String) : String :=
  if value.utf8ByteSize ≤ maxNodeNameBytes then value
  else String.ofList (takeBytes maxNodeNameBytes value.toList)

def validText (text : String) (max : Nat) : Bool :=
  text != "" && text.utf8ByteSize ≤ max && !text.toList.any Text.isControl

/-- `GenerationNodeRecord::new`. -/
def newNodeRecord (stableNodeId internalTag displayName protocol : String)
    (sourceIds : List String) (autoCandidate : Bool) : Except CoreError GenerationNodeRecord := do
  let validProtocol := protocol != "" && protocol.utf8ByteSize ≤ maxProtocolBytes &&
    protocol.toList.all fun c => c.isLower || c.isDigit
  ensure (validNodeId stableNodeId ∧ validText internalTag maxTagBytes ∧
      validText displayName maxNodeNameBytes ∧ validProtocol ∧ sourceIds ≠ [] ∧
      sourceIds.length ≤ maxSourceIds ∧ sourceIds.Nodup ∧
      sourceIds.all validSourceId)
    (publishError "node_registry" "generation node record is invalid")
  return { stableNodeId := stableNodeId
           internalTag := internalTag
           displayName := displayName
           protocol := protocol
           sourceIds := sourceIds
           autoCandidate := autoCandidate
           displayTerritoryCode := none }

/-- A node of the pool is recorded and marked, and no other is marked. -/
def autoPoolMatches (records : List GenerationNodeRecord) (autoPool : List String) : Bool :=
  (autoPool.all fun id => records.any fun record =>
      record.stableNodeId == id && record.autoCandidate) &&
    records.all fun record => record.autoCandidate == autoPool.contains record.stableNodeId

/-- `GenerationNodeRegistry::with_auto_pool`. -/
def newNodeRegistry (records : List GenerationNodeRecord) (autoPool : List String) :
    Except CoreError { r : GenerationNodeRegistry // r.schema = nodeRegistrySchema } := do
  ensure (records ≠ [] ∧ records.length ≤ maxGenerationNodes)
    (publishError "node_registry" "generation node registry size is invalid")
  let records := records.insertionSort fun a b => a.stableNodeId ≤ b.stableNodeId
  ensure ((records.map stableNodeId).Nodup ∧
      (records.map internalTag).Nodup)
    (publishError "node_registry" "generation node registry contains duplicate mappings")
  ensure (autoPool ≠ [] ∧ autoPool.length ≤ 64 ∧ autoPool.Nodup ∧ autoPoolMatches records autoPool)
    (publishError "node_registry" "generation auto pool is invalid")
  return ⟨{ schema := nodeRegistrySchema, autoPool := autoPool, records := records }, rfl⟩

/-! ## Candidates -/

inductive BuildCandidateError where
  | emptyConversion
  | adapter (error : TerminalOutboundAdapterError)
  | composer (error : ComposerError)
  | pool (error : CandidatePoolError)
  | nodeIdentity
  | attribution (error : AttributionError)
  | registry (error : CoreError)
  deriving DecidableEq

def attributionOf (node : DedupedNode) : Except BuildCandidateError NodeAttribution :=
  (NodeAttribution.new (node.sourceRefs.map SourceRef.sourceId)).mapError .attribution

def poolNode (node : DedupedNode) : Except BuildCandidateError CandidatePoolNode := do
  let id ← okOr (StableNodeId.new node.nodeId) .nodeIdentity
  let attribution ← attributionOf node
  return ⟨id, attribution⟩

def nodeRecord (autoTags : List String) (node : DedupedNode) :
    Except BuildCandidateError GenerationNodeRecord := do
  let attribution ← attributionOf node
  let record ← (newNodeRecord node.nodeId node.nodeId
    (boundedDisplayName node.node.inner.displayName.value) node.node.inner.protocol.asStr
    attribution.sourceIds (autoTags.contains node.nodeId)).mapError .registry
  return { record with displayTerritoryCode := node.displayTerritoryCode }

/-- `build_candidate`, which has no node overrides. -/
def buildCandidate (sha256Hex : Content → String) (generation : GenerationId)
    (conversion : StableConversion) (settings : CandidateBuildProfile)
    (mode : Wire.SubscriptionMode) (activeSourceIds : List String) :
    Except BuildCandidateError (Candidate sha256Hex) := do
  ensure (conversion.nodes ≠ [] ∧ conversion.sourceSuccess) .emptyConversion
  let poolNodes ← conversion.nodes.mapM poolNode
  let pools ← (buildCandidatePools mode activeSourceIds poolNodes
    settings.urltestMaxCandidates).mapError .pool
  let autoTags := pools.auto.map StableNodeId.value
  let outbounds ← (conversion.nodes.mapM adaptTerminalOutbound).mapError .adapter
  let config ← (composeCandidate sha256Hex settings outbounds autoTags).mapError .composer
  let records ← conversion.nodes.mapM (nodeRecord autoTags)
  let registry ← (newNodeRegistry records autoTags).mapError .registry
  ((Candidate.new generation config).withNodeRegistry registry).mapError .registry

def autoTagsOf (mode : Wire.SubscriptionMode) (activeSourceIds : List String)
    (poolNodes : List CandidatePoolNode) (maxCandidates : Nat) : List String :=
  (autoPool mode activeSourceIds (eligibleNodes activeSourceIds poolNodes) maxCandidates).1.map
    StableNodeId.value

/-- The composer accepts the profile of a conversion.  There is a profile as soon as the
nodes have been attributed. -/
def ComposerAccepts (sha256Hex : Content → String) (conversion : StableConversion)
    (settings : CandidateBuildProfile) (mode : Wire.SubscriptionMode)
    (activeSourceIds : List String) : Prop :=
  ∀ poolNodes, conversion.nodes.mapM poolNode = .ok poolNodes →
    ∃ outbounds config, conversion.nodes.mapM adaptTerminalOutbound = .ok outbounds ∧
      composeCandidate sha256Hex settings outbounds
        (autoTagsOf mode activeSourceIds poolNodes settings.urltestMaxCandidates) = .ok config

/-! ## Identifiers made of hexadecimal digits -/

theorem hexByte_lower (b : UInt8) : ∀ c ∈ hexByte b, isLowerHex c = true := by
  have hdigit : ∀ d < 16, isLowerHex (Nat.digitChar d) = true := by decide
  have hlt := b.toNat_lt
  simp only [hexByte, forall_mem_cons]
  exact ⟨hdigit _ (by omega), hdigit _ (by omega), fun c hc => absurd hc not_mem_nil⟩

theorem utf8Size_of_isLowerHex {c : Char} (h : isLowerHex c = true) : c.utf8Size = 1 := by
  rw [Char.utf8Size_eq_one_iff]
  simp only [isLowerHex, Char.isDigit, or_eq_true, and_eq_true,
    decide_eq_true_eq, Char.le_def, UInt32.le_iff_toNat_le] at h
  rcases h with ⟨-, h⟩ | ⟨-, h⟩ <;> exact h.trans (by decide)

theorem utf8Len_of_isLowerHex {l : List Char} (h : ∀ c ∈ l, isLowerHex c = true) :
    String.utf8Len l = l.length := by
  induction l with
  | nil => rfl
  | cons c l ih =>
    obtain ⟨hc, hl⟩ := forall_mem_cons.mp h
    rw [String.utf8Len_cons, ih hl, utf8Size_of_isLowerHex hc, length_cons]

theorem hex_spec (bytes : List UInt8) : (∀ c ∈ (hex bytes).toList, isLowerHex c = true) ∧
      (hex bytes).utf8ByteSize = 2 * bytes.length := by
  have hlower : ∀ c ∈ bytes.flatMap hexByte, isLowerHex c = true := by
    intro c hc
    obtain ⟨b, -, hc⟩ := mem_flatMap.mp hc
    exact hexByte_lower b c hc
  have hlength : (bytes.flatMap hexByte).length = 2 * bytes.length := by
    induction bytes with
    | nil => rfl
    | cons b bytes ih =>
      rw [flatMap_cons, length_append, ih fun c hc => hlower c (by
        exact mem_append_right _ hc), length_cons]
      change 2 + _ = _
      omega
  rw [hex, String.toList_ofList, String.utf8ByteSize_ofList, utf8Len_of_isLowerHex hlower]
  exact ⟨hlower, hlength⟩

theorem validNodeId_displayId (fingerprint : Vector UInt8 32) :
    validNodeId (displayId fingerprint) = true := by
  obtain ⟨hlower, hsize⟩ := hex_spec (fingerprint.toList.take 8)
  have hlength : (fingerprint.toList.take 8).length = 8 := by simp
  simp only [validNodeId, displayId, and_eq_true, String.startsWith_string_iff, beq_iff_eq,
    String.toList_append, String.utf8ByteSize_append, hsize, hlength, all_eq_true]
  exact ⟨⟨prefix_append _ _, rfl⟩, hlower⟩

theorem validSourceId_hex (bytes : Vector UInt8 16) :
    validSourceId ("src_" ++ hex bytes.toList) = true := by
  obtain ⟨hlower, hsize⟩ := hex_spec bytes.toList
  have hlength : bytes.toList.length = 16 := bytes.size_toArray
  simp only [validSourceId, and_eq_true, String.startsWith_string_iff, beq_iff_eq,
    String.toList_append, String.utf8ByteSize_append, hsize, hlength, all_eq_true]
  exact ⟨⟨prefix_append _ _, rfl⟩, hlower⟩

/-! ## Names and protocols -/

theorem utf8Len_takeBytes_le (n : Nat) (l : List Char) : String.utf8Len (takeBytes n l) ≤ n := by
  induction l generalizing n with
  | nil => exact Nat.zero_le n
  | cons c l ih =>
    unfold takeBytes
    split_ifs with h
    · have hrest := ih (n - c.utf8Size)
      rw [String.utf8Len_cons]
      omega
    · exact Nat.zero_le n

theorem takeBytes_subset (n : Nat) (l : List Char) : takeBytes n l ⊆ l := by
  induction l generalizing n with
  | nil => exact .refl _
  | cons c l ih =>
    unfold takeBytes
    split_ifs with h
    · exact cons_subset_cons c (ih _)
    · exact nil_subset _

theorem takeBytes_ne_nil {n : Nat} (hn : 4 ≤ n) {l : List Char} (hl : l ≠ []) :
    takeBytes n l ≠ [] := by
  cases l with
  | nil => exact absurd rfl hl
  | cons c l =>
    unfold takeBytes
    rw [if_pos (c.utf8Size_le_four.trans hn)]
    exact cons_ne_nil _ _

theorem validText_boundedDisplayName {max : Nat} (name : BoundedText max) :
    validText (boundedDisplayName name.value) maxNodeNameBytes = true := by
  have hcontrol := name.no_control
  simp only [validText, and_eq_true, bne_iff_ne, decide_eq_true_eq, not_eq_true']
  unfold boundedDisplayName
  split_ifs with hsize
  · exact ⟨⟨name.ne_empty, hsize⟩, hcontrol⟩
  · have hne : name.value.toList ≠ [] := fun h => name.ne_empty (String.toList_eq_nil_iff.mp h)
    refine ⟨⟨?_, ?_⟩, ?_⟩
    · intro h
      refine takeBytes_ne_nil (by decide : 4 ≤ maxNodeNameBytes) hne ?_
      rw [← String.toList_ofList (l := takeBytes _ _), h]
      rfl
    · rw [String.utf8ByteSize_ofList]
      exact utf8Len_takeBytes_le _ _
    · rw [String.toList_ofList, any_eq_false]
      rw [any_eq_false] at hcontrol
      exact fun c hc => hcontrol c (takeBytes_subset _ _ hc)

theorem isControl_eq_false_of_isLowerHex {c : Char} (h : isLowerHex c = true) :
    Text.isControl c = false := by
  simp only [isLowerHex, Char.isDigit, or_eq_true, and_eq_true,
    decide_eq_true_eq, Char.le_def, UInt32.le_iff_toNat_le] at h
  have hrange : 48 ≤ c.toNat ∧ c.toNat ≤ 102 := by
    rcases h with ⟨hlow, hhigh⟩ | ⟨hlow, hhigh⟩
    · exact ⟨hlow, hhigh.trans (by decide)⟩
    · exact ⟨(by decide : 48 ≤ 97).trans hlow, hhigh⟩
  simp only [Text.isControl, or_eq_false_iff, and_eq_false_iff, decide_eq_false_iff_not]
  omega

theorem validText_of_validNodeId {id : String} (h : validNodeId id = true) :
    validText id maxTagBytes = true := by
  simp only [validNodeId, and_eq_true, String.startsWith_string_iff, beq_iff_eq, all_eq_true] at h
  obtain ⟨⟨⟨rest, hrest⟩, hsize⟩, hlower⟩ := h
  rw [← hrest] at hlower
  simp only [validText, and_eq_true, bne_iff_ne, decide_eq_true_eq, not_eq_true',
    hsize, any_eq_false]
  refine ⟨⟨?_, by decide⟩, ?_⟩
  · rintro rfl
    cases hsize
  · intro c hc
    rw [← hrest] at hc
    rcases mem_append.mp hc with hc | hc
    · have hfront : ("nh1s-".toList.all fun c => !Text.isControl c) = true := by decide
      simpa using all_eq_true.mp hfront c hc
    · rw [isControl_eq_false_of_isLowerHex (hlower c hc)]
      nofun

theorem protocol_valid (protocol : ProxyProtocol) :
    protocol.asStr ≠ "" ∧ protocol.asStr.utf8ByteSize ≤ maxProtocolBytes ∧
      (protocol.asStr.toList.all fun c => c.isLower || c.isDigit) = true := by
  cases protocol <;> decide

/-! ## Candidates that are built -/

variable {sha256Hex : Content → String} {sources : List String} {node : DedupedNode}

theorem exists_attributionOf (h : StemsFrom sources node) (hle : sources.length ≤ maxSources) :
    ∃ attribution, attributionOf node = .ok attribution ∧ attribution.sourceIds ⊆ sources := by
  have hsub : node.sourceRefs.map SourceRef.sourceId ⊆ sources := by
    intro id hid
    obtain ⟨reference, hreference, rfl⟩ := mem_map.mp hid
    exact h.refs reference hreference
  obtain ⟨attribution, hattribution⟩ :=
    exists_new (fun h' => h.refs_ne (map_eq_nil_iff.mp h')) hsub hle
  exact ⟨attribution, mapError_eq_ok.mpr hattribution, fun id hid =>
    hsub ((mem_of_new hattribution id).mp hid)⟩

structure PoolNodeOf (sources : List String) (node : DedupedNode) (poolNode : CandidatePoolNode) :
    Prop where
  id : poolNode.id.value = node.nodeId
  sources : poolNode.attribution.sourceIds ⊆ sources

theorem validNodeId_of_stemsFrom (h : StemsFrom sources node) : validNodeId node.nodeId = true :=
  h.nodeId ▸ validNodeId_displayId node.fingerprint

theorem exists_poolNode (h : StemsFrom sources node) (hle : sources.length ≤ maxSources) :
    ∃ built, poolNode node = .ok built ∧ PoolNodeOf sources node built := by
  obtain ⟨attribution, hattribution, hsub⟩ := exists_attributionOf h hle
  have hvalid := validNodeId_of_stemsFrom h
  refine ⟨⟨⟨node.nodeId, hvalid⟩, attribution⟩, ?_, ⟨rfl, hsub⟩⟩
  unfold poolNode StableNodeId.new
  rw [dif_pos hvalid, hattribution]
  rfl

structure Recordable (id tag name : String) (protocol : ProxyProtocol)
    (attribution : NodeAttribution) : Prop where
  id : validNodeId id = true
  tag : validText tag maxTagBytes = true
  name : validText name maxNodeNameBytes = true
  sources : ∀ id ∈ attribution.sourceIds, validSourceId id = true

theorem newNodeRecord_of_recordable {id tag name : String} {protocol : ProxyProtocol}
    {attribution : NodeAttribution} (h : Recordable id tag name protocol attribution)
    (autoCandidate : Bool) :
    newNodeRecord id tag name protocol.asStr attribution.sourceIds autoCandidate =
      .ok ⟨id, tag, name, protocol.asStr, attribution.sourceIds, autoCandidate, none⟩ := by
  obtain ⟨hprotocol, hsize, hlower⟩ := protocol_valid protocol
  simp only [newNodeRecord, bind_eq_ok, ensure_eq_ok, decide_eq_true_eq, and_eq_true,
    bne_iff_ne, all_eq_true]
  exact ⟨(), ⟨h.id, h.tag, h.name, ⟨⟨hprotocol, hsize⟩, all_eq_true.mp hlower⟩,
    attribution.ne_nil, attribution.length_le, attribution.nodup, h.sources⟩, rfl⟩

structure RecordOf (autoTags : List String) (node : DedupedNode) (record : GenerationNodeRecord) :
    Prop where
  stableNodeId : record.stableNodeId = node.nodeId
  internalTag : record.internalTag = node.nodeId
  autoCandidate : record.autoCandidate = autoTags.contains node.nodeId

theorem exists_nodeRecord (h : StemsFrom sources node) (hle : sources.length ≤ maxSources)
    (hsources : ∀ id ∈ sources, validSourceId id = true) (autoTags : List String) :
    ∃ record, nodeRecord autoTags node = .ok record ∧ RecordOf autoTags node record := by
  obtain ⟨attribution, hattribution, hsub⟩ := exists_attributionOf h hle
  have hvalid := validNodeId_of_stemsFrom h
  have hrecordable : Recordable node.nodeId node.nodeId
      (boundedDisplayName node.node.inner.displayName.value) node.node.inner.protocol attribution :=
    ⟨hvalid, validText_of_validNodeId hvalid, validText_boundedDisplayName _,
      fun id hid => hsources id (hsub hid)⟩
  have hrecord := newNodeRecord_of_recordable hrecordable (autoTags.contains node.nodeId)
  refine ⟨⟨node.nodeId, node.nodeId, boundedDisplayName node.node.inner.displayName.value,
    node.node.inner.protocol.asStr, attribution.sourceIds, autoTags.contains node.nodeId,
    node.displayTerritoryCode⟩, ?_, ⟨rfl, rfl, rfl⟩⟩
  unfold nodeRecord
  rw [hattribution]
  change (newNodeRecord _ _ _ _ _ _).mapError _ >>= _ = _
  rw [hrecord]
  rfl

theorem exists_mapM {α β ε : Type} {f : α → Except ε β} {P : α → β → Prop} {l : List α}
    (h : ∀ a ∈ l, ∃ b, f a = .ok b ∧ P a b) : ∃ l', l.mapM f = .ok l' ∧ List.Forall₂ P l l' := by
  induction l with
  | nil => exact ⟨[], rfl, .nil⟩
  | cons a l ih =>
    obtain ⟨⟨b, hb, hP⟩, hrest⟩ := forall_mem_cons.mp h
    obtain ⟨l', hl', hforall⟩ := ih hrest
    exact ⟨b :: l', mapM_eq_ok.mpr (.cons hb (mapM_eq_ok.mp hl')), .cons hP hforall⟩

/-- The sources of a pool as `build_candidate` accepts them. -/
structure Fits (mode : Wire.SubscriptionMode) (sources : List String) : Prop where
  ne_nil : sources ≠ []
  length_le : sources.length ≤ maxSources
  nodup : sources.Nodup
  single : mode = .single → sources.length = 1
  valid : ∀ id ∈ sources, validSourceId id = true

variable {mode : Wire.SubscriptionMode} {nodes : List DedupedNode}

theorem exists_pools {poolNodes : List CandidatePoolNode} {max : Nat} (hfits : Fits mode sources)
    (hmax : 1 ≤ max ∧ max ≤ maxAutoCandidates) (hne : nodes ≠ []) (hids : (nodes.map nodeId).Nodup)
    (hpool : List.Forall₂ (PoolNodeOf sources) nodes poolNodes) :
    ∃ pools, buildCandidatePools mode sources poolNodes max = .ok pools ∧
      pools.auto.map StableNodeId.value = autoTagsOf mode sources poolNodes max := by
  have hvalues : (poolNodes.map fun p => p.id.value) = nodes.map nodeId :=
    map_eq_of_forall₂ (hpool.imp fun _ _ h => h.id)
  have hnodup : (poolNodes.map CandidatePoolNode.id).Nodup := by
    refine List.Nodup.of_map StableNodeId.value ?_
    rw [map_map]
    exact hvalues ▸ hids
  have heligible : eligibleNodes sources poolNodes ≠ [] := by
    obtain ⟨node, nodes', rfl⟩ := exists_cons_of_ne_nil hne
    obtain ⟨p, ps, hp, -, rfl⟩ := forall₂_cons_left_iff.mp hpool
    obtain ⟨id, hid⟩ := exists_mem_of_ne_nil _ p.attribution.ne_nil
    have hmem : p ∈ eligibleNodes sources (p :: ps) := by
      rw [eligibleNodes, mem_insertionSort, mem_filter, any_eq_true]
      exact ⟨mem_cons_self, id, hp.sources hid, contains_iff_mem.mpr hid⟩
    exact ne_nil_of_mem hmem
  have hvalidate : validateInputs mode sources poolNodes max = .ok () := by
    simp only [validateInputs, bind_eq_ok, ensure_eq_ok, decide_eq_true_eq]
    exact ⟨(), ⟨hfits.ne_nil, hfits.length_le, hfits.nodup, hfits.single⟩, (), hmax, hnodup⟩
  rcases hauto : autoPool mode sources (eligibleNodes sources poolNodes) max with ⟨auto, counts⟩
  refine ⟨⟨auto, (eligibleNodes sources poolNodes).map CandidatePoolNode.id,
    sources.zipWith SourceContribution.mk counts⟩, ?_, ?_⟩
  · unfold buildCandidatePools
    rw [hvalidate]
    exact bind_eq_ok.mpr ⟨(), rfl, bind_eq_ok.mpr
      ⟨(), ensure_eq_ok.mpr (decide_eq_true heligible), by rw [hauto]; rfl⟩⟩
  · rw [autoTagsOf, hauto]

theorem exists_registry {autoTags : List String} {records : List GenerationNodeRecord}
    (hne : nodes ≠ []) (hcount : nodes.length ≤ maxGenerationNodes)
    (hids : (nodes.map nodeId).Nodup) (hauto : autoTags ≠ [])
    (hlength : autoTags.length ≤ 64) (hnodup : autoTags.Nodup)
    (hmem : ∀ tag ∈ autoTags, tag ∈ nodes.map nodeId)
    (hrecords : List.Forall₂ (RecordOf autoTags) nodes records) :
    ∃ registry, newNodeRegistry records autoTags = .ok registry ∧
      registry.val.records.length = nodes.length := by
  have hperm := perm_insertionSort
    (fun a b : GenerationNodeRecord => a.stableNodeId ≤ b.stableNodeId) records
  have hstable : records.map stableNodeId = nodes.map nodeId :=
    map_eq_of_forall₂ (hrecords.imp fun _ _ h => h.stableNodeId)
  have htags : records.map internalTag = nodes.map nodeId :=
    map_eq_of_forall₂ (hrecords.imp fun _ _ h => h.internalTag)
  have hsize : records.length = nodes.length := hrecords.length_eq.symm
  have hmarked : ∀ record ∈ records, record.autoCandidate = autoTags.contains record.stableNodeId :=
    forall_of_forall₂ (hrecords.flip.imp fun _ _ h => by rw [h.stableNodeId, h.autoCandidate])
  have hmatches : autoPoolMatches
      (records.insertionSort fun a b => a.stableNodeId ≤ b.stableNodeId) autoTags = true := by
    simp only [autoPoolMatches, and_eq_true, all_eq_true, any_eq_true, beq_iff_eq,
      mem_insertionSort]
    refine ⟨fun tag htag => ?_, hmarked⟩
    obtain ⟨record, hrecord, rfl⟩ := mem_map.mp (hstable ▸ hmem tag htag)
    refine ⟨record, hrecord, rfl, ?_⟩
    rw [hmarked record hrecord]
    exact contains_iff_mem.mpr htag
  refine ⟨⟨⟨nodeRegistrySchema, autoTags, _⟩, rfl⟩, ?_, hperm.length_eq.trans hsize⟩
  simp only [newNodeRegistry, bind_eq_ok, ensure_eq_ok, decide_eq_true_eq]
  refine ⟨(), ⟨?_, hsize ▸ hcount⟩, (), ⟨?_, ?_⟩, (), ⟨hauto, hlength, hnodup, hmatches⟩, rfl⟩
  · rintro rfl
    exact hne (length_eq_zero_iff.mp hsize.symm)
  · exact (hperm.map _).nodup_iff.mpr (hstable ▸ hids)
  · exact (hperm.map _).nodup_iff.mpr (htags ▸ hids)

theorem exists_buildCandidate (generation : GenerationId) {conversion : StableConversion}
    {settings : CandidateBuildProfile} (hfits : Fits mode sources)
    (hmax : 1 ≤ settings.urltestMaxCandidates ∧ settings.urltestMaxCandidates ≤ maxAutoCandidates)
    (hne : conversion.nodes ≠ []) (hstems : ∀ node ∈ conversion.nodes, StemsFrom sources node)
    (hcomposer : ComposerAccepts sha256Hex conversion settings mode sources) :
    ∃ candidate, buildCandidate sha256Hex generation conversion settings mode sources =
      .ok candidate := by
  have hsuccess : conversion.sourceSuccess = true := by
    have hpos := length_pos_iff.mpr hne
    exact decide_eq_true (Nat.add_pos_left hpos _)
  obtain ⟨poolNodes, hpoolNodes, hpool⟩ := exists_mapM fun node hnode =>
    exists_poolNode (hstems node hnode) hfits.length_le
  obtain ⟨outbounds, config, houtbounds, hconfig⟩ := hcomposer poolNodes hpoolNodes
  have hcomposed := composeCandidate_eq_ok hconfig
  have htags : outbounds.map TerminalOutbound.tag = conversion.nodes.map nodeId :=
    map_eq_of_forall₂ ((mapM_eq_ok.mp houtbounds).imp fun _ _ h => tag_of_adaptTerminalOutbound h)
  have hlength : outbounds.length = conversion.nodes.length := by
    simpa using congrArg length htags
  obtain ⟨pools, hpools, hautoTags⟩ := exists_pools hfits hmax hne (htags ▸ hcomposed.tags) hpool
  obtain ⟨records, hrecords, hrecordsOf⟩ := exists_mapM fun node hnode =>
    exists_nodeRecord (hstems node hnode) hfits.length_le hfits.valid
      (pools.auto.map StableNodeId.value)
  rw [← hautoTags] at hconfig hcomposed
  obtain ⟨registry, hregistry, hcount⟩ := exists_registry hne (hlength ▸ hcomposed.count)
    (htags ▸ hcomposed.tags) hcomposed.auto_ne hcomposed.auto_length hcomposed.auto_nodup
    (htags ▸ hcomposed.auto_mem) hrecordsOf
  have hnodeCount : registry.val.records.length = config.nodeCount := by
    rw [hcount, hcomposed.nodeCount, hlength]
  have hcandidate : ∃ candidate,
      (Candidate.new generation config).withNodeRegistry registry = .ok candidate := by
    exact ⟨_, dif_pos hnodeCount⟩
  obtain ⟨candidate, hcandidate⟩ := hcandidate
  refine ⟨candidate, ?_⟩
  simp only [buildCandidate, bind_eq_ok, ensure_eq_ok, decide_eq_true_eq, mapError_eq_ok]
  exact ⟨(), ⟨hne, hsuccess⟩, poolNodes, hpoolNodes, pools, hpools, outbounds, houtbounds,
    config, hconfig, records, hrecords, registry, hregistry, hcandidate⟩

end NetHop.Build
