import Mathlib.Data.List.Dedup
import NetHop.Config.Identity
import NetHop.SourceUpdate.Inputs

/-!
# Limits that have to fit together

The number of sources is bounded when a configuration is accepted, when nodes are attributed,
when the pools are filled, when a node is recorded and when a candidate is bound to its
sources.  All use the same bound, but the manual source is counted only by the later ones; and
the filter of the manual source has room for the exclusions of one source, not of all.
-/

namespace NetHop.SourceUpdate

open Build Config Generation RegistryEntry Candidate
open List hiding Vector

/-! ## Accepted configurations -/

structure IssuedId (id : SourceId) : Prop where
  issued : ∃ bytes : Vector UInt8 16, id.value = "src_" ++ hex bytes.toList
  ne_manual : id ≠ manualSourceId

def IsDigest (text : String) : Prop := ∃ bytes : Vector UInt8 32, text = hex bytes.toList

def ValidFilter (filter : NodeFilter) : Prop :=
  newFilterWithNodeIds filter.includeNames filter.excludeNames filter.excludedNodeIds
    filter.protocols = .ok filter

/-- What is checked of the sources when a configuration is accepted. -/
structure AcceptedSources (mode : Wire.SubscriptionMode) (sources : List UserSource) : Prop where
  count : sources.length ≤ maxSources
  filters : ∀ source ∈ sources, ValidFilter source.filter
  single : mode = .single →
    (sources.filter fun source => source.enabled && source.url != "").length ≤ 1

/-- The sources of an accepted configuration, with the identifiers of the registry. -/
structure Admitted (config : SourceConfig) : Prop where
  count : config.sources.length ≤ maxSources
  single : config.mode = .single → (activeSources config).length ≤ 1
  nodup : (config.sources.map SourceDefinition.id).Nodup
  issued : ∀ source ∈ config.sources, IssuedId source.id
  filters : ∀ source ∈ config.sources, ValidFilter source.filter
  digest : IsDigest config.sourceConfigDigest

structure IssuedEntries (entries : List RegistryEntry) : Prop where
  nodup : (entries.map sourceId).Nodup
  issued : ∀ entry ∈ entries, IssuedId entry.sourceId

def IssuedState (state : RegistryState) : Prop :=
  (∀ binding ∈ state.active, IssuedEntries binding.entries) ∧
    ∀ binding ∈ state.pending, IssuedEntries binding.entries

variable {hash : Hash} {snapshot : ConfigSnapshot}

theorem allocateId_issued {assigned : List SourceId} {previous : List RegistryEntry}
    {attempts : Nat} {entropy entropy' : Entropy} {id : SourceId}
    (h : allocateId assigned previous attempts entropy = .ok (id, entropy')) : IssuedId id := by
  refine ⟨?_, (allocateId_fresh h).1⟩
  induction attempts generalizing entropy with
  | zero => cases h
  | succ attempts ih =>
    simp only [allocateId, bind_eq_ok, okOr_eq_ok] at h
    obtain ⟨⟨bytes, rest⟩, -, candidate, hcandidate, h⟩ := h
    split_ifs at h with hfresh
    · cases h
      unfold SourceId.new at hcandidate
      split_ifs at hcandidate
      cases hcandidate
      exact ⟨bytes, rfl⟩
    · exact ih h

variable {preferred : List (Option SourceId)} {ids : List SourceId}

theorem assignIds_issued {previous : List RegistryEntry} {sources : List UserSource}
    {state : Assignment}
    (hprevious : ∀ entry ∈ previous, IssuedId entry.sourceId)
    (h : assignIds hash previous sources preferred state = .ok ids) : ∀ id ∈ ids, IssuedId id := by
  induction sources generalizing preferred state ids with
  | nil =>
    cases h
    exact fun id hid => absurd hid not_mem_nil
  | cons source sources ih =>
    simp only [assignIds, bind_eq_ok] at h
    obtain ⟨matched, hmatched, ⟨id, state'⟩, htake, others, hothers, hids⟩ := h
    cases hids
    refine forall_mem_cons.mpr ⟨?_, ih hothers⟩
    unfold takeId at htake
    split at htake
    next k found hfound =>
      cases htake
      obtain ⟨j, -, hmapped⟩ := Option.bind_eq_some_iff.mp hfound
      obtain ⟨entry, hget, hpair⟩ := Option.map_eq_some_iff.mp hmapped
      cases hpair
      exact hprevious entry (mem_of_getElem? hget)
    · simp only [bind_eq_ok] at htake
      obtain ⟨⟨fresh, rest⟩, hfresh, hstate⟩ := htake
      cases hstate
      exact allocateId_issued hfresh

variable {state : RegistryState}

theorem IssuedState.previous (h : IssuedState state) : IssuedEntries state.previous := by
  unfold RegistryState.previous
  cases hactive : state.active with
  | none => exact ⟨nodup_nil, fun entry hentry => absurd hentry not_mem_nil⟩
  | some binding => exact h.1 binding hactive

theorem issued_of_bindFresh {entropy : Entropy} {prepared : PreparedSourceConfig}
    (hprevious : IssuedEntries state.previous)
    (h : bindFresh hash state snapshot entropy preferred = .ok prepared) :
    IssuedEntries prepared.binding.entries := by
  obtain ⟨ids, hids, -, hentries⟩ := bindFresh_ids h
  have hsame : prepared.binding.entries.map sourceId = ids := by
    rw [hentries, map_map]
    exact map_fst_zip (assignIds_length hids).le
  refine ⟨?_, fun entry hentry => assignIds_issued hprevious.issued hids _ ?_⟩
  · rw [hsame]
    exact (assignIds_nodup hprevious.nodup (Assignment.sound_start _ _) hids).1
  · exact hsame ▸ mem_map_of_mem hentry

section

variable (hhash : ∀ mode sources, IsDigest (hash.sourceConfig mode sources))

include hhash

theorem admitted_sourceConfigOf (hlength : ids.length = snapshot.sources.length)
    (hnodup : ids.Nodup)
    (hissued : ∀ id ∈ ids, IssuedId id)
    (hsources : AcceptedSources snapshot.mode snapshot.sources) :
    Admitted (sourceConfigOf hash snapshot
      ((ids.zip snapshot.sources).map fun p => defineSource p.1 p.2)) := by
  have hids : ((ids.zip snapshot.sources).map fun p => defineSource p.1 p.2).map
      SourceDefinition.id = ids := by
    rw [map_map]
    exact map_fst_zip hlength.le
  have hactive : (((ids.zip snapshot.sources).map fun p => defineSource p.1 p.2).filter
      SourceDefinition.active).length =
        (snapshot.sources.filter fun source => source.enabled && source.url != "").length := by
    calc (((ids.zip snapshot.sources).map fun p => defineSource p.1 p.2).filter
          SourceDefinition.active).length = (((ids.zip snapshot.sources).map Prod.snd).filter
            fun source => source.enabled && source.url != "").length := by
          rw [filter_map, filter_map, length_map, length_map]
          rfl
      _ = (snapshot.sources.filter fun source => source.enabled && source.url != "").length := by
          rw [map_snd_zip hlength.ge]
  have hmem : ∀ source ∈ (ids.zip snapshot.sources).map (fun p => defineSource p.1 p.2),
      source.id ∈ ids ∧ ∃ user ∈ snapshot.sources, source.filter = user.filter := by
    intro source hsource
    obtain ⟨⟨id, user⟩, hpair, rfl⟩ := mem_map.mp hsource
    exact ⟨(of_mem_zip hpair).1, user, (of_mem_zip hpair).2, rfl⟩
  refine ⟨?_, fun hmode => ?_, ?_, fun source hsource => hissued _ (hmem source hsource).1,
    fun source hsource => ?_, hhash _ _⟩
  · change (((ids.zip snapshot.sources).map fun p => defineSource p.1 p.2)).length ≤ maxSources
    rw [length_map, length_zip, hlength, Nat.min_self]
    exact hsources.count
  · exact hactive ▸ hsources.single hmode
  · exact hids.symm ▸ hnodup
  · obtain ⟨-, user, huser, hfilter⟩ := hmem source hsource
    rw [hfilter]
    exact hsources.filters user huser

/-- Every configuration that the registry prepares from accepted sources is admitted, and it
gives out the identifiers of the binding itself. -/
theorem admitted_of_prepare (hstate : IssuedState state)
    (hsources : AcceptedSources snapshot.mode snapshot.sources) {entropy : Entropy}
    {prepared : PreparedSourceConfig}
    (h : prepareWithPreferredIds hash state snapshot entropy preferred = .ok prepared) :
    Admitted prepared.sourceConfig ∧ IssuedEntries prepared.binding.entries := by
  have hbinding {binding : RegistryBinding} (hmatches : bindingMatches hash snapshot binding = true)
      (hentries : IssuedEntries binding.entries) :
      Admitted (sourceConfigFromBinding hash snapshot binding) := by
    have hlength : (binding.entries.map sourceId).length = snapshot.sources.length := by
      rw [length_map, bindingMatches_length hmatches]
    have hzip : (binding.entries.zip snapshot.sources).map
        (fun p => defineSource p.1.sourceId p.2) =
        ((binding.entries.map sourceId).zip snapshot.sources).map
          fun p => defineSource p.1 p.2 := by
      rw [zip_map_left, map_map]
      rfl
    rw [sourceConfigFromBinding, hzip]
    refine admitted_sourceConfigOf hhash hlength hentries.nodup (fun id hid => ?_) hsources
    obtain ⟨entry, hentry, rfl⟩ := mem_map.mp hid
    exact hentries.issued entry hentry
  unfold prepareWithPreferredIds at h
  by_cases hpreferred : preferred ≠ [] ∧ preferred.length ≠ snapshot.sources.length
  · rw [if_pos hpreferred] at h
    cases h
  rw [if_neg hpreferred] at h
  split at h
  next binding hactive =>
    cases h
    obtain ⟨hactive, hmatches⟩ := Option.filter_eq_some_iff.mp hactive
    exact ⟨hbinding hmatches (hstate.1 binding hactive), hstate.1 binding hactive⟩
  · split at h
    next binding hpending =>
      cases h
      obtain ⟨hpending, hmatches⟩ := Option.filter_eq_some_iff.mp hpending
      exact ⟨hbinding hmatches (hstate.2 binding hpending), hstate.2 binding hpending⟩
    · refine ⟨?_, issued_of_bindFresh hstate.previous h⟩
      simp only [bindFresh, bind_eq_ok] at h
      obtain ⟨ids, hids, hprepared⟩ := h
      cases hprepared
      exact admitted_sourceConfigOf hhash (assignIds_length hids)
        (assignIds_nodup hstate.previous.nodup (Assignment.sound_start _ _) hids).1
        (assignIds_issued hstate.previous.issued hids) hsources

/-- Whatever the registry was through, the next configuration that is accepted is admitted. -/
theorem admitted_of_reached {texts : Set String} (hreached : Reached hash texts state)
    (hsources : AcceptedSources snapshot.mode snapshot.sources) {entropy : Entropy}
    {prepared : PreparedSourceConfig}
    (h : prepareWithPreferredIds hash state snapshot entropy preferred = .ok prepared) :
    Admitted prepared.sourceConfig := by
  have hstate : IssuedState state :=
    hreached.forall_bindings ⟨nodup_nil, nofun⟩ fun hprevious _ _ =>
      issued_of_bindFresh hprevious
  exact (admitted_of_prepare hhash hstate hsources h).1

end

/-- Texts as their own digests, and one digest for all sources. -/
def zeroHash : Hash where
  digest text := text
  sourceConfig _ _ := hex (Vector.replicate 32 0).toList

/-- The first source is kept, the second has a new address. -/
def sampleRenewed : ConfigSnapshot :=
  ⟨"c3", .merge, [⟨"B", true, "https://two.example", [], .auto, .generic, {}⟩,
    ⟨"A", true, "https://four.example", [], .auto, .generic, {}⟩]⟩

/-- A registry that has bound two sources and activated the binding. -/
def sampleActivated : RegistryState where
  active := some ⟨"c2", [⟨⟨"src_" ++ hex (replicate 16 1)⟩, "B", "https://two.example"⟩,
    ⟨⟨"src_" ++ hex (replicate 16 2)⟩, "A", "https://three.example"⟩]⟩

theorem sampleActivated_reached : Reached zeroHash sampleMoved.texts sampleActivated := by
  have hsnapshot : sampleMoved.Accepted := by
    refine ⟨by decide, ?_⟩
    unfold UniqueBut
    decide
  have hactivated (first : PreparedSourceConfig) (hfirst : prepareWithPreferredIds zeroHash {}
      sampleMoved [some (.replicate 16 1), some (.replicate 16 2)] [] = .ok first)
      (hwritten : first.written = some { pending := some first.binding })
      (hactivate : first.activate = true) :
      Reached zeroHash sampleMoved.texts { active := some first.binding } := by
    have hactive : activate { pending := some first.binding } first =
        .ok (first.sourceConfig, some { active := some first.binding }) := by
      rw [activate, if_pos hactivate, ensure, if_pos (decide_eq_true rfl)]
      rfl
    exact .activate (.prepare .empty hsnapshot subset_rfl hfirst hwritten) hactive
  exact hactivated _ rfl rfl rfl

theorem sampleRenewed_admitted : ∃ prepared,
    prepareWithPreferredIds zeroHash sampleActivated sampleRenewed [] [] = .ok prepared ∧
      Admitted prepared.sourceConfig := by
  have hsources : AcceptedSources sampleRenewed.mode sampleRenewed.sources := by
    refine ⟨by decide, fun source hsource => ?_, nofun⟩
    rcases mem_cons.mp hsource with rfl | hsource
    · rfl
    · rw [mem_singleton.mp hsource]
      rfl
  obtain ⟨prepared, hprepared⟩ : ∃ prepared, prepareWithPreferredIds zeroHash sampleActivated
      sampleRenewed [] [] = .ok prepared := ⟨_, rfl⟩
  exact ⟨prepared, hprepared,
    admitted_of_reached (fun _ _ => ⟨_, rfl⟩) sampleActivated_reached hsources hprepared⟩

/-! ## The filter of the manual source -/

variable {config : SourceConfig} {manual : Option ManualSource} {shop : Workshop}
  {ids : List String}

theorem newFilterWithNodeIds_only : (∃ filter, newFilterWithNodeIds [] [] ids [] = .ok filter) ↔
      ids.length ≤ maxFilterRules ∧ (∀ id ∈ ids, validNodeId id = true) ∧ ids.Nodup := by
  simp only [newFilterWithNodeIds, newFilter, bind_eq_ok, ensure_eq_ok, decide_eq_true_eq,
    all_eq_true]
  constructor
  · rintro ⟨_, _, -, -, ⟨hlength, hvalid⟩, -, hnodup, -⟩
    exact ⟨hlength, hvalid, hnodup⟩
  · rintro ⟨hlength, hvalid, hnodup⟩
    refine ⟨_, _, ⟨(), ⟨Nat.zero_le _, ?_, Nat.zero_le _⟩, (), ?_, rfl⟩, (), ⟨hlength, hvalid⟩, (),
      hnodup, rfl⟩
    · exact fun pattern hpattern => absurd hpattern not_mem_nil
    · exact ⟨nodup_nil, nodup_nil, nodup_nil⟩

variable {filter : NodeFilter}

theorem ValidFilter.excluded (h : ValidFilter filter) :
    ∀ id ∈ filter.excludedNodeIds, validNodeId id = true := by
  unfold ValidFilter at h
  simp only [newFilterWithNodeIds, bind_eq_ok, ensure_eq_ok, decide_eq_true_eq, all_eq_true] at h
  obtain ⟨-, -, -, ⟨-, hvalid⟩, -⟩ := h
  exact hvalid

/-- The filter of the manual source can be made when the sources exclude few enough nodes. -/
theorem exists_manualFilter_iff (h : Admitted config) :
    (∃ filter, manualFilter config = .ok filter) ↔
      (excludedNodes config).dedup.length ≤ maxFilterRules := by
  have hperm : ((sorted (excludedNodes config)).dedup).Perm (excludedNodes config).dedup :=
    (perm_insertionSort _ _).dedup
  have hvalid : ∀ id ∈ (sorted (excludedNodes config)).dedup, validNodeId id = true := by
    intro id hid
    obtain ⟨source, hsource, hid⟩ :=
      mem_flatMap.mp ((mem_insertionSort _).mp (List.mem_dedup.mp hid))
    exact (h.filters source hsource).excluded id hid
  simp only [manualFilter, mapError_eq_ok, newFilterWithNodeIds_only, hperm.length_eq]
  exact ⟨fun h => h.1, fun h => ⟨h, hvalid, nodup_dedup _⟩⟩

/-! ## The sources of a candidate -/

theorem activeIds_nodup (h : Admitted config) : (activeIds config).Nodup := by
  have hids : ((activeSources config).map SourceDefinition.id).Nodup :=
    h.nodup.sublist (filter_sublist.map _)
  have hinjective : Function.Injective SourceId.value := by
    rintro ⟨a⟩ ⟨b⟩ hab
    exact congrArg SourceId.mk hab
  have hmap : activeIds config =
      ((activeSources config).map SourceDefinition.id).map SourceId.value := by
    rw [map_map]
    rfl
  rw [hmap]
  exact hids.map hinjective

theorem issued_of_mem_activeIds (h : Admitted config) {id : String} (hid : id ∈ activeIds config) :
    validSourceId id = true ∧ id ≠ manualSourceId.value := by
  obtain ⟨source, hsource, rfl⟩ := mem_map.mp hid
  obtain ⟨⟨bytes, hbytes⟩, hmanual⟩ := h.issued source (mem_of_mem_filter hsource)
  refine ⟨?_, fun heq => hmanual ?_⟩
  · rw [hbytes]
    exact validSourceId_hex bytes
  · rcases hid : source.id with ⟨value⟩
    rw [hid] at heq
    exact congrArg SourceId.mk heq

/-- The sources of an admitted configuration, with the manual source, satisfy every check but
that of their number. -/
theorem fits_poolIds (h : Admitted config) (hactive : activeIds config ≠ [])
    (hle : (poolIds config manual).length ≤ maxSources) :
    Fits (poolMode config manual) (poolIds config manual) := by
  cases manual with
  | none =>
    have hpool : poolIds config none = activeIds config := append_nil _
    rw [hpool] at hle ⊢
    refine ⟨hactive, hle, activeIds_nodup h, fun hmode => ?_,
      fun id hid => (issued_of_mem_activeIds h hid).1⟩
    have hone : (activeIds config).length ≤ 1 := by
      rw [activeIds, length_map]
      exact h.single hmode
    have hpos := length_pos_iff.mpr hactive
    omega
  | some manual =>
    refine ⟨append_ne_nil_of_left_ne_nil hactive _, hle, ?_, nofun, fun id hid => ?_⟩
    · refine nodup_append.mpr ⟨activeIds_nodup h, nodup_singleton _, ?_⟩
      rintro a ha b hb rfl
      exact (issued_of_mem_activeIds h ha).2 (mem_singleton.mp hb)
    · rcases mem_append.mp hid with hid | hid
      · exact (issued_of_mem_activeIds h hid).1
      · exact mem_singleton.mp hid ▸ validSourceId_hex (.replicate 16 0)

theorem isDigest_effective (shop : Workshop) (manual : Option ManualSource) (h : Admitted config) :
    IsDigest (shop.effectiveSourceDigest config manual) := by
  cases manual with
  | none => exact h.digest
  | some manual => exact ⟨shop.lib.sha256 _, rfl⟩

theorem exists_bindSources (candidate : Candidate shop.sha256Hex) {digest : String}
    {mode : Wire.SubscriptionMode} (hdigest : IsDigest digest)
    (hfits : Fits mode ids) : ∃ bound, candidate.bindSources digest ids = .ok bound := by
  obtain ⟨bytes, rfl⟩ := hdigest
  obtain ⟨hlower, hsize⟩ := hex_spec bytes.toList
  have hlength : bytes.toList.length = 32 := bytes.size_toArray
  have hvalid : ((hex bytes.toList).utf8ByteSize == 64 &&
      (hex bytes.toList).toList.all isLowerHex) = true := by
    rw [hsize, hlength, Bool.and_eq_true, all_eq_true]
    exact ⟨rfl, hlower⟩
  have hids : (!ids.isEmpty && decide (ids.length ≤ 16) && ids.all validSourceId) = true := by
    simp only [Bool.and_eq_true, Bool.not_eq_true', isEmpty_eq_false_iff, decide_eq_true_eq,
      all_eq_true]
    exact ⟨⟨hfits.ne_nil, hfits.length_le⟩, hfits.valid⟩
  unfold bindSources
  simp only [hvalid, hids]
  exact ⟨_, rfl⟩

/-! ## The limits together -/

/-- There is room for the manual source beside the active sources, and in its filter for the
nodes that the sources exclude. -/
structure RoomFor (config : SourceConfig) (manual : Option ManualSource) : Prop where
  sources : (activeIds config).length + (if manual.isSome then 1 else 0) ≤ maxSources
  exclusions : manual.isSome → (excludedNodes config).dedup.length ≤ maxFilterRules

theorem length_poolIds (config : SourceConfig) (manual : Option ManualSource) :
    (poolIds config manual).length =
      (activeIds config).length + if manual.isSome then 1 else 0 := by
  unfold poolIds
  split_ifs <;> simp

variable {inputs : List FilteredSourceInput}

theorem exists_withManual_iff (h : Admitted config) :
    (∃ all, withManual config manual inputs = .ok all) ↔
      (manual.isSome → (excludedNodes config).dedup.length ≤ maxFilterRules) := by
  cases manual with
  | none => exact ⟨fun _ h => absurd h (by decide), fun _ => ⟨inputs, rfl⟩⟩
  | some manual =>
    simp only [withManual, manualInput, bind_eq_ok]
    rw [← exists_manualFilter_iff h]
    constructor
    · rintro ⟨_, _, ⟨filter, hfilter, -⟩, -⟩ -
      exact ⟨filter, hfilter⟩
    · intro hfilter
      obtain ⟨filter, hfilter⟩ := hfilter rfl
      exact ⟨_, _, ⟨filter, hfilter, rfl⟩, rfl⟩

theorem mem_poolIds_of_withManual {inputs all : List FilteredSourceInput}
    (hinputs : ∀ input ∈ inputs, input.source.sourceId ∈ activeIds config)
    (h : withManual config manual inputs = .ok all) :
    ∀ input ∈ all, input.source.sourceId ∈ poolIds config manual := by
  cases manual with
  | none =>
    cases h
    exact fun input hinput => mem_append_left _ (hinputs input hinput)
  | some manual =>
    simp only [withManual, manualInput, bind_eq_ok] at h
    obtain ⟨_, ⟨filter, -, hinput⟩, hall⟩ := h
    cases hinput
    cases hall
    intro input hinput
    rcases mem_append.mp hinput with hinput | hinput
    · exact mem_append_left _ (hinputs input hinput)
    · rw [mem_singleton.mp hinput]
      exact mem_append_right _ (mem_singleton_self _)

/-- A conversion that can be published as far as its nodes go: there are some, at most as many
as are allowed, and the composer accepts their profile. -/
structure Convertible (shop : Workshop) (config : SourceConfig) (manual : Option ManualSource)
    (conversion : StableConversion) : Prop where
  nodes_ne : conversion.nodes ≠ []
  nodes_le : conversion.nodes.length ≤ maxGenerationNodes
  composer : ComposerAccepts shop.sha256Hex conversion shop.settings (poolMode config manual)
    (poolIds config manual)

variable {conversion : StableConversion}

theorem length_le_of_buildBound {generation : GenerationId} {candidate : Candidate shop.sha256Hex}
    (h : shop.buildBound config manual generation conversion = .ok candidate) :
    (poolIds config manual).length ≤ maxSources := by
  simp only [Workshop.buildBound, buildCandidate, buildCandidatePools, validateInputs, bind_eq_ok,
    ensure_eq_ok, decide_eq_true_eq, mapError_eq_ok] at h
  obtain ⟨-, -, built, ⟨-, -, poolNodes, -, pools, ⟨-, ⟨-, ⟨-, hle, -⟩, -⟩, -⟩, -⟩, -⟩ := h
  exact hle

theorem exists_buildBound (generation : GenerationId)
    (hconfig : Admitted config) (hactive : activeIds config ≠ [])
    (hmax : 1 ≤ shop.settings.urltestMaxCandidates ∧
      shop.settings.urltestMaxCandidates ≤ maxAutoCandidates)
    (hstems : ∀ node ∈ conversion.nodes, StemsFrom (poolIds config manual) node)
    (hconversion : Convertible shop config manual conversion)
    (hle : (poolIds config manual).length ≤ maxSources) :
    ∃ candidate, shop.buildBound config manual generation conversion = .ok candidate := by
  have hfits := fits_poolIds hconfig hactive hle
  have hsuccess : conversion.sourceSuccess = true :=
    decide_eq_true (Nat.add_pos_left (length_pos_iff.mpr hconversion.nodes_ne) _)
  obtain ⟨built, hbuilt⟩ := exists_buildCandidate generation hfits hmax
    hconversion.nodes_ne hstems hconversion.composer
  obtain ⟨bound, hbound⟩ := exists_bindSources built (isDigest_effective shop manual hconfig) hfits
  refine ⟨bound, ?_⟩
  simp only [Workshop.buildBound, bind_eq_ok, ensure_eq_ok, decide_eq_true_eq, mapError_eq_ok]
  exact ⟨(), ⟨hsuccess, hconversion.nodes_ne⟩, built, hbuilt, hbound⟩

/-- From bodies that convert, a candidate is built and bound exactly when there is room for the
manual source. -/
theorem convertAndBuild_iff_roomFor (shop : Workshop) {config : SourceConfig}
    (hconfig : Admitted config) (hactive : activeIds config ≠ []) (manual : Option ManualSource)
    (hmax : 1 ≤ shop.settings.urltestMaxCandidates ∧
      shop.settings.urltestMaxCandidates ≤ maxAutoCandidates)
    (generation : GenerationId) {inputs : List FilteredSourceInput}
    (hinputs : ∀ input ∈ inputs, input.source.sourceId ∈ activeIds config)
    (hconversion : ∀ all, withManual config manual inputs = .ok all →
      Convertible shop config manual (convertFilteredSources shop.lib shop.matrix all)) :
    (∃ built, shop.convertAndBuild config manual generation inputs = .ok built) ↔
      RoomFor config manual := by
  constructor
  · rintro ⟨built, h⟩
    simp only [Workshop.convertAndBuild, bind_eq_ok] at h
    obtain ⟨all, hall, candidate, hcandidate, -⟩ := h
    have hle := length_le_of_buildBound hcandidate
    rw [length_poolIds] at hle
    exact ⟨hle, (exists_withManual_iff hconfig).mp ⟨all, hall⟩⟩
  · rintro ⟨hle, hexclusions⟩
    rw [← length_poolIds] at hle
    obtain ⟨all, hall⟩ := (exists_withManual_iff hconfig).mpr hexclusions
    have hstems : ∀ node ∈ (convertFilteredSources shop.lib shop.matrix all).nodes,
        StemsFrom (poolIds config manual) node :=
      convertFilteredSources_stemsFrom (mem_poolIds_of_withManual hinputs hall)
    obtain ⟨candidate, hcandidate⟩ :=
      exists_buildBound generation hconfig hactive hmax hstems (hconversion all hall) hle
    refine ⟨(convertFilteredSources shop.lib shop.matrix all, candidate), ?_⟩
    simp only [Workshop.convertAndBuild, bind_eq_ok]
    exact ⟨all, hall, candidate, hcandidate, rfl⟩

/-! ## Sixteen sources and a manual one -/

def sampleBytes (i : Nat) : Vector UInt8 16 := (Vector.replicate 16 0).set 15 (UInt8.ofNat (i + 1))

def sampleId (i : Nat) : SourceId := ⟨"src_" ++ hex (sampleBytes i).toList⟩

def sampleDefinition (i : Nat) : SourceDefinition where
  id := sampleId i
  name := toString i
  enabled := true
  url := "https://host/" ++ toString i
  mirrors := []
  expectedFormat := .uriList
  requestProfile := .generic
  filter := {}

def sampleConfig (count : Nat) : SourceConfig where
  sourceConfigDigest := hex (Vector.replicate 32 0).toList
  configDigest := ""
  mode := .merge
  sources := (List.range count).map sampleDefinition

def sampleShop : Workshop where
  lib :=
    { sha256 := fun _ => Vector.replicate 32 0
      uuids := Node.plainUuids
      readBody := fun _ _ =>
        ⟨[some ⟨0, .uriList, none,
          { Node.NodeSpec.minimal "vless" "host" 443 with
            uuid := some "b831381d-6324-4d53-ad4f-8cda48b30811" }⟩], 0⟩
      inferDisplayTerritory := fun _ => none }
  matrix := .default
  sha256Hex := fun _ => ""
  settings := ⟨64, fun _ => []⟩

def sampleManual : ManualSource := ⟨.uriList, [1]⟩

def sampleGeneration : GenerationId := .first

def sampleInputs : List FilteredSourceInput := [sourceInput (sampleDefinition 0) [1]]

theorem admitted_sampleConfig {count : Nat} (hcount : count ≤ 16)
    (hnodup : ((sampleConfig count).sources.map SourceDefinition.id).Nodup)
    (hmanual : ∀ i < count, sampleId i ≠ manualSourceId) : Admitted (sampleConfig count) where
  count := by
    change ((range count).map sampleDefinition).length ≤ maxSources
    rw [length_map, length_range]
    exact hcount
  single := nofun
  nodup := hnodup
  issued := fun source hsource => by
    obtain ⟨i, hi, rfl⟩ := mem_map.mp hsource
    exact ⟨⟨sampleBytes i, rfl⟩, hmanual i (mem_range.mp hi)⟩
  filters := fun source hsource => by
    obtain ⟨i, -, rfl⟩ := mem_map.mp hsource
    rfl
  digest := ⟨Vector.replicate 32 0, rfl⟩

theorem convertible_sample {count : Nat}
    (poolNodes : List CandidatePoolNode)
    (hone : (convertFilteredSources sampleShop.lib sampleShop.matrix inputs).nodes.length = 1)
    (hpool : (convertFilteredSources sampleShop.lib sampleShop.matrix inputs).nodes.mapM poolNode =
      .ok poolNodes)
    (hcompose : ((convertFilteredSources sampleShop.lib sampleShop.matrix inputs).nodes.mapM
      adaptTerminalOutbound).toOption.any (fun outbounds =>
        (composeCandidate sampleShop.sha256Hex sampleShop.settings outbounds
          (autoTagsOf (poolMode (sampleConfig count) manual) (poolIds (sampleConfig count) manual)
            poolNodes sampleShop.settings.urltestMaxCandidates)).toBool) = true) :
    Convertible sampleShop (sampleConfig count) manual
      (convertFilteredSources sampleShop.lib sampleShop.matrix inputs) where
  nodes_ne := length_pos_iff.mp (hone ▸ Nat.one_pos)
  nodes_le := hone ▸ by decide
  composer := by
    intro found hfound
    cases hpool.symm.trans hfound
    revert hcompose
    cases hadapted : (convertFilteredSources sampleShop.lib sampleShop.matrix inputs).nodes.mapM
        adaptTerminalOutbound with
    | error e => exact fun h => nomatch h
    | ok outbounds =>
      cases hconfig : composeCandidate sampleShop.sha256Hex sampleShop.settings outbounds
          (autoTagsOf (poolMode (sampleConfig count) manual)
            (poolIds (sampleConfig count) manual) poolNodes
            sampleShop.settings.urltestMaxCandidates) with
      | error e =>
        intro h
        rw [Except.toOption, Option.any_some, hconfig] at h
        cases h
      | ok config => exact fun _ => ⟨outbounds, config, rfl, hconfig⟩

def samplePoolNodes (sources : List String) (h : sources.Nodup ∧ sources ≠ [] ∧
    sources.length ≤ maxSources) : List CandidatePoolNode :=
  [⟨⟨"nh1s-0000000000000000", by decide +kernel⟩, ⟨sources, h.1, h.2.1, h.2.2⟩⟩]

theorem sampleSixteen_admitted : Admitted (sampleConfig 16) :=
  admitted_sampleConfig le_rfl (by decide +kernel) (by decide +kernel)

theorem sixteen_built :
    ∃ built, sampleShop.convertAndBuild (sampleConfig 16) none sampleGeneration sampleInputs =
      .ok built := by
  have hconvertible : ∀ all, withManual (sampleConfig 16) none sampleInputs = .ok all →
      Convertible sampleShop (sampleConfig 16) none
        (convertFilteredSources sampleShop.lib sampleShop.matrix all) := by
    intro all hall
    cases hall
    exact convertible_sample (samplePoolNodes [(sampleId 0).value] (by decide +kernel))
      (by decide +kernel) (by decide +kernel) (by decide +kernel)
  refine (convertAndBuild_iff_roomFor sampleShop sampleSixteen_admitted (by decide +kernel) none
    (by decide) sampleGeneration (by decide +kernel) hconvertible).mpr ⟨by decide +kernel, nofun⟩

/-- With a manual source beside them, every update fails. -/
theorem sixteen_and_manual_not_built :
    Admitted (sampleConfig 16) ∧ (activeIds (sampleConfig 16)).length = 16 ∧
      (∀ all, withManual (sampleConfig 16) (some sampleManual) sampleInputs = .ok all →
        Convertible sampleShop (sampleConfig 16) (some sampleManual)
          (convertFilteredSources sampleShop.lib sampleShop.matrix all)) ∧
      ∀ built, sampleShop.convertAndBuild (sampleConfig 16) (some sampleManual) sampleGeneration
        sampleInputs ≠ .ok built := by
  refine ⟨sampleSixteen_admitted, by decide +kernel, fun all hall => ?_, fun built hbuilt => ?_⟩
  · cases hall
    exact convertible_sample
      (samplePoolNodes [(sampleId 0).value, manualSourceId.value] (by decide +kernel))
      (by decide +kernel) (by decide +kernel) (by decide +kernel)
  · have hfails : (sampleShop.convertAndBuild (sampleConfig 16) (some sampleManual)
        sampleGeneration sampleInputs).toBool = false := by decide +kernel
    rw [hbuilt] at hfails
    cases hfails

/-! ## What the filter of the manual source rejects -/

def Excludes (lib : Library) (config : SourceConfig) (node : Node.ProxyNode) : Prop :=
  ∃ source ∈ config.sources, displayId (fingerprintNode lib node) ∈ source.filter.excludedNodeIds

theorem accepts_manualFilter (lib : Library)
    (h : manualFilter config = .ok filter) (node : Node.ProxyNode) :
    accepts lib filter node = false ↔ Excludes lib config node := by
  simp only [manualFilter, mapError_eq_ok, newFilterWithNodeIds, newFilter, bind_eq_ok] at h
  obtain ⟨_, ⟨-, -, -, -, hnames⟩, -, -, -, -, hfilter⟩ := h
  cases hnames
  cases hfilter
  have hmem (id : String) : id ∈ sorted (sorted (excludedNodes config)).dedup ↔
      ∃ source ∈ config.sources, id ∈ source.filter.excludedNodeIds := by
    rw [sorted, mem_insertionSort, List.mem_dedup, sorted, mem_insertionSort, excludedNodes,
      mem_flatMap]
  rw [Excludes, ← hmem]
  simp [accepts, sorted]

/-- The filter of the manual source is made, and rejects the excluded nodes and no others, exactly
when the sources together exclude no more nodes than one source may. -/
theorem manualFilter_rejects_excluded_iff (lib : Library) (h : Admitted config) :
    (∃ filter, manualFilter config = .ok filter ∧
      ∀ node, accepts lib filter node = false ↔ Excludes lib config node) ↔
      (excludedNodes config).dedup.length ≤ maxFilterRules := by
  rw [← exists_manualFilter_iff h]
  constructor
  · rintro ⟨filter, hfilter, -⟩
    exact ⟨filter, hfilter⟩
  · rintro ⟨filter, hfilter⟩
    exact ⟨filter, hfilter, accepts_manualFilter lib hfilter⟩

/-- Two sources that exclude a number of nodes each. -/
def excludingConfig (count : Nat) : SourceConfig :=
  { sampleConfig 2 with
    sources := (List.range 2).map fun i =>
      { sampleDefinition i with
        filter :=
          { excludedNodeIds := (List.range count).map fun j =>
              displayId (Vector.replicate 32 (UInt8.ofNat (count * i + j))) } } }

theorem admitted_excludingConfig {count : Nat}
    (h : ∀ source ∈ (excludingConfig count).sources, ValidFilter source.filter) :
    Admitted (excludingConfig count) := by
  refine ⟨?_, nofun, ?_, fun source hsource => ?_, h, ⟨Vector.replicate 32 0, rfl⟩⟩
  · change 2 ≤ maxSources
    decide
  · change ([sampleId 0, sampleId 1]).Nodup
    decide +kernel
  · obtain ⟨i, hi, rfl⟩ := mem_map.mp hsource
    have hmanual : ∀ i < 2, sampleId i ≠ manualSourceId := by decide +kernel
    exact ⟨⟨sampleBytes i, rfl⟩, hmanual i (mem_range.mp hi)⟩

theorem excludingConfig_rejects : ∃ filter, manualFilter (excludingConfig 16) = .ok filter ∧
      ∀ node, accepts sampleShop.lib filter node = false ↔
        Excludes sampleShop.lib (excludingConfig 16) node := by
  have hadmitted : Admitted (excludingConfig 16) := by
    refine admitted_excludingConfig ?_
    unfold ValidFilter
    decide +kernel
  exact (manualFilter_rejects_excluded_iff sampleShop.lib hadmitted).mpr (by decide +kernel)

theorem excludingConfig_no_manualFilter :
    Admitted (excludingConfig 17) ∧ manualFilter (excludingConfig 17) = .error .conversion := by
  refine ⟨admitted_excludingConfig ?_, by decide +kernel⟩
  unfold ValidFilter
  decide +kernel

end NetHop.SourceUpdate
