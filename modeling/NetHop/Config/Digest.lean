import NetHop.Config.Registry
import NetHop.Fields
import NetHop.Node.Spec

/-!
# The digest of the sources

The sources are written out with every text behind its length and every list behind the
number of its entries, addresses only as their digests.  The digest of these bytes tells
configurations apart that differ in more than the names of their sources.
-/

namespace NetHop.Config

open Framing Node List SourceDefinition

/-- `format_code` of the parser's hint; 5 is a format no configuration asks for. -/
def formatCode : Wire.SubscriptionFormatHint → UInt8
  | .auto => 0
  | .uriList => 1
  | .base64List => 2
  | .clashYaml => 3
  | .singboxJson => 4
  | .surfboardIni => 6

def profileCode : Wire.SubscriptionRequestProfile → UInt8
  | .generic => 0
  | .mihomo => 1
  | .clashStandard => 2
  | .surfboard => 3
  | .singBox => 4
  | .singBoxAndroid => 5

def protocolCode : ProxyProtocol → UInt8
  | .vless => 0
  | .vmess => 1
  | .shadowsocks => 2
  | .trojan => 3
  | .hysteria2 => 4
  | .tuic => 5
  | .anyTls => 6
  | .http => 7
  | .socks => 8

/-- The protocols of a filter, which are kept by their names. -/
def NodeFilter.kinds (filter : NodeFilter) : List ProxyProtocol :=
  filter.protocols.filterMap ProxyProtocol.fromStr

section

variable (sha256 : List UInt8 → String)

def pushField (t : String) : List UInt8 := frame (textBytes t)

/-- `push_field` of the digest of a text. -/
def pushDigest (t : String) : List UInt8 := pushField (sha256 (textBytes t))

def pushSource (s : SourceDefinition) : List UInt8 :=
  pushField s.id.value ++ (if s.enabled then 1 else 0) :: (pushDigest sha256 s.url ++
    formatCode s.expectedFormat :: profileCode s.requestProfile ::
    (counted (pushDigest sha256) s.mirrors ++ (counted pushField s.filter.includeNames ++
    (counted pushField s.filter.excludeNames ++ (counted pushField s.filter.excludedNodeIds ++
    counted (fun p => [protocolCode p]) s.filter.kinds)))))

def canonicalSources (mode : Wire.SubscriptionMode) (sources : List SourceDefinition) :
    List UInt8 :=
  textBytes "nethop-source-config-v3\x00" ++
    (match mode with
      | .single => 1
      | .merge => 2) :: sources.flatMap (pushSource sha256)

def sourceConfigDigest (mode : Wire.SubscriptionMode) (sources : List SourceDefinition) : String :=
  sha256 (canonicalSources sha256 mode sources)

end

/-- The texts and lists of a source can be counted in four bytes, and the digest is not asked
for texts outside `S`. -/
structure Digestible (S : Set (List UInt8)) (s : SourceDefinition) : Prop where
  id : s.id.value.utf8ByteSize < 2 ^ 32
  url : textBytes s.url ∈ S
  mirrors : Counts (fun t => textBytes t ∈ S) s.mirrors
  includeNames : Counts (·.utf8ByteSize < 2 ^ 32) s.filter.includeNames
  excludeNames : Counts (·.utf8ByteSize < 2 ^ 32) s.filter.excludeNames
  excludedNodeIds : Counts (·.utf8ByteSize < 2 ^ 32) s.filter.excludedNodeIds
  kinds : s.filter.kinds.length < 2 ^ 32
  protocols : s.filter.protocols = s.filter.kinds.map ProxyProtocol.asStr

def SourceDefinition.unnamed (s : SourceDefinition) : SourceDefinition := { s with name := "" }

variable {sha256 : List UInt8 → String} {S : Set (List UInt8)}

theorem pushField_delimited : Delimited pushField (·.utf8ByteSize < 2 ^ 32) := by
  intro t u r s ht hu h
  obtain ⟨hbytes, hrest⟩ := frame_append_inj (by simpa using ht) (by simpa using hu) h
  exact ⟨textBytes_inj hbytes, hrest⟩

theorem protocolCode_delimited : Delimited (fun p => [protocolCode p]) fun _ => True := by
  intro p q r s _ _ h
  obtain ⟨hcode, hrest⟩ := cons.inj h
  refine ⟨?_, hrest⟩
  cases p <;> cases q <;> first | rfl | cases hcode

section

variable (hsha : S.InjOn sha256) (hsize : ∀ bytes, (sha256 bytes).utf8ByteSize < 2 ^ 32)

include hsha hsize

theorem pushDigest_delimited : Delimited (pushDigest sha256) fun t => textBytes t ∈ S := by
  intro t u r s ht hu h
  obtain ⟨hdigest, hrest⟩ := pushField_delimited (hsize _) (hsize _) h
  exact ⟨textBytes_inj (hsha ht hu hdigest), hrest⟩

theorem pushSource_delimited :
    Delimited (pushSource sha256) fun s => ∃ t, Digestible S t ∧ t.unnamed = s := by
  rintro _ _ r r' ⟨⟨⟨id⟩, _, enabled, url, mirrors, format, profile, filter⟩, hs, rfl⟩
    ⟨⟨⟨id'⟩, _, enabled', url', mirrors', format', profile', filter'⟩, hs', rfl⟩ h
  have hdigest := pushDigest_delimited hsha hsize
  simp only [pushSource, unnamed, append_assoc, cons_append] at h
  obtain ⟨hid, h⟩ := pushField_delimited hs.id hs'.id h
  obtain ⟨henabled, h⟩ := cons.inj h
  obtain ⟨hurl, h⟩ := hdigest hs.url hs'.url h
  obtain ⟨hformat, h⟩ := cons.inj h
  obtain ⟨hprofile, h⟩ := cons.inj h
  obtain ⟨hmirrors, h⟩ := hdigest.counted_append_inj hs.mirrors hs'.mirrors h
  obtain ⟨hinclude, h⟩ := pushField_delimited.counted_append_inj hs.includeNames hs'.includeNames h
  obtain ⟨hexclude, h⟩ := pushField_delimited.counted_append_inj hs.excludeNames hs'.excludeNames h
  obtain ⟨hnodes, h⟩ :=
    pushField_delimited.counted_append_inj hs.excludedNodeIds hs'.excludedNodeIds h
  obtain ⟨hkinds, hrest⟩ := protocolCode_delimited.counted_append_inj
    ⟨hs.kinds, fun _ _ => trivial⟩ ⟨hs'.kinds, fun _ _ => trivial⟩ h
  have hprotocols := hs.protocols.trans ((congrArg _ hkinds).trans hs'.protocols.symm)
  cases filter
  simp_all only [unnamed, mk.injEq, true_and, and_true]
  refine ⟨?_, ?_, ?_⟩
  · cases enabled <;> cases enabled' <;> first | rfl | cases henabled
  · cases format <;> cases format' <;> first | rfl | cases hformat
  · cases profile <;> cases profile' <;> first | rfl | cases hprofile

end

/-- Equal digests are those of equal modes and of sources equal in all but their names. -/
theorem sourceConfigDigest_eq_iff (hsha : S.InjOn sha256)
    (hsize : ∀ bytes, (sha256 bytes).utf8ByteSize < 2 ^ 32) {mode mode' : Wire.SubscriptionMode}
    {sources sources' : List SourceDefinition} (h : ∀ s ∈ sources, Digestible S s)
    (h' : ∀ s ∈ sources', Digestible S s) (hin : canonicalSources sha256 mode sources ∈ S)
    (hin' : canonicalSources sha256 mode' sources' ∈ S) :
    sourceConfigDigest sha256 mode sources = sourceConfigDigest sha256 mode' sources' ↔
      mode = mode' ∧
        sources.map unnamed = sources'.map unnamed := by
  have hunnamed : ∀ l : List SourceDefinition, l.flatMap (pushSource sha256) =
      (l.map unnamed).flatMap (pushSource sha256) := fun l => by
    rw [flatMap_map]
    rfl
  constructor
  · intro heq
    obtain ⟨hmode, hsources⟩ := cons.inj (append_cancel_left (hsha hin hin' heq))
    rw [hunnamed sources, hunnamed sources'] at hsources
    refine ⟨?_, (pushSource_delimited hsha hsize).flatMap_inj ?_ ?_ ?_ hsources⟩
    · cases mode <;> cases mode' <;> first | rfl | cases hmode
    · intro s hs
      simp [pushSource] at hs
    · exact forall_mem_map.mpr fun s hs => ⟨s, h s hs, rfl⟩
    · exact forall_mem_map.mpr fun s hs => ⟨s, h' s hs, rfl⟩
  · rintro ⟨rfl, hsources⟩
    unfold sourceConfigDigest canonicalSources
    rw [hunnamed, hsources, ← hunnamed]

def sampleDefinition (name : String) : SourceDefinition :=
  ⟨⟨"src_1"⟩, name, true, "u", [], .auto, .generic, { protocols := ["tuic"] }⟩

def sampleSha (bytes : List UInt8) : String := if bytes.length < 9 then "a" else "b"

theorem sampleDefinition_renamed : sourceConfigDigest sampleSha .merge [sampleDefinition "A"] =
    sourceConfigDigest sampleSha .merge [sampleDefinition "B"] := by
  let S : Set (List UInt8) :=
    {textBytes "u", canonicalSources sampleSha .merge [sampleDefinition "A"]}
  have hsha : S.InjOn sampleSha := by
    rintro _ (rfl | rfl) _ (rfl | rfl) heq
    · rfl
    · exact absurd heq (by decide)
    · exact absurd heq (by decide)
    · rfl
  have hsize : ∀ bytes, (sampleSha bytes).utf8ByteSize < 2 ^ 32 := by
    intro bytes
    unfold sampleSha
    split <;> decide
  have hfits : ∀ name, Digestible S (sampleDefinition name) := by
    intro name
    refine ⟨?_, .inl rfl, ⟨?_, nofun⟩, ⟨?_, nofun⟩, ⟨?_, nofun⟩, ⟨?_, nofun⟩, ?_, rfl⟩
    all_goals
      dsimp only [sampleDefinition]
      decide
  have hin : canonicalSources sampleSha .merge [sampleDefinition "B"] ∈ S := .inr rfl
  exact (sourceConfigDigest_eq_iff hsha hsize (forall_mem_singleton.mpr (hfits _))
    (forall_mem_singleton.mpr (hfits _)) (.inr rfl) hin).mpr ⟨rfl, rfl⟩

end NetHop.Config
