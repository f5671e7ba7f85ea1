import NetHop.Build.Candidate
import NetHop.Build.Dedupe
import Mathlib.Data.List.Dedup

/-!
# The sources of a kept node

A kept node refers to the sources of its duplicates as far as the cap on references and the
cap on attributions allow.
-/

namespace NetHop.Build

open Node
open List hiding Vector

variable (lib : Library) (batches : List SourceBatch)

/-- Every source that has a kept node is among its references and in its attribution. -/
def Complete : Prop :=
  ∀ kept ∈ (dedupeSources lib batches).1, ∀ batch ∈ batches,
    kept.fingerprint ∈ batch.nodes.map (fingerprintNode lib) →
      batch.sourceId ∈ kept.sourceRefs.map SourceRef.sourceId ∧
        ∃ attribution, attributionOf kept = .ok attribution ∧
          batch.sourceId ∈ attribution.sourceIds

/-- The sources of the references to a fingerprint, in the order they are met, up to the cap. -/
def firstSources (fingerprint : Vector UInt8 32) : List String :=
  (((occurrences lib fingerprint (batches.flatMap (·.nodes))).flatMap
    (·.inner.sourceRefs)).eraseDups.take maxSourceRefs).map SourceRef.sourceId

theorem exists_attributionOf_iff {kept : DedupedNode} {id : String} :
    (∃ attribution, attributionOf kept = .ok attribution ∧ id ∈ attribution.sourceIds) ↔
      id ∈ kept.sourceRefs.map SourceRef.sourceId ∧
        (kept.sourceRefs.map SourceRef.sourceId).dedup.length ≤ maxSources := by
  unfold attributionOf
  simp only [mapError_eq_ok]
  constructor
  · rintro ⟨attribution, hnew, hid⟩
    have hmem := NodeAttribution.mem_of_new hnew
    have hsub := subperm_of_subset (nodup_dedup _) fun x hx => (hmem x).mpr (List.mem_dedup.mp hx)
    exact ⟨(hmem id).mp hid, hsub.length_le.trans attribution.length_le⟩
  · rintro ⟨hid, hle⟩
    obtain ⟨attribution, hnew⟩ :=
      NodeAttribution.exists_new (ne_nil_of_mem hid) (fun _ => List.mem_dedup.mpr) hle
    exact ⟨attribution, hnew, (NodeAttribution.mem_of_new hnew id).mpr hid⟩

/-- Attribution is complete exactly when every source of a fingerprint has one of the
references before the cap and those name no more sources than an attribution may have. -/
theorem complete_iff_firstSources : Complete lib batches ↔
    ∀ batch ∈ batches, ∀ node ∈ batch.nodes,
      batch.sourceId ∈ firstSources lib batches (fingerprintNode lib node) ∧
        (firstSources lib batches (fingerprintNode lib node)).dedup.length ≤ maxSources := by
  have hcollects := collects_dedupeSources lib batches
  have hrefs : ∀ kept ∈ (dedupeSources lib batches).1,
      kept.sourceRefs.map SourceRef.sourceId = firstSources lib batches kept.fingerprint :=
    fun kept hkept => congrArg (map SourceRef.sourceId) (hcollects.stands kept hkept).refs
  constructor
  · intro h batch hbatch node hnode
    have hseen := mem_map_of_mem (f := fingerprintNode lib) (mem_flatMap_of_mem hbatch hnode)
    obtain ⟨kept, hkept, hsame⟩ := mem_map.mp ((hcollects.mem _).mpr hseen)
    have hattributed := h kept hkept batch hbatch (hsame ▸ mem_map_of_mem hnode)
    rw [← hsame, ← hrefs kept hkept]
    exact exists_attributionOf_iff.mp hattributed.2
  · intro h kept hkept batch hbatch hmem
    obtain ⟨node, hnode, hsame⟩ := mem_map.mp hmem
    have hfirst := h batch hbatch node hnode
    rw [hsame, ← hrefs kept hkept] at hfirst
    exact ⟨hfirst.1, exists_attributionOf_iff.mpr hfirst⟩

def crowdedBatch (id : String) (count : Nat) : SourceBatch :=
  ⟨id, (range count).map fun i => { sampleProxy id with
    inner.sourceRefs := [⟨id, .ofNat i, .uriList, none⟩] }, 0, 0⟩

/-- After 64 nodes of one source the reference of another one has no room. -/
theorem crowded_not_complete :
    ¬ Complete sampleLibrary [crowdedBatch "a" 64, crowdedBatch "b" 1] := by
  have hmissing : ∃ kept ∈ (dedupeSources sampleLibrary
      [crowdedBatch "a" 64, crowdedBatch "b" 1]).1,
      kept.fingerprint ∈ (crowdedBatch "b" 1).nodes.map (fingerprintNode sampleLibrary) ∧
        "b" ∉ kept.sourceRefs.map SourceRef.sourceId := by
    decide +kernel
  obtain ⟨kept, hkept, hfound, hb⟩ := hmissing
  exact fun h => hb (h kept hkept (crowdedBatch "b" 1) (by simp) hfound).1

end NetHop.Build
