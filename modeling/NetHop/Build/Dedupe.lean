import NetHop.Build.Convert

/-!
# No node is lost among its duplicates

`dedupe_sources` keeps one node for each fingerprint.  After every node of every batch the
list of kept nodes collects what has been seen: the first node of each fingerprint, with the
references of all nodes that share it.
-/

namespace NetHop.Build

open Node
open List hiding Vector

/-! ## Lists with keys -/

theorem modify_of_findIdx? {α κ : Type} [DecidableEq κ] [BEq κ] [LawfulBEq κ] {key : α → κ}
    {k : κ} {l : List α} {i : Nat} (hnodup : (l.map key).Nodup)
    (h : (l.findIdx? fun x => key x == k) = some i) (f : α → α) :
    l.modify i f = l.map fun x => if key x = k then f x else x := by
  induction l generalizing i with
  | nil => cases h
  | cons a l ih =>
    obtain ⟨hfresh, hnodup⟩ := nodup_cons.mp hnodup
    rw [findIdx?_cons] at h
    by_cases ha : key a = k
    · have hsame : (l.map fun x => if key x = k then f x else x) = l := by
        refine (map_congr_left fun x hx => if_neg ?_).trans (map_id l)
        exact fun hk => hfresh ((hk.trans ha.symm) ▸ mem_map_of_mem hx)
      simp only [ha, beq_self_eq_true, if_true, Option.some.injEq] at h
      subst h
      rw [modify_zero_cons, map_cons, if_pos ha, hsame]
    · simp only [ha, beq_iff_eq, if_false, Option.map_eq_some_iff] at h
      obtain ⟨j, hj, rfl⟩ := h
      rw [modify_succ_cons, map_cons, if_neg ha, ih hnodup hj]

/-- Merging references goes on with the distinct references in the order they are met, up to
the limit. -/
theorem mergeRefs_take (l refs : List SourceRef) :
    mergeRefs (l.eraseDups.take maxSourceRefs) refs = (l ++ refs).eraseDups.take maxSourceRefs := by
  induction refs generalizing l with
  | nil => rw [append_nil, mergeRefs]
  | cons r refs ih =>
    have hnext : (l ++ r :: refs) = (l ++ [r]) ++ refs := by simp
    unfold mergeRefs
    split_ifs with hfull hmem
    · rw [length_take, le_min_iff] at hfull
      rw [eraseDups_append, take_append_of_le_length hfull.2]
    · have hr : r ∈ l := mem_eraseDups.mp (mem_of_mem_take hmem)
      have hsame : (l ++ [r]).eraseDups = l.eraseDups := by
        simp [eraseDups_append, removeAll, hr]
      rw [hnext, ← ih, hsame]
    · have hroom : l.eraseDups.length < maxSourceRefs := by
        rw [length_take] at hfull
        omega
      have hall : l.eraseDups.take maxSourceRefs = l.eraseDups := take_of_length_le hroom.le
      have hr : r ∉ l := by simpa [hall] using hmem
      have hmore : (l ++ [r]).eraseDups = l.eraseDups ++ [r] := by
        simp [eraseDups_append, removeAll, hr, eraseDups_cons]
      have hlength : (l.eraseDups ++ [r]).length ≤ maxSourceRefs := by
        rw [length_append]
        exact hroom
      rw [hnext, ← ih, hall, hmore, take_of_length_le hlength]

/-! ## What the kept nodes are -/

def occurrences (lib : Library) (fingerprint : Vector UInt8 32) (seen : List ProxyNode) :
    List ProxyNode :=
  seen.filter fun node => fingerprintNode lib node == fingerprint

/-- A kept node is the first of its fingerprint and has the references of all. -/
structure StandsFor (lib : Library) (seen : List ProxyNode) (kept : DedupedNode) : Prop where
  first : (occurrences lib kept.fingerprint seen).head? = some kept.node
  refs : kept.sourceRefs =
    ((occurrences lib kept.fingerprint seen).flatMap (·.inner.sourceRefs)).eraseDups.take
      maxSourceRefs

/-- The kept nodes stand for the nodes that have been seen, and for nothing else. -/
structure Collects (lib : Library) (seen : List ProxyNode) (kept : List DedupedNode) : Prop where
  nodup : (kept.map (·.fingerprint)).Nodup
  mem : ∀ fingerprint, fingerprint ∈ kept.map (·.fingerprint) ↔
    fingerprint ∈ seen.map (fingerprintNode lib)
  stands : ∀ node ∈ kept, StandsFor lib seen node

variable {lib : Library} {seen : List ProxyNode} {kept : List DedupedNode} {node : ProxyNode}

theorem occurrences_snoc (fingerprint : Vector UInt8 32) :
    occurrences lib fingerprint (seen ++ [node]) = occurrences lib fingerprint seen ++
      if fingerprintNode lib node = fingerprint then [node] else [] := by
  simp only [occurrences, filter_append, filter_cons, filter_nil, beq_iff_eq]

theorem StandsFor.other {d : DedupedNode} (h : StandsFor lib seen d)
    (hne : fingerprintNode lib node ≠ d.fingerprint) : StandsFor lib (seen ++ [node]) d := by
  have hsame : occurrences lib d.fingerprint (seen ++ [node]) =
      occurrences lib d.fingerprint seen := by
    rw [occurrences_snoc, if_neg hne, append_nil]
  exact ⟨hsame ▸ h.first, hsame ▸ h.refs⟩

theorem StandsFor.absorb {d : DedupedNode} (h : StandsFor lib seen d)
    (heq : fingerprintNode lib node = d.fingerprint) :
    StandsFor lib (seen ++ [node]) (d.absorb node) := by
  have hmore : occurrences lib d.fingerprint (seen ++ [node]) =
      occurrences lib d.fingerprint seen ++ [node] := by
    rw [occurrences_snoc, if_pos heq]
  constructor
  · change (occurrences lib d.fingerprint (seen ++ [node])).head? = some d.node
    rw [hmore, head?_append, h.first]
    rfl
  · change mergeRefs d.sourceRefs node.inner.sourceRefs =
      ((occurrences lib d.fingerprint (seen ++ [node])).flatMap _).eraseDups.take _
    rw [hmore, flatMap_append, flatMap_singleton, ← mergeRefs_take, h.refs]

theorem standsFor_first (sourceOrder : Nat)
    (hfresh : fingerprintNode lib node ∉ seen.map (fingerprintNode lib)) :
    StandsFor lib (seen ++ [node]) (.first lib sourceOrder node) := by
  have hnone : occurrences lib (fingerprintNode lib node) seen = [] := by
    refine filter_eq_nil_iff.mpr fun other hother heq => hfresh ?_
    exact beq_iff_eq.mp heq ▸ mem_map_of_mem hother
  have hone : occurrences lib (fingerprintNode lib node) (seen ++ [node]) = [node] := by
    rw [occurrences_snoc, if_pos rfl, hnone, nil_append]
  constructor
  · change (occurrences lib (fingerprintNode lib node) (seen ++ [node])).head? = some node
    rw [hone]
    rfl
  · change mergeRefs [] node.inner.sourceRefs =
      ((occurrences lib (fingerprintNode lib node) (seen ++ [node])).flatMap _).eraseDups.take _
    rw [hone, flatMap_singleton]
    exact mergeRefs_take [] node.inner.sourceRefs

/-! ## One node, one batch, all batches -/

theorem dedupeNode_eq (hnodup : (kept.map (·.fingerprint)).Nodup) (sourceOrder : Nat) :
    dedupeNode lib sourceOrder kept node =
      if fingerprintNode lib node ∈ kept.map (·.fingerprint) then (true, kept.map fun d =>
          if d.fingerprint = fingerprintNode lib node then d.absorb node else d)
      else (false, kept ++ [DedupedNode.first lib sourceOrder node]) := by
  unfold dedupeNode
  split
  case h_1 index hindex =>
    obtain ⟨hlt, hkey, -⟩ := findIdx?_eq_some_iff_getElem.mp hindex
    have hmem : fingerprintNode lib node ∈ kept.map (·.fingerprint) :=
      beq_iff_eq.mp hkey ▸ mem_map_of_mem (getElem_mem hlt)
    rw [if_pos hmem, modify_of_findIdx? hnodup hindex]
  case h_2 hnone =>
    have hmem : fingerprintNode lib node ∉ kept.map (·.fingerprint) := by
      simpa [findIdx?_eq_none_iff] using hnone
    rw [if_neg hmem]

section

variable (h : Collects lib seen kept)

include h

theorem Collects.dedupeNode (sourceOrder : Nat) (node : ProxyNode) :
    Collects lib (seen ++ [node]) (dedupeNode lib sourceOrder kept node).2 := by
  rw [dedupeNode_eq h.nodup]
  split_ifs with hold
  · have hkeys : (kept.map fun d => if d.fingerprint = fingerprintNode lib node then
        d.absorb node else d).map (·.fingerprint) = kept.map (·.fingerprint) := by
      rw [map_map]
      refine map_congr_left fun d _ => ?_
      simp only [Function.comp_apply, apply_ite DedupedNode.fingerprint]
      exact ite_self _
    refine ⟨hkeys ▸ h.nodup, fun fingerprint => ?_, fun d hd => ?_⟩
    · rw [hkeys, h.mem, map_append, mem_append, map_singleton, mem_singleton, or_iff_left_of_imp]
      rintro rfl
      exact (h.mem _).mp hold
    · obtain ⟨d, hmem, rfl⟩ := mem_map.mp hd
      split_ifs with heq
      · exact (h.stands d hmem).absorb heq.symm
      · exact (h.stands d hmem).other (.symm heq)
  · refine ⟨?_, fun fingerprint => ?_, ?_⟩
    · rw [map_append, map_singleton, ← concat_eq_append]
      exact h.nodup.concat hold
    · rw [map_append, mem_append, h.mem, map_append, mem_append]
      rfl
    · rw [forall_mem_append, forall_mem_singleton]
      refine ⟨fun d hd => (h.stands d hd).other fun heq => hold ?_,
        standsFor_first sourceOrder (mt (h.mem _).mpr hold)⟩
      exact heq ▸ mem_map_of_mem hd

theorem Collects.dedupeNodes (sourceOrder : Nat) (rest : List ProxyNode) (outcome : SourceOutcome) :
    Collects lib (seen ++ rest) (dedupeNodes lib sourceOrder rest kept outcome).1 := by
  induction rest generalizing seen kept outcome with
  | nil => exact (append_nil seen).symm ▸ h
  | cons node rest ih =>
    rw [append_cons]
    exact ih (h.dedupeNode sourceOrder node) _

theorem Collects.dedupeBatches (sourceOrder : Nat)
    (batches : List SourceBatch) (outcomes : SortedMap String SourceOutcome) :
    Collects lib (seen ++ batches.flatMap (·.nodes))
      (dedupeBatches lib sourceOrder batches kept outcomes).1 := by
  induction batches generalizing seen kept sourceOrder outcomes with
  | nil => exact (append_nil seen).symm ▸ h
  | cons batch batches ih =>
    rw [flatMap_cons, ← append_assoc]
    exact ih (h.dedupeNodes sourceOrder batch.nodes _) _ _

theorem Collects.sorted : Collects lib seen ((kept.map fun node => { node with
      displayTerritoryCode := lib.inferDisplayTerritory node.aliases }).insertionSort
        fun a b => a.comesBefore b = true) := by
  have hperm := perm_insertionSort (fun a b : DedupedNode => a.comesBefore b = true)
    (kept.map fun node => { node with
      displayTerritoryCode := lib.inferDisplayTerritory node.aliases })
  have hkeys := hperm.map (·.fingerprint)
  rw [map_map] at hkeys
  refine ⟨hkeys.nodup_iff.mpr h.nodup, fun fingerprint => hkeys.mem_iff.trans (h.mem _), ?_⟩
  intro node hnode
  obtain ⟨found, hfound, rfl⟩ := mem_map.mp (hperm.mem_iff.mp hnode)
  exact ⟨(h.stands found hfound).first, (h.stands found hfound).refs⟩

end

/-! ## What is counted -/

theorem dedupeNodes_counts (h : Collects lib seen kept) (sourceOrder : Nat)
    (rest : List ProxyNode) (outcome : SourceOutcome) :
    let result := dedupeNodes lib sourceOrder rest kept outcome
    result.2.accepted + kept.length = outcome.accepted + result.1.length ∧
      result.2.accepted + result.2.duplicate =
        outcome.accepted + outcome.duplicate + rest.length := by
  induction rest generalizing seen kept outcome with
  | nil => exact ⟨rfl, rfl⟩
  | cons node rest ih =>
    by_cases hold : fingerprintNode lib node ∈ kept.map (·.fingerprint)
    · have hcount := ih (h.dedupeNode sourceOrder node)
        { outcome with duplicate := outcome.duplicate + 1 }
      simp only [dedupeNodes, dedupeNode_eq h.nodup, hold, if_true, length_map,
        length_cons] at hcount ⊢
      omega
    · have hcount := ih (h.dedupeNode sourceOrder node)
        { outcome with accepted := outcome.accepted + 1 }
      simp only [dedupeNodes, dedupeNode_eq h.nodup, hold, if_false, Bool.false_eq_true,
        length_append, length_cons, length_nil] at hcount ⊢
      omega

variable {batches : List SourceBatch}

theorem dedupeBatches_get? {sourceId : String} (h : sourceId ∉ batches.map (·.sourceId))
    (sourceOrder : Nat) (kept : List DedupedNode) (outcomes : SortedMap String SourceOutcome) :
    (dedupeBatches lib sourceOrder batches kept outcomes).2.get? sourceId =
      outcomes.get? sourceId := by
  induction batches generalizing sourceOrder kept outcomes with
  | nil => rfl
  | cons batch batches ih =>
    obtain ⟨hne, hrest⟩ := not_or.mp (mt mem_cons.mpr h)
    refine (ih hrest _ _ _).trans ?_
    rw [SortedMap.get?_insert, if_neg hne]

def CountedIn (outcomes : SortedMap String SourceOutcome) (batch : SourceBatch)
    (outcome : SourceOutcome) : Prop :=
  outcomes.get? batch.sourceId = some outcome ∧
    outcome.accepted + outcome.duplicate = batch.nodes.length

theorem dedupeBatches_counts (hkept : Collects lib seen kept) (h : (batches.map (·.sourceId)).Nodup)
    (sourceOrder : Nat) (outcomes : SortedMap String SourceOutcome) :
    let result := dedupeBatches lib sourceOrder batches kept outcomes
    ∃ counted, List.Forall₂ (CountedIn result.2) batches counted ∧
      kept.length + (counted.map (·.accepted)).sum = result.1.length := by
  induction batches generalizing seen kept sourceOrder outcomes with
  | nil => exact ⟨[], .nil, rfl⟩
  | cons batch batches ih =>
    obtain ⟨hfresh, hnodup⟩ := nodup_cons.mp h
    obtain ⟨haccepted, hnodes⟩ := dedupeNodes_counts hkept sourceOrder batch.nodes
      ⟨0, 0, batch.rejected, batch.warnings⟩
    obtain ⟨counted, hcounted, hsum⟩ := ih (hkept.dedupeNodes sourceOrder batch.nodes
      ⟨0, 0, batch.rejected, batch.warnings⟩) hnodup (sourceOrder + 1) _
    refine ⟨_ :: counted, .cons ⟨?_, hnodes.trans (Nat.zero_add _)⟩ hcounted, ?_⟩
    · refine (dedupeBatches_get? hfresh _ _ _).trans ?_
      rw [SortedMap.get?_insert, if_pos rfl]
    · refine .trans ?_ hsum
      simp only [map_cons, sum_cons] at haccepted ⊢
      omega

theorem collects_nil (lib : Library) : Collects lib [] [] := ⟨nodup_nil, fun _ => .rfl, by simp⟩

theorem collects_dedupeSources (lib : Library) (batches : List SourceBatch) :
    Collects lib (batches.flatMap (·.nodes)) (dedupeSources lib batches).1 :=
  ((collects_nil lib).dedupeBatches 0 batches .empty).sorted

/-- Deduplication conserves nodes: what it keeps collects the nodes of all batches, in
their order, and the outcomes of the sources count them. -/
theorem dedupeSources_conserves (lib : Library) {batches : List SourceBatch}
    (h : (batches.map (·.sourceId)).Nodup) : let result := dedupeSources lib batches
    Collects lib (batches.flatMap (·.nodes)) result.1 ∧
      ∃ counted, List.Forall₂ (CountedIn result.2) batches counted ∧
        (counted.map (·.accepted)).sum = result.1.length := by
  refine ⟨collects_dedupeSources lib batches, ?_⟩
  obtain ⟨counted, hcounted, hsum⟩ := dedupeBatches_counts (collects_nil lib) h 0 .empty
  refine ⟨counted, hcounted, ?_⟩
  rw [← Nat.zero_add (sum _)]
  refine hsum.trans ?_
  simp [dedupeSources]

def sampleProxy (sourceId : String) : ProxyNode where
  nodeId := ⟨"socks-1080", by decide, by decide, by decide⟩
  inner :=
    { displayName := ⟨"proxy", by decide, by decide, by decide⟩
      protocol := .socks
      endpoint := ⟨"host", 1080, by decide, by decide⟩
      credentials := .socks none none
      tls := ⟨false, none, false, [], none, none⟩
      transport := .tcp
      protocolOptions := .none
      capabilities := ⟨true, false, false, false, false⟩
      sourceRefs := [⟨sourceId, 0, .uriList, none⟩] }

def sampleBatches : List SourceBatch :=
  [⟨"a", [sampleProxy "a"], 0, 0⟩, ⟨"b", [sampleProxy "b"], 1, 0⟩]

def sampleLibrary : Library :=
  ⟨fun _ => Vector.replicate 32 0, plainUuids, fun _ _ => ⟨[], 0⟩, fun _ => none⟩

theorem sampleBatches_conserved : Collects sampleLibrary [sampleProxy "a", sampleProxy "b"]
      (dedupeSources sampleLibrary sampleBatches).1 ∧
    (dedupeSources sampleLibrary sampleBatches).1.length = 1 :=
  ⟨(@dedupeSources_conserves sampleLibrary sampleBatches (by decide)).1, rfl⟩

end NetHop.Build
