import Mathlib.Data.List.InsertIdx
import Mathlib.Data.List.Perm.Basic
import NetHop.Config.Document
import NetHop.Config.Identity

/-!
# Mutations keep sources and identifiers aligned

What a mutation does to the sources of a document, it does to the list of identifiers:
position by position the list names the source that stands there.  The registry, told
these identifiers, gives every source that was there its own again.
-/

namespace NetHop.Config

open Json Wire List RegistryEntry

variable {document : Json} {list list' : List Json} {mutation : ConfigMutation}
  {kept : List (Option SourceId)}

/-! ## Moving in a list -/

section

variable {α : Type} {l l' : List α} {start target : Nat}

/-- One element of the list is taken out and put elsewhere; the others keep their order. -/
def Moved (l l' : List α) (start target : Nat) : Prop :=
  target < l.length ∧ ∃ a, l[start]? = some a ∧
    l' = (l.eraseIdx start).take target ++ a :: (l.eraseIdx start).drop target

theorem insertIdx_eq_append {a : α} (h : target ≤ l.length) :
    l.insertIdx target a = l.take target ++ a :: l.drop target := by
  induction target generalizing l with
  | zero => rfl
  | succ target ih =>
    cases l with
    | nil => cases h
    | cons b l =>
      rw [length_cons] at h
      rw [insertIdx_succ_cons, ih (by omega)]
      rfl

theorem moveTo_moved (hstart : start < l.length) (htarget : target < l.length) :
    Moved l (moveTo start target l) start target := by
  have hget : l[start]? = some l[start] := getElem?_eq_getElem hstart
  have hlength := length_eraseIdx_of_lt hstart
  refine ⟨htarget, l[start], hget, ?_⟩
  unfold moveTo
  rw [hget]
  exact insertIdx_eq_append (by omega)

theorem Moved.perm (h : Moved l l' start target) : l'.Perm l := by
  obtain ⟨-, a, ha, rfl⟩ := h
  obtain ⟨hlt, rfl⟩ := List.getElem?_eq_some_iff.mp ha
  calc (l.eraseIdx start).take target ++ l[start] :: (l.eraseIdx start).drop target
      |>.Perm (l[start] :: ((l.eraseIdx start).take target ++ (l.eraseIdx start).drop target)) :=
        perm_middle
    _ = l[start] :: l.eraseIdx start := by rw [take_append_drop]
    _ |>.Perm l := getElem_cons_eraseIdx_perm hlt

theorem Moved.getElem?_target (h : Moved l l' start target) : l'[target]? = l[start]? := by
  obtain ⟨htarget, a, ha, rfl⟩ := h
  obtain ⟨hlt, rfl⟩ := List.getElem?_eq_some_iff.mp ha
  have hlength := length_eraseIdx_of_lt hlt
  have htake : ((l.eraseIdx start).take target).length = target := by
    rw [length_take]
    omega
  rw [getElem?_append_right (by omega), htake, Nat.sub_self, ha]
  rfl

theorem Moved.eq_self (h : Moved l l' start start) : l' = l := by
  obtain ⟨htarget, a, ha, rfl⟩ := h
  obtain ⟨hlt, rfl⟩ := List.getElem?_eq_some_iff.mp ha
  have hlength := length_eraseIdx_of_lt hlt
  rw [← insertIdx_eq_append (by omega)]
  exact insertIdx_eraseIdx_getElem hlt

/-- A move that leaves distinct names where they were moves nothing. -/
theorem Moved.target_eq {β : Type} {f : α → β} (h : Moved l l' start target)
    (hnodup : (l.map f).Nodup) (hsame : l'.map f = l.map f) : target = start := by
  have hstart := h.getElem?_target
  obtain ⟨htarget, a, ha, -⟩ := h
  have hat : (l.map f)[target]? = some (f a) := by
    rw [← hsame, getElem?_map, hstart, ha]
    rfl
  obtain ⟨b, hb, hfb⟩ := Option.map_eq_some_iff.mp (getElem?_map (f := f) ▸ hat)
  exact index_of_nodup hnodup hb ha hfb

theorem Moved.map_some {ids : List α} {l' : List (Option α)}
    (h : Moved (ids.map some) l' start target) :
    ∃ ids', l' = ids'.map some ∧ Moved ids ids' start target := by
  obtain ⟨htarget, a, ha, rfl⟩ := h
  rw [getElem?_map] at ha
  obtain ⟨id, hid, rfl⟩ := Option.map_eq_some_iff.mp ha
  rw [length_map] at htarget
  refine ⟨(ids.eraseIdx start).take target ++ id :: (ids.eraseIdx start).drop target, ?_,
    htarget, id, hid, rfl⟩
  rw [map_append, map_cons, map_take, map_drop, ← eraseIdx_map]

theorem getElem?_eraseIdx_moveTarget {count index : Nat} (h : index ≠ start) :
    (l.eraseIdx start)[moveTarget start count (some index)]? = l[index]? := by
  rw [getElem?_eraseIdx, moveTarget]
  by_cases hlt : start < index
  · rw [if_pos hlt, if_neg (by omega)]
    congr 1
    omega
  · rw [if_neg hlt, if_pos (by omega)]

end

/-! ## Documents -/

section

variable {path : List String} {document' value : Json}

theorem arrayAt_setValue_sources (h : setValue sourcesPath (.array list) document = .ok document') :
    arrayAt sourcesPath document' = .ok list := by
  unfold arrayAt
  rw [getAt_setAt (okOr_eq_ok.mp h)]

theorem arrayAt_setValue_apart (h : setValue path value document = .ok document')
    (hapart : Apart path sourcesPath) :
    arrayAt sourcesPath document' = arrayAt sourcesPath document := by
  unfold arrayAt
  rw [getAt_setAt_apart (okOr_eq_ok.mp h) hapart]

theorem routingPath_apart (cidrs : RoutingCidrList) : Apart (routingPath cidrs) sourcesPath := by
  cases cidrs <;> decide

theorem sourceIndex_lt {sources : SourceConfig} {sourceId : String} {index : Nat}
    (h : sourceIndex sources sourceId = .ok index) : index < sources.sources.length := by
  unfold sourceIndex at h
  rw [okOr_eq_ok, findIdx?_eq_some_iff_getElem] at h
  exact h.1

theorem lookup_applySourceFilter {filter : SubscriptionSourceFilter}
    {source source' : List (String × Json)} {key : String}
    (h : applySourceFilter filter source = .ok source') (hkey : key ≠ "filter") :
    source'.lookup key = source.lookup key := by
  simp only [applySourceFilter, bind_eq_ok] at h
  obtain ⟨members, -, hsource⟩ := h
  cases hsource
  rw [lookup_setMember, if_neg hkey]

theorem newSource_members {name url : String} {enabled : Bool}
    {settings : Option SubscriptionSourceSettings} {source : Json}
    (h : newSource name url enabled settings = .ok source) :
    source.member "name" = some (.string name) ∧ source.member "url" = some (.string url) := by
  cases settings with
  | none =>
    cases h
    exact ⟨rfl, rfl⟩
  | some settings =>
    simp only [newSource, bind_eq_ok] at h
    obtain ⟨members, hmembers, hsource⟩ := h
    cases hsource
    have hname := @lookup_applySourceFilter _ _ _ "name" hmembers (by decide)
    have hurl := @lookup_applySourceFilter _ _ _ "url" hmembers (by decide)
    exact ⟨hname, hurl⟩

end

/-! ## What a mutation does to the sources -/

/-- The sources of the document and the identifiers they keep after a mutation, where `kept`
are those of the sources before.  A source that is added while none is active switches the
others off. -/
def SourceEffect (sources : SourceConfig) (kept : List (Option SourceId)) (list list' : List Json)
    (preferred : List (Option SourceId)) : ConfigMutation → Prop
  | .addSource name url _ =>
    ∃ new : Json, new.member "name" = some (.string name) ∧
      new.member "url" = some (.string url) ∧
      list' = (if sources.sources.any (·.active) then list else list.map disableSource) ++ [new] ∧
      preferred = kept ++ [none]
  | .updateSource sourceId name url enabled settings =>
    ∃ index old new, sourceIndex sources sourceId = .ok index ∧ list[index]? = some old ∧
      updatedSource name url enabled settings old = .ok new ∧ list' = list.set index new ∧
      preferred = kept
  | .removeSource sourceId =>
    ∃ index, sourceIndex sources sourceId = .ok index ∧ list' = list.eraseIdx index ∧
      preferred = kept.eraseIdx index
  | .moveSource sourceId beforeSourceId =>
    ∃ start target, sourceIndex sources sourceId = .ok start ∧ list'.Perm list ∧
      Moved list list' start target ∧ Moved kept preferred start target ∧
      (beforeSourceId = none → target + 1 = list.length) ∧
      ∀ named index, beforeSourceId = some named → sourceIndex sources named = .ok index →
        (index = start → target = start) ∧
          (index ≠ start → (list.eraseIdx start)[target]? = list[index]?)
  | .removeNode nodeId =>
    list.mapM (excludeNode nodeId) = .ok list' ∧ preferred = kept
  | _ => list' = list ∧ preferred = kept

/-- The document has the sources that the mutation makes of `list`. -/
def Effected (sources : SourceConfig) (kept : List (Option SourceId)) (list : List Json)
    (mutated : Mutated) (mutation : ConfigMutation) : Prop :=
  ∃ list', arrayAt sourcesPath mutated.document = .ok list' ∧
    SourceEffect sources kept list list' mutated.preferredIds mutation

theorem mapM_some_eq_ok {α β ε : Type} {f : α → Except ε β} {a : α} {o : Option β}
    (h : (some a).mapM f = .ok o) : ∃ b, f a = .ok b ∧ o = some b := by
  rw [Option.mapM_some] at h
  cases hf : f a with
  | error e =>
    rw [hf] at h
    cases h
  | ok b =>
    rw [hf] at h
    cases h
    exact ⟨b, rfl, rfl⟩

section

variable {sources : SourceConfig} {mutated : Mutated}
  (hlist : arrayAt sourcesPath document = .ok list)

include hlist

theorem addSource_effected {name url : String} {settings : Option SubscriptionSourceSettings}
    (h : applyMutation document (.addSource name url settings) sources kept = .ok mutated) :
    Effected sources kept list mutated (.addSource name url settings) := by
  simp only [applyMutation, bind_eq_ok, hlist] at h
  obtain ⟨_, heq, source, hsource, document', hset, hmutated⟩ := h
  cases heq
  cases hmutated
  refine ⟨_, arrayAt_setValue_sources hset, source, (newSource_members hsource).1,
    (newSource_members hsource).2, ?_, rfl⟩
  cases sources.sources.any (·.active) <;> rfl

theorem updateSource_effected {sourceId : String} {name url : Option String}
    {enabled : Option Bool} {settings : Option SubscriptionSourcePatch}
    (h : applyMutation document (.updateSource sourceId name url enabled settings) sources kept =
      .ok mutated) :
    Effected sources kept list mutated (.updateSource sourceId name url enabled settings) := by
  simp only [applyMutation, bind_eq_ok, hlist, okOr_eq_ok] at h
  obtain ⟨index, hindex, _, heq, old, hold, new, hnew, document', hset, hmutated⟩ := h
  cases heq
  cases hmutated
  exact ⟨_, arrayAt_setValue_sources hset, index, old, new, hindex, hold, hnew, rfl, rfl⟩

theorem removeSource_effected {sourceId : String}
    (h : applyMutation document (.removeSource sourceId) sources kept = .ok mutated) :
    Effected sources kept list mutated (.removeSource sourceId) := by
  simp only [applyMutation, bind_eq_ok, hlist] at h
  obtain ⟨index, hindex, _, heq, document', hset, hmutated⟩ := h
  cases heq
  cases hmutated
  exact ⟨_, arrayAt_setValue_sources hset, index, hindex, rfl, rfl⟩

theorem moveSource_effected (hlength : sources.sources.length = list.length)
    (hkept : kept.length = list.length) {sourceId : String} {beforeSourceId : Option String}
    (h : applyMutation document (.moveSource sourceId beforeSourceId) sources kept =
      .ok mutated) :
    Effected sources kept list mutated (.moveSource sourceId beforeSourceId) := by
  simp only [applyMutation, bind_eq_ok, hlist] at h
  obtain ⟨start, hstart, before, hbefore, _, heq, document', hset, hmutated⟩ := h
  cases heq
  cases hmutated
  have hstartlt : start < list.length := hlength ▸ sourceIndex_lt hstart
  have htarget : moveTarget start list.length before < list.length := by
    cases beforeSourceId with
    | none =>
      cases hbefore
      change list.length - 1 < list.length
      omega
    | some named =>
      obtain ⟨index, hindex, rfl⟩ := mapM_some_eq_ok hbefore
      have := sourceIndex_lt hindex
      change (if start < index then index - 1 else index) < list.length
      split <;> omega
  have hmoved := moveTo_moved hstartlt htarget
  refine ⟨_, arrayAt_setValue_sources hset, start, moveTarget start list.length before,
    hstart, hmoved.perm, hmoved, moveTo_moved (by omega) (by omega), ?_, ?_⟩
  · rintro rfl
    cases hbefore
    change list.length - 1 + 1 = list.length
    omega
  · rintro named index rfl hindex
    obtain ⟨index', hindex', rfl⟩ := mapM_some_eq_ok hbefore
    cases hindex.symm.trans hindex'
    refine ⟨?_, getElem?_eraseIdx_moveTarget⟩
    rintro rfl
    exact if_neg (Nat.lt_irrefl _)

theorem removeNode_effected {nodeId : String}
    (h : applyMutation document (.removeNode nodeId) sources kept = .ok mutated) :
    Effected sources kept list mutated (.removeNode nodeId) := by
  simp only [applyMutation, bind_eq_ok, hlist] at h
  obtain ⟨_, heq, list', hlist', document', hset, hmutated⟩ := h
  cases heq
  cases hmutated
  exact ⟨list', arrayAt_setValue_sources hset, hlist', rfl⟩

theorem applyMutation_effected (hlength : sources.sources.length = list.length)
    (hkept : kept.length = list.length)
    (h : applyMutation document mutation sources kept = .ok mutated) :
    Effected sources kept list mutated mutation := by
  -- most mutations edit another part of the document
  have hapart {path value} (h : (setValue path value document >>= fun edited =>
      pure ⟨edited, none, kept⟩) = .ok mutated) (hpath : Apart path sourcesPath) :
      ∃ list', arrayAt sourcesPath mutated.document = .ok list' ∧ list' = list ∧
        mutated.preferredIds = kept := by
    obtain ⟨document', hset, hmutated⟩ := bind_eq_ok.mp h
    cases hmutated
    exact ⟨list, (arrayAt_setValue_apart hset hpath).trans hlist, rfl, rfl⟩
  cases mutation with
  | setServiceEnabled enabled => exact hapart h (by decide)
  | addSource name url settings => exact addSource_effected hlist h
  | updateSource sourceId name url enabled settings => exact updateSource_effected hlist h
  | removeSource sourceId => exact removeSource_effected hlist h
  | moveSource sourceId beforeSourceId => exact moveSource_effected hlist hlength hkept h
  | addApplicationTarget target =>
    obtain ⟨values, -, hset⟩ := bind_eq_ok.mp h
    exact hapart hset (by decide)
  | removeApplicationTarget target =>
    obtain ⟨values, -, hrest⟩ := bind_eq_ok.mp h
    obtain ⟨values', -, hset⟩ := bind_eq_ok.mp hrest
    exact hapart hset (by decide)
  | replaceApplicationTargets targets => exact hapart h (by decide)
  | setApplicationPolicy mode targets =>
    simp only [applyMutation, bind_eq_ok] at h
    obtain ⟨document', hmode, document'', htargets, hmutated⟩ := h
    cases hmutated
    refine ⟨list, ?_, rfl, rfl⟩
    rw [arrayAt_setValue_apart htargets (by decide), arrayAt_setValue_apart hmode (by decide),
      hlist]
  | addRoutingCidr cidrs cidr =>
    obtain ⟨values, -, hset⟩ := bind_eq_ok.mp h
    exact hapart hset (routingPath_apart cidrs)
  | removeRoutingCidr cidrs cidr =>
    obtain ⟨values, -, hrest⟩ := bind_eq_ok.mp h
    obtain ⟨values', -, hset⟩ := bind_eq_ok.mp hrest
    exact hapart hset (routingPath_apart cidrs)
  | removeNode nodeId => exact removeNode_effected hlist h
  | setScalarField fieldId value =>
    obtain ⟨path, hpath, hset⟩ := bind_eq_ok.mp h
    have hall : ∀ p ∈ scalarPaths, Apart p sourcesPath := by decide
    exact hapart hset (hall path (mem_of_find?_eq_some (okOr_eq_ok.mp hpath)))

end

/-! ## Preparing with the identifiers that are kept -/

variable {preferred : List (Option SourceId)}

section

variable {hash : Hash} {previous : List RegistryEntry}

theorem findEntry_id (hids : (previous.map sourceId).Nodup) {claimed : List Nat}
    {id : SourceId} (hmem : id ∈ previous.map sourceId)
    (hfree : ∀ k ∈ claimed, (previous[k]?).map sourceId ≠ some id) :
    ∃ k entry, findEntry previous claimed (fun entry => entry.sourceId == id) = some k ∧
      previous[k]? = some entry ∧ entry.sourceId = id := by
  obtain ⟨entry, hentry, rfl⟩ := mem_map.mp hmem
  obtain ⟨k, hk⟩ := getElem?_of_mem hentry
  have hclaimed : k ∉ claimed := by
    intro hc
    apply hfree k hc
    rw [hk]
    rfl
  refine ⟨k, entry, findEntry_unique hk hclaimed (by simp) fun k' entry' hk' hholds => ?_, hk, rfl⟩
  exact index_of_nodup hids hk' hk (by simpa using hholds)

/-- Sources with preferred identifiers take their entries, whatever their names and
addresses are now; the pass goes on behind them. -/
theorem assignIds_preferred (hids : (previous.map sourceId).Nodup)
    {first others : List UserSource} {ids : List SourceId} {preferred : List (Option SourceId)}
    {state : Assignment} (hlength : first.length = ids.length) (hnodup : ids.Nodup)
    (hmem : ∀ id ∈ ids, id ∈ previous.map sourceId)
    (hfree : ∀ k ∈ state.claimed, ∀ id ∈ ids, (previous[k]?).map sourceId ≠ some id) :
    ∃ state' : Assignment, state'.entropy = state.entropy ∧
      state'.assigned = ids.reverse ++ state.assigned ∧
      (∀ k, (∃ id ∈ ids, (previous[k]?).map sourceId = some id) →
        k ∈ state'.claimed) ∧ (∀ k ∈ state.claimed, k ∈ state'.claimed) ∧
      assignIds hash previous (first ++ others) (ids.map some ++ preferred) state =
        (assignIds hash previous others preferred state').map (ids ++ ·) := by
  induction ids generalizing first state with
  | nil =>
    rw [length_nil, length_eq_zero_iff] at hlength
    subst hlength
    refine ⟨state, rfl, rfl, ?_, fun k hk => hk, ?_⟩
    · rintro k ⟨id, hid, -⟩
      exact absurd hid not_mem_nil
    · simp only [nil_append, map_nil]
      cases assignIds hash previous others preferred state <;> rfl
  | cons id ids ih =>
    cases first with
    | nil => cases hlength
    | cons source first =>
      rw [nodup_cons] at hnodup
      rw [forall_mem_cons] at hmem
      obtain ⟨k, entry, hfound, hk, hid⟩ := findEntry_id hids hmem.1 fun k hk =>
        hfree k hk id mem_cons_self
      let next : Assignment :=
        { state with claimed := k :: state.claimed, assigned := id :: state.assigned }
      have hnext : ∀ k' ∈ next.claimed, ∀ id' ∈ ids, (previous[k']?).map sourceId ≠ some id' := by
        intro k' hk' id' hid'
        rcases mem_cons.mp hk' with rfl | hold
        · rw [hk, Option.map_some, hid]
          rintro ⟨⟩
          exact hnodup.1 hid'
        · exact hfree k' hold id' (mem_cons_of_mem _ hid')
      obtain ⟨state', hentropy, hassigned, htaken, hkept, hassign⟩ :=
        @ih first next (Nat.succ.inj hlength) hnodup.2 hmem.2 hnext
      refine ⟨state', hentropy, ?_, ?_, fun k' hk' => hkept k' (mem_cons_of_mem _ hk'), ?_⟩
      · rw [hassigned]
        simp [next]
      · rintro k' ⟨id', hid', hsame⟩
        rcases mem_cons.mp hid' with rfl | hrest
        · obtain ⟨entry', hentry', hid''⟩ := Option.map_eq_some_iff.mp hsame
          have hkk : k' = k := index_of_nodup hids hentry' hk (hid''.trans hid.symm)
          subst hkk
          exact hkept k' mem_cons_self
        · exact htaken k' ⟨id', hrest, hsame⟩
      · have hmatch : matchSource hash previous state.claimed (some id) source = .ok (some k) := by
          simp only [matchSource, hfound, okOr]
          rfl
        have htake : takeId previous state (some k) = .ok (id, next) := by
          simp [takeId, hk, Option.map_some, hid, next]
        simp only [cons_append, map_cons, assignIds, head?_cons, Option.join_some,
          tail_cons, hmatch, htake, hassign, bind, Except.bind]
        cases assignIds hash previous others preferred state' <;> rfl

theorem allocateId_assigned {assigned : List SourceId} {attempts : Nat} {entropy : Entropy}
    (h : ∀ id ∈ assigned, id ∈ previous.map sourceId) :
    allocateId assigned previous attempts entropy = allocateId [] previous attempts entropy := by
  induction attempts generalizing entropy with
  | zero => rfl
  | succ attempts ih =>
    have hsame : ∀ id : SourceId, (id ∉ assigned ∧ ∀ entry ∈ previous, entry.sourceId ≠ id) ↔
        ∀ entry ∈ previous, entry.sourceId ≠ id := by
      intro id
      refine and_iff_right_of_imp fun hprevious hid => ?_
      obtain ⟨entry, hentry, heq⟩ := mem_map.mp (h id hid)
      exact hprevious entry hentry heq
    unfold allocateId
    simp only [hsame, not_mem_nil, not_false_eq_true, true_and, ih]

variable {state : RegistryState} {snapshot snapshot' : ConfigSnapshot} {entropy : Entropy}
  {ids : List SourceId} {sources : SourceConfig}

theorem bindFresh_of_assignIds
    (h : assignIds hash state.previous snapshot.sources preferred { entropy := entropy } =
      .ok ids) :
    ∃ prepared, bindFresh hash state snapshot entropy preferred = .ok prepared ∧
      prepared.sourceConfig.sources.map SourceDefinition.id = ids := by
  obtain ⟨prepared, hprepared⟩ : ∃ prepared,
      bindFresh hash state snapshot entropy preferred = .ok prepared := by
    unfold bindFresh
    rw [h]
    exact ⟨_, rfl⟩
  obtain ⟨ids', hids', hsources, -⟩ := bindFresh_ids hprepared
  rw [h] at hids'
  cases hids'
  exact ⟨prepared, hprepared, hsources⟩

/-- Every source gets the identifier it is to keep, and one without gets one that is neither
another's nor the reserved one. -/
def KeepsPreferred (preferred : List (Option SourceId)) (ids : List SourceId) : Prop :=
  ids.length = preferred.length ∧
  (∀ (i : Nat) id, preferred[i]? = some (some id) → ids[i]? = some id) ∧
  ∀ i : Nat, preferred[i]? = some none →
    ∃ id, ids[i]? = some id ∧ id ≠ manualSourceId ∧ ∀ j, j ≠ i → ids[j]? ≠ some id

theorem keepsPreferred_map_some (ids : List SourceId) : KeepsPreferred (ids.map some) ids :=
  ⟨by simp, fun i id hi => by simpa using hi, fun i hi => by simp at hi⟩

theorem getElem?_concat_eq_some {α : Type} {l : List α} {a b : α} {i : Nat} :
    (l ++ [a])[i]? = some b ↔ l[i]? = some b ∨ i = l.length ∧ a = b := by
  grind

theorem keepsPreferred_append {id : SourceId} (hmanual : id ≠ manualSourceId)
    (hnew : id ∉ ids) : KeepsPreferred (ids.map some ++ [none]) (ids ++ [id]) := by
  refine ⟨by simp, fun i id' hi => ?_, fun i hi => ?_⟩
  · rcases getElem?_concat_eq_some.mp hi with hi | ⟨-, hi⟩
    · exact getElem?_concat_eq_some.mpr (.inl ((keepsPreferred_map_some ids).2.1 i id' hi))
    · cases hi
  · rcases getElem?_concat_eq_some.mp hi with hi | ⟨rfl, -⟩
    · simp at hi
    · rw [length_map]
      refine ⟨id, getElem?_concat_length, hmanual, fun j hj hsame => ?_⟩
      rcases getElem?_concat_eq_some.mp hsame with hsame | ⟨heq, -⟩
      · exact hnew (mem_of_getElem? hsame)
      · exact hj heq

theorem prepare_kept (hids : (state.previous.map sourceId).Nodup)
    (hactive : ∀ binding, state.active = some binding →
      bindingMatches hash snapshot binding = true → binding.entries.map sourceId = ids)
    (hpending : state.pending.filter (bindingMatches hash snapshot) = none)
    (hlength : snapshot.sources.length = ids.length) (hnodup : ids.Nodup)
    (hmem : ∀ id ∈ ids, id ∈ state.previous.map sourceId) :
    ∃ prepared, prepareWithPreferredIds hash state snapshot entropy (ids.map some) = .ok prepared ∧
      KeepsPreferred (ids.map some) (prepared.sourceConfig.sources.map SourceDefinition.id) := by
  suffices h : ∃ prepared,
      prepareWithPreferredIds hash state snapshot entropy (ids.map some) = .ok prepared ∧
        prepared.sourceConfig.sources.map SourceDefinition.id = ids by
    obtain ⟨prepared, hprepared, hsame⟩ := h
    exact ⟨prepared, hprepared, hsame ▸ keepsPreferred_map_some _⟩
  unfold prepareWithPreferredIds
  rw [if_neg fun hne => hne.2 (by rw [length_map, hlength])]
  cases hfilter : state.active.filter (bindingMatches hash snapshot) with
  | some binding =>
    obtain ⟨hsome, hmatches⟩ := Option.filter_eq_some_iff.mp hfilter
    exact ⟨_, rfl, (sourceConfigFromBinding_ids hmatches).trans (hactive binding hsome hmatches)⟩
  | none =>
    rw [hpending]
    obtain ⟨state', -, -, -, -, hassign⟩ :=
      @assignIds_preferred hash state.previous hids snapshot.sources [] ids []
        { entropy := entropy } hlength hnodup hmem fun k hk => absurd hk not_mem_nil
    rw [append_nil, append_nil] at hassign
    have hdone : assignIds hash state.previous snapshot.sources (ids.map some)
        { entropy := entropy } = .ok ids := by
      rw [hassign]
      change Except.ok (ids ++ []) = _
      rw [append_nil]
    exact bindFresh_of_assignIds hdone

theorem prepare_added (hids : (state.previous.map sourceId).Nodup)
    (hpending : state.pending.filter (bindingMatches hash snapshot) = none)
    (hlength : snapshot.sources.length = state.previous.length + 1) {fresh : SourceId × Entropy}
    (hfresh : allocateId [] state.previous maxIdAttempts entropy = .ok fresh) :
    ∃ prepared, prepareWithPreferredIds hash state snapshot entropy
        ((state.previous.map sourceId).map some ++ [none]) = .ok prepared ∧
      prepared.sourceConfig.sources.map SourceDefinition.id =
        state.previous.map sourceId ++ [fresh.1] := by
  unfold prepareWithPreferredIds
  rw [if_neg fun hne => hne.2 (by simp [hlength])]
  have hactive : state.active.filter (bindingMatches hash snapshot) = none := by
    rw [Option.filter_eq_none_iff]
    intro binding hsome hmatches
    have hcount := bindingMatches_length hmatches
    rw [state.previous_eq hsome] at hlength
    omega
  rw [hactive, hpending]
  obtain ⟨source, hsource⟩ : ∃ source, snapshot.sources.drop state.previous.length = [source] := by
    rw [← length_eq_one_iff, length_drop]
    omega
  have hsplit : snapshot.sources = snapshot.sources.take state.previous.length ++ [source] := by
    rw [← hsource, take_append_drop]
  have hfirst : (snapshot.sources.take state.previous.length).length =
      (state.previous.map sourceId).length := by
    rw [length_take, length_map]
    omega
  obtain ⟨state', hentropy, hassigned, htaken, -, hassign⟩ :=
    @assignIds_preferred hash state.previous hids (snapshot.sources.take state.previous.length)
      [source] (state.previous.map sourceId) [none] { entropy := entropy } hfirst
      hids (fun id hid => hid) fun k hk => absurd hk not_mem_nil
  have hnone : ∀ holds : RegistryEntry → Bool,
      findEntry state.previous state'.claimed holds = none := by
    intro holds
    cases hfound : findEntry state.previous state'.claimed holds with
    | none => rfl
    | some k =>
      obtain ⟨hfree, entry, hentry, -⟩ := findEntry_eq_some hfound
      refine absurd (htaken k ⟨entry.sourceId, ?_, by rw [hentry]; rfl⟩) hfree
      exact mem_map_of_mem (mem_of_getElem? hentry)
  have hmatch : matchEntry hash state.previous state'.claimed source = none := by
    unfold matchEntry
    rw [hnone, hnone, ite_self]
    rfl
  have hallocate : allocateId state'.assigned state.previous maxIdAttempts state'.entropy =
      .ok fresh := by
    rw [hentropy, allocateId_assigned, hfresh]
    intro id hid
    rw [hassigned, append_nil, mem_reverse] at hid
    exact hid
  have hlast : assignIds hash state.previous [source] [none] state' = .ok [fresh.1] := by
    simp only [assignIds, head?_cons, Option.join_some, matchSource, hmatch, takeId,
      Option.bind_none, hallocate, bind, Except.bind]
    rfl
  have hdone : assignIds hash state.previous snapshot.sources
      ((state.previous.map sourceId).map some ++ [none]) { entropy := entropy } =
        .ok (state.previous.map sourceId ++ [fresh.1]) := by
    rw [hsplit, hassign, hlast]
    rfl
  exact bindFresh_of_assignIds hdone

/-! ## Sources and identifiers stay aligned -/

/-- The registry's active binding is that of the current configuration, and gives its sources
the identifiers. -/
def Current (hash : Hash) (state : RegistryState) (snapshot : ConfigSnapshot)
    (ids : List SourceId) : Prop :=
  ∃ binding, state.active = some binding ∧ bindingMatches hash snapshot binding = true ∧
    ids = (sourceConfigFromBinding hash snapshot binding).sources.map SourceDefinition.id

/-- The configuration is read from the document: its sources are those of the document, in
the same order and with their names. -/
def ReadsSources (document : Json) (snapshot : ConfigSnapshot) : Prop :=
  ∃ list, arrayAt sourcesPath document = .ok list ∧
    List.Forall₂ (fun j source => member "name" j = some (.string source.name)) list
      snapshot.sources

theorem Current.ids_eq (h : Current hash state snapshot ids) :
    ids = state.previous.map sourceId := by
  obtain ⟨binding, hsome, hmatches, rfl⟩ := h
  rw [sourceConfigFromBinding_ids hmatches, state.previous_eq hsome]

theorem names_of_bindingMatches (hhash : (snapshot.texts ∪ snapshot'.texts).InjOn hash.digest)
    {binding : RegistryBinding} (h : bindingMatches hash snapshot binding = true)
    (h' : bindingMatches hash snapshot' binding = true) :
    snapshot'.sources.map UserSource.name = snapshot.sources.map UserSource.name := by
  have hlength := (bindingMatches_length h').symm.trans (bindingMatches_length h)
  apply ext_getElem (by simpa using hlength)
  intro i hi hi'
  rw [length_map] at hi hi'
  obtain ⟨entry, hentry, -, hname⟩ := bindingMatches_entry h (getElem?_eq_getElem hi')
  obtain ⟨entry', hentry', -, hname'⟩ := bindingMatches_entry h' (getElem?_eq_getElem hi)
  cases hentry.symm.trans hentry'
  rw [getElem_map, getElem_map]
  exact hhash (.inr (snapshot'.name_mem_texts (getElem_mem hi)))
    (.inl (snapshot.name_mem_texts (getElem_mem hi'))) (hname'.symm.trans hname)

/-- Mutations by what they do to the positions of the sources. -/
theorem SourceEffect.kinds (hlength : sources.sources.length = list.length)
    (h : SourceEffect sources kept list list' preferred mutation) :
    (list'.length = list.length ∧ preferred = kept) ∨
    (∃ index < list.length, list' = list.eraseIdx index ∧ preferred = kept.eraseIdx index) ∨
    (∃ start target, Moved list list' start target ∧ Moved kept preferred start target) ∨
    (list'.length = list.length + 1 ∧ preferred = kept ++ [none]) := by
  cases mutation with
  | addSource name url settings =>
    obtain ⟨new, -, -, rfl, hpreferred⟩ := h
    refine .inr (.inr (.inr ⟨?_, hpreferred⟩))
    rw [length_append, length_singleton]
    split
    · rfl
    · rw [length_map]
  | updateSource sourceId name url enabled settings =>
    obtain ⟨index, old, new, -, -, -, rfl, hpreferred⟩ := h
    exact .inl ⟨length_set, hpreferred⟩
  | removeSource sourceId =>
    obtain ⟨index, hindex, hlist', hpreferred⟩ := h
    exact .inr (.inl ⟨index, hlength ▸ sourceIndex_lt hindex, hlist', hpreferred⟩)
  | moveSource sourceId beforeSourceId =>
    obtain ⟨start, target, -, -, hlist', hpreferred, -⟩ := h
    exact .inr (.inr (.inl ⟨start, target, hlist', hpreferred⟩))
  | removeNode nodeId => exact .inl ⟨(mapM_eq_ok.mp h.1).length_eq.symm, h.2⟩
  | _ => exact .inl ⟨congrArg length h.1, h.2⟩

theorem SourceEffect.length_eq
    (hlength : sources.sources.length = list.length) (hkept : kept.length = list.length)
    (h : SourceEffect sources kept list list' preferred mutation) :
    list'.length = preferred.length := by
  rcases h.kinds hlength with ⟨hlist', rfl⟩ | ⟨index, hindex, rfl, rfl⟩ |
    ⟨start, target, hlist', hpreferred⟩ | ⟨hlist', rfl⟩
  · rw [hlist', hkept]
  · rw [length_eraseIdx_of_lt hindex, length_eraseIdx_of_lt (by omega), hkept]
  · rw [hlist'.perm.length_eq, hpreferred.perm.length_eq, hkept]
  · rw [hlist', length_append, hkept, length_singleton]

section

variable (hhash : (snapshot.texts ∪ snapshot'.texts).InjOn hash.digest)
  (hnames : (snapshot.sources.map UserSource.name).Nodup)
  (hread : List.Forall₂ (fun j source => member "name" j = some (.string source.name)) list
    snapshot.sources)
  (hread' : List.Forall₂ (fun j source => member "name" j = some (.string source.name)) list'
    snapshot'.sources)

include hhash hnames hread hread'

/-- Where one binding fits both configurations, the names stand where they were, so nothing has
moved. -/
theorem Moved.target_eq_of_bindingMatches {start target : Nat}
    (hmoved : Moved list list' start target) {binding : RegistryBinding}
    (h : bindingMatches hash snapshot binding = true)
    (h' : bindingMatches hash snapshot' binding = true) : target = start := by
  have hsame := names_of_bindingMatches hhash h h'
  refine hmoved.target_eq (f := member "name") ?_ ?_
  · rw [map_eq_of_forall₂ hread.flip]
    have := hnames.map (f := fun name => some (Json.string name)) (by
      intro a b hab
      simpa using hab)
    rwa [map_map] at this
  · rw [map_eq_of_forall₂ hread.flip, map_eq_of_forall₂ hread'.flip]
    have := congrArg (map fun name => some (Json.string name)) hsame
    rwa [map_map, map_map] at this

/-- The registry gives every source that was there its identifier again, and a new source
one of its own. -/
theorem prepare_aligned (hlength : sources.sources.length = list.length)
    (hcurrent : Current hash state snapshot ids) (hids : (state.previous.map sourceId).Nodup)
    (heffect : SourceEffect sources (ids.map some) list list' preferred mutation)
    (hpending : state.pending.filter (bindingMatches hash snapshot') = none)
    (hentropy : none ∈ preferred →
      ∃ fresh, allocateId [] state.previous maxIdAttempts entropy = .ok fresh) :
    ∃ prepared, prepareWithPreferredIds hash state snapshot' entropy preferred = .ok prepared ∧
      KeepsPreferred preferred (prepared.sourceConfig.sources.map SourceDefinition.id) := by
  have hkept := congrArg (map some) hcurrent.ids_eq
  obtain ⟨binding, hsome, hmatches, -⟩ := id hcurrent
  have hprevious := state.previous_eq hsome
  have hlist : list.length = state.previous.length := by
    rw [hread.length_eq, hprevious, bindingMatches_length hmatches]
  have hlist' := hread'.length_eq
  rcases heffect.kinds hlength with ⟨hsame, rfl⟩ | ⟨index, hindex, rfl, rfl⟩ |
    ⟨start, target, hmoved, hpreferred⟩ | ⟨hmore, rfl⟩
  · rw [hkept]
    exact prepare_kept hids (fun b hb _ => by rw [state.previous_eq hb]) hpending
      (by rw [length_map]; omega) hids fun id hid => hid
  · rw [hkept, eraseIdx_map]
    rw [length_eraseIdx_of_lt hindex] at hlist'
    have hshort : ((state.previous.map sourceId).eraseIdx index).length =
        snapshot'.sources.length := by
      rw [length_eraseIdx_of_lt (by rw [length_map]; omega), length_map]
      omega
    exact prepare_kept hids (fun b hb hb' => by
        -- the binding has one entry too many
        have hcount := bindingMatches_length hb'
        rw [← state.previous_eq hb] at hcount
        omega)
      hpending hshort.symm (hids.sublist (eraseIdx_sublist _ _))
      fun id hid => mem_of_mem_eraseIdx hid
  · rw [hkept] at hpreferred
    obtain ⟨ids', rfl, hmovedIds⟩ := hpreferred.map_some
    have hperm := hmovedIds.perm
    have hlengthIds := hperm.length_eq
    rw [length_map] at hlengthIds
    exact prepare_kept hids (fun b hb hb' => by
        cases hsome.symm.trans hb
        have htarget :=
          hmoved.target_eq_of_bindingMatches hhash hnames hread hread' hmatches hb'
        subst htarget
        rw [hmovedIds.eq_self, hprevious])
      hpending
      (by have := hmoved.perm.length_eq; omega) (hperm.nodup_iff.mpr hids)
      fun id hid => hperm.mem_iff.mp hid
  · rw [hkept] at hentropy ⊢
    obtain ⟨fresh, hfresh⟩ := hentropy (mem_append_right _ mem_cons_self)
    obtain ⟨prepared, hprepared, hprids⟩ := @prepare_added hash state snapshot' entropy hids
      hpending (by omega) fresh hfresh
    obtain ⟨hmanual, -, hnew⟩ := allocateId_fresh hfresh
    refine ⟨prepared, hprepared, hprids ▸ keepsPreferred_append hmanual fun hmem => ?_⟩
    obtain ⟨entry, hentry, heq⟩ := mem_map.mp hmem
    exact hnew entry hentry heq

end

/-- A mutation edits the sources and the identifiers they keep alike, and the registry, told
these, binds every source that was there to its identifier and a new one to one of its own. -/
theorem applyMutation_aligned {document : Json} {mutation : ConfigMutation} {mutated : Mutated}
    {list : List Json} (hlist : arrayAt sourcesPath document = .ok list)
    (hlength : sources.sources.length = list.length) (hids : ids.length = list.length)
    (h : applyMutation document mutation sources (ids.map some) = .ok mutated) :
    ∃ list', arrayAt sourcesPath mutated.document = .ok list' ∧
      list'.length = mutated.preferredIds.length ∧
      SourceEffect sources (ids.map some) list list' mutated.preferredIds mutation ∧
      ∀ hash state snapshot snapshot' entropy,
        (ConfigSnapshot.texts snapshot ∪ ConfigSnapshot.texts snapshot').InjOn hash.digest →
        Current hash state snapshot ids → Distinct hash state.previous → snapshot.Accepted →
        ReadsSources document snapshot → ReadsSources mutated.document snapshot' →
        state.pending.filter (bindingMatches hash snapshot') = none → (none ∈ mutated.preferredIds →
          ∃ fresh, allocateId [] state.previous maxIdAttempts entropy = .ok fresh) → ∃ prepared,
          prepareWithPreferredIds hash state snapshot' entropy mutated.preferredIds = .ok prepared ∧
          KeepsPreferred mutated.preferredIds
            (prepared.sourceConfig.sources.map SourceDefinition.id) := by
  have hkept : (ids.map some).length = list.length := by
    rw [length_map, hids]
  obtain ⟨list', hlist', heffect⟩ := applyMutation_effected hlist hlength hkept h
  refine ⟨list', hlist', heffect.length_eq hlength hkept, heffect, ?_⟩
  intro hash state snapshot snapshot' entropy hhash hcurrent hdistinct haccepted hread hread'
    hpending hentropy
  obtain ⟨read, hreadList, hnames⟩ := hread
  cases hlist.symm.trans hreadList
  obtain ⟨read', hreadList', hnames'⟩ := hread'
  cases hlist'.symm.trans hreadList'
  exact prepare_aligned hhash haccepted.1 hnames hnames' hlength hcurrent hdistinct.1 heffect
    hpending hentropy

end

def sampleSource (name url : String) : Json :=
  .object [("name", .string name), ("url", .string url), ("enabled", .bool true)]

def sampleDocument (sources : List Json) : Json :=
  .object [("subscriptions", .object [("sources", .array sources)])]

def sampleUser (name url : String) : UserSource := ⟨name, true, url, [], .auto, .generic, {}⟩

def sampleSnapshot : ConfigSnapshot :=
  ⟨"c1", .merge, [sampleUser "A" "https://one.example", sampleUser "B" "https://two.example"]⟩

def sampleGrown : ConfigSnapshot :=
  ⟨"c2", .merge, sampleSnapshot.sources ++ [sampleUser "C" "https://three.example"]⟩

def sampleSources : SourceConfig :=
  sourceConfigOf sampleHash sampleSnapshot
    [defineSource ⟨"src_1"⟩ (sampleUser "A" "https://one.example"),
     defineSource ⟨"src_2"⟩ (sampleUser "B" "https://two.example")]

theorem sampleGrown_aligned : ∃ mutated prepared, applyMutation (sampleDocument
          [sampleSource "A" "https://one.example", sampleSource "B" "https://two.example"])
        (.addSource "C" "https://three.example" none) sampleSources
        [some ⟨"src_1"⟩, some ⟨"src_2"⟩] = .ok mutated ∧
      prepareWithPreferredIds sampleHash sampleRegistry sampleGrown sampleEntropy
        mutated.preferredIds = .ok prepared ∧ KeepsPreferred mutated.preferredIds
        (prepared.sourceConfig.sources.map SourceDefinition.id) := by
  have hmutated : ∃ mutated, applyMutation (sampleDocument
        [sampleSource "A" "https://one.example", sampleSource "B" "https://two.example"])
      (.addSource "C" "https://three.example" none) sampleSources
      ([⟨"src_1"⟩, ⟨"src_2"⟩].map some) = .ok mutated ∧
      ReadsSources mutated.document sampleGrown :=
    ⟨_, rfl, _, rfl, .cons rfl (.cons rfl (.cons rfl .nil))⟩
  obtain ⟨mutated, hmutated, hread'⟩ := hmutated
  obtain ⟨-, -, -, -, hprepare⟩ := applyMutation_aligned rfl rfl rfl hmutated
  have haccepted : sampleSnapshot.Accepted := by
    refine ⟨by decide, ?_⟩
    unfold UniqueBut
    decide
  obtain ⟨prepared, hprepared, hkeeps⟩ := hprepare sampleHash sampleRegistry sampleSnapshot
    sampleGrown sampleEntropy (fun _ _ _ _ heq => heq) ⟨_, rfl, rfl, rfl⟩ sampleRegistry_distinct
    haccepted ⟨_, rfl, .cons rfl (.cons rfl .nil)⟩ hread' rfl fun _ => ⟨_, rfl⟩
  exact ⟨mutated, prepared, hmutated, hprepared, hkeeps⟩

/-- With no active source an added one switches the source that is there off. -/
theorem addSource_disables_others : ∃ mutated list',
      applyMutation (sampleDocument [sampleSource "A" ""]) (.addSource "B" "" none)
        (sourceConfigOf sampleHash ⟨"c1", .merge, [sampleUser "A" ""]⟩
          [defineSource ⟨"src_1"⟩ (sampleUser "A" "")]) [some ⟨"src_1"⟩] = .ok mutated ∧
      arrayAt sourcesPath mutated.document = .ok list' ∧
      (sampleSource "A" "").member "enabled" = some (.bool true) ∧
      (list'[0]?).bind (member "enabled") = some (.bool false) := ⟨_, _, rfl, rfl, rfl, rfl⟩

end NetHop.Config
