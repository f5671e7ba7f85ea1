import Mathlib.Data.List.Nodup
import NetHop.Config.Registry

/-!
# Sources keep their identity

Whether a source finds the entry of its address again when a configuration is prepared
without preferred identifiers.  A source before it may have taken the entry by its name;
that happens as soon as one whose own address is not in the registry bears that name.
-/

namespace NetHop.Config

open List RegistryEntry UserSource

variable {hash : Hash}

/-! ## Lists without repetitions -/

/-- No two elements have the same text, but for one text that may repeat. -/
def UniqueBut {α : Type} (f : α → String) (free : String) (l : List α) : Prop :=
  l.Pairwise fun a b => f a = f b → f a = free

variable {i : Nat} {j : Nat}

theorem UniqueBut.index {α : Type} {f : α → String} {free : String} {l : List α} {a b : α}
    (h : UniqueBut f free l) (hi : l[i]? = some a) (hj : l[j]? = some b) (hab : f a = f b)
    (hfree : f a ≠ free) : i = j := by
  obtain ⟨hilt, rfl⟩ := List.getElem?_eq_some_iff.mp hi
  obtain ⟨hjlt, rfl⟩ := List.getElem?_eq_some_iff.mp hj
  rcases lt_trichotomy i j with hlt | heq | hgt
  · exact absurd (pairwise_iff_getElem.mp h i j hilt hjlt hlt hab) hfree
  · exact heq
  · have hother := pairwise_iff_getElem.mp h j i hjlt hilt hgt hab.symm
    exact absurd (hab.trans hother) hfree

theorem index_of_nodup {α β : Type} {f : α → β} {l : List α} {a b : α}
    (h : (l.map f).Nodup) (hi : l[i]? = some a) (hj : l[j]? = some b) (hab : f a = f b) :
    i = j := by
  have hlt : i < (l.map f).length := by simpa using (List.getElem?_eq_some_iff.mp hi).1
  exact (getElem?_inj hlt h).mp (by simp [hi, hj, hab])

theorem forall₂_getElem {α β : Type} {R : α → β → Prop} {l : List α} {l' : List β} {a : α}
    (h : List.Forall₂ R l l') (hi : l[i]? = some a) : ∃ b, l'[i]? = some b ∧ R a b := by
  obtain ⟨hlt, rfl⟩ := List.getElem?_eq_some_iff.mp hi
  have hlt' := h.length_eq ▸ hlt
  exact ⟨_, List.getElem?_eq_getElem hlt', h.get hlt hlt'⟩

/-! ## Searching the entries -/

section

variable {entries : List RegistryEntry} {claimed : List Nat} {holds : RegistryEntry → Bool}
  {k : Nat} {entry : RegistryEntry}

theorem findEntry_eq_some (h : findEntry entries claimed holds = some k) :
    k ∉ claimed ∧ ∃ entry, entries[k]? = some entry ∧ holds entry = true := by
  have hfound := find?_some h
  simp only [Bool.and_eq_true, Bool.not_eq_true', contains_eq_mem,
    decide_eq_false_iff_not, Option.any_eq_true] at hfound
  exact hfound

section

variable (hk : entries[k]? = some entry) (hfree : k ∉ claimed) (hholds : holds entry = true)

include hk hfree hholds

theorem findEntry_isSome : (findEntry entries claimed holds).isSome := by
  unfold findEntry
  rw [find?_isSome]
  obtain ⟨hlt, -⟩ := List.getElem?_eq_some_iff.mp hk
  refine ⟨k, mem_range.mpr hlt, ?_⟩
  simp [hk, hfree, hholds]

theorem findEntry_unique
    (honly : ∀ k' entry', entries[k']? = some entry' → holds entry' = true → k' = k) :
    findEntry entries claimed holds = some k := by
  obtain ⟨k', hk'⟩ := Option.isSome_iff_exists.mp (findEntry_isSome hk hfree hholds)
  obtain ⟨-, entry', hentry', hholds'⟩ := findEntry_eq_some hk'
  rw [hk', honly k' entry' hentry' hholds']

end

theorem findEntry_eq_none (h : ∀ entry ∈ entries, holds entry = false) :
    findEntry entries claimed holds = none := by
  cases hfound : findEntry entries claimed holds with
  | none => rfl
  | some k =>
    obtain ⟨-, entry, hentry, hholds⟩ := findEntry_eq_some hfound
    rw [h entry (mem_of_getElem? hentry)] at hholds
    cases hholds

end

/-! ## The pass over the sources -/

variable {previous : List RegistryEntry} {sources : List UserSource} {claimed : List Nat}
  {preferred : List (Option SourceId)} {state state' : Assignment} {ids : List SourceId}
  {id : SourceId} {k : Nat} {source : UserSource}

def choices (hash : Hash) (previous : List RegistryEntry) :
    List UserSource → List Nat → List (Option Nat)
  | [], _ => []
  | source :: sources, claimed =>
    let choice := matchEntry hash previous claimed source
    choice :: choices hash previous sources (choice.toList ++ claimed)

/-- A source takes over the identifier of its entry or has one that no entry has. -/
def IdOf (previous : List RegistryEntry) (choice : Option Nat) (id : SourceId) : Prop :=
  match choice with
  | some k => ∃ entry, previous[k]? = some entry ∧ entry.sourceId = id
  | none => ∀ entry ∈ previous, entry.sourceId ≠ id

variable {entropy : Entropy}

theorem allocateId_fresh {assigned : List SourceId} {attempts : Nat} {entropy' : Entropy}
    (h : allocateId assigned previous attempts entropy = .ok (id, entropy')) :
    id ≠ manualSourceId ∧ id ∉ assigned ∧ ∀ entry ∈ previous, entry.sourceId ≠ id := by
  induction attempts generalizing entropy with
  | zero => cases h
  | succ attempts ih =>
    simp only [allocateId, bind_eq_ok] at h
    obtain ⟨⟨bytes, rest⟩, -, candidate, -, h⟩ := h
    by_cases hfresh : candidate ≠ manualSourceId ∧ candidate ∉ assigned ∧
        ∀ entry ∈ previous, entry.sourceId ≠ candidate
    · rw [if_pos hfresh] at h
      cases h
      exact hfresh
    · rw [if_neg hfresh] at h
      exact ih h

theorem matchEntry_eq_some (h : matchEntry hash previous claimed source = some k) :
    k ∉ claimed ∧ ∃ entry, previous[k]? = some entry ∧
      (source.url ≠ "" ∧ entry.urlDigest = hash.digest source.url ∨
        entry.nameDigest = hash.digest source.name ∧ (source.url ≠ "" → findEntry previous claimed
            (fun e => e.urlDigest == hash.digest source.url) = none)) := by
  unfold matchEntry at h
  rw [Option.or_eq_some_iff] at h
  rcases h with hurl | ⟨hnone, hname⟩
  · by_cases hempty : source.url ≠ ""
    · rw [if_pos hempty] at hurl
      obtain ⟨hfree, entry, hentry, hholds⟩ := findEntry_eq_some hurl
      exact ⟨hfree, entry, hentry, .inl ⟨hempty, by simpa using hholds⟩⟩
    · rw [if_neg hempty] at hurl
      cases hurl
  · obtain ⟨hfree, entry, hentry, hholds⟩ := findEntry_eq_some hname
    refine ⟨hfree, entry, hentry, .inr ⟨by simpa using hholds, fun hempty => ?_⟩⟩
    rwa [if_pos hempty] at hnone

theorem matchSource_eq_some {preferred : Option SourceId}
    (h : matchSource hash previous claimed preferred source = .ok (some k)) :
    k ∉ claimed ∧ ∃ entry, previous[k]? = some entry ∧
      ∀ id, preferred = some id → entry.sourceId = id := by
  cases preferred with
  | none =>
    injection h with hmatch
    obtain ⟨hfree, entry, hentry, -⟩ := matchEntry_eq_some hmatch
    exact ⟨hfree, entry, hentry, nofun⟩
  | some id =>
    simp only [matchSource, bind_eq_ok, okOr_eq_ok] at h
    obtain ⟨index, hfound, hindex⟩ := h
    cases hindex
    obtain ⟨hfree, entry, hentry, hholds⟩ := findEntry_eq_some hfound
    refine ⟨hfree, entry, hentry, fun id' hid => ?_⟩
    cases hid
    simpa using hholds

theorem takeId_eq_ok {matched : Option Nat} (h : takeId previous state matched = .ok (id, state'))
    (hmatched : ∀ k, matched = some k → ∃ entry, previous[k]? = some entry) :
    (∃ k entry, matched = some k ∧ previous[k]? = some entry ∧ entry.sourceId = id ∧
      state'.claimed = k :: state.claimed ∧ state'.assigned = id :: state.assigned) ∨
    (matched = none ∧ (id ≠ manualSourceId ∧ id ∉ state.assigned ∧
        ∀ entry ∈ previous, entry.sourceId ≠ id) ∧
      state'.claimed = state.claimed ∧ state'.assigned = id :: state.assigned) := by
  unfold takeId at h
  cases matched with
  | none =>
    simp only [Option.bind_none, bind_eq_ok] at h
    obtain ⟨⟨fresh, entropy⟩, hfresh, hstate⟩ := h
    cases hstate
    exact .inr ⟨rfl, allocateId_fresh hfresh, rfl, rfl⟩
  | some k =>
    obtain ⟨entry, hentry⟩ := hmatched k rfl
    simp only [Option.bind_some, hentry, Option.map_some] at h
    cases h
    exact .inl ⟨k, entry, rfl, hentry, rfl, rfl, rfl⟩

/-- The identifiers given out so far are those of claimed entries, or new ones. -/
def Assignment.Sound (previous : List RegistryEntry) (state : Assignment) : Prop :=
  ∀ id ∈ state.assigned, (∃ k ∈ state.claimed, (previous[k]?).map sourceId = some id) ∨
    ∀ entry ∈ previous, entry.sourceId ≠ id

theorem Assignment.sound_start (previous : List RegistryEntry) (entropy : Entropy) :
    Assignment.Sound previous { entropy := entropy } := fun _ hid => absurd hid not_mem_nil

theorem assignIds_nodup (hprevious : (previous.map sourceId).Nodup) (hstate : state.Sound previous)
    (h : assignIds hash previous sources preferred state = .ok ids) :
    ids.Nodup ∧ ∀ id ∈ ids, id ∉ state.assigned := by
  induction sources generalizing preferred state ids with
  | nil =>
    cases h
    exact ⟨nodup_nil, nofun⟩
  | cons source sources ih =>
    simp only [assignIds, bind_eq_ok] at h
    obtain ⟨matched, hmatched, ⟨id, state'⟩, htake, others, hothers, hids⟩ := h
    cases hids
    have hvalid : ∀ k, matched = some k → ∃ entry, previous[k]? = some entry := by
      rintro k rfl
      obtain ⟨-, entry, hentry, -⟩ := matchSource_eq_some hmatched
      exact ⟨entry, hentry⟩
    have hnew : id ∉ state.assigned ∧ state'.Sound previous ∧
        state'.assigned = id :: state.assigned := by
      rcases takeId_eq_ok htake hvalid with
        ⟨k, entry, rfl, hentry, hid, hclaimed, hassigned⟩ | ⟨rfl, hfresh, hclaimed, hassigned⟩
      · obtain ⟨hfree, -⟩ := matchSource_eq_some hmatched
        refine ⟨fun hmem => ?_, fun id' hid' => ?_, hassigned⟩
        · rcases hstate id hmem with ⟨k', hk', hsame⟩ | hother
          · obtain ⟨entry', hentry', hid'⟩ := Option.map_eq_some_iff.mp hsame
            have hkk : k' = k := index_of_nodup hprevious hentry' hentry (hid'.trans hid.symm)
            exact hfree (hkk ▸ hk')
          · exact hother entry (mem_of_getElem? hentry) hid
        · rw [hassigned] at hid'
          rw [hclaimed]
          rcases mem_cons.mp hid' with rfl | hold
          · exact .inl ⟨k, mem_cons_self, by rw [hentry, Option.map_some, hid]⟩
          · rcases hstate id' hold with ⟨k', hk', hsame⟩ | hother
            · exact .inl ⟨k', mem_cons_of_mem _ hk', hsame⟩
            · exact .inr hother
      · refine ⟨hfresh.2.1, fun id' hid' => ?_, hassigned⟩
        rw [hassigned] at hid'
        rw [hclaimed]
        rcases mem_cons.mp hid' with rfl | hold
        · exact .inr hfresh.2.2
        · exact hstate id' hold
    obtain ⟨hfresh, hsound, hassigned⟩ := hnew
    obtain ⟨hnodup, hdisjoint⟩ := ih hsound hothers
    rw [hassigned] at hdisjoint
    refine ⟨nodup_cons.mpr ⟨fun hmem => ?_, hnodup⟩, fun id' hid' => ?_⟩
    · exact hdisjoint id hmem mem_cons_self
    · rcases mem_cons.mp hid' with rfl | hmem
      · exact hfresh
      · exact fun hold => hdisjoint id' hmem (mem_cons_of_mem _ hold)

theorem assignIds_length (h : assignIds hash previous sources preferred state = .ok ids) :
    ids.length = sources.length := by
  induction sources generalizing preferred state ids with
  | nil =>
    cases h
    rfl
  | cons source sources ih =>
    simp only [assignIds, bind_eq_ok] at h
    obtain ⟨_, -, ⟨id, state'⟩, -, others, hothers, hids⟩ := h
    cases hids
    rw [length_cons, length_cons, ih hothers]

theorem assignIds_choices (h : assignIds hash previous sources [] state = .ok ids) :
    List.Forall₂ (IdOf previous) (choices hash previous sources state.claimed) ids := by
  induction sources generalizing state ids with
  | nil =>
    cases h
    exact .nil
  | cons source sources ih =>
    simp only [assignIds, bind_eq_ok] at h
    obtain ⟨matched, hmatched, ⟨id, state'⟩, htake, others, hothers, hids⟩ := h
    cases hids
    have hchoice : matchEntry hash previous state.claimed source = matched := by
      injection hmatched
    have hrest := ih hothers
    have hvalid : ∀ k, matched = some k → ∃ entry, previous[k]? = some entry := by
      rintro k rfl
      obtain ⟨-, entry, hentry, -⟩ := matchEntry_eq_some hchoice
      exact ⟨entry, hentry⟩
    rw [choices, hchoice]
    rcases takeId_eq_ok htake hvalid with
      ⟨k, entry, rfl, hentry, hid, hclaimed, -⟩ | ⟨rfl, hfresh, hclaimed, -⟩
    · rw [hclaimed] at hrest
      exact .cons ⟨entry, hentry, hid⟩ hrest
    · rw [hclaimed] at hrest
      exact .cons hfresh.2.2 hrest

theorem choices_get {i : Nat} (h : sources[i]? = some source) :
    ∃ before, (choices hash previous sources claimed)[i]? =
        some (matchEntry hash previous before source) ∧ ∀ k, k ∈ before ↔
        k ∈ claimed ∨ ∃ j < i, (choices hash previous sources claimed)[j]? = some (some k) := by
  induction sources generalizing claimed i with
  | nil => cases h
  | cons first sources ih =>
    cases i with
    | zero =>
      cases h
      exact ⟨claimed, rfl, fun k => by simp⟩
    | succ i =>
      obtain ⟨before, hchoice, hbefore⟩ :=
        @ih ((matchEntry hash previous claimed first).toList ++ claimed) i h
      refine ⟨before, hchoice, fun k => ?_⟩
      rw [hbefore k, mem_append, Option.mem_toList]
      constructor
      · rintro ((hfirst | hclaimed) | ⟨j, hj, hk⟩)
        · exact .inr ⟨0, Nat.succ_pos i, congrArg some hfirst⟩
        · exact .inl hclaimed
        · exact .inr ⟨j + 1, Nat.succ_lt_succ hj, hk⟩
      · rintro (hclaimed | ⟨j, hj, hk⟩)
        · exact .inl (.inr hclaimed)
        · cases j with
          | zero => exact .inl (.inl (Option.some.inj hk))
          | succ j => exact .inr ⟨j, Nat.lt_of_succ_lt_succ hj, hk⟩

theorem choices_at (hash : Hash) (previous : List RegistryEntry) (h : sources[i]? = some source) :
    ∃ before, (choices hash previous sources [])[i]? =
        some (matchEntry hash previous before source) ∧
      ∀ k, k ∈ before ↔ ∃ j < i, (choices hash previous sources [])[j]? = some (some k) := by
  obtain ⟨before, hchoice, hbefore⟩ := @choices_get hash previous sources [] source i h
  exact ⟨before, hchoice, fun k => by simpa using hbefore k⟩

/-! ## Entries and their addresses -/

/-- The entries of a binding as one is made for an accepted configuration. -/
structure Distinct (hash : Hash) (entries : List RegistryEntry) : Prop where
  ids : (entries.map sourceId).Nodup
  names : (entries.map nameDigest).Nodup
  urls : UniqueBut urlDigest (hash.digest "") entries

/-- What is checked of the sources of a configuration: names are unique, and so are the
addresses of those that have one. -/
structure ConfigSnapshot.Accepted (snapshot : ConfigSnapshot) : Prop where
  names : (snapshot.sources.map name).Nodup
  urls : UniqueBut url "" snapshot.sources

/-- The texts of a configuration that digests are taken of. -/
def ConfigSnapshot.texts (snapshot : ConfigSnapshot) : Set String :=
  { text | text = "" ∨ ∃ source ∈ snapshot.sources, text = source.name ∨ text = source.url }

theorem ConfigSnapshot.name_mem_texts {source : UserSource} (snapshot : ConfigSnapshot)
    (h : source ∈ snapshot.sources) : source.name ∈ snapshot.texts := .inr ⟨source, h, .inl rfl⟩

theorem ConfigSnapshot.url_mem_texts {source : UserSource} (snapshot : ConfigSnapshot)
    (h : source ∈ snapshot.sources) : source.url ∈ snapshot.texts := .inr ⟨source, h, .inr rfl⟩

/-- A source in front of another bears the name of the other's entry, and no entry has its
own address. -/
def Displaced (hash : Hash) (previous : List RegistryEntry) (sources : List UserSource) : Prop :=
  ∃ (i j : Nat) (source thief : UserSource) (entry : RegistryEntry),
    j < i ∧ sources[i]? = some source ∧ sources[j]? = some thief ∧ entry ∈ previous ∧
    source.url ≠ "" ∧ entry.urlDigest = hash.digest source.url ∧
    entry.nameDigest = hash.digest thief.name ∧
    (thief.url = "" ∨ ∀ e ∈ previous, e.urlDigest ≠ hash.digest thief.url)

/-- Every source with an address gets the identifier of the entry with that address. -/
def KeepsIdentity (hash : Hash) (previous : List RegistryEntry) (sources : List UserSource)
    (ids : List SourceId) : Prop :=
  ∀ (i : Nat) (source : UserSource) (entry : RegistryEntry),
    sources[i]? = some source → entry ∈ previous → source.url ≠ "" →
    entry.urlDigest = hash.digest source.url → ids[i]? = some entry.sourceId

section

variable {previous : List RegistryEntry} {snapshot : ConfigSnapshot} {entry : RegistryEntry}

theorem Distinct.url_index (hprevious : Distinct hash previous)
    {k' : Nat} {entry' : RegistryEntry} {url : String}
    (hk : previous[k]? = some entry) (hk' : previous[k']? = some entry')
    (hurl : entry.urlDigest = hash.digest url) (hurl' : entry'.urlDigest = hash.digest url)
    (hempty : hash.digest url ≠ hash.digest "") : k = k' :=
  hprevious.urls.index hk hk' (hurl.trans hurl'.symm) (hurl ▸ hempty)

theorem digest_url_ne (hhash : snapshot.texts.InjOn hash.digest)
    (hsource : source ∈ snapshot.sources) (hempty : source.url ≠ "") :
    hash.digest source.url ≠ hash.digest "" :=
  fun heq => hempty (hhash (snapshot.url_mem_texts hsource) (.inl rfl) heq)

theorem matchEntry_url (hprevious : Distinct hash previous) (hk : previous[k]? = some entry)
    (hfree : k ∉ claimed) (hempty : hash.digest source.url ≠ hash.digest "")
    (hurl : entry.urlDigest = hash.digest source.url) :
    matchEntry hash previous claimed source = some k := by
  have hfound : findEntry previous claimed
      (fun e => e.urlDigest == hash.digest source.url) = some k := by
    refine findEntry_unique hk hfree (by simpa using hurl) fun k' entry' hk' hholds => ?_
    exact hprevious.url_index hk' hk (by simpa using hholds) hurl hempty
  unfold matchEntry
  rw [if_pos fun hnone => hempty (congrArg hash.digest hnone), hfound]
  rfl

/-- Without displaced entries every source with an address takes its own entry.  The induction
is on the position: a source in front that took the entry by name has no entry of its own,
since it would have taken that one. -/
theorem choices_own (hhash : snapshot.texts.InjOn hash.digest)
    (hprevious : Distinct hash previous) (hsnapshot : snapshot.Accepted)
    (h : ¬ Displaced hash previous snapshot.sources) (i : Nat)
    (hi : snapshot.sources[i]? = some source) (hk : previous[k]? = some entry)
    (hempty : source.url ≠ "") (hurl : entry.urlDigest = hash.digest source.url) :
    (choices hash previous snapshot.sources [])[i]? = some (some k) := by
  have hinj {a b : UserSource} {i j : Nat} (hi : snapshot.sources[i]? = some a)
      (hj : snapshot.sources[j]? = some b) (h : hash.digest a.url = hash.digest b.url) :
      a.url = b.url :=
    hhash (snapshot.url_mem_texts (mem_of_getElem? hi))
      (snapshot.url_mem_texts (mem_of_getElem? hj)) h
  induction i using Nat.strongRecOn generalizing source k entry with
  | ind i ih =>
    obtain ⟨before, hchoice, hbefore⟩ := choices_at hash previous hi
    have hfree : k ∉ before := by
      intro hmem
      obtain ⟨j, hj, htaken⟩ := (hbefore k).mp hmem
      obtain ⟨thief, hthief⟩ : ∃ thief, snapshot.sources[j]? = some thief := by
        have hlt := (List.getElem?_eq_some_iff.mp hi).1
        exact ⟨_, getElem?_eq_getElem (hj.trans hlt)⟩
      obtain ⟨before', hchoice', -⟩ := choices_at hash previous hthief
      have hmatch : matchEntry hash previous before' thief = some k :=
        Option.some.inj (hchoice'.symm.trans htaken)
      obtain ⟨-, entry', hentry', hreason⟩ := matchEntry_eq_some hmatch
      cases hk.symm.trans hentry'
      rcases hreason with ⟨hempty', hurl'⟩ | ⟨hname, -⟩
      · -- both have the address of the entry
        have hsame : thief.url = source.url := hinj hthief hi (hurl'.symm.trans hurl)
        have := hsnapshot.urls.index hthief hi hsame hempty'
        omega
      · refine h ⟨i, j, source, thief, entry, hj, hi, hthief, mem_of_getElem? hk, hempty,
          hurl, hname, ?_⟩
        by_cases hempty' : thief.url = ""
        · exact .inl hempty'
        · refine .inr fun e he hurl' => ?_
          obtain ⟨m, hm⟩ := getElem?_of_mem he
          have hown := ih j hj hthief hm hempty' hurl'
          have hkm : m = k := Option.some.inj (Option.some.inj (hown.symm.trans htaken))
          subst hkm
          cases hk.symm.trans hm
          have hsame : thief.url = source.url := hinj hthief hi (hurl'.symm.trans hurl)
          have := hsnapshot.urls.index hthief hi hsame hempty'
          omega
    rw [hchoice, matchEntry_url hprevious hk hfree
      (digest_url_ne hhash (mem_of_getElem? hi) hempty) hurl]

theorem choices_displaced (hprevious : Distinct hash previous)
    {thief : UserSource} (hj : j < i) (hi : snapshot.sources[i]? = some source)
    (hthief : snapshot.sources[j]? = some thief) (hk : previous[k]? = some entry)
    (hname : entry.nameDigest = hash.digest thief.name)
    (hother : thief.url = "" ∨ ∀ e ∈ previous, e.urlDigest ≠ hash.digest thief.url) :
    (choices hash previous snapshot.sources [])[i]? ≠ some (some k) := by
  obtain ⟨before, hchoice, hbefore⟩ := choices_at hash previous hi
  have hclaimed : k ∈ before := by
    obtain ⟨before', hchoice', hbefore'⟩ := choices_at hash previous hthief
    rw [hbefore]
    by_cases hfree : k ∈ before'
    · obtain ⟨j', hj', htaken⟩ := (hbefore' k).mp hfree
      exact ⟨j', hj'.trans hj, htaken⟩
    · refine ⟨j, hj, ?_⟩
      have hfound : findEntry previous before'
          (fun e => e.nameDigest == hash.digest thief.name) = some k := by
        refine findEntry_unique hk hfree (by simpa using hname) fun k' entry' hk' hholds => ?_
        have hsame : entry'.nameDigest = entry.nameDigest := by
          rw [hname]
          simpa using hholds
        exact index_of_nodup hprevious.names hk' hk hsame
      have hurl : (if thief.url ≠ "" then
          findEntry previous before' fun e => e.urlDigest == hash.digest thief.url
          else none) = none := by
        by_cases hempty : thief.url ≠ ""
        · rw [if_pos hempty]
          refine findEntry_eq_none fun e he => ?_
          rcases hother with hno | hno
          · exact absurd hno hempty
          · simpa using hno e he
        · rw [if_neg hempty]
      rw [hchoice', matchEntry, hurl, hfound]
      rfl
  intro htaken
  have hmatch : matchEntry hash previous before source = some k :=
    Option.some.inj (hchoice.symm.trans htaken)
  exact (matchEntry_eq_some hmatch).1 hclaimed

/-- A new binding keeps the identities exactly when no entry is displaced. -/
theorem assignIds_keeps (hhash : snapshot.texts.InjOn hash.digest)
    (hprevious : Distinct hash previous) (hsnapshot : snapshot.Accepted)
    (h : assignIds hash previous snapshot.sources [] { entropy := entropy } = .ok ids) :
    KeepsIdentity hash previous snapshot.sources ids ↔
      ¬ Displaced hash previous snapshot.sources := by
  have hids := assignIds_choices h
  constructor
  · rintro hkeeps ⟨i, j, source, thief, entry, hj, hi, hthief, hentry, hempty, hurl, hname, hother⟩
    obtain ⟨k, hk⟩ := getElem?_of_mem hentry
    have hid := hkeeps i source entry hi hentry hempty hurl
    have hnot := choices_displaced hprevious hj hi hthief hk hname hother
    obtain ⟨before, hchoice, -⟩ := choices_at hash previous hi
    obtain ⟨id, hid', hof⟩ := forall₂_getElem hids hchoice
    cases hid.symm.trans hid'
    cases hmatch : matchEntry hash previous before source with
    | none =>
      rw [hmatch] at hof
      exact hof entry hentry rfl
    | some k' =>
      rw [hmatch] at hof hchoice
      obtain ⟨entry', hentry', hsame⟩ := hof
      have hkk : k' = k := index_of_nodup hprevious.ids hentry' hk hsame
      rw [hkk] at hchoice
      exact hnot hchoice
  · intro hdisplaced i source entry hi hentry hempty hurl
    obtain ⟨k, hk⟩ := getElem?_of_mem hentry
    have hown := choices_own hhash hprevious hsnapshot hdisplaced i hi hk hempty hurl
    obtain ⟨id, hid, entry', hentry', hsame⟩ := forall₂_getElem hids hown
    cases hk.symm.trans hentry'
    rw [hid, hsame]

end

/-! ## Preparing a configuration -/

variable {prepared : PreparedSourceConfig}

section

variable {snapshot : ConfigSnapshot} {binding : RegistryBinding}

theorem bindingMatches_length (h : bindingMatches hash snapshot binding = true) :
    binding.entries.length = snapshot.sources.length := by
  simp only [bindingMatches, Bool.and_eq_true, beq_iff_eq] at h
  exact h.1.2

variable {state : RegistryState}

theorem RegistryState.previous_eq (h : state.active = some binding) :
    state.previous = binding.entries := by
  rw [previous, h]

theorem bindingMatches_entry (h : bindingMatches hash snapshot binding = true)
    (hi : snapshot.sources[i]? = some source) :
    ∃ entry, binding.entries[i]? = some entry ∧ entry.urlDigest = hash.digest source.url ∧
      entry.nameDigest = hash.digest source.name := by
  simp only [bindingMatches, Bool.and_eq_true, beq_iff_eq, all_eq_true, entryMatches] at h
  obtain ⟨⟨-, hlength⟩, hall⟩ := h
  obtain ⟨hlt, -⟩ := List.getElem?_eq_some_iff.mp hi
  have hentry : binding.entries[i]? = some (binding.entries[i]) := getElem?_eq_getElem (by omega)
  have hzip : (binding.entries.zip snapshot.sources)[i]? = some (binding.entries[i], source) := by
    rw [getElem?_zip_eq_some]
    exact ⟨hentry, hi⟩
  obtain ⟨hname, hurl⟩ := hall _ (mem_of_getElem? hzip)
  exact ⟨_, hentry, hurl, hname⟩

theorem sourceConfigFromBinding_ids (h : bindingMatches hash snapshot binding = true) :
    (sourceConfigFromBinding hash snapshot binding).sources.map SourceDefinition.id =
      binding.entries.map sourceId := by
  have hfirst : ((binding.entries.zip snapshot.sources).map fun p => p.1.sourceId) =
      ((binding.entries.zip snapshot.sources).map Prod.fst).map sourceId := by
    rw [map_map]
    rfl
  change (map _ (map _ _)) = _
  rw [map_map]
  refine hfirst.trans ?_
  rw [map_fst_zip (bindingMatches_length h).le]

theorem bindFresh_ids (h : bindFresh hash state snapshot entropy preferred = .ok prepared) :
    ∃ ids, assignIds hash state.previous snapshot.sources preferred { entropy := entropy } =
        .ok ids ∧
      prepared.sourceConfig.sources.map SourceDefinition.id = ids ∧
      prepared.binding.entries =
        (ids.zip snapshot.sources).map fun p => registryEntry hash p.1 p.2 := by
  simp only [bindFresh, bind_eq_ok] at h
  obtain ⟨ids, hids, hprepared⟩ := h
  cases hprepared
  refine ⟨ids, hids, ?_, rfl⟩
  have hlength := assignIds_length hids
  change (map _ (map _ _)) = _
  rw [map_map]
  exact map_fst_zip hlength.le

/-- Every binding that is made has distinct identifiers, names and addresses, so the
registry never holds another. -/
theorem bindFresh_distinct (hhash : snapshot.texts.InjOn hash.digest)
    (hstate : Distinct hash state.previous) (hsnapshot : snapshot.Accepted)
    (h : bindFresh hash state snapshot entropy preferred = .ok prepared) :
    Distinct hash prepared.binding.entries := by
  obtain ⟨ids, hids, -, hentries⟩ := bindFresh_ids h
  have hlength := assignIds_length hids
  have hnodup := (assignIds_nodup hstate.ids (Assignment.sound_start _ _) hids).1
  rw [hentries]
  refine ⟨?_, ?_, ?_⟩
  · rw [map_map]
    change ((ids.zip snapshot.sources).map Prod.fst).Nodup
    rwa [map_fst_zip hlength.le]
  · have hnames : ((ids.zip snapshot.sources).map fun p => registryEntry hash p.1 p.2).map
        nameDigest = (snapshot.sources.map name).map hash.digest := by
      calc ((ids.zip snapshot.sources).map fun p => registryEntry hash p.1 p.2).map nameDigest
          = ((ids.zip snapshot.sources).map Prod.snd).map (hash.digest ·.name) := by
            rw [map_map, map_map]
            rfl
        _ = (snapshot.sources.map name).map hash.digest := by
            rw [map_snd_zip hlength.ge, map_map]
            rfl
    rw [hnames]
    refine hsnapshot.names.map_on fun a ha b hb hab => ?_
    obtain ⟨source, hsource, rfl⟩ := mem_map.mp ha
    obtain ⟨source', hsource', rfl⟩ := mem_map.mp hb
    exact hhash (snapshot.name_mem_texts hsource) (snapshot.name_mem_texts hsource') hab
  · have hurls : UniqueBut (fun p : SourceId × UserSource => p.2.url) ""
        (ids.zip snapshot.sources) := by
      have hsnd := hsnapshot.urls
      unfold UniqueBut at hsnd
      rw [← map_snd_zip hlength.ge, pairwise_map] at hsnd
      exact hsnd
    unfold UniqueBut
    rw [pairwise_map]
    refine hurls.imp_of_mem fun ha hb hab hdigest => ?_
    exact congrArg hash.digest (hab (hhash (snapshot.url_mem_texts (of_mem_zip ha).2)
      (snapshot.url_mem_texts (of_mem_zip hb).2) hdigest))

/-- Two bindings agree on the identifiers of the addresses they share. -/
def AgreesByUrl (hash : Hash) (previous entries : List RegistryEntry) : Prop :=
  ∀ entry ∈ entries, ∀ old ∈ previous, entry.urlDigest = old.urlDigest →
    entry.urlDigest ≠ hash.digest "" → entry.sourceId = old.sourceId

/-- A binding that is there for the configuration already keeps the identities, and for a new
one no entry is displaced. -/
def Undisturbed (hash : Hash) (state : RegistryState) (snapshot : ConfigSnapshot) : Prop :=
  match state.active.filter (bindingMatches hash snapshot) with
  | some _ => True
  | none =>
    match state.pending.filter (bindingMatches hash snapshot) with
    | some binding => AgreesByUrl hash state.previous binding.entries
    | none => ¬ Displaced hash state.previous snapshot.sources

theorem keepsIdentity_of_binding (hhash : snapshot.texts.InjOn hash.digest)
    (h : bindingMatches hash snapshot binding = true) : KeepsIdentity hash previous snapshot.sources
        ((sourceConfigFromBinding hash snapshot binding).sources.map SourceDefinition.id) ↔
      AgreesByUrl hash previous binding.entries := by
  rw [sourceConfigFromBinding_ids h]
  constructor
  · intro hkeeps entry hentry old hold hsame hempty
    obtain ⟨i, hi⟩ := getElem?_of_mem hentry
    have hlt := (List.getElem?_eq_some_iff.mp hi).1
    obtain ⟨source, hsource⟩ : ∃ source, snapshot.sources[i]? = some source :=
      ⟨_, getElem?_eq_getElem (bindingMatches_length h ▸ hlt)⟩
    obtain ⟨entry', hentry', hurl, -⟩ := bindingMatches_entry h hsource
    cases hi.symm.trans hentry'
    have hurl' : source.url ≠ "" := by
      intro heq
      rw [hurl, heq] at hempty
      exact hempty rfl
    have hid := hkeeps i source old hsource hold hurl' (hsame.symm.trans hurl)
    rw [getElem?_map, hi] at hid
    exact Option.some.inj hid
  · intro hagrees i source old hsource hold hempty hurl
    obtain ⟨entry, hentry, hurl', -⟩ := bindingMatches_entry h hsource
    have hdigest : entry.urlDigest ≠ hash.digest "" :=
      hurl' ▸ digest_url_ne hhash (mem_of_getElem? hsource) hempty
    have hid := hagrees entry (mem_of_getElem? hentry) old hold (hurl'.trans hurl.symm) hdigest
    rw [getElem?_map, hentry, Option.map_some, hid]

theorem agreesByUrl_self {entries : List RegistryEntry} (h : Distinct hash entries) :
    AgreesByUrl hash entries entries := by
  intro entry hentry old hold hsame hempty
  obtain ⟨i, hi⟩ := getElem?_of_mem hentry
  obtain ⟨j, hj⟩ := getElem?_of_mem hold
  have hij : i = j := h.urls.index hi hj hsame hempty
  subst hij
  cases hi.symm.trans hj
  rfl

/-- Every source whose address is in the active binding gets the identifier it has there,
exactly when the preparation is not disturbed. -/
theorem prepare_keepsIdentity (hhash : snapshot.texts.InjOn hash.digest) {state : RegistryState}
    (hstate : Distinct hash state.previous) (hsnapshot : snapshot.Accepted) {entropy : Entropy}
    {prepared : PreparedSourceConfig} (h : prepare hash state snapshot entropy = .ok prepared) :
    KeepsIdentity hash state.previous snapshot.sources
        (prepared.sourceConfig.sources.map SourceDefinition.id) ↔
      Undisturbed hash state snapshot := by
  unfold prepare prepareWithPreferredIds at h
  unfold Undisturbed
  cases hactive : state.active.filter (bindingMatches hash snapshot) with
  | some active =>
    rw [hactive] at h
    cases h
    obtain ⟨hsome, hmatches⟩ := Option.filter_eq_some_iff.mp hactive
    have hprevious := state.previous_eq hsome
    rw [keepsIdentity_of_binding hhash hmatches, hprevious]
    rw [hprevious] at hstate
    exact iff_of_true (agreesByUrl_self hstate) trivial
  | none =>
    rw [hactive] at h
    cases hpending : state.pending.filter (bindingMatches hash snapshot) with
    | some pending =>
      rw [hpending] at h
      cases h
      have hmatches := (Option.filter_eq_some_iff.mp hpending).2
      exact keepsIdentity_of_binding hhash hmatches
    | none =>
      rw [hpending] at h
      obtain ⟨ids, hids, hsources, -⟩ := bindFresh_ids h
      rw [hsources]
      exact assignIds_keeps hhash hstate hsnapshot hids

end

/-! ## Every registry that is reached -/

/-- `activate` on the state it has loaded: the configuration, and the state it writes, if any. -/
def activate (state : RegistryState) (prepared : PreparedSourceConfig) :
    Except RegistryError (SourceConfig × Option RegistryState) :=
  if prepared.activate then do
    ensure (state.pending = some prepared.binding) .invalidRegistry
    return (prepared.sourceConfig, some { active := some prepared.binding })
  else .ok (prepared.sourceConfig, none)

/-- The states of the file, where the configurations have their texts in `texts`.  A write that
fails has replaced the file or not, a checkpoint brings back an earlier state, and a file that
is corrupt counts as an empty one. -/
inductive Reached (hash : Hash) (texts : Set String) : RegistryState → Prop where
  | empty : Reached hash texts {}
  | prepare {state state' : RegistryState} {snapshot : ConfigSnapshot} {entropy : Entropy}
      {preferred : List (Option SourceId)} {prepared : PreparedSourceConfig}
      (hstate : Reached hash texts state) (hsnapshot : snapshot.Accepted)
      (htexts : snapshot.texts ⊆ texts)
      (h : prepareWithPreferredIds hash state snapshot entropy preferred = .ok prepared)
      (hwritten : prepared.written = some state') : Reached hash texts state'
  | activate {state state' : RegistryState} {prepared : PreparedSourceConfig}
      {config : SourceConfig} (hstate : Reached hash texts state)
      (h : activate state prepared = .ok (config, some state')) : Reached hash texts state'

theorem written_of_prepare {state state' : RegistryState} {snapshot : ConfigSnapshot}
    {entropy : Entropy} {preferred : List (Option SourceId)} {prepared : PreparedSourceConfig}
    (h : prepareWithPreferredIds hash state snapshot entropy preferred = .ok prepared)
    (hwritten : prepared.written = some state') : state' = { state with pending := none } ∨
      bindFresh hash state snapshot entropy preferred = .ok prepared ∧
        state' = { state with pending := some prepared.binding } := by
  unfold prepareWithPreferredIds at h
  by_cases hpreferred : preferred ≠ [] ∧ preferred.length ≠ snapshot.sources.length
  · rw [if_pos hpreferred] at h
    cases h
  rw [if_neg hpreferred] at h
  split at h
  next binding hactive =>
    cases h
    exact .inl (Option.some.inj (Option.ite_none_right_eq_some.mp hwritten).2).symm
  · split at h
    next binding hpending =>
      cases h
      cases hwritten
    · refine .inr ⟨h, ?_⟩
      simp only [bindFresh, bind_eq_ok] at h
      obtain ⟨ids, -, hprepared⟩ := h
      cases hprepared
      exact (Option.some.inj hwritten).symm

/-- What every new binding takes over from the entries before it is true of all bindings on
file. -/
theorem Reached.forall_bindings {texts : Set String} {P : List RegistryEntry → Prop}
    (hnil : P [])
    (hfresh : ∀ {state snapshot entropy preferred prepared}, P (RegistryState.previous state) →
      snapshot.Accepted → snapshot.texts ⊆ texts →
        bindFresh hash state snapshot entropy preferred = .ok prepared →
        P prepared.binding.entries)
    {state : RegistryState} (h : Reached hash texts state) :
    (∀ binding ∈ state.active, P binding.entries) ∧
      ∀ binding ∈ state.pending, P binding.entries := by
  induction h with
  | empty => exact ⟨nofun, nofun⟩
  | @prepare state _ _ _ _ _ hstate hsnapshot htexts h hwritten ih =>
    rcases written_of_prepare h hwritten with rfl | ⟨hbound, rfl⟩
    · exact ⟨ih.1, nofun⟩
    · have hprevious : P state.previous := by
        unfold RegistryState.previous
        cases hactive : state.active with
        | none => exact hnil
        | some binding => exact ih.1 binding hactive
      refine ⟨ih.1, ?_⟩
      rintro binding ⟨⟩
      exact hfresh hprevious hsnapshot htexts hbound
  | activate hstate h ih =>
    unfold Config.activate at h
    split_ifs at h
    · obtain ⟨_, hpending, hdone⟩ := bind_eq_ok.mp h
      cases hdone
      refine ⟨?_, nofun⟩
      rintro binding ⟨⟩
      exact ih.2 _ (of_decide_eq_true (ensure_eq_ok.mp hpending))
    · cases h

/-- Whatever is called, in whatever order, no binding on file has an identifier, a name or an
address twice. -/
theorem Reached.distinct_bindings {texts : Set String} {state : RegistryState}
    (hhash : texts.InjOn hash.digest) (h : Reached hash texts state) :
    (∀ binding ∈ state.active, Distinct hash binding.entries) ∧
      ∀ binding ∈ state.pending, Distinct hash binding.entries :=
  h.forall_bindings ⟨nodup_nil, nodup_nil, .nil⟩ fun hstate hsnapshot htexts =>
    bindFresh_distinct (hhash.mono htexts) hstate hsnapshot

/-! ## A source that takes another's entry -/

def sampleHash : Hash where
  digest text := text
  sourceConfig _ _ := ""

def sampleRegistry : RegistryState where
  active := some ⟨"c1", [⟨⟨"src_1"⟩, "A", "https://one.example"⟩,
    ⟨⟨"src_2"⟩, "B", "https://two.example"⟩]⟩

theorem sampleRegistry_distinct : Distinct sampleHash sampleRegistry.previous := by
  refine ⟨by decide, by decide, ?_⟩
  unfold UniqueBut
  decide

/-- The second source was renamed, and the first has its old name and a new address. -/
def sampleStolen : ConfigSnapshot :=
  ⟨"c2", .merge, [⟨"B", true, "https://three.example", [], .auto, .generic, {}⟩,
    ⟨"C", true, "https://two.example", [], .auto, .generic, {}⟩]⟩

/-- Only the order of the sources and the address of the first have changed. -/
def sampleMoved : ConfigSnapshot :=
  ⟨"c2", .merge, [⟨"B", true, "https://two.example", [], .auto, .generic, {}⟩,
    ⟨"A", true, "https://three.example", [], .auto, .generic, {}⟩]⟩

def sampleEntropy : Entropy := [some (Vector.replicate 16 1)]

theorem sampleMoved_not_displaced :
    ¬ Displaced sampleHash sampleRegistry.previous sampleMoved.sources := by
  rintro ⟨i, j, source, thief, entry, hj, hi, -, hentry, -, hurl, -⟩
  have hlt : i < 2 := (List.getElem?_eq_some_iff.mp hi).1
  have hone : i = 1 := by omega
  subst hone
  cases hi
  have hnone : ∀ e ∈ sampleRegistry.previous, e.urlDigest ≠ "https://three.example" := by decide
  exact hnone entry hentry hurl

theorem sampleMoved_keepsIdentity :
    ∃ prepared, prepare sampleHash sampleRegistry sampleMoved sampleEntropy = .ok prepared ∧
      KeepsIdentity sampleHash sampleRegistry.previous sampleMoved.sources
        (prepared.sourceConfig.sources.map SourceDefinition.id) := by
  have hsnapshot : sampleMoved.Accepted := by
    refine ⟨by decide, ?_⟩
    unfold UniqueBut
    decide
  have hprepare : ∃ prepared, prepare sampleHash sampleRegistry sampleMoved sampleEntropy =
      .ok prepared := ⟨_, rfl⟩
  obtain ⟨prepared, hprepare⟩ := hprepare
  refine ⟨prepared, hprepare, ?_⟩
  exact (prepare_keepsIdentity (fun _ _ _ _ h => h) sampleRegistry_distinct hsnapshot hprepare).mpr
    sampleMoved_not_displaced

/-- The first source takes the second's entry by its old name, so the second gets a new
identifier although its address has not changed. -/
theorem sampleStolen_loses_identity :
    ∃ prepared, prepare sampleHash sampleRegistry sampleStolen sampleEntropy = .ok prepared ∧
      ¬ KeepsIdentity sampleHash sampleRegistry.previous sampleStolen.sources
        (prepared.sourceConfig.sources.map SourceDefinition.id) := by
  refine ⟨_, rfl, fun hkeeps => ?_⟩
  have hid := hkeeps 1 ⟨"C", true, "https://two.example", [], .auto, .generic, {}⟩
    ⟨⟨"src_2"⟩, "B", "https://two.example"⟩ rfl (by decide) (by decide) rfl
  revert hid
  decide +kernel

theorem sampleMoved_reached : ∃ state : RegistryState, Reached sampleHash sampleMoved.texts state ∧
    state.pending.isSome = true ∧
      ∀ binding ∈ state.pending, Distinct sampleHash binding.entries := by
  have hsnapshot : sampleMoved.Accepted := by
    refine ⟨by decide, ?_⟩
    unfold UniqueBut
    decide
  have hreached := @Reached.prepare sampleHash sampleMoved.texts {} _ sampleMoved
    [some (.replicate 16 1), some (.replicate 16 2)] [] _ .empty hsnapshot subset_rfl rfl rfl
  exact ⟨_, hreached, rfl, (hreached.distinct_bindings fun _ _ _ _ h => h).2⟩

end NetHop.Config
