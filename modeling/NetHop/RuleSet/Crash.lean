import NetHop.RuleSet.Publish
import NetHop.Runs

/-!
# Crashes

A replacement is prepared, published and then committed or rolled back by a
process that can be killed at every step.  The next opening puts back the old
pair, or keeps the new one when `commit` removed the journal; only a journal that
was cut short stops it.
-/

namespace NetHop.RuleSet

open FaultIo Io Tree

/-! ## The state a transaction starts in -/

/-- The pair `old` is in place and the names of `tag` are not taken. -/
structure Idle (tag : Tag) (old : Pair) (t : Store) : Prop where
  clean : Clean old t
  free : ∀ s : Side, t.get (s.previous tag.journal) = none

/-- The names `cleanup_stale_transactions` removes. -/
def Stale : RuleName → Prop
  | .previousDomain _ => True
  | .previousIp _ => True
  | .candidate _ => True
  | _ => False

section Opened

variable {φ : Faults} {t u : Store}

theorem removeJournal_done (h : removeJournal φ t = (.done (), u)) : u.get .journal = none := by
  obtain ⟨_, t', hremove, hsync⟩ := bind_eq_done.mp h
  obtain ⟨-, -, rfl⟩ := removeFile_eq_done.mp hremove
  have hsame : u.get .journal = (unlink RuleName.journal t).get .journal :=
    Keeps.holds frame_syncDirectory rfl hsync
  rw [hsame, get_unlink, if_pos rfl]

theorem replay_done {j : RuleSetJournal} (h : replay φ j t = (.done (), u)) :
    u.get .journal = none := by
  obtain ⟨restored, t', -, hrest⟩ := bind_eq_done.mp h
  cases restored with
  | false => cases hrest
  | true =>
    obtain ⟨there, _, -, hfinish⟩ := bind_eq_done.mp hrest
    cases there with
    | false => exact removeJournal_done hfinish
    | true =>
      obtain ⟨isDir, _, -, hcandidate⟩ := bind_eq_done.mp hfinish
      cases isDir with
      | false => cases hcandidate
      | true =>
        obtain ⟨_, _, -, hremove⟩ := bind_eq_done.mp hcandidate
        exact removeJournal_done hremove

theorem recoverInterrupted_done (h : recoverInterrupted φ t = (.done (), u)) :
    u.get .journal = none := by
  obtain ⟨_, t', -, hreplay⟩ := bind_eq_done.mp h
  cases hj : journalState t' with
  | absent =>
    rw [replayJournal_of_absent hj] at hreplay
    cases hreplay
    exact journalState_eq_absent.mp hj
  | unreadable =>
    rw [replayJournal_of_unreadable hj] at hreplay
    cases hreplay
  | valid j =>
    rw [replayJournal_of_valid hj] at hreplay
    exact replay_done hreplay

theorem cleanupEntry_done {n : RuleName} {b : Bool} (hn : Stale n)
    (h : cleanupEntry φ n t = (.done b, u)) : u.get n = none := by
  have hfile : ∀ m : RuleName, (do
      if ← gets fun t : Store => isRegular t m then
        removeFile (φ (.cleanup m)) () m
        pure true
      else throw () : Io Store Unit Bool) t = (.done b, u) → u.get m = none := by
    intro m h
    obtain ⟨regular, _, hlook, hrest⟩ := bind_eq_done.mp h
    cases regular with
    | false => cases hrest
    | true =>
      obtain ⟨_, _, hremove, hret⟩ := bind_eq_done.mp hrest
      cases hret
      obtain ⟨-, -, rfl⟩ := removeFile_eq_done.mp hremove
      rw [get_unlink, if_pos rfl]
  cases n with
  | previousDomain suffix | previousIp suffix => exact hfile _ h
  | candidate suffix =>
    obtain ⟨isDir, _, hlook, hrest⟩ := bind_eq_done.mp h
    cases isDir with
    | false => cases hrest
    | true =>
      obtain ⟨_, _, hremove, hret⟩ := bind_eq_done.mp hrest
      cases hret
      obtain ⟨-, -, rfl⟩ := removeDirAll_eq_done.mp hremove
      rw [get_unlink, if_pos rfl]
  | domain | ip | journal | other name => exact hn.elim

theorem cleanupEntries_done {names : List RuleName} (hnodup : names.Nodup) {b : Bool}
    (h : cleanupEntries φ names t = (.done b, u)) :
    (∀ n ∈ names, Stale n → u.get n = none) ∧ ∀ n ∉ names, u.get n = t.get n := by
  induction names generalizing t b with
  | nil =>
    cases h
    exact ⟨nofun, fun _ _ => rfl⟩
  | cons n ns ih =>
    rw [List.nodup_cons] at hnodup
    obtain ⟨removed, t', hentry, hrest⟩ := bind_eq_done.mp h
    obtain ⟨rest, t'', hentries, hret⟩ := bind_eq_done.mp hrest
    cases hret
    obtain ⟨hin, hout⟩ := ih hnodup.2 hentries
    refine ⟨fun m hm hstale => ?_, fun m hm => ?_⟩
    · rcases List.mem_cons.mp hm with rfl | hm
      · rw [hout m hnodup.1]
        exact cleanupEntry_done hstale hentry
      · exact hin m hm hstale
    · rw [List.mem_cons, not_or] at hm
      rw [hout m hm.2]
      exact Keeps.holds (frame_cleanupEntry hm.1) rfl hentry

/-- A store that was opened has no journal and no entry of a transaction. -/
theorem openStore_done (h : openStore φ t = (.done (), u)) :
    u.get .journal = none ∧ ∀ n, Stale n → u.get n = none := by
  obtain ⟨_, t', hrecover, hcleanup⟩ := bind_eq_done.mp h
  have hjournal := recoverInterrupted_done (mapError_eq_done.mp hrecover)
  obtain ⟨_, t₁, hlist, hstale⟩ := bind_eq_done.mp (mapError_eq_done.mp hcleanup)
  cases Keeps.state_eq (Keeps.probe _ _) hlist
  rw [gets_bind_apply] at hstale
  obtain ⟨changed, t'', hentries, hsync⟩ := bind_eq_done.mp hstale
  obtain ⟨hin, hout⟩ := cleanupEntries_done t'.names_nodup hentries
  -- The flush at the end, if there is one, changes nothing.
  have hsame : u = t'' := by
    cases changed with
    | false => cases hsync; rfl
    | true => exact Keeps.state_eq (Keeps.probe _ _) hsync
  have hgone : ∀ n, t'.get n = none → u.get n = none := by
    intro n hnone
    rw [hsame, hout n, hnone]
    rw [Dir.mem_names, hnone]
    simp
  refine ⟨hgone _ hjournal, fun n hn => ?_⟩
  by_cases hmem : n ∈ t'.names
  · rw [hsame]
    exact hin n hmem hn
  · refine hgone n ?_
    rw [Dir.mem_names] at hmem
    simpa using hmem

/-- Every transaction of a store that was opened on a complete pair starts idle, and
nothing of any other transaction is left. -/
theorem idle_of_openStore {old : Pair} (h : openStore φ t = (.done (), u))
    (hc : CompletePair u old) (tag : Tag) : Idle tag old u ∧ ∀ n, Stale n → u.get n = none := by
  obtain ⟨hjournal, hstale⟩ := openStore_done h
  have hcurrent : ∀ s : Side, ∀ v, u.get s.current = some v → v.isFile = true := by
    intro s v hv
    obtain ⟨f, hf, -⟩ := exists_file_of_contentAt (hc s)
    cases hf.symm.trans hv
    rfl
  refine ⟨⟨⟨fun n v hv => ?_, ?_, hc⟩, fun s => ?_⟩, hstale⟩
  · cases n with
    | domain => exact hcurrent .domain v hv
    | ip => exact hcurrent .ip v hv
    | journal => rfl
    | previousDomain suffix => rw [hstale (.previousDomain suffix) trivial] at hv; cases hv
    | previousIp suffix => rw [hstale (.previousIp suffix) trivial] at hv; cases hv
    | candidate suffix => rw [hstale (.candidate suffix) trivial] at hv; cases hv
    | other name => rfl
  · unfold journalState
    rw [hjournal]
  · cases s with
    | domain => exact hstale tag.previousDomain trivial
    | ip => exact hstale tag.previousIp trivial

theorem openStore_recoverable {p : Pair} (hfind : FindsBackups φ) (h : Recoverable p t) :
    Recoverable p (openStore φ t).2 :=
  (openStore_triple (U := True) hfind).stops (fun _ _ h => h.1) (fun _ h => h.1)
    |>.final (S := Recoverable p) ⟨h, fun _ => trivial⟩ (fun _ _ h => h.recoverable) fun _ h => h

end Opened

/-! ## A replacement that is killed -/

inductive Decision where
  | commit
  | rollback

/-- One replacement of the rule sets, with the verdict of the checker and how each
step ends. -/
structure Replacement where
  tag : Tag
  pair : Pair
  checks : Bool
  decision : Decision
  faults : Faults

namespace Replacement

variable (st : RuleSetStore) (x : Replacement)

/-- Up to the publication; `none` when there is nothing to publish. -/
def publication : Run (Option PublishedRuleSet) := do
  match ← prepare st x.faults x.tag x.pair x.checks with
  | .unchanged => pure none
  | .prepared p => do
    let published ← publish st x.faults p
    pure (some published)

def settle : Option PublishedRuleSet → Run Unit
  | none => pure ()
  | some published =>
    match x.decision with
    | .commit => commit st x.faults published
    | .rollback => rollback st x.faults published

def run : Run Unit := do
  x.settle st (← x.publication st)

/-- The process got as far as `commit`, and `commit` as far as removing the
journal that `publish` left. -/
def CommitRemovedJournal (t : Store) : Prop :=
  x.decision = .commit ∧ (∃ published u, x.publication st t = (.done (some published), u)) ∧
    (x.run st t).2.get .journal = none

/-- The next opening succeeds with the old pair, or with the new pair of a
replacement that was committed. -/
def Recovers (old : Pair) (t : Store) : Prop :=
  ∃ u, openStore noFaults (x.run st t).2 = (.done (), u) ∧
    (CompletePair u old ∨ CompletePair u x.pair) ∧
    (CompletePair u x.pair → x.CommitRemovedJournal st t)

/-- The process is killed between creating the journal and completing it. -/
def CutsJournal : Prop :=
  x.checks = true ∧ (∀ site ∈ stagingSites, x.faults site = .none) ∧
    TearsJournal (x.faults .writeJournal)

variable {st : RuleSetStore} {x : Replacement} {old : Pair} {t : Store}

theorem cutsJournal_of_tears (h : ¬ StagingStops x.faults x.checks)
    (htears : TearsJournal (x.faults .writeJournal)) : x.CutsJournal := by
  unfold StagingStops at h
  push Not at h
  exact ⟨h.1, h.2, htears⟩

theorem ne_of_unchanged_eq_false (hc : CompletePair t old) (h : unchanged t x.pair = false) :
    x.pair ≠ old := by
  rintro hpair
  have hsame : ∀ s : Side, sameContent t s.current (s.pick old) = true := by
    intro s
    obtain ⟨f, hf, hvalue⟩ := exists_file_of_contentAt (hc s)
    unfold sameContent
    rw [hf]
    simp [Node.read, Leaf.read, hvalue]
  have htrue : unchanged t old = true := by
    unfold unchanged
    rw [Bool.and_eq_true]
    exact ⟨hsame .domain, hsame .ip⟩
  rw [hpair, htrue] at h
  cases h

theorem pair_eq_of_complete {p q : Pair} (hp : CompletePair t p) (hq : CompletePair t q) :
    p = q := by
  have hside : ∀ s : Side, s.pick p = s.pick q := by
    intro s
    have := (hp s).symm.trans (hq s)
    simpa using this
  exact Prod.ext (hside .domain) (hside .ip)

/-- Killed before the publication is complete, the process leaves the old pair. -/
theorem publication_triple (hclean : Clean old t) (hφ : ∀ site, (x.faults site).NoFail) :
    Io.Triple (fun u => u = t) (x.publication st)
      (fun r u => ∀ published, r = some published → published = ⟨st.root, x.tag⟩ ∧
        Published x.tag old x.pair u ∧ x.pair ≠ old)
      (fun _ _ => True) (fun u => Kept x.CutsJournal old u ∧ x.pair ≠ old) := by
  refine .bind ((prepare_triple hclean.tidy).stops (fun _ _ _ => trivial) fun u h => ?_)
    fun r => ?_
  · exact ⟨hclean.kept.beside h.1, ne_of_unchanged_eq_false hclean.complete h.2.2⟩
  · cases r with
    | unchanged => exact .ret fun u _ => nofun
    | prepared pr =>
      rintro u ⟨hbeside, hprepared⟩
      obtain ⟨rfl, hstaged, hruns, hdiffers⟩ := hprepared pr rfl
      have hne := ne_of_unchanged_eq_false hclean.complete hdiffers
      have hpublish : Leaves (fun v => Kept x.CutsJournal old v ∧ Staged x.tag.candidate x.pair v)
          (publish st x.faults ⟨st.root, x.tag⟩)
          (fun r v => r = ⟨st.root, x.tag⟩ ∧ Published x.tag old x.pair v)
          (Kept x.CutsJournal old) :=
        publish_triple (publishSafe_of_noFail hφ) (cutsJournal_of_tears hruns)
      refine (hpublish.stops (fun _ _ _ => trivial) fun v h => ⟨h, hne⟩).bind
        (fun published => ?_) u ⟨hclean.kept.beside hbeside, hstaged⟩
      refine .ret fun v hv published' h => ?_
      cases h
      exact ⟨hv.1, hv.2, hne⟩

theorem publishCandidate_cut {φ : Faults} {tag : Tag} {p : Pair} (hφ : ∀ site, (φ site).NoFail)
    (htears : TearsJournal (φ .writeJournal)) :
    Io.Triple (fun u => Idle tag p u) (publishCandidate st φ tag) (fun _ _ => False)
      (fun _ _ => False) (fun u => journalState u = .unreadable) := by
  -- The names are free, whether or not the lookups see it.
  have hfree : ∀ (s : Side) (site : Site), Triple (fun u => Idle tag p u)
      (sees (φ site) (pathExists · (s.previous tag.journal)) : Run Bool)
      (fun taken u => taken = false ∧ Idle tag p u) (fun _ _ => False)
      (fun u => journalState u = .unreadable) :=
    fun s site => .look fun u hu => ⟨by simp [pathExists, hu.free s], hu⟩
  refine (hfree .domain .findPreviousDomain).bind fun domain => .assuming ?_
  rintro rfl
  refine (hfree .ip .findPreviousIp).bind fun ip => .assuming ?_
  · rintro rfl
    refine Triple.bind (Q := fun _ _ => False) ?_ fun _ u hu => hu.elim
    intro u hu
    have hnone := journalState_eq_absent.mp hu.clean.absent
    obtain ⟨k, hk, hpos, hlt⟩ := htears
    have hcrash : φ .writeJournal = .crash k := by
      rcases hk with hk | hk
      · exact absurd hk (hφ _ k)
      · exact hk
    refine Triple.call (P := fun v => v = u)
      (l := ((writeStates (RuleContent.journal tag.journal)).map
        (File.mk · true)).map (put (.entry .journal))) ?_ ?_ ?_ ?_ u rfl
    · rintro v rfl
      simp [leafAt, hnone]
    · intro h
      rw [hcrash] at h
      cases h
    · intro n h
      rw [hcrash] at h
      cases h
    · rintro n hn v rfl
      rw [hcrash] at hn
      cases hn
      -- An empty file, or a part of the journal over it.
      obtain rfl | rfl : k = 1 ∨ k = 2 := by omega
      · exact (hu.clean.tornJournal (c := .bytes []) (by simp)).2
      · have := (hu.clean.tornJournal (c := .cut) (by simp)).2
        rwa [← put_put _ ⟨.bytes [], true⟩] at this

theorem publication_cut (hidle : Idle x.tag old t) (hφ : ∀ site, (x.faults site).NoFail)
    (hcut : x.CutsJournal) :
    Io.Triple (fun u => u = t) (x.publication st) (fun r _ => r = none) (fun _ _ => True)
      (fun u => journalState u = .unreadable) := by
  refine .bind ((prepare_triple hidle.clean.tidy).stops (fun _ _ _ => trivial) fun u h => ?_)
    fun r => ?_
  · obtain ⟨site, hsite, hstops⟩ := h.2.1 hcut.1
    exact absurd (hcut.2.1 site hsite) hstops
  · cases r with
    | unchanged => exact .ret fun u _ => rfl
    | prepared pr =>
      rintro u ⟨hbeside, hprepared⟩
      obtain ⟨rfl, -⟩ := hprepared pr rfl
      have hidle' : Idle x.tag old u := ⟨hidle.clean.sameOn hbeside.1 hbeside.2,
          fun s => (hbeside.2 _ (outside_previous x.tag s)).trans (hidle.free s)⟩
      have hpublish : Triple (fun v => Idle x.tag old v)
          (publish st x.faults ⟨st.root, x.tag⟩) (fun _ _ => False) (fun _ _ => True)
          (fun v => journalState v = .unreadable) := by
        unfold publish
        rw [if_neg (by simp)]
        refine .bind (Q := fun _ _ => False) (.attempt
          (publishCandidate_cut hφ hcut.2.2)) fun _ v hv => hv.elim
      exact hpublish.bind (fun _ v hv => hv.elim) u hidle'

theorem settle_crashed {u : Store} (hpublished : Published x.tag old x.pair u)
    (hcrash : (x.settle st (some ⟨st.root, x.tag⟩) u).1 = .crashed) :
    Leaving x.tag old old (x.settle st (some ⟨st.root, x.tag⟩) u).2 ∨
      (x.decision = .commit ∧ Clean x.pair (x.settle st (some ⟨st.root, x.tag⟩) u).2) := by
  unfold settle at hcrash ⊢
  cases hd : x.decision with
  | commit =>
    rw [hd] at hcrash
    rcases commit_triple.crashed ⟨hpublished.guard, fun _ => hpublished.complete⟩ hcrash with h | h
    · exact .inl (.inl h)
    · exact .inr ⟨rfl, h⟩
  | rollback =>
    rw [hd] at hcrash
    exact .inl (rollback_triple.crashed ⟨hpublished.guard, hpublished.backups⟩ hcrash)

theorem run_crashed (hidle : Idle x.tag old t) (hφ : ∀ site, (x.faults site).NoFail)
    (hcrash : (x.run st t).1 = .crashed) : x.pair ≠ old ∧ ((Kept x.CutsJournal old (x.run st t).2 ∧
          (x.CutsJournal → journalState (x.run st t).2 = .unreadable)) ∨
        (¬ x.CutsJournal ∧ Clean x.pair (x.run st t).2 ∧ x.CommitRemovedJournal st t)) := by
  have hpub := (publication_triple hidle.clean hφ : Triple _ (x.publication st) _ _ _) t rfl
  have hcut : x.CutsJournal → _ := fun hcut =>
    (publication_cut hidle hφ hcut : Triple _ (x.publication st) _ _ _) t rfl
  rcases hrun : x.publication st t with ⟨o, u⟩
  rw [hrun] at hpub hcut
  cases o with
  | error e =>
    unfold run at hcrash
    rw [bind_of_error hrun] at hcrash
    cases hcrash
  | crashed =>
    have hstate : x.run st t = (.crashed, u) := bind_of_crashed hrun
    rw [hstate]
    exact ⟨hpub.2, .inl ⟨hpub.1, hcut⟩⟩
  | done r =>
    have hstate : x.run st t = x.settle st r u := bind_of_done hrun
    cases r with
    | none =>
      rw [hstate] at hcrash
      cases hcrash
    | some published =>
      obtain ⟨rfl, hpublished, hne⟩ := hpub published rfl
      have hnot : ¬ x.CutsJournal := fun h => nomatch hcut h
      refine ⟨hne, ?_⟩
      have hleaving := settle_crashed hpublished (hstate ▸ hcrash)
      rw [← hstate] at hleaving
      rcases hleaving with hleaving | ⟨hd, hclean⟩
      · refine .inl ⟨?_, fun h => absurd h hnot⟩
        rcases hleaving with h | h <;> exact h.kept
      · exact .inr ⟨hnot, hclean, hd, ⟨_, u, hrun⟩, journalState_eq_absent.mp hclean.absent⟩

/-- The next opening recovers exactly when the journal was not cut short. -/
theorem recovers_iff (hidle : Idle x.tag old t) (hφ : ∀ site, (x.faults site).NoFail)
    (hcrash : (x.run st t).1 = .crashed) : x.Recovers st old t ↔ ¬ x.CutsJournal := by
  obtain ⟨hne, hleft⟩ := run_crashed hidle hφ hcrash
  constructor
  · rintro ⟨u, hopen, -⟩ hcut
    rcases hleft with ⟨-, hunreadable⟩ | ⟨hnot, -⟩
    · exact openStore_ne_done (hunreadable hcut) u hopen
    · exact hnot hcut
  · intro hnot
    rcases hleft with ⟨hkept, -⟩ | ⟨-, hclean, hcommit⟩
    · -- The old pair comes back, and it is not the new one.
      obtain ⟨u, hopen, hclean⟩ := openStore_succeeds
        ⟨hkept.recoverable, fun h => hnot (hkept.readable h)⟩
      refine ⟨u, hopen, .inl hclean.complete, fun hnew => ?_⟩
      exact absurd (pair_eq_of_complete hnew hclean.complete) hne
    · obtain ⟨u, hopen, hclean'⟩ := openStore_succeeds hclean.kept
      exact ⟨u, hopen, .inr hclean'.complete, fun _ => hcommit⟩

/-- However often the openings after a kill fail or are killed themselves, as long as they
do not overlook a backup, the first one that nothing disturbs has the old pair or the new one in
place, and which of the two is settled. -/
theorem killed_then_reopened (hidle : Idle x.tag old t) (hφ : ∀ site, (x.faults site).NoFail)
    (hcrash : (x.run st t).1 = .crashed) : ∃ p, (p = old ∨ p = x.pair) ∧
      ∀ attempts : List Faults, (∀ φ ∈ attempts, FindsBackups φ) → CompletePair
        (openStore noFaults
          (Runs.run (fun t φ => (openStore φ t).2) (x.run st t).2 attempts)).2 p := by
  have hreopen {p : Pair} (hp : Recoverable p (x.run st t).2) (attempts : List Faults)
      (hfind : ∀ φ ∈ attempts, FindsBackups φ) : CompletePair (openStore noFaults
        (Runs.run (fun t φ => (openStore φ t).2) (x.run st t).2 attempts)).2 p :=
    openStore_noFaults (Runs.run_invariant (fun _ _ h hφ => openStore_recoverable hφ h) hp
      (Runs.guarded_of_forall hfind _))
  obtain ⟨-, ⟨hkept, -⟩ | ⟨-, hclean, -⟩⟩ := run_crashed hidle hφ hcrash
  · exact ⟨old, .inl rfl, hreopen hkept.recoverable⟩
  · exact ⟨x.pair, .inr rfl, hreopen hclean.recoverable⟩

end Replacement

/-! A replacement of two small rule sets, killed at a chosen step. -/

def sampleStore : RuleSetStore := ⟨"/rules", 1024⟩

def sampleOld : Pair := ([83, 82, 83, 1], [83, 82, 83, 2])

def sampleNew : Pair := ([83, 82, 83, 3], [83, 82, 83, 4])

def sampleTree : Store :=
  (Dir.empty.set .domain (.file (.bytes sampleOld.1) true)).set .ip
    (.file (.bytes sampleOld.2) true)

def sampleTag : Tag := ⟨1, 0, by decide, by decide⟩

def killedAt (site : Site) (k : Nat) : Replacement where
  tag := sampleTag
  pair := sampleNew
  checks := true
  decision := .commit
  faults := fun s => if s = site then .crash k else .none

theorem get_sampleTree (n : RuleName) : sampleTree.get n =
    if n = .ip then some (.file (.bytes sampleOld.2) true)
    else if n = .domain then some (.file (.bytes sampleOld.1) true) else none := by
  unfold sampleTree
  rw [Dir.get_set, Dir.get_set, Dir.get_empty]

theorem idle_sampleTree (tag : Tag) : Idle tag sampleOld sampleTree := by
  refine ⟨⟨fun n v hv => ?_, ?_, fun s => ?_⟩, fun s => ?_⟩
  · rw [get_sampleTree] at hv
    split at hv
    · next hn => cases hv; rw [hn]; rfl
    · split at hv
      · next hn => cases hv; rw [hn]; rfl
      · cases hv
  · unfold journalState
    rfl
  · unfold contentAt
    cases s <;> rfl
  · cases s <;> rfl

/-- Killed after both backups were asked for, before the second is made. -/
theorem killedAt_backupIp_recovers :
    ((killedAt .backupIp 0).run sampleStore sampleTree).1 = .crashed ∧
      (killedAt .backupIp 0).Recovers sampleStore sampleOld sampleTree := by
  have hcrash : ((killedAt .backupIp 0).run sampleStore sampleTree).1 = .crashed := by decide
  refine ⟨hcrash, (Replacement.recovers_iff (idle_sampleTree _) ?_ hcrash).mpr ?_⟩
  · intro site k
    unfold killedAt
    dsimp only
    split <;> simp
  · rintro ⟨-, -, k, hk, -⟩
    simp [killedAt] at hk

/-- Killed when the journal is created but empty, the store does not open again. -/
theorem killedAt_writeJournal_stuck :
    ((killedAt .writeJournal 1).run sampleStore sampleTree).1 = .crashed ∧
      (openStore noFaults ((killedAt .writeJournal 1).run sampleStore sampleTree).2).1 =
        .error .rollbackFailed := by
  decide

theorem killedAt_writeJournal_reopened : ∃ p, (p = sampleOld ∨ p = sampleNew) ∧
      ∀ attempts : List Faults, (∀ φ ∈ attempts, FindsBackups φ) → CompletePair
        (openStore noFaults (Runs.run (fun t φ => (openStore φ t).2)
          ((killedAt .writeJournal 1).run sampleStore sampleTree).2 attempts)).2 p := by
  have hcrash : ((killedAt .writeJournal 1).run sampleStore sampleTree).1 = .crashed := by decide
  refine Replacement.killed_then_reopened (idle_sampleTree _) (fun site k => ?_) hcrash
  unfold killedAt
  dsimp only
  split <;> simp

theorem killedAt_backupIp_idle :
    ∃ u, openStore noFaults ((killedAt .backupIp 0).run sampleStore sampleTree).2 = (.done (), u) ∧
      Idle sampleTag sampleOld u ∧ ∀ n, Stale n → u.get n = none := by
  have hopen : openStore noFaults ((killedAt .backupIp 0).run sampleStore sampleTree).2 =
      (.done (), (openStore noFaults
        ((killedAt .backupIp 0).run sampleStore sampleTree).2).2) := rfl
  exact ⟨_, hopen, idle_of_openStore hopen (fun s => by cases s <;> rfl) _⟩

end NetHop.RuleSet
