import NetHop.RuleSet.Prepare

/-!
# Publishing, committing and rolling back

From the moment the journal is on disk until it is removed, the directory settles
on the old pair.  What happens when a call fails depends on whether the code then
removes the journal of a directory that it did not restore; `PublishSafe` says
when it does not.
-/

namespace NetHop.RuleSet

open FaultIo Io Tree Side Triple

theorem Kept.beside {U : Prop} {p : Pair} {t u : Store} (h : Kept U p t) (hu : Beside t u) :
    Kept U p u where
  recoverable := h.recoverable.sameOn hu.1 hu.2
  readable := by
    rw [journalState_congr (hu.2 _ outside_journal)]
    exact h.readable

def Backups (tag : Tag) (t : Store) : Prop :=
  ∀ s : Side, ∃ f, t.get (s.previous tag.journal) = some (.leaf (.file f))

/-- The new pair is in place and the old one can be restored. -/
structure Published (tag : Tag) (p new : Pair) (t : Store) : Prop where
  guard : Guard tag.journal p t
  complete : CompletePair t new
  backups : Backups tag t

theorem Published.beside {tag : Tag} {p new : Pair} {t u : Store} (h : Published tag p new t)
    (hu : Beside t u) : Published tag p new u where
  guard := h.guard.sameOn hu.1 hu.2
  complete := h.complete.sameOn hu.2
  backups := fun s => by
    obtain ⟨f, hf⟩ := h.backups s
    exact ⟨f, (hu.2 _ (outside_previous tag s)).trans hf⟩

variable {ε : Type} {Q : Unit → Store → Prop}

section Publish

variable {φ : Faults} {tag : Tag} {p new : Pair} {U : Prop}

theorem removeJournal_kept {j : RuleSetJournal} :
    Io.Leaves (fun t => Guard j p t ∧ (φ .removeJournal ≠ .fail 0 → CompletePair t p))
      (removeJournal φ) (fun _ => Kept U p) (Kept U p) := by
  have hkept : ∀ t, Guard j p t ∨ Clean p t → Kept U p t := by
    rintro t (h | h)
    · exact h.kept
    · exact h.kept
  exact removeJournal_triple.conseq (fun _ h => h) (fun _ _ h => h.kept)
    (fun _ _ h => hkept _ h.1) fun _ h => hkept _ h.1

/-! ## Putting the old pair back -/

variable {ψ : Fault}

theorem clear_keeps (s : Side) : Io.Keeps (fun t => Guard tag.journal p t ∧ Backups tag t)
      (removeFile ψ () s.current : Sys) := by
  refine keeps_removeFile fun u hu => ?_
  obtain ⟨g, hg⟩ := hu.2 s
  refine ⟨hu.1.clear hg, fun s' => ?_⟩
  obtain ⟨g', hg'⟩ := hu.2 s'
  refine ⟨g', ?_⟩
  rw [get_unlink, if_neg (tag.names.ne_current s' s), hg']

/-- `restore_pair` under the journal: both halves are back unless one of the two
renames fails without an effect. -/
theorem restorePair_triple :
    Io.Leaves (fun t => Guard tag.journal p t ∧ Backups tag t) (restorePair φ tag)
      (fun e t => Guard tag.journal p t ∧
        (φ .restoreDomain ≠ .fail 0 → φ .restoreIp ≠ .fail 0 → CompletePair t p) ∧
        (e = .publishFailed → φ .restoreDomain = .none ∧ φ .restoreIp = .none))
      (Guard tag.journal p) := by
  have hclear : ∀ (s : Side) (site : Site), Leaves (fun t => Guard tag.journal p t ∧ Backups tag t)
        (ignore (removeFile (φ site) () s.current : Sys) : Run Unit)
        (fun _ t => Guard tag.journal p t ∧ Backups tag t) (Guard tag.journal p) := by
    intro s site
    exact (keeps_iff_triple.mp (clear_keeps s).ignore).otherwise fun _ h => h.1
  refine .bind (hclear .domain .clearDomain) fun _ => ?_
  refine .bind (hclear .ip .clearIp) fun _ => ?_
  -- The first rename leaves the other backup, the second the restored half.
  have hbackup : Keeps
      (fun t : Store => ∃ f, t.get (ip.previous tag.journal) = some (.leaf (.file f)))
      (succeeds (rename (φ .restoreDomain) () tag.previousDomain .domain : Sys) : Run Bool) := by
    rintro t ⟨f, hf⟩
    refine ⟨f, (frame_rename ?_ ?_).succeeds t hf⟩
    · intro h
      cases tag.names.inj .ip .domain h
    · exact tag.names.ne_current .ip .domain
  have hdomain := (moveBack_triple (φ := φ) (j := tag.journal) (p := p) .domain
    .restoreDomain).frame hbackup
  refine .bind ((hdomain.pre fun t ht => ⟨⟨ht.1, ht.2 .domain⟩, ht.2 .ip⟩).otherwise
    fun _ h => h.1.1) fun domain => ?_
  refine .bind (Q := fun ip t => Guard tag.journal p t ∧
    (φ .restoreDomain ≠ .fail 0 → φ .restoreIp ≠ .fail 0 → CompletePair t p) ∧
    (domain = true ↔ φ .restoreDomain = .none) ∧ (ip = true ↔ φ .restoreIp = .none)) ?_ fun ip => ?_
  · rintro t ⟨⟨hg, hdomain, hb⟩, hip⟩
    have hhalf : Keeps
        (fun u : Store => φ .restoreDomain ≠ .fail 0 → contentAt u .domain = some (.bytes p.1))
        (succeeds (rename (φ .restoreIp) () tag.previousIp .ip : Sys) : Run Bool) := by
      intro u hu hφ
      refine keeps_contentAt (fun v => (frame_rename ?_ ?_).succeeds) u (hu hφ)
      · exact (tag.names.ne_current .ip .domain).symm
      · simp
    have hrun := (moveBack_triple (φ := φ) (j := tag.journal) (p := p) .ip .restoreIp).frame hhalf
    refine (hrun.otherwise fun _ h => h.1.1).post ?_ t ⟨⟨hg, hip⟩, hdomain⟩
    rintro b u ⟨⟨hg', hip', hb'⟩, hdomain'⟩
    refine ⟨hg', fun h1 h2 s => ?_, hb, hb'⟩
    cases s with
    | domain => exact hdomain' h1
    | ip => exact hip' h2
  · refine .ret fun t ht => ⟨ht.1, ht.2.1, fun he => ?_⟩
    cases domain with
    | false => simp at he
    | true =>
      cases ip with
      | false => simp at he
      | true => exact ⟨ht.2.2.1.mp rfl, ht.2.2.2.mp rfl⟩

/-! ## Installing the new pair -/

/-- Which failures of `publish` leave the old pair or the way back to it: backups
that are there already are not taken for its own, and the journal goes only when
both halves are where they were. -/
structure PublishSafe (φ : Faults) : Prop where
  finds : FindsBackups φ
  backupDomain : ∀ k, φ .backupDomain = .fail k → φ .removeJournal ≠ .fail 0 → k = 0
  backupIp : ∀ k, φ .backupDomain = .none → φ .backupIp = .fail k →
    φ .removeJournal ≠ .fail 0 → k = 0 ∧ φ .restoreDomain ≠ .fail 0
  install : φ .backupDomain = .none → φ .backupIp = .none →
    (φ .installDomain).Fails ∨ (φ .installIp).Fails ∨ (φ .syncPublish).Fails →
    φ .removeJournal ≠ .fail 0 → φ .restoreDomain ≠ .fail 0 ∧ φ .restoreIp ≠ .fail 0

theorem publishSafe_of_noFail (h : ∀ site, (φ site).NoFail) : PublishSafe φ where
  finds := ⟨fun ⟨k, hk⟩ => h _ k hk, fun ⟨k, hk⟩ => h _ k hk⟩
  backupDomain := fun k hk => absurd hk (h _ k)
  backupIp := fun k _ hk => absurd hk (h _ k)
  install := by
    rintro - - (⟨k, hk⟩ | ⟨k, hk⟩ | ⟨k, hk⟩) <;> exact absurd hk (h _ k)

theorem undoInstall_triple
    (hsafe : φ .removeJournal ≠ .fail 0 → φ .restoreDomain ≠ .fail 0 ∧ φ .restoreIp ≠ .fail 0) :
    Io.Leaves (fun t => Guard tag.journal p t ∧ Backups tag t) (undoInstall φ tag) Q
      (Kept U p) := by
  refine .bind (restorePair_triple.otherwise fun _ h => h.kept) fun error => ?_
  refine .bind (Q := fun _ => Kept U p) (.succeeds
    (removeJournal_kept.pre fun t ht => ⟨ht.1, fun hφ => ?_⟩)) fun removed => .fail fun _ h => h
  exact ht.2.1 (hsafe hφ).1 (hsafe hφ).2

variable {t : Store}

/-- A new half over the place of a half that has a backup. -/
theorem Guard.install (h : Guard tag.journal p t) {s : Side}
    (hb : ∃ f, t.get (s.previous tag.journal) = some (.leaf (.file f)))
    {children : Dir CandidateFile (Leaf RuleContent)} {f : File RuleContent}
    (hdir : t.get tag.candidate = some (.dir children))
    (hfile : children.get s.file = some (.file f)) :
    Guard tag.journal p (moveOut tag.candidate s.file s.current t) := by
  have hget := get_moveOut hdir hfile s.current
  have hprevious : ∀ s' : Side, (moveOut tag.candidate s.file s.current t).get
      (s'.previous tag.journal) = t.get (s'.previous tag.journal) := by
    intro s'
    rw [hget, if_neg (tag.names.ne_current s' s), if_neg ((outside_previous tag s').ne tag)]
  refine h.of_frame ?_ ?_ fun s' => ?_
  · intro m v hv
    rw [hget] at hv
    split at hv
    next hm =>
      cases hv
      rw [hm, s.kind_current]
      rfl
    · split at hv
      next hm =>
        cases hv
        rw [hm]
        rfl
      · exact h.tidy m v hv
  · rw [hget, if_neg s.current_ne_journal.symm, if_neg (outside_journal.ne tag)]
  · by_cases hs : s' = s
    · subst hs
      -- The backup wins whatever is put in front of it.
      obtain ⟨g, hg⟩ := hb
      unfold restored
      rw [contentAt_congr (hprevious s'), contentAt_of_get hg]
      rfl
    · refine restored_congr ?_ (hprevious s')
      rw [hget, if_neg fun heq => hs (current_inj heq), if_neg ((outside_current s').ne tag)]

theorem installHalf_triple (φ : Faults) (tag : Tag) (p new : Pair) (s : Side) (site : Site) :
    Io.Leaves (fun t => Guard tag.journal p t ∧ Backups tag t ∧ HalfStaged tag.candidate new s t)
      (Io.succeeds (renameOut (φ site) () tag.candidate s.file s.current : Sys) :
        Io Store ε Bool) (fun b t => (Guard tag.journal p t ∧ Backups tag t) ∧
        (b = true → contentAt t s.current = some (.bytes (s.pick new))) ∧
        (b = false → (φ site).Fails)) (Guard tag.journal p) := by
  have hinstalled : ∀ t, Guard tag.journal p t → Backups tag t → HalfStaged tag.candidate new s t →
      (Guard tag.journal p (moveOut tag.candidate s.file s.current t) ∧
        Backups tag (moveOut tag.candidate s.file s.current t)) ∧
      contentAt (moveOut tag.candidate s.file s.current t) s.current =
        some (.bytes (s.pick new)) := by
    rintro t hg hb ⟨children, f, hdir, hfile, hcontent⟩
    have hget := get_moveOut hdir hfile s.current
    refine ⟨⟨hg.install (hb s) hdir hfile, fun s' => ?_⟩, ?_⟩
    · obtain ⟨g, hg'⟩ := hb s'
      refine ⟨g, ?_⟩
      rw [hget, if_neg (tag.names.ne_current s' s), if_neg ((outside_previous tag s').ne tag), hg']
    · unfold contentAt
      rw [hget, if_pos rfl, ← hcontent]
  refine .succeeds (.single (f := moveOut tag.candidate s.file s.current) ?_ ?_ ?_ ?_)
  · rintro t ⟨hg, -, children, f, hdir, hfile, -⟩
    unfold canMoveOut
    rcases contentAt_of_tidy hg.tidy s.kind_current with hnone | ⟨f', hf'⟩
    · rw [hdir, hnone]
      simp [hfile]
    · rw [hdir, hf']
      simp [hfile]
  · rintro - t ⟨hg, hb, hs⟩
    exact ⟨(hinstalled t hg hb hs).1, fun _ => (hinstalled t hg hb hs).2, by simp⟩
  · rintro k hk t ⟨hg, hb, hs⟩
    refine ⟨?_, by simp, fun _ => ⟨k, hk⟩⟩
    split
    · exact ⟨hg, hb⟩
    · exact (hinstalled t hg hb hs).1
  · rintro k - t ⟨hg, hb, hs⟩
    split
    · exact hg
    · exact (hinstalled t hg hb hs).1.1

theorem keeps_halfStaged {reason : ε} {s s' : Side} (hs : s' ≠ s) :
    Io.Keeps (HalfStaged tag.candidate new s')
      (renameOut ψ reason tag.candidate s.file s.current : Io Store ε Unit) := by
  refine keeps_renameOut ?_
  rintro u ⟨children, g, hdir, hfile, hcontent⟩
  cases hchild : children.get s.file with
  | none =>
    have hsame : moveOut tag.candidate s.file s.current u = u := by
      simp [moveOut, hdir, hchild]
    rw [hsame]
    exact ⟨children, g, hdir, hfile, hcontent⟩
  | some l =>
    refine ⟨children.del s.file, g, ?_, ?_, hcontent⟩
    · rw [get_moveOut hdir hchild, if_neg ((outside_current s).ne tag).symm, if_pos rfl]
    · have hne : s'.file ≠ s.file := by
        cases s <;> cases s' <;> simp_all [file]
      rw [Dir.get_del, if_neg hne, hfile]

theorem syncSucceeds_triple {P : Store → Prop} {E : ε → Store → Prop} (site : Site) :
    Io.Triple P (Io.succeeds (syncDirectory (φ site) () : Sys) : Io Store ε Bool)
      (fun b t => P t ∧ (b = false → (φ site).Fails)) E P := by
  refine .succeeds (.call (l := []) (fun _ _ => rfl)
    (fun _ t ht => ⟨ht, nofun⟩) (fun k hk t ht => ?_) fun k hk t ht => ?_)
  · simpa using ⟨ht, k, hk⟩
  · simpa using ht

theorem installPair_triple
    (hsafe : (φ .installDomain).Fails ∨ (φ .installIp).Fails ∨ (φ .syncPublish).Fails →
      φ .removeJournal ≠ .fail 0 → φ .restoreDomain ≠ .fail 0 ∧ φ .restoreIp ≠ .fail 0) :
    Io.Leaves (fun t => Guard tag.journal p t ∧ Backups tag t ∧ Staged tag.candidate new t)
      (installPair φ tag) (fun _ => Published tag p new) (Kept U p) := by
  have hother : Keeps (HalfStaged tag.candidate new .ip)
      (succeeds (renameOut (φ .installDomain) () tag.candidate .domain .domain : Sys) : Run Bool) :=
    (keeps_halfStaged (s := .domain) (by simp)).succeeds
  have hdomain := (installHalf_triple φ tag p new .domain .installDomain).frame hother
  refine .bind ((hdomain.pre fun t ht => ⟨⟨ht.1, ht.2.1, ht.2.2 .domain⟩, ht.2.2 .ip⟩).otherwise
    fun _ h => h.1.kept) fun installed => ?_
  cases installed with
  | false =>
    intro t ht
    exact undoInstall_triple (hsafe (.inl (ht.1.2.2 rfl))) t ht.1.1
  | true =>
    have hhalf : Keeps (fun t : Store => contentAt t .domain = some (.bytes new.1))
        (succeeds (renameOut (φ .installIp) () tag.candidate .ip .ip : Sys) : Run Bool) :=
      keeps_contentAt fun v => (frame_renameOut ((outside_current .domain).ne tag)
        (by simp [current])).succeeds
    have hip := (installHalf_triple φ tag p new .ip .installIp).frame hhalf
    refine .bind ((hip.pre fun t ht => ⟨⟨ht.1.1.1, ht.1.1.2, ht.2⟩, ht.1.2.1 rfl⟩).otherwise
      fun _ h => h.1.kept) fun installed => ?_
    cases installed with
    | false =>
      intro t ht
      exact undoInstall_triple (hsafe (.inr (.inl (ht.1.2.2 rfl)))) t ht.1.1
    | true =>
      refine .bind (Q := fun b t => Published tag p new t ∧
        (b = false → (φ .syncPublish).Fails)) ?_ fun synced => ?_
      · refine ((syncSucceeds_triple .syncPublish).pre fun t ht => ?_).stops (fun _ _ h => h)
          fun _ h => h.guard.kept
        refine ⟨ht.1.1.1, fun s => ?_, ht.1.1.2⟩
        cases s with
        | domain => exact ht.2
        | ip => exact ht.1.2.1 rfl
      · cases synced with
        | false =>
          intro t ht
          exact undoInstall_triple (hsafe (.inr (.inr (ht.2 rfl)))) t ⟨ht.1.guard, ht.1.backups⟩
        | true => exact .ret fun t ht => ht.1

/-! ## Moving the old pair aside -/

structure Ready (tag : Tag) (p new : Pair) (t : Store) : Prop where
  guard : Guard tag.journal p t
  complete : CompletePair t p
  free : ∀ s : Side, t.get (s.previous tag.journal) = none
  staged : Staged tag.candidate new t

theorem backup_triple (s : Side) (site : Site) (hg : Guard tag.journal p t)
    (hc : contentAt t s.current = some (.bytes (s.pick p)))
    (hfree : t.get (s.previous tag.journal) = none) : Io.Leaves (fun u => u = t)
      (Io.succeeds (rename (φ site) () s.current (s.previous tag.journal) : Sys) :
        Io Store ε Bool) (fun b u => (Guard tag.journal p u ∧ (b = true → φ site = .none ∧
          ∃ f, u.get (s.previous tag.journal) = some (.leaf (.file f))) ∧
        (b = false → ∃ k, φ site = .fail k ∧ (k = 0 → u = t))) ∧
        Tree.SameOn (fun n => n ≠ s.current ∧ n ≠ s.previous tag.journal) t u)
      (Guard tag.journal p) := by
  obtain ⟨f, hf, -⟩ := exists_file_of_contentAt hc
  have hmoved := hg.backup hf hfree
  have hframe : Keeps (SameOn (fun n => n ≠ s.current ∧ n ≠ s.previous tag.journal) t)
      (succeeds (rename (φ site) () s.current (s.previous tag.journal) : Sys) : Io Store ε Bool) :=
    fun u hu => hu.trans (sameOn_of_frame (fun n hn v => (frame_rename hn.1 hn.2).succeeds) u)
  have hrun : Leaves (fun u => u = t)
      (succeeds (rename (φ site) () s.current (s.previous tag.journal) : Sys) : Io Store ε Bool)
      (fun b u => Guard tag.journal p u ∧
        (b = true → φ site = .none ∧ ∃ f, u.get (s.previous tag.journal) = some (.leaf (.file f))) ∧
        (b = false → ∃ k, φ site = .fail k ∧ (k = 0 → u = t))) (Guard tag.journal p) := by
    refine .succeeds (.single (f := move s.current (s.previous tag.journal)) ?_ ?_ ?_ ?_)
    · rintro u rfl
      rw [if_pos]
      unfold canMove
      rw [hf, hfree]
    · rintro hφ u rfl
      refine ⟨hmoved, fun _ => ⟨hφ, f, ?_⟩, nofun⟩
      rw [get_move, hf]
      simp
    · rintro k hk u rfl
      refine ⟨?_, nofun, fun _ => ⟨k, hk, fun h0 => if_pos h0⟩⟩
      split
      · exact hg
      · exact hmoved
    · rintro k - u rfl
      split
      · exact hg
      · exact hmoved
  refine ((hrun.frame hframe).otherwise fun _ h => h.1).pre ?_
  rintro u rfl
  exact ⟨rfl, .refl u⟩

theorem Staged.congr {u : Store} (h : Staged tag.candidate new t)
    (hget : u.get tag.candidate = t.get tag.candidate) : Staged tag.candidate new u := by
  intro s
  obtain ⟨children, f, hdir, hfile⟩ := h s
  exact ⟨children, f, hget.trans hdir, hfile⟩

/-- The second backup failed, after its effect unless `k` is 0. -/
theorem undoBackup_triple {k : Nat}
    (hsafe : φ .removeJournal ≠ .fail 0 → k = 0 ∧ φ .restoreDomain ≠ .fail 0) :
    Io.Leaves (fun t => (Guard tag.journal p t ∧
        ∃ f, t.get (domain.previous tag.journal) = some (.leaf (.file f))) ∧
        (k = 0 → contentAt t .ip = some (.bytes p.2))) (undoBackup φ tag) Q (Kept U p) := by
  have hip : Keeps (fun t : Store => k = 0 → contentAt t .ip = some (.bytes p.2))
      (succeeds (rename (φ .restoreDomain) () tag.previousDomain .domain : Sys) : Run Bool) := by
    intro t ht hk
    refine keeps_contentAt (fun v => (frame_rename ?_ ?_).succeeds) t (ht hk)
    · exact (tag.names.ne_current .domain .ip).symm
    · simp
  have hdomain := (moveBack_triple (φ := φ) (j := tag.journal) (p := p) .domain
    .restoreDomain).frame hip
  refine .bind (hdomain.otherwise fun _ h => h.1.1.kept) fun restored => ?_
  refine .bind (Q := fun _ => Kept U p) (.succeeds
    (removeJournal_kept.pre fun t ht => ⟨ht.1.1, fun hφ s => ?_⟩)) fun removed => .fail fun _ h => h
  cases s with
  | domain => exact ht.1.2.1 (hsafe hφ).2
  | ip => exact ht.2 (hsafe hφ).1

theorem swapPair_triple (hsafe : PublishSafe φ) :
    Io.Leaves (Ready tag p new) (swapPair φ tag) (fun _ => Published tag p new) (Kept U p) := by
  intro t ht
  refine bind ((backup_triple .domain .backupDomain ht.guard (ht.complete .domain)
    (ht.free .domain)).otherwise fun _ h => h.kept) (fun moved => ?_) t rfl
  cases moved with
  | false =>
    refine bind (Q := fun _ => Kept U p) (ignore (removeJournal_kept.pre
      fun u hu => ⟨hu.1.1, fun hφ => ?_⟩)) fun _ => fail fun _ h => h
    -- The journal goes, so the backup was not made.
    obtain ⟨k, hk, hsame⟩ := hu.1.2.2 rfl
    rw [hsame (hsafe.backupDomain k hk hφ)]
    exact ht.complete
  | true =>
    rintro u ⟨⟨hg, hmoved, -⟩, hsame⟩
    obtain ⟨hdomain, f, hf⟩ := hmoved rfl
    have hip : contentAt u (current .ip) = some (.bytes p.2) :=
      (contentAt_congr (hsame _ ⟨by simp [current],
        (tag.names.ne_current .domain .ip).symm⟩)).trans (ht.complete .ip)
    have hfree : u.get (ip.previous tag.journal) = none :=
      (hsame _ ⟨tag.names.ne_current .ip .domain,
        fun h => by cases tag.names.inj _ _ h⟩).trans (ht.free .ip)
    have hstaged : Staged tag.candidate new u :=
      ht.staged.congr (hsame _ ⟨((outside_current .domain).ne tag).symm,
        ((outside_previous tag .domain).ne tag).symm⟩)
    refine bind ((backup_triple .ip .backupIp hg hip hfree).otherwise fun _ h => h.kept)
      (fun moved' => ?_) u rfl
    have hbackup : ∀ u', SameOn (fun n => n ≠ ip.current ∧
        n ≠ ip.previous tag.journal) u u' →
        u'.get (domain.previous tag.journal) = some (.leaf (.file f)) :=
      fun u' h => (h _ ⟨tag.names.ne_current .domain .ip,
        fun h' => by cases tag.names.inj _ _ h'⟩).trans hf
    cases moved' with
    | false =>
      rintro u' ⟨⟨hg', -, hfailed⟩, hsame'⟩
      obtain ⟨k, hk, hk0⟩ := hfailed rfl
      refine undoBackup_triple (hsafe.backupIp k hdomain hk) u'
        ⟨⟨hg', f, hbackup u' hsame'⟩, fun h0 => ?_⟩
      rw [hk0 h0]
      exact hip
    | true =>
      rintro u' ⟨⟨hg', hmoved', -⟩, hsame'⟩
      obtain ⟨hip', f', hf'⟩ := hmoved' rfl
      refine installPair_triple (hsafe.install hdomain hip') u' ⟨hg', fun s => ?_, ?_⟩
      · cases s with
        | domain => exact ⟨f, hbackup u' hsame'⟩
        | ip => exact ⟨f', hf'⟩
      · exact hstaged.congr (hsame' _ ⟨((outside_current .ip).ne tag).symm,
          ((outside_previous tag .ip).ne tag).symm⟩)

/-! ## Writing the journal -/

theorem get_putJournal (h : t.get .journal = none) (c : RuleContent) (m : RuleName) :
    (put (.entry .journal) ⟨c, true⟩ t).get m =
      if m = .journal then some (.leaf (.file ⟨c, true⟩)) else t.get m := by
  unfold put
  simp only [Slot.top, h]
  exact Dir.get_set t .journal m _

theorem tidy_putJournal (h : Tidy t) (hnone : t.get .journal = none) (c : RuleContent) :
    Tidy (put (.entry .journal) ⟨c, true⟩ t) := by
  intro m v hv
  rw [get_putJournal hnone] at hv
  split at hv
  next hm =>
    rw [hm]
    rfl
  · exact h m v hv

theorem completePair_putJournal (h : CompletePair t p) (hnone : t.get .journal = none)
    (c : RuleContent) : CompletePair (put (.entry .journal) ⟨c, true⟩ t) p := by
  intro s
  refine (contentAt_congr ?_).trans (h s)
  rw [get_putJournal hnone, if_neg s.current_ne_journal]

theorem Clean.tornJournal (h : Clean p t) {c : RuleContent} (hc : ∀ j, c ≠ .journal j) :
    Recoverable p (put (.entry .journal) ⟨c, true⟩ t) ∧
      journalState (put (.entry .journal) ⟨c, true⟩ t) = .unreadable := by
  have hnone := journalState_eq_absent.mp h.absent
  have hstate : journalState (put (.entry .journal) ⟨c, true⟩ t) = .unreadable := by
    unfold journalState
    rw [get_putJournal hnone]
    cases c with
    | journal j => exact absurd rfl (hc j)
    | bytes b | checkConfig | cut => rfl
  refine ⟨⟨tidy_putJournal h.tidy hnone c, ?_⟩, hstate⟩
  unfold Settles
  rw [hstate]
  exact completePair_putJournal h.complete hnone c

theorem Clean.ready (h : Clean p t) (hfree : ∀ s : Side, t.get (s.previous tag.journal) = none)
    (hstaged : Staged tag.candidate new t) :
    Ready tag p new (put (.entry .journal) ⟨.journal tag.journal, true⟩ t) := by
  have hnone := journalState_eq_absent.mp h.absent
  have hget := get_putJournal hnone (.journal tag.journal)
  have hcomplete := completePair_putJournal h.complete hnone (.journal tag.journal)
  have hfree' : ∀ s : Side, (put (.entry .journal) ⟨.journal tag.journal, true⟩ t).get
      (s.previous tag.journal) = none := by
    intro s
    rw [hget, if_neg (tag.names.ne_journal s), hfree]
  refine ⟨⟨tidy_putJournal h.tidy hnone _, ?_, fun s => ?_⟩, hcomplete, hfree', ?_⟩
  · unfold journalState
    rw [hget]
    simp [tag.valid_journal]
  · unfold restored
    have hno : contentAt (put (.entry .journal) ⟨.journal tag.journal, true⟩ t)
        (s.previous tag.journal) = none := by
      unfold contentAt
      rw [hfree']
    rw [hno, hcomplete s]
    rfl
  · exact hstaged.congr (by rw [hget, if_neg (outside_journal.ne tag).symm])

/-- The write stops after the file was created and before it is complete. -/
def TearsJournal (f : Fault) : Prop := ∃ k, (f = .fail k ∨ f = .crash k) ∧ 0 < k ∧ k < 3

theorem writeJournal_triple (hU : TearsJournal (φ .writeJournal) → U) :
    Io.Leaves (fun t => Kept U p t ∧ (∀ s : Side, t.get (s.previous tag.journal) = none) ∧
        Staged tag.candidate new t)
      (writeNew (φ .writeJournal) .publishFailed (.entry .journal) (.journal tag.journal) :
        Run Unit) (fun _ => Ready tag p new) (Kept U p) := by
  rintro t ⟨hkept, hfree, hstaged⟩
  cases hnone : t.get .journal with
  | some node =>
    -- A journal is there already: the call is refused.
    refine refused (P := fun u => u = t) ?_ (fun u hu => hu ▸ hkept) (fun u hu => hu ▸ hkept) t rfl
    rcases node with (f | target | _) | children <;> simp [leafAt, hnone]
  | none =>
    have habsent : journalState t = .absent := journalState_eq_absent.mpr hnone
    have hclean : Clean p t := by
      have hs := hkept.recoverable.settles
      unfold Settles at hs
      rw [habsent] at hs
      exact ⟨hkept.recoverable.tidy, habsent, hs⟩
    have hready := hclean.ready hfree hstaged
    have hall : applyAll (((writeStates (RuleContent.journal tag.journal)).map
        (File.mk · true)).map (put (.entry .journal))) t =
        put (.entry .journal) ⟨.journal tag.journal, true⟩ t :=
      applyAll_map_put _ _ [⟨.bytes [], true⟩, ⟨.cut, true⟩] t
    -- Nothing, an empty file, a part of the journal, or all of it.
    have hstates : ∀ k, (0 < k → k < 3 → U) →
        Kept U p (applyAll (((writeStates (RuleContent.journal tag.journal)).map
          (File.mk · true)).map (put (.entry .journal)) |>.take k) t) := by
      intro k hk
      rcases k with _ | _ | _ | k
      · exact hkept
      · have := hclean.tornJournal (c := .bytes []) (by simp)
        exact ⟨this.1, fun _ => hk (by omega) (by omega)⟩
      · have := hclean.tornJournal (c := .cut) (by simp)
        rw [← put_put _ ⟨.bytes [], true⟩] at this
        exact ⟨this.1, fun _ => hk (by omega) (by omega)⟩
      · rw [List.take_of_length_le (by simp [writeStates, Writable.torn]), hall]
        exact hready.guard.kept
    refine call (P := fun u => u = t) (l := ((writeStates (RuleContent.journal tag.journal)).map
        (File.mk · true)).map (put (.entry .journal))) ?_ ?_ ?_ ?_ t rfl
    · rintro u rfl
      simp [leafAt, hnone]
    · rintro - u rfl
      rw [hall]
      exact hready
    · rintro k hk u rfl
      exact hstates k fun h1 h2 => hU ⟨k, .inl hk, h1, h2⟩
    · rintro k hk u rfl
      exact hstates k fun h1 h2 => hU ⟨k, .inr hk, h1, h2⟩

/-! ## The operations -/

variable {st : RuleSetStore}

theorem publishCandidate_triple (hsafe : PublishSafe φ) (hU : TearsJournal (φ .writeJournal) → U) :
    Io.Leaves (fun t => Kept U p t ∧ Staged tag.candidate new t) (publishCandidate st φ tag)
      (fun r t => r = ⟨st.root, tag⟩ ∧ Published tag p new t) (Kept U p) := by
  unfold publishCandidate
  rw [sees_eq hsafe.finds.domain, sees_eq hsafe.finds.ip]
  -- In a tidy root a backup that does not exist is not there at all.
  have hfree : ∀ (s : Side) t, Tidy t → t.pathExists (s.previous tag.journal) = false →
      t.get (s.previous tag.journal) = none := by
    intro s t htidy hexists
    rcases contentAt_of_tidy htidy (tag.names.kind s) with hnone | ⟨f, hf⟩
    · exact hnone
    · simp [pathExists, hf, Node.resolves, Leaf.resolves] at hexists
  refine .bind (Q := fun domain t => (Kept U p t ∧ Staged tag.candidate new t) ∧
    (domain = false → t.get tag.previousDomain = none))
    (.look fun t ht => ⟨ht, hfree .domain t ht.1.recoverable.tidy⟩) fun domain => ?_
  refine .bind (Q := fun ip t => (Kept U p t ∧ Staged tag.candidate new t) ∧
    ((domain || ip) = false → ∀ s : Side, t.get (s.previous tag.journal) = none))
    (.look fun t ht => ⟨ht.1, fun h s => ?_⟩) fun ip => ?_
  · rw [Bool.or_eq_false_iff] at h
    cases s with
    | domain => exact ht.2 h.1
    | ip => exact hfree .ip t ht.1.1.recoverable.tidy h.2
  · generalize (domain || ip) = taken
    cases taken with
    | true => exact .fail fun t ht => ht.1.1
    | false =>
      refine .bind ((writeJournal_triple hU).pre fun t ht => ⟨ht.1.1, ht.2 rfl, ht.1.2⟩) fun _ => ?_
      refine .bind ((syncSucceeds_triple .syncJournal).stops (fun _ _ h => h)
        fun _ h => h.guard.kept) fun synced => ?_
      cases synced with
      | true =>
        refine .bind ((swapPair_triple hsafe).pre fun t ht => ht.1) fun _ => ?_
        exact .ret fun t ht => ⟨rfl, ht⟩
      | false =>
        refine .bind (Q := fun _ => Kept U p) (.ignore ?_) fun _ => .fail fun _ h => h
        -- Nothing was moved: with or without its journal the directory is as before.
        refine .single (f := unlink .journal) ?_
          (fun _ t ht => (ht.1.guard.removed ht.1.complete).kept) (fun k _ t ht => ?_)
          fun k _ t ht => ?_
        · intro t ht
          obtain ⟨f, hf, -⟩ := journalState_eq_valid.mp ht.1.guard.journal
          rw [hf]
        · split
          · exact ht.1.guard.kept
          · exact (ht.1.guard.removed ht.1.complete).kept
        · split
          · exact ht.1.guard.kept
          · exact (ht.1.guard.removed ht.1.complete).kept

theorem keeps_beside_ignore :
    Io.Keeps (Beside t) (Io.ignore (removeDirAll ψ () tag.candidate : Sys) : Run Unit) :=
  (keeps_beside_removeDirAll tag).ignore

theorem Published.keeps : Io.Keeps (Published tag p new)
      (Io.ignore (removeDirAll ψ () tag.candidate : Sys) : Run Unit) :=
  fun t ht => ht.beside (keeps_beside_ignore t (.refl ht.guard.tidy))

theorem Kept.keeps :
    Io.Keeps (Kept U p) (Io.ignore (removeDirAll ψ () tag.candidate : Sys) : Run Unit) :=
  fun t ht => ht.beside (keeps_beside_ignore t (.refl ht.recoverable.tidy))

theorem publish_triple (hsafe : PublishSafe φ) (hU : TearsJournal (φ .writeJournal) → U) :
    Io.Leaves (fun t => Kept U p t ∧ Staged tag.candidate new t) (publish st φ ⟨st.root, tag⟩)
      (fun r t => r = ⟨st.root, tag⟩ ∧ Published tag p new t) (Kept U p) := by
  unfold publish
  rw [if_neg (by simp)]
  refine .bind (Q := fun r t => (∃ e, r = .error e ∧ Kept U p t) ∨
    (r = .ok ⟨st.root, tag⟩ ∧ Published tag p new t)) (.attempt
    ((publishCandidate_triple hsafe hU).conseq (fun _ h => h)
      (fun _ _ h => .inr ⟨by rw [h.1], h.2⟩) (fun e _ h => .inl ⟨e, rfl, h⟩) fun _ h => h))
    fun r => ?_
  cases r with
  | ok published =>
    refine .bind (Q := fun _ t => published = ⟨st.root, tag⟩ ∧ Published tag p new t)
      ?_ fun _ => .ret fun _ h => h
    rintro t (⟨e, he, -⟩ | ⟨hr, ht⟩)
    · cases he
    · cases hr
      exact (((keeps_iff_triple.mp Published.keeps).post fun _ _ h => ⟨rfl, h⟩).otherwise
        fun _ h => h.guard.kept) t ht
  | error e =>
    refine .bind (Q := fun _ => Kept U p) ?_ fun _ => .fail fun _ h => h
    refine (keeps_iff_triple.mp Kept.keeps).pre ?_
    rintro t (⟨-, -, ht⟩ | ⟨hr, -⟩)
    · exact ht
    · cases hr

/-- A transaction on its way out: the old pair is protected or `q` is settled. -/
def Leaving (tag : Tag) (p q : Pair) (t : Store) : Prop := Guard tag.journal p t ∨ Clean q t

theorem keeps_clean_removeFile (s : Side) :
    Io.Keeps (Clean p) (removeFile ψ () (s.previous tag.journal) : Sys) := by
  refine keeps_clean (keeps_tidy_removeFile _) ?_
  rintro n (rfl | ⟨s', rfl⟩) v
  · exact frame_removeFile (tag.names.ne_journal s).symm
  · exact frame_removeFile (tag.names.ne_current s s').symm

theorem commit_triple {q : Pair} : Io.Leaves
      (fun t => Guard tag.journal p t ∧ (φ .removeJournal ≠ .fail 0 → CompletePair t q))
      (commit st φ ⟨st.root, tag⟩) (fun _ => Clean q) (Leaving tag p q) := by
  unfold commit
  rw [if_pos rfl]
  have hclean : ∀ m : Sys, Keeps (Clean q) m →
      Leaves (Clean q) (ignore m : Run Unit) (fun _ => Clean q) (Leaving tag p q) :=
    fun m hm => (keeps_iff_triple.mp hm.ignore).otherwise fun _ h => .inr h
  refine .bind (.mapError (removeJournal_triple.otherwise fun _ h => h.1)) fun _ => ?_
  refine .bind (hclean _ (keeps_clean_removeFile .domain)) fun _ => ?_
  refine .bind (hclean _ (keeps_clean_removeFile .ip)) fun _ => ?_
  exact hclean _ (.probe _ _)

theorem rollback_triple :
    Io.Leaves (fun t => Guard tag.journal p t ∧ Backups tag t) (rollback st φ ⟨st.root, tag⟩)
      (fun _ => Clean p) (Leaving tag p p) := by
  unfold rollback
  rw [if_pos rfl]
  refine .bind (restorePair_triple.otherwise fun _ h => .inl h) fun outcome => ?_
  split
  next houtcome =>
    refine .mapError ((removeJournal_triple.pre fun t ht => ⟨ht.1, fun _ => ?_⟩).otherwise
      fun _ h => h.1)
    obtain ⟨h1, h2⟩ := ht.2.2 houtcome
    exact ht.2.1 (by simp [h1]) (by simp [h2])
  · exact .fail fun t ht => .inl ht.1

end Publish

end NetHop.RuleSet
