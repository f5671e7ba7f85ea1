import NetHop.RuleSet.Crash
import NetHop.RuleSet.Service

/-!
# Failing steps

Over runs of the service the directory keeps settling on a pair that was current
or offered, as long as no journal is removed and no current file is deleted
without the other copy in place.  `Service.Safe` states when an action does
neither.
-/

namespace NetHop.RuleSet

open FaultIo Io Tree

variable {K : Pair → Prop} {tag : Tag} {t : Store} {p q : Pair} {φ : Faults} {st : RuleSetStore}

/-! ## What a published transaction owns -/

/-- One half of `q` is kept as a backup. -/
def HalfBackedUp (tag : Tag) (q : Pair) (s : Side) (t : Store) : Prop :=
  ∃ f, t.get (s.previous tag.journal) = some (.leaf (.file f)) ∧ f.content = .bytes (s.pick q)

def BackedUp (tag : Tag) (q : Pair) (t : Store) : Prop := ∀ s, HalfBackedUp tag q s t

/-- The journal on disk is the transaction's or gone, and as long as both backups
are there they are a pair of `K`. -/
structure Own (K : Pair → Prop) (tag : Tag) (t : Store) : Prop where
  journal : t.get .journal = none ∨ journalState t = .valid tag.journal
  backups : Backups tag t → ∃ q, K q ∧ BackedUp tag q t

section Own

variable {u : Store}

theorem Own.shrink (h : Own K tag t) (hjournal : u.get .journal = t.get .journal ∨
      u.get .journal = none)
    (hprevious : ∀ s : Side, u.get (s.previous tag.journal) = t.get (s.previous tag.journal) ∨
      u.get (s.previous tag.journal) = none) : Own K tag u := by
  constructor
  · rcases hjournal with hsame | hnone
    · rw [hsame, journalState_congr hsame]
      exact h.journal
    · exact .inl hnone
  · intro hbackups
    have hsame : ∀ s : Side, u.get (s.previous tag.journal) = t.get (s.previous tag.journal) := by
      intro s
      obtain ⟨f, hf⟩ := hbackups s
      rcases hprevious s with h | h
      · exact h
      · rw [h] at hf
        cases hf
    obtain ⟨q, hq, hbacked⟩ := h.backups fun s => by
      obtain ⟨f, hf⟩ := hbackups s
      exact ⟨f, (hsame s).symm.trans hf⟩
    refine ⟨q, hq, fun s => ?_⟩
    obtain ⟨f, hf, hcontent⟩ := hbacked s
    exact ⟨f, (hsame s).trans hf, hcontent⟩

theorem keeps_own_removeFile {φ : Fault} (n : RuleName) :
    Io.Keeps (Own K tag) (Tree.removeFile φ () n : Sys) := by
  refine keeps_removeFile fun u hu => ?_
  have hget : ∀ m, (unlink n u).get m = u.get m ∨ (unlink n u).get m = none := by
    intro m
    rw [get_unlink]
    split
    · exact .inr rfl
    · exact .inl rfl
  exact hu.shrink (hget _) fun s => hget _

theorem keeps_own_rename {φ : Fault} (s : Side) :
    Io.Keeps (Own K tag) (Tree.rename φ () (s.previous tag.journal) s.current : Sys) := by
  refine keeps_rename fun u hu => ?_
  have hget : ∀ m, m ≠ s.current → (move (s.previous tag.journal) s.current u).get m = u.get m ∨
        (move (s.previous tag.journal) s.current u).get m = none := by
    intro m hm
    rw [get_move]
    split
    · exact .inl rfl
    · split
      · exact .inr rfl
      · exact .inl rfl
  exact hu.shrink (hget _ s.current_ne_journal.symm) fun s' => hget _ (tag.names.ne_current s' s)

theorem keeps_own_removeJournal : Io.Keeps (Own K tag) (removeJournal φ) :=
  .bind (keeps_own_removeFile _) fun _ => .probe _ _

theorem keeps_own_restorePair : Io.Keeps (Own K tag) (restorePair φ tag) := by
  refine .bind (keeps_own_removeFile _).ignore fun _ => ?_
  refine .bind (keeps_own_removeFile _).ignore fun _ => ?_
  refine .bind (keeps_own_rename .domain).succeeds fun _ => ?_
  refine .bind (keeps_own_rename .ip).succeeds fun _ => ?_
  exact .ret _

theorem keeps_own_commit : Io.Keeps (Own K tag) (commit st φ ⟨st.root, tag⟩) := by
  unfold commit
  rw [if_pos rfl]
  refine .bind keeps_own_removeJournal.mapError fun _ => ?_
  refine .bind (keeps_own_removeFile _).ignore fun _ => ?_
  refine .bind (keeps_own_removeFile _).ignore fun _ => ?_
  exact (Keeps.probe _ _).ignore

theorem keeps_own_rollback : Io.Keeps (Own K tag) (rollback st φ ⟨st.root, tag⟩) := by
  unfold rollback
  rw [if_pos rfl]
  refine .bind keeps_own_restorePair fun outcome => ?_
  split
  · exact keeps_own_removeJournal.mapError
  · exact .fail _

theorem Published.own (h : Published tag p q t) (hp : K p) : Own K tag t where
  journal := .inr h.guard.journal
  backups := fun hb => ⟨p, hp, fun s => (hb s).imp fun _ hf => ⟨hf, h.guard.backup_content hf⟩⟩

end Own

/-! ## Without the journal -/

section Unprotected

/-- The calls of `restore_pair` return, and both backups are moved. -/
structure MovesBoth (φ : Faults) : Prop where
  clearDomain : (φ .clearDomain).NoCrash
  clearIp : (φ .clearIp).NoCrash
  restoreDomain : (φ .restoreDomain).NoCrash ∧ φ .restoreDomain ≠ .fail 0
  restoreIp : (φ .restoreIp).NoCrash ∧ φ .restoreIp ≠ .fail 0

def Unprotected (t : Store) : Prop := Tidy t ∧ t.get .journal = none

theorem removeJournal_refused (h : t.get .journal = none) :
    Io.Leaves (fun u => u = t) (removeJournal φ) (fun _ _ => False) (fun u => u = t) := by
  refine .bind (Q := fun _ _ => False) (.refused ?_ (fun _ hu => hu)
    fun _ hu => hu) fun _ u hu => hu.elim
  rintro u rfl
  rw [h]

/-- Without its journal a transaction can no longer be committed. -/
theorem commit_refused (h : t.get .journal = none) :
    Io.Leaves (fun u => u = t) (commit st φ ⟨st.root, tag⟩) (fun _ _ => False)
      (fun u => u = t) := by
  unfold commit
  rw [if_pos rfl]
  exact .bind (.mapError (removeJournal_refused h)) fun _ u hu => hu.elim

theorem keeps_backedUp_clear {ψ : Fault} (s : Side) :
    Io.Keeps (fun t => Unprotected t ∧ BackedUp tag q t)
      (Tree.removeFile ψ () s.current : Sys) := by
  rintro t ⟨⟨htidy, hjournal⟩, hbacked⟩
  refine ⟨⟨keeps_tidy_removeFile _ t htidy,
    frame_removeFile s.current_ne_journal.symm t hjournal⟩, fun s' => ?_⟩
  obtain ⟨f, hf, hcontent⟩ := hbacked s'
  exact ⟨f, frame_removeFile (tag.names.ne_current s' s) t hf, hcontent⟩

/-- A backup that is moved although no journal names it. -/
theorem moveUnprotected_triple {ε : Type} (s : Side) (site : Site)
    (hφ : (φ site).NoCrash ∧ φ site ≠ .fail 0) :
    Io.Triple (fun t => Unprotected t ∧ HalfBackedUp tag q s t)
      (Io.succeeds (Tree.rename (φ site) () (s.previous tag.journal) s.current : Sys) :
        Io Store ε Bool)
      (fun _ t => Unprotected t ∧ contentAt t s.current = some (.bytes (s.pick q)))
      (fun _ _ => False) (fun _ => False) := by
  have hmoved : ∀ t, Unprotected t → HalfBackedUp tag q s t →
      Unprotected (move (s.previous tag.journal) s.current t) ∧
        contentAt (move (s.previous tag.journal) s.current t) s.current =
          some (.bytes (s.pick q)) := by
    rintro t ⟨htidy, hjournal⟩ ⟨f, hf, hcontent⟩
    refine ⟨⟨htidy.move fun v hv => ?_, ?_⟩, ?_⟩
    · rw [hf] at hv
      cases hv
      rw [s.kind_current]
      rfl
    · rw [get_move, if_neg s.current_ne_journal.symm,
        if_neg (tag.names.ne_journal s).symm, ite_self, hjournal]
    · unfold contentAt
      rw [get_move, hf]
      simp [hcontent]
  refine .succeeds (.single (f := move (s.previous tag.journal) s.current) ?_ ?_ ?_ ?_)
  · rintro t ⟨⟨htidy, -⟩, f, hf, -⟩
    rw [if_pos (htidy.canMove hf)]
  · exact fun _ t ht => hmoved t ht.1 ht.2
  · intro k hk t ht
    have hk0 : k ≠ 0 := by
      rintro rfl
      exact hφ.2 hk
    rw [if_neg hk0]
    exact hmoved t ht.1 ht.2
  · exact fun k hk => absurd hk (hφ.1 k)

theorem restorePair_unprotected (hφ : MovesBoth φ) :
    Io.Triple (fun t => Unprotected t ∧ BackedUp tag q t) (restorePair φ tag)
      (fun _ => Clean q) (fun _ _ => False) (fun _ => False) := by
  have hclear : ∀ (s : Side) (site : Site), (φ site).NoCrash →
      Triple (fun t => Unprotected t ∧ BackedUp tag q t)
        (ignore (removeFile (φ site) () s.current : Sys) : Run Unit)
        (fun _ t => Unprotected t ∧ BackedUp tag q t) (fun _ _ => False) (fun _ => False) :=
    fun s site hsite => Triple.ignore ((Returns.step hsite).triple (keeps_backedUp_clear s))
  refine .bind (hclear .domain .clearDomain hφ.clearDomain) fun _ => ?_
  refine .bind (hclear .ip .clearIp hφ.clearIp) fun _ => ?_
  have hbackup : Keeps (HalfBackedUp tag q .ip)
      (succeeds (rename (φ .restoreDomain) () tag.previousDomain .domain : Sys) : Run Bool) := by
    rintro t ⟨f, hf, hcontent⟩
    refine ⟨f, (frame_rename ?_ ?_).succeeds t hf, hcontent⟩
    · exact fun h => nomatch tag.names.inj .ip .domain h
    · exact tag.names.ne_current .ip .domain
  have hdomain : Triple (fun t => Unprotected t ∧ HalfBackedUp tag q .domain t)
      (succeeds (rename (φ .restoreDomain) () tag.previousDomain .domain : Sys) : Run Bool)
      (fun _ t => Unprotected t ∧ contentAt t .domain = some (.bytes q.1))
      (fun _ _ => False) (fun _ => False) :=
    moveUnprotected_triple .domain .restoreDomain hφ.restoreDomain
  refine .bind (((hdomain.frame hbackup).pre fun t ht =>
    ⟨⟨ht.1, ht.2 .domain⟩, ht.2 .ip⟩).otherwise fun _ h => h.1) fun domain => ?_
  have hhalf : Keeps (fun t : Store => contentAt t .domain = some (.bytes q.1))
      (succeeds (rename (φ .restoreIp) () tag.previousIp .ip : Sys) : Run Bool) :=
    keeps_contentAt fun v =>
      (frame_rename (tag.names.ne_current .ip .domain).symm (by simp [Side.current])).succeeds
  have hip : Triple (fun t => Unprotected t ∧ HalfBackedUp tag q .ip t)
      (succeeds (rename (φ .restoreIp) () tag.previousIp .ip : Sys) : Run Bool)
      (fun _ t => Unprotected t ∧ contentAt t .ip = some (.bytes q.2))
      (fun _ _ => False) (fun _ => False) := moveUnprotected_triple .ip .restoreIp hφ.restoreIp
  refine .bind (((hip.frame hhalf).pre fun t ht => ⟨⟨ht.1.1, ht.2⟩, ht.1.2⟩).otherwise
    fun _ h => h.1) fun ip => ?_
  refine .ret fun t ht => ⟨ht.1.1.1, journalState_eq_absent.mpr ht.1.1.2, fun s => ?_⟩
  cases s with
  | domain => exact ht.2
  | ip => exact ht.1.2

/-- Without its journal a rollback never reports success, whatever it restores. -/
theorem rollback_unprotected (hφ : MovesBoth φ) :
    Io.Leaves (fun t => Unprotected t ∧ BackedUp tag q t) (rollback st φ ⟨st.root, tag⟩)
      (fun _ _ => False) (Clean q) := by
  unfold rollback
  rw [if_pos rfl]
  refine Triple.bind ((restorePair_unprotected hφ).otherwise fun _ h => h.elim) fun outcome => ?_
  split
  · intro t ht
    refine (Triple.mapError ((removeJournal_refused
      (journalState_eq_absent.mp ht.absent)).stops ?_ ?_)) t rfl
    · rintro - u rfl
      exact ht
    · rintro u rfl
      exact ht
  · exact Triple.fail fun _ h => h

end Unprotected

/-! ## Runs of the service -/

namespace Service

/-- What a transaction in memory has on disk. -/
def Backing (st : RuleSetStore) (K : Pair → Prop) (t : Store) : RuleSetUpdateTransaction → Prop
  | .prepared p => p.root = st.root ∧ ∃ new, K new ∧ Staged p.tag.candidate new t
  | .published p => p.root = st.root ∧ Own K p.tag t

/-- The next opening settles on a pair of `K`. -/
structure Inv (st : RuleSetStore) (K : Pair → Prop) (w : Service) : Prop where
  recoverable : ∃ p, K p ∧ Recoverable p w.disk
  backing : ∀ x, w.transaction = some x → Backing st K w.disk x

/-- When an action, with its failures, cannot lose the pair:
a publication removes the journal only over the old pair; a commit that removes it
finds a whole pair in place; a rollback finds both backups, and the journal unless
both backups are sure to be moved; an opening overlooks no backup. -/
def Safe (K : Pair → Prop) (w : Service) : Action → Prop
  | .prepare _ _ _ _ => True
  | .publish φ => ∀ p, w.transaction = some (.prepared p) → PublishSafe φ
  | .commit φ => ∀ p, w.transaction = some (.published p) →
      w.disk.get .journal = none ∨ φ .removeJournal = .fail 0 ∨ ∃ p, K p ∧ CompletePair w.disk p
  | .rollback φ => ∀ p, w.transaction = some (.published p) →
      Backups p.tag w.disk ∧ (w.disk.get .journal ≠ none ∨ MovesBoth φ)
  | .reopen φ => FindsBackups φ

variable {w : Service}

theorem inv_of_recoverable {d : Store} (hp : K p) (h : Recoverable p d) :
    Inv st K ⟨none, d⟩ := ⟨⟨p, hp, h⟩, nofun⟩

theorem inv_prepare {providers : List ProviderAnswer} {checks : Bool} (h : Inv st K w)
    (hoffered : ∀ pair, fetchPair providers = .ok pair → K pair) :
    Inv st K (exec st w (.prepare φ tag providers checks)) := by
  by_cases hnone : w.transaction = none
  · cases hpair : fetchPair providers with
    | error e =>
      rw [exec_prepare_other (.inr ⟨e, hpair⟩)]
      exact h
    | ok pair =>
      rw [exec_prepare_free hnone hpair]
      obtain ⟨p, hp, hr⟩ := h.recoverable
      have hspec := (prepare_triple hr.tidy :
        Triple _ (prepare st φ tag pair checks) _ _ _) w.disk rfl
      rcases hrun : prepare st φ tag pair checks w.disk with ⟨o, d⟩
      rw [hrun] at hspec
      cases o with
      | error e => exact inv_of_recoverable hp (hr.sameOn hspec.1 hspec.2)
      | crashed => exact inv_of_recoverable hp (hr.sameOn hspec.1.1 hspec.1.2)
      | done r =>
        obtain ⟨hbeside, hprepared⟩ := hspec
        have hr' := hr.sameOn hbeside.1 hbeside.2
        cases r with
        | unchanged => exact inv_of_recoverable hp hr'
        | prepared pr =>
          obtain ⟨rfl, hstaged, -⟩ := hprepared pr rfl
          refine ⟨⟨p, hp, hr'⟩, fun x hx => ?_⟩
          cases hx
          exact ⟨rfl, pair, hoffered pair hpair, hstaged⟩
  · rw [exec_prepare_other (.inl hnone)]
    exact h

theorem inv_publish (h : Inv st K w) (hsafe : Safe K w (.publish φ)) :
    Inv st K (exec st w (.publish φ)) := by
  obtain ⟨p, hp, hr⟩ := h.recoverable
  by_cases hprepared : ∃ pr, w.transaction = some (.prepared pr)
  · obtain ⟨⟨root, tag⟩, htx⟩ := hprepared
    obtain ⟨hroot, new, hnew, hstaged⟩ := h.backing _ htx
    obtain rfl : root = st.root := hroot
    rw [exec_publish_prepared htx]
    have hspec := (publish_triple (U := True) (hsafe _ htx) (fun _ => trivial) :
      Triple _ (publish st φ ⟨st.root, tag⟩) _ _ _) w.disk ⟨⟨hr, fun _ => trivial⟩, hstaged⟩
    rcases hrun : publish st φ ⟨st.root, tag⟩ w.disk with ⟨o, d⟩
    rw [hrun] at hspec
    cases o with
    | error e | crashed => exact inv_of_recoverable hp hspec.recoverable
    | done published =>
      obtain ⟨rfl, hpublished⟩ := hspec
      refine ⟨⟨p, hp, hpublished.guard.recoverable⟩, fun x hx => ?_⟩
      cases hx
      exact ⟨rfl, hpublished.own hp⟩
  · rw [exec_publish_other fun pr hpr => hprepared ⟨pr, hpr⟩]
    exact inv_of_recoverable hp hr

theorem inv_after_published {o : Outcome RuleSetError Unit} {d : Store}
    (hr : ∃ p, K p ∧ Recoverable p d) (hown : Own K tag d) : Inv st K (match (o, d) with
      | (.error _, d) => ⟨some (.published ⟨st.root, tag⟩), d⟩
      | (_, d) => ⟨none, d⟩) := by
  cases o with
  | done a | crashed => exact ⟨hr, nofun⟩
  | error e =>
    refine ⟨hr, fun x hx => ?_⟩
    cases hx
    exact ⟨rfl, hown⟩

theorem guard_of_valid {j : RuleSetJournal} (h : Recoverable p t) (hj : journalState t = .valid j) :
    Guard j p t := by
  have hs := h.settles
  unfold Settles at hs
  rw [hj] at hs
  exact ⟨h.tidy, hj, hs⟩

theorem exists_recoverable_of_leaving (hp : K p) (hq : K q) (h : Leaving tag p q t) :
    ∃ p, K p ∧ Recoverable p t := by
  rcases h with h | h
  · exact ⟨p, hp, h.recoverable⟩
  · exact ⟨q, hq, h.recoverable⟩

theorem commit_recoverable (hr : ∃ p, K p ∧ Recoverable p t) (hown : Own K tag t)
    (hsafe : t.get .journal = none ∨ φ .removeJournal = .fail 0 ∨ ∃ p, K p ∧ CompletePair t p) :
    ∃ p, K p ∧ Recoverable p (commit st φ ⟨st.root, tag⟩ t).2 := by
  obtain ⟨p, hp, hr⟩ := hr
  rcases hown.journal with hnone | hvalid
  · exact (commit_refused hnone).final (S := fun d => ∃ p, K p ∧ Recoverable p d) rfl
      (fun _ _ h => h.elim) fun d hd => ⟨p, hp, hd ▸ hr⟩
  · -- The pair that counts once the journal is gone.
    obtain ⟨q, hq, hcomplete⟩ : ∃ q, K q ∧ (φ .removeJournal ≠ .fail 0 → CompletePair t q) := by
      rcases hsafe with hnone | hidle | ⟨q, hq, hc⟩
      · obtain ⟨f, hf, -⟩ := journalState_eq_valid.mp hvalid
        rw [hnone] at hf
        cases hf
      · exact ⟨p, hp, fun hne => absurd hidle hne⟩
      · exact ⟨q, hq, fun _ => hc⟩
    exact commit_triple.final ⟨guard_of_valid hr hvalid, hcomplete⟩
      (fun _ _ h => ⟨q, hq, h.recoverable⟩) fun _ => exists_recoverable_of_leaving hp hq

theorem inv_commit (h : Inv st K w) (hsafe : Safe K w (.commit φ)) :
    Inv st K (exec st w (.commit φ)) := by
  by_cases hpublished : ∃ pub, w.transaction = some (.published pub)
  · obtain ⟨⟨root, tag⟩, htx⟩ := hpublished
    obtain ⟨hroot, hown⟩ := h.backing _ htx
    obtain rfl : root = st.root := hroot
    rw [exec_commit_published htx]
    exact inv_after_published (commit_recoverable h.recoverable hown (hsafe _ htx))
      (keeps_own_commit w.disk hown)
  · rw [exec_commit_other fun pub hpub => hpublished ⟨pub, hpub⟩]
    exact h

theorem rollback_recoverable (hr : ∃ p, K p ∧ Recoverable p t) (hown : Own K tag t)
    (hbackups : Backups tag t) (hsafe : t.get .journal ≠ none ∨ MovesBoth φ) :
    ∃ p, K p ∧ Recoverable p (rollback st φ ⟨st.root, tag⟩ t).2 := by
  obtain ⟨p, hp, hr⟩ := hr
  rcases hown.journal with hnone | hvalid
  · obtain ⟨q, hq, hbacked⟩ := hown.backups hbackups
    have hmoves := hsafe.resolve_left fun hne => hne hnone
    exact (rollback_unprotected hmoves).final (S := fun d => ∃ p, K p ∧ Recoverable p d)
      ⟨⟨hr.tidy, hnone⟩, hbacked⟩ (fun _ _ h => h.elim) fun _ h => ⟨q, hq, h.recoverable⟩
  · exact rollback_triple.final ⟨guard_of_valid hr hvalid, hbackups⟩
      (fun _ _ h => ⟨p, hp, h.recoverable⟩) fun _ => exists_recoverable_of_leaving hp hp

theorem inv_rollback (h : Inv st K w) (hsafe : Safe K w (.rollback φ)) :
    Inv st K (exec st w (.rollback φ)) := by
  cases htx : w.transaction with
  | none =>
    rw [exec_rollback_none htx]
    exact h
  | some x =>
    cases x with
    | prepared pr =>
      rw [exec_rollback_prepared htx]
      obtain ⟨p, hp, hr⟩ := h.recoverable
      have hbeside : Beside w.disk (dropCandidate φ pr.tag.candidate w.disk).2 :=
        dropCandidate_keeps w.disk (.refl hr.tidy)
      exact inv_of_recoverable hp (hr.sameOn hbeside.1 hbeside.2)
    | published pub =>
      obtain ⟨root, tag⟩ := pub
      obtain ⟨hroot, hown⟩ := h.backing _ htx
      obtain rfl : root = st.root := hroot
      obtain ⟨hbackups, hjournal⟩ := hsafe _ htx
      rw [exec_rollback_published htx]
      exact inv_after_published (rollback_recoverable h.recoverable hown hbackups hjournal)
        (keeps_own_rollback w.disk hown)

theorem inv_exec {a : Action} (h : Inv st K w) (hsafe : Safe K w a)
    (hoffered : ∀ pair, a.offered = some pair → K pair) : Inv st K (exec st w a) := by
  cases a with
  | prepare φ tag providers checks =>
    refine inv_prepare h fun pair hpair => hoffered pair ?_
    simp [Action.offered, hpair, Except.toOption]
  | publish φ => exact inv_publish h hsafe
  | commit φ => exact inv_commit h hsafe
  | rollback φ => exact inv_rollback h hsafe
  | reopen φ =>
    obtain ⟨p, hp, hr⟩ := h.recoverable
    exact inv_of_recoverable hp (openStore_recoverable hsafe hr)

/-- The pairs a run knows: the one it starts with and those it offers. -/
def known (old : Pair) (actions : List Action) : List Pair :=
  old :: actions.filterMap Action.offered

/-- After a run of safe actions every opening that overlooks no backup and succeeds,
and every opening that meets no fault, leaves a whole pair in place. -/
theorem run_keeps_pair {old : Pair} {actions : List Action} (hnone : w.transaction = none)
    (hclean : Clean old w.disk)
    (hsafe : Runs.Guarded (exec st) (Safe (· ∈ known old actions)) w actions) (φ : Faults)
    (hfind : FindsBackups φ)
    (hopen : (openStore φ (Runs.run (exec st) w actions).disk).1 = .done () ∨ φ = noFaults) :
    ∃ p ∈ known old actions,
      CompletePair (openStore φ (Runs.run (exec st) w actions).disk).2 p := by
  have hstart : Inv st (· ∈ known old actions) w := by
    refine ⟨⟨old, List.mem_cons_self, hclean.recoverable⟩, fun x hx => ?_⟩
    rw [hnone] at hx
    cases hx
  have hoffered : ∀ a ∈ actions, ∀ pair, a.offered = some pair → pair ∈ known old actions :=
    fun a ha pair hpair => List.mem_cons_of_mem _ (List.mem_filterMap.mpr ⟨a, ha, hpair⟩)
  have hinv := Runs.run_invariant (fun _ _ hs hg => inv_exec hs hg.1 hg.2) hstart
    (hsafe.and_of_forall hoffered)
  obtain ⟨p, hp, hr⟩ := hinv.recoverable
  refine ⟨p, hp, ?_⟩
  rcases hopen with hdone | rfl
  · have hspec := openStore_triple (U := True) hfind _ ⟨hr, fun _ => trivial⟩
    rcases hrun : openStore φ (Runs.run (exec st) w actions).disk with ⟨o, d⟩
    rw [hrun] at hspec hdone
    cases hdone
    exact hspec.complete
  · exact openStore_noFaults hr

end Service

/-! A publication that is committed or rolled back while the journal cannot be
removed. -/

def sampleService : Service := ⟨none, sampleTree⟩

def journalStays : Faults := fun site => if site = .removeJournal then .fail 0 else .none

def samplePublication : List Service.Action :=
  [.prepare noFaults sampleTag
    [⟨.cnDomainDirect, some sampleNew.1⟩, ⟨.cnIpDirect, some sampleNew.2⟩] true,
    .publish noFaults]

/-- A commit that leaves the journal, then a rollback. -/
theorem sampleCommit_then_rollback_keeps_pair : ∃ p ∈ Service.known sampleOld
        (samplePublication ++ [.commit journalStays, .rollback noFaults]),
      CompletePair (openStore noFaults (Runs.run (Service.exec sampleStore) sampleService
        (samplePublication ++ [.commit journalStays, .rollback noFaults])).disk).2 p := by
  refine Service.run_keeps_pair rfl (idle_sampleTree sampleTag).clean ?_
    noFaults findsBackups_noFaults (.inr rfl)
  refine ⟨trivial, fun p hp => ?_, fun p hp => .inr (.inl rfl), fun p hp => ?_, trivial⟩
  · exact publishSafe_of_noFail fun site k => nofun
  · cases hp
    refine ⟨fun s => ?_, .inl ?_⟩
    · cases s with
      | domain => exact ⟨⟨.bytes sampleOld.1, true⟩, rfl⟩
      | ip => exact ⟨⟨.bytes sampleOld.2, true⟩, rfl⟩
    · exact nofun

/-- Tried again after the journal could not be removed, a rollback deletes the pair
it had restored. -/
theorem sampleRollback_twice_loses_pair :
    ¬ ∃ p, CompletePair (openStore noFaults (Runs.run (.exec sampleStore) sampleService
      (samplePublication ++ [.rollback journalStays, .rollback noFaults])).disk).2 p := by
  rintro ⟨p, h⟩
  have hdomain := h .domain
  cases hdomain

end NetHop.RuleSet
