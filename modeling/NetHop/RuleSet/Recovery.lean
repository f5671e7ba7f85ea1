import NetHop.RuleSet.Store

/-!
# What a reopening makes of the directory

`Settles t p` reads off the directory which pair the next opening of the store
ends up with: under a valid journal a backup wins over the file in its place,
without one the current files count.  Opening keeps this pair whatever goes
wrong in it, unless it overlooks a backup, and has it in place when it succeeds.
-/

namespace NetHop.RuleSet

open FaultIo Io Tree

/-! ## Views of the directory -/

/-- Each name holds the kind of entry the store puts there. -/
def kindOk : RuleName → Node CandidateFile RuleContent → Bool
  | .domain, v => v.isFile
  | .ip, v => v.isFile
  | .previousDomain _, v => v.isFile
  | .previousIp _, v => v.isFile
  | .candidate _, v => v.isDir
  | .journal, _ => true
  | .other _, _ => true

variable (t : Store)

def Tidy : Prop := ∀ n v, t.get n = some v → kindOk n v = true

def contentAt (n : RuleName) : Option RuleContent :=
  match t.get n with
  | some (.leaf (.file f)) => some f.content
  | _ => none

inductive Side where
  | domain
  | ip
  deriving DecidableEq

namespace Side

def current : Side → RuleName
  | .domain => .domain
  | .ip => .ip

def file : Side → CandidateFile
  | .domain => .domain
  | .ip => .ip

def pick : Side → Pair → Bytes
  | .domain, p => p.1
  | .ip, p => p.2

def previous (j : RuleSetJournal) : Side → RuleName
  | .domain => j.previousDomain
  | .ip => j.previousIp

end Side

open Side

def CompletePair (p : Pair) : Prop :=
  ∀ s : Side, contentAt t s.current = some (.bytes (s.pick p))

/-- What a restoration leaves at `current`. -/
def restored (current previous : RuleName) : Option RuleContent :=
  (contentAt t previous).or (contentAt t current)

inductive JournalState where
  | absent
  | unreadable
  | valid (j : RuleSetJournal)

def journalState : JournalState :=
  match t.get .journal with
  | none => .absent
  | some (.leaf (.file f)) =>
    match f.content with
    | .journal j => if j.valid then .valid j else .unreadable
    | _ => .unreadable
  | some _ => .unreadable

/-- Under the journal `j` a reopening restores `p`. -/
def Restores (j : RuleSetJournal) (p : Pair) (t : Store) : Prop :=
  ∀ s : Side, restored t s.current (s.previous j) = some (.bytes (s.pick p))

def Settles (p : Pair) : Prop :=
  match journalState t with
  | .valid j => Restores j p t
  | _ => CompletePair t p

/-- The names in a journal that passed its checks collide with nothing else. -/
structure Names (j : RuleSetJournal) : Prop where
  kind : ∀ (s : Side) v, kindOk (s.previous j) v = v.isFile
  ne_journal : ∀ s : Side, s.previous j ≠ .journal
  ne_current : ∀ s s' : Side, s.previous j ≠ s'.current
  ne_candidate : ∀ (s : Side) c, s.previous j ≠ .candidate c
  inj : ∀ s s' : Side, s.previous j = s'.previous j → s = s'
  candidate : ∃ c, j.candidate = .candidate c

theorem names_of_valid {j : RuleSetJournal} (h : j.valid = true) : Names j := by
  obtain ⟨schema, candidate, previousDomain, previousIp⟩ := j
  simp only [RuleSetJournal.valid, Bool.and_eq_true] at h
  obtain ⟨⟨⟨-, hc⟩, hd⟩, hi⟩ := h
  split at hc
  · split at hd
    · split at hi
      · constructor
        · intro s v; cases s <;> rfl
        · intro s; cases s <;> simp [previous]
        · intro s s'; cases s <;> cases s' <;> simp [previous, current]
        · intro s c; cases s <;> simp [previous]
        · intro s s'; cases s <;> cases s' <;> simp [previous]
        · exact ⟨_, rfl⟩
      · cases hi
    · cases hd
  · cases hc

theorem Side.current_inj {s s' : Side} (h : s.current = s'.current) : s = s' := by
  cases s <;> cases s' <;> first | rfl | cases h

variable (s : Side)

theorem Side.kind_current (v : Node CandidateFile RuleContent) :
    kindOk s.current v = v.isFile := by cases s <;> rfl

theorem Side.current_ne_journal : s.current ≠ .journal := by
  cases s <;> simp [current]

theorem Side.current_ne_candidate (c : String) : s.current ≠ .candidate c := by
  cases s <;> simp [current]

variable {n : RuleName}
  {t u : Store} {j : RuleSetJournal} {p : Pair} {s : Side} {ε : Type} {φ : Faults}
  {f : File RuleContent}

theorem isRegular_iff : isRegular t n = true ↔ ∃ c, contentAt t n = some c := by
  unfold isRegular contentAt
  rcases t.get n with _ | ⟨⟨f⟩ | ⟨target⟩ | _⟩ | children <;> simp [Node.isFile]

theorem contentAt_of_get (h : t.get n = some (.leaf (.file f))) :
    contentAt t n = some f.content := by
  unfold contentAt
  rw [h]

theorem exists_file_of_contentAt {c : RuleContent} (h : contentAt t n = some c) :
    ∃ f : File RuleContent, t.get n = some (.leaf (.file f)) ∧ f.content = c := by
  unfold contentAt at h
  split at h
  · next f hf => exact ⟨f, hf, Option.some.inj h⟩
  · cases h

theorem contentAt_congr (h : u.get n = t.get n) : contentAt u n = contentAt t n := by
  unfold contentAt
  rw [h]

theorem restored_congr {m : RuleName} (hn : u.get n = t.get n) (hm : u.get m = t.get m) :
    restored u n m = restored t n m := by
  unfold restored
  rw [contentAt_congr hn, contentAt_congr hm]

theorem journalState_congr (h : u.get .journal = t.get .journal) :
    journalState u = journalState t := by
  unfold journalState
  rw [h]

theorem contentAt_of_tidy (h : Tidy t) (hn : ∀ v, kindOk n v = v.isFile) :
    t.get n = none ∨ ∃ f, t.get n = some (.leaf (.file f)) := by
  rcases hv : t.get n with _ | v
  · exact .inl rfl
  · right
    have hkind := h n v hv
    rw [hn] at hkind
    rcases v with ⟨⟨f⟩ | ⟨target⟩ | _⟩ | children
    · exact ⟨f, rfl⟩
    all_goals cases hkind

/-! ## Effects -/

theorem Tidy.unlink (h : Tidy t) (n : RuleName) : Tidy (unlink n t) := by
  intro m v hv
  rw [get_unlink] at hv
  split at hv
  · cases hv
  · exact h m v hv

theorem Tidy.unlinkChild (h : Tidy t) (n : RuleName) (k : CandidateFile) :
    Tidy (Tree.unlinkChild n k t) := by
  intro m v hv
  unfold Tree.unlinkChild at hv
  split at hv
  next children hn =>
    rw [Dir.get_set] at hv
    split at hv
    next hm =>
      cases hv
      have hdir := h n _ hn
      rw [hm]
      -- A directory with one child less is still a directory.
      cases n <;> exact hdir
    · exact h m v hv
  · exact h m v hv

theorem Tidy.move (h : Tidy t) {p q : RuleName} (hq : ∀ v, t.get p = some v → kindOk q v = true) :
    Tidy (move p q t) := by
  intro m v hv
  rw [get_move] at hv
  split at hv
  · exact h m v hv
  · split at hv
    · next hm => rw [hm]; exact hq v hv
    · split at hv
      · cases hv
      · exact h m v hv

/-! ## The invariant under a journal

While the journal `j` is on disk, moving a file aside, putting another in its
place, clearing the place and moving the backup back all keep what a reopening
restores. -/

/-- The journal `j` protects the pair `p`. -/
structure Guard (j : RuleSetJournal) (p : Pair) (t : Store) : Prop where
  tidy : Tidy t
  journal : journalState t = .valid j
  restores : Restores j p t

theorem journalState_eq_absent : journalState t = .absent ↔ t.get .journal = none := by
  unfold journalState
  rcases t.get .journal with _ | ⟨⟨⟨_ | j | _ | _, isPrivate⟩⟩ | _ | _⟩ | _ <;> simp
  split_ifs <;> simp

theorem journalState_eq_valid :
    journalState t = .valid j ↔ ∃ f, t.get .journal = some (.leaf (.file f)) ∧
      f.content = .journal j ∧ j.valid = true := by
  unfold journalState
  rcases t.get .journal with _ | ⟨⟨⟨_ | j' | _ | _, isPrivate⟩⟩ | _ | _⟩ | _ <;> simp
  split_ifs with h
  · simp only [JournalState.valid.injEq]
    exact ⟨fun he => ⟨he, he ▸ h⟩, fun he => he.1⟩
  · simp only [false_iff]
    rintro ⟨rfl, hvalid⟩
    exact h hvalid

namespace Guard

variable (h : Guard j p t)

include h

theorem names : Names j := by
  obtain ⟨-, -, -, hvalid⟩ := journalState_eq_valid.mp h.journal
  exact names_of_valid hvalid

theorem settles : Settles t p := by
  unfold Settles
  rw [h.journal]
  exact h.restores

theorem backup_content (hb : t.get (s.previous j) = some (.leaf (.file f))) :
    f.content = .bytes (s.pick p) := by
  have hr := h.restores s
  unfold restored at hr
  rw [contentAt_of_get hb] at hr
  exact Option.some.inj hr

theorem of_frame (htidy : Tidy u) (hjournal : u.get .journal = t.get .journal)
    (hsame : ∀ s : Side,
      restored u s.current (s.previous j) = restored t s.current (s.previous j)) :
    Guard j p u where
  tidy := htidy
  journal := (journalState_congr hjournal).trans h.journal
  restores := fun s => (hsame s).trans (h.restores s)

theorem clear (hb : t.get (s.previous j) = some (.leaf (.file f))) :
    Guard j p (unlink s.current t) := by
  refine h.of_frame (h.tidy.unlink _) ?_ fun s' => ?_
  · rw [get_unlink, if_neg s.current_ne_journal.symm]
  · have hprev : (unlink s.current t).get (s'.previous j) = t.get (s'.previous j) := by
      rw [get_unlink, if_neg (h.names.ne_current s' s)]
    by_cases hs : s' = s
    · subst hs
      unfold restored
      rw [contentAt_congr hprev, contentAt_of_get hb]
      rfl
    · refine restored_congr ?_ hprev
      rw [get_unlink, if_neg fun heq => hs (current_inj heq)]

theorem restore (hb : t.get (s.previous j) = some (.leaf (.file f))) :
    Guard j p (move (s.previous j) s.current t) ∧
      contentAt (move (s.previous j) s.current t) s.current = some (.bytes (s.pick p)) := by
  have hget := get_move_of_some hb s.current
  have hcurrent : contentAt (move (s.previous j) s.current t) s.current =
      some (.bytes (s.pick p)) := by
    unfold contentAt
    rw [hget, if_pos rfl, ← h.backup_content hb]
  refine ⟨h.of_frame (h.tidy.move fun v hv => ?_) ?_ fun s' => ?_, hcurrent⟩
  · rw [hb] at hv
    cases hv
    rw [s.kind_current]
    rfl
  · rw [hget, if_neg s.current_ne_journal.symm, if_neg (h.names.ne_journal s).symm]
  · by_cases hs : s' = s
    · subst hs
      have hgone : contentAt (move (s'.previous j) s'.current t) (s'.previous j) = none := by
        unfold contentAt
        rw [hget, if_neg (h.names.ne_current _ _), if_pos rfl]
      have hr := h.restores s'
      rw [hr]
      unfold restored
      rw [hgone, hcurrent]
      rfl
    · refine restored_congr ?_ ?_
      · rw [hget, if_neg fun heq => hs (current_inj heq), if_neg (h.names.ne_current s s').symm]
      · rw [hget, if_neg (h.names.ne_current s' s), if_neg fun heq => hs (h.names.inj _ _ heq)]

theorem backup (hc : t.get s.current = some (.leaf (.file f)))
    (hb : t.get (s.previous j) = none) : Guard j p (move s.current (s.previous j) t) := by
  have hget := get_move_of_some hc (s.previous j)
  refine h.of_frame (h.tidy.move fun v hv => ?_) ?_ fun s' => ?_
  · rw [hc] at hv
    cases hv
    rw [h.names.kind]
    rfl
  · rw [hget, if_neg (h.names.ne_journal s).symm, if_neg s.current_ne_journal.symm]
  · by_cases hs : s' = s
    · subst hs
      unfold restored contentAt
      rw [hget, if_pos rfl, hb, hc]
      rfl
    · refine restored_congr ?_ ?_
      · rw [hget, if_neg (h.names.ne_current s s').symm, if_neg fun heq => hs (current_inj heq)]
      · rw [hget, if_neg fun heq => hs (h.names.inj _ _ heq), if_neg (h.names.ne_current s' s)]

end Guard

/-! ## Opening the store -/

/-- What a reopening needs: every entry in its place, and a pair to settle on. -/
structure Recoverable (p : Pair) (t : Store) : Prop where
  tidy : Tidy t
  settles : Settles t p

structure Clean (p : Pair) (t : Store) : Prop where
  tidy : Tidy t
  absent : journalState t = .absent
  complete : CompletePair t p

theorem Clean.recoverable (h : Clean p t) : Recoverable p t := by
  refine ⟨h.tidy, ?_⟩
  unfold Settles
  rw [h.absent]
  exact h.complete

theorem Guard.recoverable (h : Guard j p t) : Recoverable p t := ⟨h.tidy, h.settles⟩

/-- The next opening settles on `p`; only under `U` can the journal be unreadable. -/
structure Kept (U : Prop) (p : Pair) (t : Store) : Prop where
  recoverable : Recoverable p t
  readable : journalState t = .unreadable → U

theorem Guard.kept {U : Prop} (h : Guard j p t) : Kept U p t :=
  ⟨h.recoverable, fun hu => by rw [h.journal] at hu; cases hu⟩

theorem Clean.kept {U : Prop} (h : Clean p t) : Kept U p t :=
  ⟨h.recoverable, fun hu => by rw [h.absent] at hu; cases hu⟩

theorem Guard.removed {q : Pair} (h : Guard j p t) (hc : CompletePair t q) :
    Clean q (unlink .journal t) where
  tidy := h.tidy.unlink _
  absent := journalState_eq_absent.mpr (by rw [get_unlink, if_pos rfl])
  complete := fun s => by
    rw [contentAt_congr (t := t)]
    · exact hc s
    · rw [get_unlink, if_neg s.current_ne_journal]

def Faulty (φ : Faults) : Prop := ∃ site, φ site ≠ .none

theorem not_faulty_noFaults : ¬ Faulty noFaults := by
  rintro ⟨site, h⟩
  exact h rfl

theorem faulty_of_fail {site : Site} {k : Nat} (h : φ site = .fail k) :
    Faulty φ := ⟨site, by simp [h]⟩

theorem faulty_of_fails {site : Site} (h : (φ site).Fails) : Faulty φ :=
  let ⟨_, hk⟩ := h
  faulty_of_fail hk

structure FindsBackups (φ : Faults) : Prop where
  domain : ¬ (φ .findPreviousDomain).Fails
  ip : ¬ (φ .findPreviousIp).Fails

theorem findsBackups_noFaults : FindsBackups noFaults := ⟨nofun, nofun⟩

theorem faulty_of_crash {site : Site} {k : Nat} (h : φ site = .crash k) :
    Faulty φ := ⟨site, by simp [h]⟩

variable {reason : ε} {P : Store → Prop}

theorem syncDirectory_triple (site : Site) :
    Io.Leaves P (syncDirectory (φ site) reason) (fun _ => P) (fun t => P t ∧ Faulty φ) := by
  intro t ht
  cases hφ : φ site with
  | none => exact ht
  | fail k => exact ⟨by simpa using ht, faulty_of_fail hφ⟩
  | crash k => exact ⟨by simpa using ht, faulty_of_crash hφ⟩

/-- Whatever becomes of the call, the journal still protects `p` or it is gone and
`q` counts; `q` has to be in place unless the call fails without an effect. -/
theorem removeJournal_triple {q : Pair} :
    Io.Leaves (fun t => Guard j p t ∧ (φ .removeJournal ≠ .fail 0 → CompletePair t q))
      (removeJournal φ) (fun _ => Clean q) (fun t => (Guard j p t ∨ Clean q t) ∧ Faulty φ) := by
  refine .bind (Q := fun _ => Clean q) (.single (f := unlink .journal)
    ?_ (fun hφ t ht => ht.1.removed (ht.2 (by simp [hφ])))
    (fun k hk t ht => ⟨?_, faulty_of_fail hk⟩) fun k hk t ht => ⟨?_, faulty_of_crash hk⟩)
    fun _ => ?_
  · intro t ht
    obtain ⟨f, hf, -⟩ := journalState_eq_valid.mp ht.1.journal
    rw [hf]
  · split
    · exact .inl ht.1
    · next hk0 => exact .inr (ht.1.removed (ht.2 (by simp [hk, hk0])))
  · split
    · exact .inl ht.1
    · exact .inr (ht.1.removed (ht.2 (by simp [hk])))
  · exact (syncDirectory_triple .syncRemoval).otherwise fun _ h => ⟨.inr h.1, h.2⟩

/-- On its way out the journal protects the pair that is in place. -/
theorem recoverable_of_removal (h : Guard j p t ∨ Clean p t) : Recoverable p t := by
  rcases h with h | h <;> exact h.recoverable

variable {α : Type} {m : Io Store ε α}

theorem keeps_contentAt {c : Option RuleContent} (h : ∀ v, Frames n v m) :
    Io.Keeps (fun t : Store => contentAt t n = c) m := by
  intro t ht
  have hsame : (m t).2.get n = t.get n := h (t.get n) t rfl
  exact (contentAt_congr hsame).trans ht

variable {v : Option (Node CandidateFile RuleContent)} {ψ : Fault} {look : Store → Bool}

section Restore

variable {U : Prop}

theorem clearPlace_triple (s : Side) (site : Site) (there : Bool) : Io.Leaves
      (fun t => Guard j p t ∧ (∃ f, t.get (s.previous j) = some (.leaf (.file f))) ∧
        (there = true → (t.get s.current).isSome)) (clearPlace (φ site) s.current there)
      (fun b t => (Guard j p t ∧ ∃ f, t.get (s.previous j) = some (.leaf (.file f))) ∧
        (b = false → Faulty φ)) (fun t => Guard j p t ∧ Faulty φ) := by
  cases there with
  | false => exact .ret fun t ht => ⟨⟨ht.1, ht.2.1⟩, nofun⟩
  | true =>
    have hcleared : ∀ (k : Nat) t, (Guard j p t ∧
        (∃ f, t.get (s.previous j) = some (.leaf (.file f))) ∧
        (true = true → (t.get s.current).isSome)) →
        Guard j p (if k = 0 then t else unlink s.current t) ∧
        ∃ f, (if k = 0 then t else unlink s.current t).get (s.previous j) =
          some (.leaf (.file f)) := by
      rintro k t ⟨hg, ⟨f, hf⟩, -⟩
      split
      · exact ⟨hg, f, hf⟩
      · refine ⟨hg.clear hf, f, ?_⟩
        rw [get_unlink, if_neg (hg.names.ne_current s s), hf]
    refine .succeeds (.single (f := unlink s.current) ?_ (fun _ t ht => ⟨hcleared 1 t ht, nofun⟩)
      (fun k hk t ht => ⟨hcleared k t ht, fun _ => faulty_of_fail hk⟩)
      fun k hk t ht => ⟨(hcleared k t ht).1, faulty_of_crash hk⟩)
    rintro t ⟨hg, -, hthere⟩
    rcases contentAt_of_tidy hg.tidy s.kind_current with hnone | ⟨f, hf⟩
    · rw [hnone] at hthere
      cases hthere rfl
    · rw [hf]

theorem Tidy.canMove (h : Tidy t) (hf : t.get n = some (.leaf (.file f))) :
    t.canMove n s.current = true := by
  unfold Tree.canMove
  rcases contentAt_of_tidy h s.kind_current with hnone | ⟨f', hf'⟩
  · rw [hf, hnone]
  · rw [hf, hf']

theorem moveBack_triple (s : Side) (site : Site) :
    Io.Leaves (fun t => Guard j p t ∧ ∃ f, t.get (s.previous j) = some (.leaf (.file f)))
      (Io.succeeds (rename (φ site) () (s.previous j) s.current : Sys) : Io Store ε Bool)
      (fun b t => Guard j p t ∧
        (φ site ≠ .fail 0 → contentAt t s.current = some (.bytes (s.pick p))) ∧
        (b = true ↔ φ site = .none)) (fun t => Guard j p t ∧ Faulty φ) := by
  refine .succeeds (.single (f := move (s.previous j) s.current) ?_ ?_ ?_ ?_)
  · rintro t ⟨hg, f, hf⟩
    rw [if_pos (hg.tidy.canMove hf)]
  · rintro hφ t ⟨hg, f, hf⟩
    exact ⟨(hg.restore hf).1, fun _ => (hg.restore hf).2, by simp [hφ]⟩
  · rintro k hk t ⟨hg, f, hf⟩
    split
    · next h0 => exact ⟨hg, by simp [hk, h0], by simp [hk]⟩
    · exact ⟨(hg.restore hf).1, fun _ => (hg.restore hf).2, by simp [hk]⟩
  · rintro k hk t ⟨hg, f, hf⟩
    split
    · exact ⟨hg, faulty_of_crash hk⟩
    · exact ⟨(hg.restore hf).1, faulty_of_crash hk⟩

theorem restoreIfPresent_triple (s : Side) {find : Site} (find' site site' : Site)
    (hfind : ¬ (φ find).Fails) : Io.Leaves (Guard j p)
      (restoreIfPresent (φ find) (φ find') (φ site) (φ site') s.current (s.previous j))
      (fun b t => Guard j p t ∧ (b = true → contentAt t s.current = some (.bytes (s.pick p))) ∧
        (b = false → Faulty φ)) (fun t => Guard j p t ∧ Faulty φ) := by
  unfold restoreIfPresent
  rw [sees_eq hfind]
  refine .bind (Q := fun b t => Guard j p t ∧ b = isRegular t (s.previous j))
    (.look fun t ht => ⟨ht, rfl⟩) fun b => ?_
  cases b with
  | false =>
    refine .look fun t ht => ?_
    -- Without a backup the current file is what would be restored.
    have hnone : contentAt t (s.previous j) = none := by
      by_contra hno
      obtain ⟨c, hc⟩ := Option.ne_none_iff_exists'.mp hno
      have := isRegular_iff.mpr ⟨c, hc⟩
      rw [← ht.2] at this
      cases this
    have hcurrent : contentAt t s.current = some (.bytes (s.pick p)) := by
      have hr := ht.1.restores s
      unfold restored at hr
      rwa [hnone] at hr
    refine ⟨ht.1, fun _ => hcurrent, fun h => ?_⟩
    have hfails : (φ find').Fails := by simpa [isRegular_iff.mpr ⟨_, hcurrent⟩] using h
    exact faulty_of_fails hfails
  | true =>
    refine .bind (Q := fun b t => Guard j p t ∧
      (∃ f, t.get (s.previous j) = some (.leaf (.file f))) ∧
        (b = true → (t.get s.current).isSome))
      (.look fun t ht => ⟨ht.1, ?_, fun h => (Bool.and_eq_true_iff.mp h).2⟩) fun there => ?_
    · obtain ⟨c, hc⟩ := isRegular_iff.mp ht.2.symm
      obtain ⟨f, hf, -⟩ := exists_file_of_contentAt hc
      exact ⟨f, hf⟩
    · refine .bind (clearPlace_triple s site there) fun cleared => ?_
      cases cleared with
      | false =>
        exact .ret fun t ht => ⟨ht.1.1, nofun, fun _ => ht.2 rfl⟩
      | true =>
        refine ((moveBack_triple s site').pre fun _ h => h.1).post ?_
        rintro b t ⟨hg, hcontent, hb⟩
        refine ⟨hg, fun h => hcontent ?_, fun h => ⟨site', fun hφ => ?_⟩⟩
        · simp [hb.mp h]
        · rw [hb.mpr hφ] at h
          cases h

theorem frame_restoreIfPresent {ψ₁ ψ₂ χ : Fault} {m q : RuleName} (hn : q ≠ n) (hm : q ≠ m) :
    Frames q v (restoreIfPresent ψ₁ ψ₂ ψ χ n m) := by
  refine .bind (.look _) fun backup => ?_
  cases backup with
  | false => exact .look _
  | true =>
    refine .bind (.look _) fun there => ?_
    refine .bind ?_ fun cleared => ?_
    · cases there with
      | false => exact .ret _
      | true => exact (frame_removeFile hn).succeeds
    · cases cleared with
      | false => exact .ret _
      | true => exact (frame_rename hm hn).succeeds

theorem keeps_tidy_removeDirAll (n : RuleName) :
    Io.Keeps Tidy (removeDirAll ψ reason n : Io Store ε Unit) :=
  keeps_removeDirAll (fun k _ ht => ht.unlinkChild n k) fun _ ht => ht.unlink n

theorem keeps_tidy_removeFile (n : RuleName) :
    Io.Keeps Tidy (removeFile ψ reason n : Io Store ε Unit) :=
  keeps_removeFile fun _ ht => ht.unlink n

theorem keeps_guard (htidy : Io.Keeps Tidy m)
    (hframe : ∀ n, (∀ c, n ≠ .candidate c) → ∀ v, Frames n v m) :
    Io.Keeps (fun t => Guard j p t ∧ CompletePair t p) m := by
  rintro t ⟨hg, hc⟩
  have hsame : ∀ n, (∀ c, n ≠ .candidate c) → (m t).2.get n = t.get n :=
    fun n hn => hframe n hn _ t rfl
  refine ⟨hg.of_frame (htidy t hg.tidy) (hsame _ (by simp)) fun s => ?_, fun s => ?_⟩
  · exact restored_congr (hsame _ s.current_ne_candidate) (hsame _ (hg.names.ne_candidate s))
  · exact (contentAt_congr (hsame _ s.current_ne_candidate)).trans (hc s)

theorem keeps_removeCandidate (hn : ∃ c, n = .candidate c) :
    Io.Keeps (fun t => Guard j p t ∧ CompletePair t p) (removeDirAll ψ () n : Sys) := by
  obtain ⟨c, rfl⟩ := hn
  exact keeps_guard (keeps_tidy_removeDirAll _) fun m hm v => frame_removeDirAll (hm c)

theorem restoreHalves_triple (hfind : FindsBackups φ) :
    Io.Leaves (Guard j p) (restoreHalves φ j)
      (fun b t => Guard j p t ∧ (b = true → CompletePair t p) ∧ (b = false → Faulty φ))
      (fun t => Guard j p t ∧ Faulty φ) := by
  refine .bind (restoreIfPresent_triple .domain _ _ _ hfind.domain) fun domain => ?_
  cases domain with
  | false =>
    exact .ret fun t ht => ⟨ht.1, nofun, fun _ => ht.2.2 rfl⟩
  | true =>
    intro t ht
    have hn := ht.1.names
    -- The second restoration leaves the first half where it is.
    have hkeep : Keeps (fun u : Store => contentAt u .domain = some (.bytes p.1))
        (restoreIfPresent (φ .findPreviousIp) (φ .findIp) (φ .clearIp) (φ .restoreIp) .ip
          j.previousIp) :=
      keeps_contentAt fun v => frame_restoreIfPresent (by simp) (hn.ne_current .ip .domain).symm
    refine (((restoreIfPresent_triple .ip _ _ _ hfind.ip).frame hkeep).otherwise
      fun _ h => h.1).post ?_ t ⟨ht.1, ht.2.1 rfl⟩
    rintro b u ⟨⟨hg, hip, hfaulty⟩, hdomain⟩
    refine ⟨hg, fun hb s => ?_, hfaulty⟩
    cases s with
    | domain => exact hdomain
    | ip => exact hip hb

/-- What an opening has left when it does not succeed: unless the journal cannot
be read, the system failed. -/
def Stopped (U : Prop) (φ : Faults) (p : Pair) (t : Store) : Prop :=
  Recoverable p t ∧ (Faulty φ ∨ (U ∧ journalState t = .unreadable))

theorem finishReplay_triple : Io.Triple (fun t => Guard j p t ∧ CompletePair t p) (finishReplay φ j)
      (fun _ => Clean p) (fun _ => Stopped U φ p) (fun t => Recoverable p t ∧ Faulty φ) := by
  have hremove : Triple (fun t => Guard j p t ∧ CompletePair t p) (removeJournal φ)
      (fun _ => Clean p) (fun _ => Stopped U φ p) (fun t => Recoverable p t ∧ Faulty φ) :=
    (removeJournal_triple.pre fun _ h => ⟨h.1, fun _ => h.2⟩).stops
      (fun _ _ h => ⟨recoverable_of_removal h.1, .inl h.2⟩)
      fun _ h => ⟨recoverable_of_removal h.1, h.2⟩
  refine Triple.bind (Q := fun b t => (Guard j p t ∧ CompletePair t p) ∧
    (b = true → (t.get j.candidate).isSome))
    (Triple.look fun t ht => ⟨ht, fun h => (Bool.and_eq_true_iff.mp h).2⟩) fun there => ?_
  cases there with
  | false => exact hremove.pre fun _ h => h.1
  | true =>
    -- A candidate is a directory in a tidy root.
    refine Triple.bind (Q := fun b t => b = true ∧ (t.get j.candidate).any Node.isDir = true ∧
      Guard j p t ∧ CompletePair t p) (Triple.look fun t ht => ?_) fun isDir => .assuming ?_
    · obtain ⟨v, hv⟩ := Option.isSome_iff_exists.mp (ht.2 rfl)
      obtain ⟨c, hc⟩ := ht.1.1.names.candidate
      have hkind := ht.1.1.tidy _ _ hv
      rw [hc] at hkind
      rw [hv]
      exact ⟨hkind, hkind, ht.1⟩
    · rintro rfl
      refine Triple.bind (Q := fun _ t => Guard j p t ∧ CompletePair t p) ?_ fun _ => hremove
      intro t ht
      refine (Triple.of_allowed (φ := φ .removeCandidate)
        (P := fun u => (u.get j.candidate).any Node.isDir = true) (fun u hu => ?_)
        (keeps_removeCandidate ht.2.1.names.candidate)).stops
        (fun _ _ h => ⟨h.1.1.recoverable, .inl ⟨_, h.2⟩⟩)
        (fun _ h => ⟨h.1.1.recoverable, _, h.2⟩) t ht
      generalize u.get j.candidate = entry at hu ⊢
      rcases entry with _ | l | children
      · cases hu
      · cases hu
      · rfl

theorem replay_triple (hfind : FindsBackups φ) :
    Io.Triple (Guard j p) (replay φ j) (fun _ => Clean p) (fun _ => Stopped U φ p)
      (fun t => Recoverable p t ∧ Faulty φ) := by
  refine .bind ((restoreHalves_triple hfind).stops (fun _ _ h => ⟨h.1.recoverable, .inl h.2⟩)
    fun _ h => ⟨h.1.recoverable, h.2⟩) fun restored => ?_
  cases restored with
  | false => exact .fail fun t ht => ⟨ht.1.recoverable, .inl (ht.2.2 rfl)⟩
  | true =>
    exact finishReplay_triple.pre fun t ht => ⟨ht.1, ht.2.1 rfl⟩

/-! What `recover_interrupted_transaction` does is decided by the journal. -/

theorem replayJournal_of_absent (h : journalState t = .absent) :
    replayJournal φ t = (.done (), t) := by
  rw [replayJournal, gets_bind_apply, journalState_eq_absent.mp h]
  rfl

theorem replayJournal_of_valid (h : journalState t = .valid j) :
    replayJournal φ t = replay φ j t := by
  obtain ⟨f, hf, hcontent, hvalid⟩ := journalState_eq_valid.mp h
  rw [replayJournal, gets_bind_apply, hf]
  simp [hcontent, hvalid]

/-- With a journal that cannot be read nothing is done. -/
theorem replayJournal_of_unreadable (h : journalState t = .unreadable) :
    replayJournal φ t = (.error (), t) := by
  rw [replayJournal, gets_bind_apply]
  unfold journalState at h
  generalize t.get .journal = entry at h ⊢
  rcases entry with _ | ((⟨content, isPrivate⟩ | target | _) | children)
  · cases h
  · cases content with
    | journal j =>
      have hinvalid : j.valid = false := by simpa using h
      simp [hinvalid]
    | _ => rfl
  all_goals rfl

theorem replayJournal_triple (hfind : FindsBackups φ) : Io.Triple (Kept U p) (replayJournal φ)
      (fun _ => Clean p) (fun _ => Stopped U φ p) (fun t => Recoverable p t ∧ Faulty φ) := by
  intro t ht
  have hs := ht.recoverable.settles
  unfold Settles at hs
  cases hj : journalState t with
  | absent =>
    rw [hj] at hs
    rw [replayJournal_of_absent hj]
    exact ⟨ht.recoverable.tidy, hj, hs⟩
  | valid j =>
    rw [hj] at hs
    rw [replayJournal_of_valid hj]
    exact replay_triple hfind t ⟨ht.recoverable.tidy, hj, hs⟩
  | unreadable =>
    rw [replayJournal_of_unreadable hj]
    exact ⟨ht.recoverable, .inr ⟨ht.readable hj, hj⟩⟩

theorem recoverInterrupted_triple (hfind : FindsBackups φ) :
    Io.Triple (Kept U p) (recoverInterrupted φ) (fun _ => Clean p) (fun _ => Stopped U φ p)
      (fun t => Recoverable p t ∧ Faulty φ) := by
  refine .bind ((syncDirectory_triple .readJournal).stops ?_ ?_) fun _ => replayJournal_triple hfind
  · exact fun _ t h => ⟨h.1.recoverable, .inl h.2⟩
  · exact fun t h => ⟨h.1.recoverable, h.2⟩

theorem keeps_clean (htidy : Io.Keeps Tidy m)
    (hframe : ∀ n, n = .journal ∨ (∃ s : Side, n = s.current) → ∀ v, Frames n v m) :
    Io.Keeps (Clean p) m := by
  intro t ht
  have hsame : ∀ n, n = .journal ∨ (∃ s : Side, n = s.current) → (m t).2.get n = t.get n :=
    fun n hn => hframe n hn _ t rfl
  refine ⟨htidy t ht.tidy, ?_, fun s => ?_⟩
  · exact (journalState_congr (hsame _ (.inl rfl))).trans ht.absent
  · exact (contentAt_congr (hsame _ (.inr ⟨s, rfl⟩))).trans (ht.complete s)

theorem ne_of_stale {m : RuleName} (hn : n = .journal ∨ ∃ s : Side, n = s.current)
    (hm : m ≠ .journal ∧ m ≠ .domain ∧ m ≠ .ip) : n ≠ m := by
  rintro rfl
  rcases hn with rfl | ⟨s, rfl⟩
  · exact hm.1 rfl
  · cases s with
    | domain => exact hm.2.1 rfl
    | ip => exact hm.2.2 rfl

/-- One entry is removed if it is of the kind that belongs there. -/
def removeStale (look : Store → Bool) (remove : Sys) : Io Store Unit Bool := do
  if ← Io.gets look then
    remove
    pure true
  else Io.throw ()

theorem keeps_removeStale {remove : Sys} {I : Store → Prop} (h : Io.Keeps I remove) :
    Io.Keeps I (removeStale look remove) := by
  refine .bind (.look _) fun b => ?_
  cases b with
  | false => exact .fail _
  | true => exact .bind h fun _ => .ret _

theorem removeStale_triple {effects : Store → Option (List (Store → Store))}
    (hψ : ψ ≠ .none → Faulty φ) (hlook : ∀ t, Clean p t → P t → look t = true)
    (hallowed : ∀ t, look t = true → (effects t).isSome)
    (hclean : Io.Keeps (Clean p) (Io.step ψ () effects)) :
    Io.Leaves (fun t => Clean p t ∧ P t) (removeStale look (Io.step ψ () effects))
      (fun _ => Clean p) (fun t => Clean p t ∧ Faulty φ) := by
  refine .bind (Q := fun b t => (look t = true ∧ Clean p t) ∧ b = true)
    (.look fun t ht => ⟨⟨hlook t ht.1 ht.2, ht.1⟩, hlook t ht.1 ht.2⟩) fun b => ?_
  cases b with
  | false => exact fun t ht => by cases ht.2
  | true =>
    refine .bind (Q := fun _ => Clean p) ?_ fun _ => .ret fun _ h => h
    exact ((Triple.of_allowed hallowed hclean).pre fun _ h => h.1).otherwise
      fun _ h => ⟨h.1, hψ h.2⟩

theorem cleanupEntry_triple (n : RuleName) :
    Io.Leaves (fun t => Clean p t ∧ (t.get n).isSome = true) (cleanupEntry φ n) (fun _ => Clean p)
      (fun t => Clean p t ∧ Faulty φ) := by
  have hfile : ∀ m : RuleName, (m ≠ .journal ∧ m ≠ .domain ∧ m ≠ .ip) →
      (∀ v, kindOk m v = v.isFile) → Leaves (fun t => Clean p t ∧ (t.get m).isSome = true)
        (removeStale (isRegular · m) (removeFile (φ (.cleanup m)) () m))
        (fun _ => Clean p) (fun t => Clean p t ∧ Faulty φ) := by
    intro m hm hkind
    refine removeStale_triple (fun h => ⟨_, h⟩) (fun t ht hsome => ?_) (fun t ht => ?_)
      (keeps_clean (keeps_tidy_removeFile m) fun q hq v => frame_removeFile (ne_of_stale hq hm))
    · obtain ⟨v, hv⟩ := Option.isSome_iff_exists.mp hsome
      rw [isRegular, hv, Option.any_some, ← hkind]
      exact ht.tidy m v hv
    · unfold isRegular at ht
      generalize t.get m = entry at ht ⊢
      rcases entry with _ | l | children
      · cases ht
      · rfl
      · cases ht
  cases n with
  | previousDomain suffix | previousIp suffix => exact hfile _ (by simp) fun _ => rfl
  | candidate suffix =>
    refine removeStale_triple (fun h => ⟨_, h⟩) (fun t ht hsome => ?_) (fun t ht => ?_)
      (keeps_clean (keeps_tidy_removeDirAll _)
        fun q hq v => frame_removeDirAll (ne_of_stale hq (by simp)))
    · obtain ⟨v, hv⟩ := Option.isSome_iff_exists.mp hsome
      rw [hv]
      exact ht.tidy _ v hv
    · generalize t.get (.candidate suffix) = entry at ht ⊢
      rcases entry with _ | l | children
      · cases ht
      · cases ht
      · rfl
  | domain | ip | journal | other name => exact .ret fun t ht => ht.1

theorem frame_cleanupEntry {m : RuleName} (h : m ≠ n) : Frames m v (cleanupEntry φ n) := by
  cases n with
  | previousDomain suffix | previousIp suffix => exact keeps_removeStale (frame_removeFile h)
  | candidate suffix => exact keeps_removeStale (frame_removeDirAll h)
  | domain | ip | journal | other name => exact .ret _

theorem cleanupEntries_triple (names : List RuleName) (hnodup : names.Nodup) :
    Io.Leaves (fun t => Clean p t ∧ ∀ n ∈ names, (t.get n).isSome = true)
      (cleanupEntries φ names) (fun _ => Clean p) (fun t => Clean p t ∧ Faulty φ) := by
  induction names with
  | nil => exact .ret fun t ht => ht.1
  | cons n ns ih =>
    rw [List.nodup_cons] at hnodup
    refine .bind (Q := fun _ t => Clean p t ∧ ∀ m ∈ ns, (t.get m).isSome = true)
      ?_ fun removed => ?_
    · -- The rest of the listing is untouched by the removal of `n`.
      have hrest : Keeps (fun t : Store => ∀ m ∈ ns, (t.get m).isSome = true)
          (cleanupEntry φ n) := by
        intro t ht m hm
        have hne : m ≠ n := by
          rintro rfl
          exact hnodup.1 hm
        have hsame : (cleanupEntry φ n t).2.get m = t.get m := frame_cleanupEntry hne t rfl
        rw [hsame]
        exact ht m hm
      refine (((cleanupEntry_triple n).frame hrest).otherwise fun _ h => h.1).pre ?_
      intro t ht
      exact ⟨⟨ht.1, ht.2 n List.mem_cons_self⟩, fun m hm => ht.2 m (List.mem_cons_of_mem _ hm)⟩
    · exact .bind (ih hnodup.2) fun _ => .ret fun _ h => h

theorem cleanupStale_triple : Io.Leaves (Clean p) (cleanupStale φ) (fun _ => Clean p)
      (fun t => Clean p t ∧ Faulty φ) := by
  refine .bind (syncDirectory_triple .listRoot) fun _ => ?_
  intro t ht
  refine (Triple.bind (cleanupEntries_triple t.names t.names_nodup) fun changed => ?_) t
    ⟨ht, fun n hn => Dir.mem_names.mp hn⟩
  cases changed with
  | false => exact Triple.ret fun _ h => h
  | true => exact syncDirectory_triple .syncCleanup

theorem openStore_triple (hfind : FindsBackups φ) :
    Io.Triple (Kept U p) (openStore φ) (fun _ => Clean p) (fun _ => Stopped U φ p)
      (fun t => Recoverable p t ∧ Faulty φ) := by
  refine .bind (.mapError (recoverInterrupted_triple hfind)) fun _ => ?_
  refine .mapError (cleanupStale_triple.stops ?_ ?_)
  · exact fun _ t h => ⟨h.1.recoverable, .inl h.2⟩
  · exact fun t h => ⟨h.1.recoverable, h.2⟩

/-- Without faults an opening has the pair in place, even when it cannot read the
journal and reports an error. -/
theorem openStore_noFaults (h : Recoverable p t) : CompletePair (openStore noFaults t).2 p := by
  have hrun := openStore_triple (U := True) findsBackups_noFaults t ⟨h, fun _ => trivial⟩
  rcases hm : openStore noFaults t with ⟨o, u⟩
  rw [hm] at hrun
  cases o with
  | done a => exact hrun.complete
  | crashed => exact absurd hrun.2 not_faulty_noFaults
  | error e =>
    obtain ⟨hr, hf | ⟨-, hun⟩⟩ := hrun
    · exact absurd hf not_faulty_noFaults
    · have hs := hr.settles
      unfold Settles at hs
      rw [hun] at hs
      exact hs

theorem openStore_succeeds (h : Kept False p t) :
    ∃ u, openStore noFaults t = (.done (), u) ∧ Clean p u := by
  have hrun := openStore_triple findsBackups_noFaults t h
  rcases hm : openStore noFaults t with ⟨o, u⟩
  rw [hm] at hrun
  cases o with
  | done a => exact ⟨u, rfl, hrun⟩
  | crashed => exact absurd hrun.2 not_faulty_noFaults
  | error e =>
    obtain ⟨-, hf | ⟨hno, -⟩⟩ := hrun
    · exact absurd hf not_faulty_noFaults
    · exact hno.elim

theorem openStore_ne_done (h : journalState t = .unreadable) (u : Store) :
    openStore φ t ≠ (.done (), u) := by
  intro hrun
  obtain ⟨a, t', hrec, -⟩ := bind_eq_done.mp hrun
  obtain ⟨_, t₁, hprobe, hreplay⟩ := bind_eq_done.mp (mapError_eq_done.mp hrec)
  cases Keeps.state_eq (Keeps.probe _ _) hprobe
  rw [replayJournal_of_unreadable h] at hreplay
  cases hreplay

end Restore

end NetHop.RuleSet
