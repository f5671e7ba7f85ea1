import NetHop.Subscription.Recovery

/-!
# Crash points of a subscription change

Two properties of a change that is killed anywhere and recovered at the next
start: the configuration and the generation belong together, and recovery
touches only what the change made.  Neither holds at every crash point; each
theorem gives the crash points and disks for which it does.
-/

namespace NetHop.Subscription

open FaultIo List Progress
open Generation

/-! ## What the order of the steps gives -/

namespace Progress

theorem staged_ne_untouched {p : Progress} (h : p.staged ≠ .untouched) (steps : List Step) :
    (steps.foldl step p).staged ≠ .untouched := by
  induction steps generalizing p with
  | nil => exact h
  | cons st steps ih =>
    apply ih
    cases st <;> simp [step, h]

theorem sealed_foldl {p : Progress} {steps : List Step} (h : ∀ st ∈ steps, st ≠ .sealGeneration ∧
      st ≠ .discardGeneration ∧ ∀ child, st ≠ .discardChild child) :
    (steps.foldl step p).sealed = p.sealed ∧ (steps.foldl step p).discarded = p.discarded := by
  induction steps generalizing p with
  | nil => exact ⟨rfl, rfl⟩
  | cons st steps ih =>
    cases st <;> simp_all [step]

end Progress

theorem owned_foldl_without (removed : List ChildName) (children : Dir ChildName (Leaf Content)) :
    owned (some (removed.foldl Node.without (.dir children))) = true := by
  induction removed generalizing children with
  | nil => rfl
  | cons child removed ih => exact ih (children.del child)

namespace Episode

variable {e : Episode} {k : Nat} {phase : CommitPhase} {φ : Faults}

theorem staged_of_journal (h : (e.progress k).journal = some phase) :
    (e.progress k).staged ≠ .untouched := by
  cases k with
  | zero => cases h
  | succ k =>
    exact staged_ne_untouched (p := initial.step .stageConfig) (by decide) _

theorem sealed_of_not_allocates (h : e.plan.allocates = false) :
    (e.progress k).sealed = .untouched ∧ (e.progress k).discarded = [] := by
  refine sealed_foldl fun st hst => ?_
  have hmem : st ∈ protocol e.tx e.plan := mem_of_mem_take hst
  cases hplan : e.plan with
  | refused | registryRefused =>
    simp only [protocol, aborting, mem_append, mem_cons, not_mem_nil] at hmem
    grind
  | applied u =>
    have hkind : u.kind = .skipped := by
      simpa [hplan, Plan.allocates, Plan.update] using h
    simp only [protocol, aborting, Update.steps, Update.ending, Update.undoing,
      mem_append, mem_cons, not_mem_nil] at hmem
    grind

theorem sealed_crashAt {g : Nat} {children : Dir ChildName (Leaf Content)}
    (h : e.start.sealed.get g = some (.dir children)) :
    (e.crashAt k).sealed.get g = some (.dir children) := by
  rw [(e.matches_crashAt k).sealed]
  split
  next hg =>
    subst hg
    cases halloc : e.plan.allocates with
    | true => rw [e.next_free halloc] at h; cases h
    | false =>
      obtain ⟨hsealed, hdiscarded⟩ := @sealed_of_not_allocates e k halloc
      rw [hsealed, hdiscarded, Mark.entry, h]
      rfl
  · exact h

theorem stagedGeneration_crashAt : (e.crashAt k).root.get (.entry e.tx.journal.stagedGeneration) =
      e.start.root.get (.entry e.tx.journal.stagedGeneration) := by
  apply (e.matches_crashAt k).others
  · simp
  · simpa using e.tx.stagedGeneration_ne_stagedConfig

theorem canonical_crashAt :
    (e.crashAt k).canonical.map e.tx.sha.hex = some e.tx.journal.newConfigDigest ↔
      (e.progress k).published = true ∨
        e.tx.sha.hex e.tx.oldBytes = e.tx.sha.hex e.tx.newBytes := by
  rw [(e.matches_crashAt k).canonical]
  cases (e.progress k).published <;> simp [Transaction.journal]

variable (h : (e.progress k).journal = some phase)

include h

theorem journal_crashAt :
    (e.crashAt k).root.get .journal = some (.file (.journal (e.tx.journalAt phase)) true) := by
  rw [(e.matches_crashAt k).journal, h]
  rfl

theorem restart_crashAt (hread : φ .readJournal = .none) : restart φ e.tx.sha (e.crashAt k) =
      resolve φ e.tx.sha (e.tx.journalAt phase) (e.crashAt k).current (e.crashAt k) :=
  restart_of_file (journal_crashAt h) (e.tx.valid_journalAt phase)
    (e.tx.length_jsonText_le phase) hread

theorem unread_crashAt (hread : φ .readJournal ≠ .none) :
    (restart φ e.tx.sha (e.crashAt k)).2 = e.crashAt k ∧
      ∀ a s', restart φ e.tx.sha (e.crashAt k) ≠ (.done a, s') :=
  restart_of_unread (journal_crashAt h) (e.tx.valid_journalAt phase)
    (e.tx.length_jsonText_le phase) hread

theorem removable_crashAt : (∃ f, (e.crashAt k).root.get .journal = some (.leaf (.file f))) ∧
      owned ((e.crashAt k).root.get (.entry e.tx.journal.stagedConfig)) = true := by
  have hm := e.matches_crashAt k
  constructor
  · exact ⟨_, journal_crashAt h⟩
  · have hstaged := staged_of_journal h
    rw [hm.staged]
    cases hmark : (e.progress k).staged with
    | untouched => exact absurd hmark hstaged
    | written | removed => rfl

end Episode

/-! ## The configuration and the generation belong together -/

/-- The canonical configuration and the current generation are both the old or
both the new ones. -/
def Settled (tx : Transaction) (s : Disk) : Prop :=
  (s.canonical.map tx.sha.hex = some tx.journal.oldConfigDigest ∧
    s.current = tx.journal.oldGeneration) ∨
  (s.canonical.map tx.sha.hex = some tx.journal.newConfigDigest ∧
    s.current = some tx.journal.newGeneration)

/-- An update that publishes the generation the journal names. -/
structure Update.Publishes (u : Update) (tx : Transaction) : Prop where
  committed : u.kind = .committed
  completed : u.completed = true
  running : u.running = some tx.newGeneration

def wholeProtocol : List Step :=
  [.stageConfig, .writeJournal .journaled, .publishConfig, .writeJournal .configPublished,
    .sealGeneration, .switchCurrent, .writeJournal .generationPublished,
    .writeJournal .committed, .removeStagedConfig, .clearJournal]

variable {tx : Transaction}

theorem protocol_of_publishes {u : Update} (h : u.Publishes tx) :
    protocol tx (.applied u) = wholeProtocol := by
  simp [protocol, Update.steps, Update.ending, h.committed, h.completed, h.running,
    wholeProtocol, aborting]

theorem published_eq_switched (k : Nat) (h : (after (wholeProtocol.take k)).journal = none) :
    (after (wholeProtocol.take k)).published = (after (wholeProtocol.take k)).switched := by
  have hsmall : ∀ i ≤ 10, (after (wholeProtocol.take i)).journal = none →
      (after (wholeProtocol.take i)).published =
        (after (wholeProtocol.take i)).switched := by decide
  by_cases hk : k ≤ 10
  · exact hsmall k hk h
  · have htake : wholeProtocol.take k = wholeProtocol.take 10 := by
      rw [take_of_length_le (by simp [wholeProtocol]; omega)]
      rfl
    rw [htake] at h ⊢
    exact hsmall 10 (by omega) h

theorem nextGeneration_running {n : Nat}
    (h : nextGeneration (tx.running.map GenerationId.get) = some n) : n = tx.newGeneration := by
  unfold Transaction.newGeneration
  cases hr : tx.running with
  | none =>
    rw [hr] at h
    cases h
    rfl
  | some g =>
    rw [hr] at h
    simp only [Option.map_some, nextGeneration] at h
    split at h
    next hlt =>
      cases h
      exact (if_pos hlt).symm
    · cases h

variable {a : RecoveryAction}

theorem resolve_done {φ : Faults} {sha : Sha256} {j : CommitJournal} {s s' : Disk}
    (h : resolve φ sha j s.current s = (.done a, s')) : s'.current = s.current ∧
      if s.current = some j.newGeneration then s'.canonical.map sha.hex = some j.newConfigDigest
      else s'.canonical = s.canonical := by
  cases hd : recoverDecision sha j s.current s with
  | error reason => rw [resolve_of_blocked hd] at h; cases h
  | ok action =>
    rw [resolve_of_decision hd] at h
    obtain ⟨_, s1, hrun, hret⟩ := Io.bind_eq_done.mp h
    cases hret
    have hcurrent : (perform φ sha j a s).2.current = s.current := perform_current a
    rw [hrun] at hcurrent
    refine ⟨hcurrent, ?_⟩
    split
    next hnew =>
      by_cases hc : s.canonical.map sha.hex = some j.newConfigDigest
      · -- Already published: the journal is cleared.
        rw [decision_of_published hnew hc] at hd
        cases hd
        have hkeep : (perform φ sha j .clearJournal s).2.canonical = s.canonical :=
          perform_canonical (by decide)
        rw [hrun] at hkeep
        rw [hkeep, hc]
      · by_cases hs : (stagedBytes j s).map sha.hex = some j.newConfigDigest
        · rw [decision_of_staged hnew hc hs] at hd
          cases hd
          exact completeConfigPublish_done hrun
        · rw [decision_of_lost hnew hc hs] at hd
          cases hd
    next hother =>
      rw [decision_of_other hother] at hd
      cases hd
      have hkeep : (perform φ sha j .discardStaged s).2.canonical = s.canonical :=
        perform_canonical (by decide)
      rwa [hrun] at hkeep

namespace Episode

variable {e : Episode} {k : Nat} {u : Update} {phase : CommitPhase} {φ : Faults}

theorem readable_of_done {s' : Disk} (hj : (e.progress k).journal = some phase)
    (hrun : restart φ e.tx.sha (e.crashAt k) = (.done a, s')) : φ .readJournal = .none := by
  by_contra hno
  exact (unread_crashAt hj hno).2 a s' hrun

theorem settled_of_journal {s' : Disk} (hnext : e.next = e.tx.newGeneration)
    (hcur : e.start.current = e.tx.journal.oldGeneration) (hj : (e.progress k).journal = some phase)
    (hrun : restart φ e.tx.sha (e.crashAt k) = (.done a, s')) :
    Settled e.tx s' ↔ (e.progress k).published = false ∨ (e.progress k).switched = true ∨
      e.tx.sha.hex e.tx.oldBytes = e.tx.sha.hex e.tx.newBytes := by
  have hm := e.matches_crashAt k
  have hne : e.tx.journal.oldGeneration ≠ some e.tx.newGeneration := e.tx.running_ne_newGeneration
  rw [restart_crashAt hj (readable_of_done hj hrun)] at hrun
  obtain ⟨hcurrent, hcanonical⟩ := resolve_done hrun
  cases hsw : (e.progress k).switched with
  | true =>
    have hnew : (e.crashAt k).current = some (e.tx.journalAt phase).newGeneration := by
      rw [hm.current, hsw, hnext]
      rfl
    rw [if_pos hnew] at hcanonical
    exact iff_of_true (.inr ⟨hcanonical, hcurrent.trans hnew⟩) (.inr (.inl rfl))
  | false =>
    have hold : (e.crashAt k).current = e.tx.journal.oldGeneration := by
      rw [hm.current, hsw, ← hcur]
      rfl
    rw [if_neg (by rw [hold]; exact hne)] at hcanonical
    -- The pointer still names the old generation, so only the old pair will do.
    have honly : Settled e.tx s' ↔
        s'.canonical.map e.tx.sha.hex = some e.tx.journal.oldConfigDigest := by
      unfold Settled
      rw [hcurrent, hold]
      constructor
      · rintro (⟨h, -⟩ | ⟨-, h⟩)
        · exact h
        · exact absurd h hne
      · exact fun h => .inl ⟨h, rfl⟩
    rw [honly, hcanonical, hm.canonical]
    cases (e.progress k).published <;> simp [Transaction.journal, eq_comm]

theorem settled_of_no_journal (hplan : e.plan = .applied u) (hu : u.Publishes e.tx)
    (hnext : e.next = e.tx.newGeneration) (hcur : e.start.current = e.tx.journal.oldGeneration)
    (hj : (e.progress k).journal = none) :
    Settled e.tx (e.crashAt k) ∧ (e.progress k).published = (e.progress k).switched := by
  have hm := e.matches_crashAt k
  have hagree : (e.progress k).published = (e.progress k).switched := by
    unfold progress at hj ⊢
    rw [hplan, protocol_of_publishes hu] at hj ⊢
    exact published_eq_switched k hj
  refine ⟨?_, hagree⟩
  unfold Settled
  rw [hm.canonical, hm.current, hagree, hnext, hcur]
  cases (e.progress k).switched with
  | true => exact .inr ⟨rfl, rfl⟩
  | false => exact .inl ⟨rfl, rfl⟩

section

variable (hj : (e.progress k).journal = some phase)
  (hother : (e.crashAt k).current ≠ some e.tx.newGeneration)

include hj hother

/-- A recovery without faults gets through unless the staged name is foreign. -/
theorem exists_restart_done (hsealed : owned ((e.crashAt k).sealed.get e.tx.newGeneration) = true)
    (hgen : owned (e.start.root.get (.entry e.tx.journal.stagedGeneration)) = true) :
    ∃ s', restart noFaults e.tx.sha (e.crashAt k) = (.done .discardStaged, s') ∧
      s'.sealed.get e.tx.newGeneration = none := by
  obtain ⟨⟨f, hfile⟩, hstaged⟩ := removable_crashAt hj
  have hgen' : owned ((e.crashAt k).root.get (.entry e.tx.journal.stagedGeneration)) = true := by
    rw [stagedGeneration_crashAt]
    exact hgen
  obtain ⟨s', hs', hgone⟩ := discardStaged_noFaults (j := e.tx.journalAt phase)
    hgen' hsealed hstaged hfile
  refine ⟨s', ?_, hgone⟩
  rw [restart_crashAt hj rfl, resolve_of_decision (decision_of_other hother)]
  exact Io.bind_eq_done.mpr ⟨(), s', hs', rfl⟩

theorem restart_of_foreign
    (hgen : owned (e.start.root.get (.entry e.tx.journal.stagedGeneration)) = false)
    (hread : φ .readJournal = .none) :
    restart φ e.tx.sha (e.crashAt k) = (.error .invalidJournal, e.crashAt k) := by
  have hgen' : owned ((e.crashAt k).root.get (.entry e.tx.journal.stagedGeneration)) = false := by
    rw [stagedGeneration_crashAt]
    exact hgen
  rw [restart_crashAt hj hread, resolve_of_decision (decision_of_other hother)]
  exact Io.bind_of_error (discardStaged_of_foreign hgen')

end

/-- A change killed after `k` steps and recovered by the next start is settled,
whatever goes wrong in the recovery short of an error, exactly when the crash
does not fall between the publication of the configuration and the switch of the
pointer, or the two configurations have one digest, or a foreign entry at the
staged name keeps the recovery from succeeding. -/
theorem restart_settled_iff (hplan : e.plan = .applied u) (hu : u.Publishes e.tx)
    (hcur : e.start.current = e.tx.journal.oldGeneration) (k : Nat) :
    (∀ φ a s', restart φ e.tx.sha (e.crashAt k) = (.done a, s') → Settled e.tx s') ↔
      (e.progress k).published = false ∨ (e.progress k).switched = true ∨
      e.tx.sha.hex e.tx.oldBytes = e.tx.sha.hex e.tx.newBytes ∨
      owned (e.start.root.get (.entry e.tx.journal.stagedGeneration)) = false := by
  have halloc : e.plan.allocates = true := by
    simp [hplan, Plan.allocates, Plan.update, hu.committed]
  have hnext : e.next = e.tx.newGeneration := by
    have hcount := e.next_eq halloc
    rw [hcur] at hcount
    exact nextGeneration_running hcount
  have hm := e.matches_crashAt k
  cases hj : (e.progress k).journal with
  | none =>
    obtain ⟨hsettled, hagree⟩ := settled_of_no_journal hplan hu hnext hcur hj
    refine iff_of_true (fun φ a s' hrun => ?_) ?_
    · rw [restart_of_no_journal (by rw [hm.journal, hj]; rfl)] at hrun
      cases hrun
      exact hsettled
    · rw [hagree]
      cases (e.progress k).switched <;> simp
  | some phase =>
    have hold : (e.progress k).switched = false →
        (e.crashAt k).current ≠ some e.tx.newGeneration := by
      intro hsw
      rw [hm.current, hsw]
      exact hcur ▸ e.tx.running_ne_newGeneration
    constructor
    · intro hall
      by_contra hno
      push Not at hno
      obtain ⟨hpub, hsw, hdigest, hgen⟩ := hno
      have hsealed : owned ((e.crashAt k).sealed.get e.tx.newGeneration) = true := by
        rw [hm.sealed, if_pos hnext.symm, e.next_free halloc]
        cases (e.progress k).sealed with
        | untouched | removed => rfl
        | written => exact owned_foldl_without _ _
      obtain ⟨s', hrun, -⟩ := exists_restart_done hj (hold (by simpa using hsw)) hsealed
        (by simpa using hgen)
      have hsettled := (settled_of_journal hnext hcur hj hrun).mp (hall _ _ _ hrun)
      simp_all
    · intro hsafe φ a s' hrun
      rw [settled_of_journal hnext hcur hj hrun]
      rcases hsafe with hpub | hsw | hdigest | hgen
      · exact .inl hpub
      · exact .inr (.inl hsw)
      · exact .inr (.inr hdigest)
      · by_contra hno
        have hsw : (e.progress k).switched = false := by
          by_contra hyes
          exact hno (.inr (.inl (by simpa using hyes)))
        have herr := restart_of_foreign (φ := φ) hj (hold hsw) hgen (readable_of_done hj hrun)
        rw [herr] at hrun
        cases hrun

end Episode

/-! A digest that tells two configurations apart, and a change from one to the
other while generation 3 runs. -/

def sampleSha : Sha256 where
  hex b := String.ofList (replicate 64 (if b = [1] then 'a' else 'b'))
  length_hex b := by simp
  digits_hex b := by
    rw [String.toList_ofList, all_replicate]
    by_cases h : b = [1]
    · rw [if_pos h]
      decide
    · rw [if_neg h]
      decide

def sampleTransaction (running : Option GenerationId) : Transaction where
  sha := sampleSha
  oldBytes := [1]
  newBytes := [2]
  running := running
  newBytes_ne_nil := by decide
  newBytes_small := by decide

def sampleUpdate : Update where
  kind := .committed
  content := .empty
  completed := true
  running := some 4
  registryRestored := true

def sampleChange : Episode where
  tx := sampleTransaction (some ⟨3, by decide, by decide⟩)
  plan := .applied sampleUpdate
  start :=
    { canonical := some [1]
      root := Dir.empty
      sealed := Dir.empty.set 3 (.dir .empty)
      current := some 3 }
  next := 4
  no_journal := rfl
  canonical_eq := rfl
  next_eq := fun _ => rfl
  next_free := fun _ => rfl

/-- Killed before the configuration is published, the change is undone. -/
theorem sampleChange_settled : (sampleChange.progress 2).published = false ∧
      ∀ φ a s', restart φ sampleChange.tx.sha (sampleChange.crashAt 2) = (.done a, s') →
        Settled sampleChange.tx s' :=
  ⟨rfl, (Episode.restart_settled_iff rfl ⟨rfl, rfl, rfl⟩ rfl 2).mpr (.inl rfl)⟩

/-- Killed right after it, the next start keeps the new configuration together
with the old generation. -/
theorem sampleChange_mixed : ∃ s', restart noFaults sampleChange.tx.sha (sampleChange.crashAt 3) =
        (.done .discardStaged, s') ∧ s'.canonical.map sampleChange.tx.sha.hex =
        some sampleChange.tx.journal.newConfigDigest ∧
      s'.current = sampleChange.tx.journal.oldGeneration ∧ ¬ Settled sampleChange.tx s' := by
  have hj : (sampleChange.progress 3).journal = some .journaled := rfl
  have hcur : (sampleChange.crashAt 3).current = some 3 := rfl
  obtain ⟨s', hrun, -⟩ := Episode.exists_restart_done hj (by rw [hcur]; decide) rfl rfl
  have hunsettled : ¬ Settled sampleChange.tx s' := by
    rw [Episode.settled_of_journal rfl rfl hj hrun]
    rintro (h | h | h)
    · cases h
    · cases h
    · exact absurd h (by decide)
  have hdone := hrun
  rw [Episode.restart_crashAt hj rfl] at hdone
  obtain ⟨hcurrent, hcanonical⟩ := resolve_done hdone
  refine ⟨s', hrun, ?_, hcurrent, hunsettled⟩
  rw [hcanonical]
  rfl

end NetHop.Subscription
