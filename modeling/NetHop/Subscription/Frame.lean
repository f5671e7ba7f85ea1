import NetHop.Subscription.Crash

/-!
# Recovery touches what the change made

The journal predicts the generation number from the generation that runs, the
update takes it from the store.  Where the two differ the number in the journal
can name a generation that was there before, and the recovery then works on
that one.
-/

namespace NetHop.Subscription

open FaultIo
open Generation

namespace Episode

variable {e : Episode} {k : Nat} {phase : CommitPhase} {φ : Faults} {s' : Disk}

/-- A start that leaves `s'` behind kept every generation sealed before the change
and published the staged configuration only if the change had switched. -/
structure OnlyOwn (e : Episode) (k : Nat) (s' : Disk) : Prop where
  sealed : ∀ g children, e.start.sealed.get g = some (.dir children) →
    s'.sealed.get g = some (.dir children)
  canonical : s'.canonical ≠ (e.crashAt k).canonical → (e.progress k).switched = true

/-- The pointer the next start finds. -/
def found (e : Episode) (k : Nat) : Option Nat :=
  if (e.progress k).switched then some e.next else e.start.current

/-- The crash points at which the journal's number does no harm: no journal is on
disk; or the pointer does not name the number and no generation had it (or a
foreign entry stops the recovery first); or the pointer names it and the change
switched it, or the configuration needs no publishing, or is not staged any more. -/
def Harmless (e : Episode) (k : Nat) : Prop :=
  (e.progress k).journal.isSome = true →
    if e.found k = some e.tx.newGeneration then
      (e.progress k).switched = true ∨ (e.progress k).published = true ∨
        e.tx.sha.hex e.tx.oldBytes = e.tx.sha.hex e.tx.newBytes ∨
        (e.progress k).staged = .removed
    else
      (∀ children, e.start.sealed.get e.tx.newGeneration ≠ some (.dir children)) ∨
        owned (e.start.root.get (.entry e.tx.journal.stagedGeneration)) = false

theorem current_crashAt : (e.crashAt k).current = e.found k := (e.matches_crashAt k).current

theorem onlyOwn_of_same (hsealed : s'.sealed = (e.crashAt k).sealed)
    (hcanonical : s'.canonical = (e.crashAt k).canonical) : e.OnlyOwn k s' where
  sealed := fun g children hg => by
    rw [hsealed]
    exact sealed_crashAt hg
  canonical := fun h => absurd hcanonical h

section

variable (hj : (e.progress k).journal = some phase)

include hj

theorem stagedBytes_crashAt : stagedBytes (e.tx.journalAt phase) (e.crashAt k) =
      if (e.progress k).staged = .written then some e.tx.newBytes else none := by
  have hstaged := (e.matches_crashAt k).staged
  have htouched := staged_of_journal hj
  change (((e.crashAt k).root.get (.entry e.tx.journal.stagedConfig)).bind Node.read).map
    RootContent.raw = _
  rw [hstaged]
  cases hmark : (e.progress k).staged with
  | untouched => exact absurd hmark htouched
  | written => rfl
  | removed => rfl

theorem onlyOwn_discard_iff (hother : e.found k ≠ some e.tx.newGeneration) :
    (∀ φ : Faults, φ .readJournal = .none → e.OnlyOwn k (restart φ e.tx.sha (e.crashAt k)).2) ↔
      (∀ children, e.start.sealed.get e.tx.newGeneration ≠ some (.dir children)) ∨
        owned (e.start.root.get (.entry e.tx.journal.stagedGeneration)) = false := by
  have hcur : (e.crashAt k).current ≠ some e.tx.newGeneration := by
    rw [current_crashAt]
    exact hother
  constructor
  · intro hall
    by_contra hno
    push Not at hno
    obtain ⟨⟨children, hbefore⟩, hgen⟩ := hno
    -- A recovery without faults removes the generation that was there before.
    have hthere := sealed_crashAt (k := k) hbefore
    obtain ⟨s', hrun, hgone⟩ := exists_restart_done hj hcur (by rw [hthere]; rfl)
      (by simpa using hgen)
    have hkept := (hall noFaults rfl).sealed _ _ hbefore
    rw [hrun] at hkept
    rw [hgone] at hkept
    cases hkept
  · intro hsafe φ hread
    rcases hsafe with hfresh | hgen
    · rw [restart_crashAt hj hread, resolve_snd (decision_of_other hcur)]
      constructor
      · intro g children hg
        have hne : g ≠ (e.tx.journalAt phase).newGeneration := by
          rintro rfl
          exact hfresh children hg
        rw [perform, discardStaged_sealed_ne hne]
        exact sealed_crashAt hg
      · intro hcan
        exact absurd (perform_canonical (by decide)) hcan
    · rw [restart_of_foreign hj hcur hgen hread]
      exact onlyOwn_of_same rfl rfl

theorem onlyOwn_complete_iff (hnew : e.found k = some e.tx.newGeneration) :
    (∀ φ : Faults, φ .readJournal = .none → e.OnlyOwn k (restart φ e.tx.sha (e.crashAt k)).2) ↔
      (e.progress k).switched = true ∨ (e.progress k).published = true ∨
        e.tx.sha.hex e.tx.oldBytes = e.tx.sha.hex e.tx.newBytes ∨
        (e.progress k).staged = .removed := by
  have hcur : (e.crashAt k).current = some (e.tx.journalAt phase).newGeneration := by
    rw [current_crashAt]
    exact hnew
  have hdigest : (e.crashAt k).canonical.map e.tx.sha.hex =
      some (e.tx.journalAt phase).newConfigDigest ↔ _ := canonical_crashAt
  by_cases hc : (e.crashAt k).canonical.map e.tx.sha.hex =
      some (e.tx.journalAt phase).newConfigDigest
  · -- The new configuration is in place already.
    refine iff_of_true (fun φ hread => ?_) ?_
    · rw [restart_crashAt hj hread, resolve_snd (decision_of_published hcur hc)]
      exact onlyOwn_of_same (perform_sealed (by decide)) (perform_canonical (by decide))
    · rcases hdigest.mp hc with h | h
      · exact .inr (.inl h)
      · exact .inr (.inr (.inl h))
  have hold : (e.progress k).published = false ∧
      e.tx.sha.hex e.tx.oldBytes ≠ e.tx.sha.hex e.tx.newBytes := by
    rw [hdigest] at hc
    simpa using hc
  have hbytes := stagedBytes_crashAt hj
  by_cases hstaged : (e.progress k).staged = .written
  · rw [if_pos hstaged] at hbytes
    have hdecision := decision_of_staged hcur hc (by rw [hbytes]; rfl)
    constructor
    · intro hall
      left
      have hown := hall noFaults rfl
      rw [restart_crashAt hj rfl, resolve_snd hdecision] at hown
      refine hown.canonical ?_
      -- The recovery writes the new bytes over the old ones.
      rw [perform, completeConfigPublish_noFaults hbytes rfl, (e.matches_crashAt k).canonical,
        hold.1]
      intro heq
      exact hold.2 (congrArg e.tx.sha.hex (Option.some.inj heq).symm)
    · intro hsafe φ hread
      have hsw : (e.progress k).switched = true := by simpa [hold, hstaged] using hsafe
      rw [restart_crashAt hj hread, resolve_snd hdecision]
      refine ⟨fun g children hg => ?_, fun _ => hsw⟩
      rw [perform_sealed (by decide)]
      exact sealed_crashAt hg
  · rw [if_neg hstaged] at hbytes
    have hremoved : (e.progress k).staged = .removed := by
      have htouched := staged_of_journal hj
      cases hmark : (e.progress k).staged with
      | untouched => exact absurd hmark htouched
      | written => exact absurd hmark hstaged
      | removed => rfl
    refine iff_of_true (fun φ hread => ?_) (.inr (.inr (.inr hremoved)))
    rw [restart_crashAt hj hread,
      resolve_of_blocked (decision_of_lost hcur hc (by rw [hbytes]; simp))]
    exact onlyOwn_of_same rfl rfl

end

/-- A start after a crash keeps every generation that was sealed before the
change, and publishes the staged configuration only for a change that switched,
exactly when the crash point is harmless. -/
theorem restart_onlyOwn_iff (e : Episode) (k : Nat) :
    (∀ φ, e.OnlyOwn k (restart φ e.tx.sha (e.crashAt k)).2) ↔ e.Harmless k := by
  unfold Harmless
  cases hj : (e.progress k).journal with
  | none =>
    refine iff_of_true (fun φ => ?_) (by simp)
    have hnone : (e.crashAt k).root.get .journal = none := by
      rw [(e.matches_crashAt k).journal, hj]
      rfl
    rw [restart_of_no_journal hnone]
    exact onlyOwn_of_same rfl rfl
  | some phase =>
    -- A journal that cannot be read stops the recovery at once.
    have hread : (∀ φ, e.OnlyOwn k (restart φ e.tx.sha (e.crashAt k)).2) ↔
        ∀ φ : Faults, φ .readJournal = .none →
          e.OnlyOwn k (restart φ e.tx.sha (e.crashAt k)).2 := by
      refine ⟨fun h φ _ => h φ, fun h φ => ?_⟩
      by_cases hφ : φ .readJournal = .none
      · exact h φ hφ
      · rw [(unread_crashAt hj hφ).1]
        exact onlyOwn_of_same rfl rfl
    rw [hread]
    simp only [Option.isSome_some, true_implies]
    split
    · next hnew => exact onlyOwn_complete_iff hj hnew
    · next hother => exact onlyOwn_discard_iff hj hother

end Episode

/-- Nothing runs, generations 1 and 2 are sealed, the pointer names 2. -/
def sampleStopped : Episode where
  tx := sampleTransaction none
  plan := .refused
  start :=
    { canonical := some [1]
      root := Dir.empty
      sealed := (Dir.empty.set 1 (.dir .empty)).set 2 (.dir .empty)
      current := some 2 }
  next := 3
  no_journal := rfl
  canonical_eq := rfl
  next_eq := fun h => absurd h (by decide)
  next_free := fun h => absurd h (by decide)

/-- The journal predicts generation 1, and the next start removes it. -/
theorem sampleStopped_loses_generation : sampleStopped.start.sealed.get 1 = some (.dir .empty) ∧
      (restart noFaults sampleStopped.tx.sha (sampleStopped.crashAt 2)).2.sealed.get 1 = none := by
  refine ⟨rfl, ?_⟩
  have hj : (sampleStopped.progress 2).journal = some .journaled := rfl
  have hcur : (sampleStopped.crashAt 2).current = some 2 := rfl
  obtain ⟨s', hrun, hgone⟩ := Episode.exists_restart_done hj (by rw [hcur]; decide) rfl rfl
  rw [hrun]
  exact hgone

end NetHop.Subscription
