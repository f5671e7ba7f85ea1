import NetHop.Subscription.Crash

/-!
# The decision table of a recovery

The source decides twice what becomes of a journal: in `recovery_action`, a table over the
journal, the pointer and the staged digest, and again inside `recover`, which also looks at
the canonical configuration but not at the phase.  The two are compared here.
-/

namespace NetHop.Subscription

open FaultIo CommitPhase

def recoveryAction (j : CommitJournal) (current : Option Nat) (stagedDigest : Option String) :
    Except TransactionError RecoveryAction :=
  if j.valid = false then .error .invalidJournal
  else if j.phase = .committed then .ok .clearJournal
  else if current = some j.newGeneration ∨
      generationPublished.rank ≤ j.phase.rank then
    if stagedDigest = some j.newConfigDigest then .ok .completeConfigPublish
    else .error .recoveryBlocked
  else .ok .discardStaged

section

variable {φ : Faults} {sha : Sha256} {j : CommitJournal} {s : Disk} {current : Option Nat}

/-- `recover` carries a decision out, or refuses with it. -/
def Carries (φ : Faults) (sha : Sha256) (j : CommitJournal) (current : Option Nat) (s : Disk) :
    Except TransactionError RecoveryAction → Prop
  | .ok action =>
    recover φ sha current s = (perform φ sha j action >>= fun _ => pure action) s
  | .error reason => recover φ sha current s = (.error reason, s)

/-- The decision is the one of the table, or finds the new configuration in place already. -/
def FollowsTable (sha : Sha256) (j : CommitJournal) (current : Option Nat) (s : Disk)
    (decision : Except TransactionError RecoveryAction) : Prop :=
  decision = recoveryAction j current ((stagedBytes j s).map sha.hex) ∨
    (decision = .ok .clearJournal ∧ s.canonical.map sha.hex = some j.newConfigDigest)

theorem recover_carries (h : s.root.get .journal = some (.file (.journal j) true))
    (hvalid : j.valid = true) (hshort : j.jsonText.length ≤ maxJournalBytes)
    (hread : φ .readJournal = .none) :
    Carries φ sha j current s (recoverDecision sha j current s) := by
  have hload : load φ s = (.done (some j), s) := by
    rw [load_of_file h hvalid hshort, hread]
    rfl
  have hrecover : recover φ sha current s = resolve φ sha j current s := by
    unfold recover
    rw [Io.bind_of_done hload]
  cases hdecision : recoverDecision sha j current s with
  | ok action => exact hrecover.trans (resolve_of_decision hdecision)
  | error reason => exact hrecover.trans (resolve_of_blocked hdecision)

theorem CommitPhase.rank_lt_iff {phase : CommitPhase} : phase.rank < generationPublished.rank ↔
      phase ≠ .generationPublished ∧ phase ≠ .committed := by
  cases phase <;> decide

/-- With the pointer on the new generation only a committed journal whose configuration is
not in place is treated otherwise. -/
theorem followsTable_of_switched (hvalid : j.valid = true)
    (hcurrent : current = some j.newGeneration) :
    FollowsTable sha j current s (recoverDecision sha j current s) ↔
      s.canonical.map sha.hex = some j.newConfigDigest ∨ j.phase ≠ .committed := by
  have hinvalid : ¬ j.valid = false := by
    rw [hvalid]
    decide
  unfold FollowsTable recoverDecision recoveryAction
  rw [if_pos hcurrent, if_neg hinvalid]
  by_cases hcanonical : s.canonical.map sha.hex = some j.newConfigDigest
  · rw [if_pos hcanonical]
    exact iff_of_true (.inr ⟨rfl, hcanonical⟩) (.inl hcanonical)
  have hswitched : current = some j.newGeneration ∨
      generationPublished.rank ≤ j.phase.rank := .inl hcurrent
  rw [if_neg hcanonical, if_pos hswitched]
  by_cases hphase : j.phase = .committed
  · -- the table clears the journal, `recover` completes or refuses
    refine iff_of_false ?_ (by simp [hcanonical, hphase])
    split <;> simp [hcanonical]
  · rw [if_neg hphase]
    exact iff_of_true (.inl rfl) (.inr hphase)

/-- With the pointer elsewhere `recover` discards; the table does so only before the
generation was published. -/
theorem followsTable_of_unswitched (hvalid : j.valid = true)
    (hcurrent : current ≠ some j.newGeneration) :
    FollowsTable sha j current s (recoverDecision sha j current s) ↔
      j.phase.rank < generationPublished.rank := by
  have hinvalid : ¬ j.valid = false := by
    rw [hvalid]
    decide
  unfold FollowsTable recoverDecision recoveryAction
  rw [if_neg hcurrent, if_neg hinvalid, rank_lt_iff]
  by_cases hphase : j.phase = .committed
  · rw [if_pos hphase]
    simp [hphase]
  rw [if_neg hphase]
  by_cases hpublished : j.phase = .generationPublished
  · have hlate : current = some j.newGeneration ∨
        generationPublished.rank ≤ j.phase.rank := .inr (by rw [hpublished])
    rw [if_pos hlate]
    refine iff_of_false ?_ fun h => h.1 hpublished
    split <;> simp
  · have hrank : ¬ generationPublished.rank ≤ j.phase.rank :=
      Nat.not_le.mpr (rank_lt_iff.mpr ⟨hpublished, hphase⟩)
    rw [if_neg (not_or.mpr ⟨hcurrent, hrank⟩)]
    exact iff_of_true (.inl rfl) ⟨hpublished, hphase⟩

/-- `recover` carries out what the table says exactly when the pointer names the journal's
generation and the journal is not committed with its configuration missing, or the pointer
is elsewhere and the generation was not published yet. -/
theorem recover_followsTable_iff (h : s.root.get .journal = some (.file (.journal j) true))
    (hvalid : j.valid = true) (hshort : j.jsonText.length ≤ maxJournalBytes)
    (hread : φ .readJournal = .none) : ∃ decision, Carries φ sha j current s decision ∧
      (FollowsTable sha j current s decision ↔ (current = some j.newGeneration ∧
          (s.canonical.map sha.hex = some j.newConfigDigest ∨ j.phase ≠ .committed)) ∨
        (current ≠ some j.newGeneration ∧
          j.phase.rank < generationPublished.rank)) := by
  refine ⟨_, recover_carries h hvalid hshort hread, ?_⟩
  by_cases hcurrent : current = some j.newGeneration
  · rw [followsTable_of_switched hvalid hcurrent]
    simp [hcurrent]
  · rw [followsTable_of_unswitched hvalid hcurrent]
    simp [hcurrent]

end

/-! A journal of a change to generation 4 in a given phase, with the old configuration in
place and the new one staged. -/

variable (phase : CommitPhase)

def sampleJournal : CommitJournal where
  schema := 1
  oldConfigDigest := sampleSha.hex [1]
  newConfigDigest := sampleSha.hex [2]
  oldGeneration := some 3
  newGeneration := 4
  phase := phase
  stagedGeneration := ".candidate-4"
  stagedConfig := ".candidate-config-4"

def sampleRecovery : Disk where
  canonical := some [1]
  root := (Dir.empty.set .journal (.file (.journal (sampleJournal phase)) true)).set
    (.entry ".candidate-config-4") (.file (.bytes [2]) true)
  sealed := Dir.empty.set 4 (.dir .empty)
  current := some 5

theorem sampleJournal_valid : (sampleJournal phase).valid = true := by
  change (sampleJournal .committed).valid = true
  decide

theorem sampleJournal_short : (sampleJournal phase).jsonText.length ≤ maxJournalBytes := by
  have hname : phase.name.length ≤ 20 := by
    cases phase <;> decide
  have hdigests : (sampleJournal phase).oldConfigDigest.length = 64 ∧
      (sampleJournal phase).newConfigDigest.length = 64 :=
    ⟨sampleSha.length_hex _, sampleSha.length_hex _⟩
  have hrest : (toString 1).length + ((some 3).map toString |>.getD "null").length +
      (toString 4).length + ".candidate-4".length + ".candidate-config-4".length = 34 := by
    decide
  rw [CommitJournal.length_jsonText, hdigests.1, hdigests.2]
  change (toString 1).length + 64 + 64 + ((some 3).map toString |>.getD "null").length +
    (toString 4).length + phase.name.length + ".candidate-4".length +
    ".candidate-config-4".length + 146 ≤ 4096
  omega

/-- Published, with the pointer on the new generation, the journal is completed. -/
theorem sampleRecovery_follows : ∃ decision,
      Carries noFaults sampleSha (sampleJournal .generationPublished) (some 4)
        (sampleRecovery .generationPublished) decision ∧
      FollowsTable sampleSha (sampleJournal .generationPublished) (some 4)
        (sampleRecovery .generationPublished) decision := by
  obtain ⟨decision, hcarries, hfollows⟩ := @recover_followsTable_iff noFaults sampleSha
    (sampleJournal .generationPublished) (sampleRecovery .generationPublished) (some 4) rfl
    (sampleJournal_valid _) (sampleJournal_short _) rfl
  exact ⟨decision, hcarries, hfollows.mpr (.inl ⟨rfl, .inr (by decide)⟩)⟩

/-- A committed journal that could not be cleared takes its generation with it once the
pointer has moved on, where the table only clears it. -/
theorem committed_journal_discards :
    recoveryAction (sampleJournal .committed) (some 5) (some (sampleSha.hex [2])) =
        .ok .clearJournal ∧ (sampleRecovery .committed).sealed.get 4 = some (.dir .empty) ∧
      ∃ s', recover noFaults sampleSha (some 5) (sampleRecovery .committed) =
          (.done .discardStaged, s') ∧ s'.sealed.get 4 = none := by
  have htable : recoveryAction (sampleJournal .committed) (some 5)
      (some (sampleSha.hex [2])) = .ok .clearJournal := by
    unfold recoveryAction
    rw [sampleJournal_valid]
    rfl
  obtain ⟨s', hdiscard, hnone⟩ := @discardStaged_noFaults (sampleJournal .committed)
    (sampleRecovery .committed) _ rfl rfl rfl rfl
  refine ⟨htable, rfl, s', ?_, hnone⟩
  have hcarries : Carries noFaults sampleSha (sampleJournal .committed) (some 5)
      (sampleRecovery .committed) (.ok .discardStaged) :=
    recover_carries rfl (sampleJournal_valid _) (sampleJournal_short _) rfl
  rw [hcarries, perform, Io.bind_of_done hdiscard]
  rfl

end NetHop.Subscription
