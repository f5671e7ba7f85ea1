import NetHop.Subscription.Protocol

/-!
# Recovery after a crash

What the next start makes of every crash point of a subscription change: which
pair of configuration and generation it settles on, and which generations it
touches.
-/

namespace NetHop.Subscription

open FaultIo Io Tree
open Generation

section Restart

variable {φ : Faults} {sha : Sha256} {j : CommitJournal} {s : Disk}

theorem restart_of_no_journal (h : s.root.get .journal = none) :
    restart φ sha s = (.done .clearJournal, s) := by
  unfold restart recover load
  rw [gets_bind_apply, bind_apply, gets_bind_apply, h]
  rfl

section

variable (h : s.root.get .journal = some (.file (.journal j) true)) (hvalid : j.valid = true)
  (hshort : j.jsonText.length ≤ maxJournalBytes)

include h hvalid hshort

theorem load_of_file : load φ s = ((Io.probe (φ .readJournal) .readFailed : Run Unit) >>= fun _ =>
      pure (some j)) s := by
  unfold load
  rw [gets_bind_apply, h]
  simp only [if_neg (Nat.not_lt.mpr hshort), if_pos hvalid]

theorem restart_of_file (hread : φ .readJournal = .none) :
    restart φ sha s = resolve φ sha j s.current s := by
  have hload : load φ s = (.done (some j), s) := by
    rw [load_of_file h hvalid hshort, hread]
    rfl
  unfold restart recover
  rw [gets_bind_apply, bind_of_done hload]

theorem restart_of_unread (hread : φ .readJournal ≠ .none) :
    (restart φ sha s).2 = s ∧ ∀ a s', restart φ sha s ≠ (.done a, s') := by
  unfold restart recover
  rw [gets_bind_apply]
  cases hφ : φ .readJournal with
  | none => exact absurd hφ hread
  | fail k =>
    have hload : load φ s = (.error .readFailed, s) := by
      rw [load_of_file h hvalid hshort, hφ]
      simp [probe, step, bind_apply]
    rw [bind_of_error hload]
    exact ⟨rfl, by simp⟩
  | crash k =>
    have hload : load φ s = (.crashed, s) := by
      rw [load_of_file h hvalid hshort, hφ]
      simp [probe, step, bind_apply]
    rw [bind_of_crashed hload]
    exact ⟨rfl, by simp⟩

end

/-! ## The three actions -/

variable {current : Option Nat} {action : RecoveryAction}

theorem resolve_of_decision (h : recoverDecision sha j current s = .ok action) :
    resolve φ sha j current s = (perform φ sha j action >>= fun _ => pure action) s := by
  unfold resolve
  rw [gets_bind_apply, h]
  rfl

theorem resolve_snd (h : recoverDecision sha j current s = .ok action) :
    (resolve φ sha j current s).2 = (perform φ sha j action s).2 := by
  rw [resolve_of_decision h]
  exact Keeps.after (I := fun t => t = (perform φ sha j action s).2) rfl fun _ => Keeps.ret _

theorem resolve_of_blocked {reason : TransactionError}
    (h : recoverDecision sha j current s = .error reason) :
    resolve φ sha j current s = (.error reason, s) := by
  unfold resolve
  rw [gets_bind_apply, h]
  rfl

theorem decision_of_other (h : current ≠ some j.newGeneration) :
    recoverDecision sha j current s = .ok .discardStaged := by
  unfold recoverDecision
  rw [if_neg h]

section

variable (h : current = some j.newGeneration)

include h

theorem decision_of_published (hc : s.canonical.map sha.hex = some j.newConfigDigest) :
    recoverDecision sha j current s = .ok .clearJournal := by
  unfold recoverDecision
  rw [if_pos h, if_pos hc]

variable (hc : s.canonical.map sha.hex ≠ some j.newConfigDigest)

include hc

theorem decision_of_staged (hs : (stagedBytes j s).map sha.hex = some j.newConfigDigest) :
    recoverDecision sha j current s = .ok .completeConfigPublish := by
  unfold recoverDecision
  rw [if_pos h, if_neg hc, if_pos hs]

theorem decision_of_lost (hs : (stagedBytes j s).map sha.hex ≠ some j.newConfigDigest) :
    recoverDecision sha j current s = .error .recoveryBlocked := by
  unfold recoverDecision
  rw [if_pos h, if_neg hc, if_neg hs]

end

theorem perform_current (action : RecoveryAction) :
    (perform φ sha j action s).2.current = s.current := by
  have hkeep : Keeps (fun t : Disk => t.current = s.current) (perform φ sha j action) := by
    cases action with
    | discardStaged => exact keeps_discardStaged (fun _ _ h => h) (fun _ _ h => h) j
    | completeConfigPublish =>
      exact keeps_completeConfigPublish (fun _ _ h => h) (fun _ _ h => h) j
    | clearJournal => exact keeps_abort (fun _ _ h => h) j
  exact hkeep s rfl

theorem perform_canonical (h : action ≠ .completeConfigPublish) :
    (perform φ sha j action s).2.canonical = s.canonical := by
  have hkeep : Keeps (fun t : Disk => t.canonical = s.canonical) (perform φ sha j action) := by
    cases action with
    | discardStaged => exact keeps_discardStaged (fun _ _ h => h) (fun _ _ h => h) j
    | completeConfigPublish => exact absurd rfl h
    | clearJournal => exact keeps_abort (fun _ _ h => h) j
  exact hkeep s rfl

theorem perform_sealed (h : action ≠ .discardStaged) :
    (perform φ sha j action s).2.sealed = s.sealed := by
  have hkeep : Keeps (fun t : Disk => t.sealed = s.sealed) (perform φ sha j action) := by
    cases action with
    | discardStaged => exact absurd rfl h
    | completeConfigPublish =>
      exact keeps_completeConfigPublish (fun _ _ h => h) (fun _ _ h => h) j
    | clearJournal => exact keeps_abort (fun _ _ h => h) j
  exact hkeep s rfl

theorem discardStaged_sealed_ne {g : Nat} (h : g ≠ j.newGeneration) :
    (discardStaged φ j s).2.sealed.get g = s.sealed.get g := by
  have hkeep : Keeps (fun t : Disk => t.sealed.get g = s.sealed.get g) (discardStaged φ j) := by
    refine .bind (keeps_onRoot _ fun _ _ ht => ht) fun _ => ?_
    refine .bind (fun t ht => ?_) fun _ => keeps_abort (fun _ _ ht => ht) j
    exact frame_removeOwnedStaged h t.sealed ht
  exact hkeep s rfl

theorem discardStaged_of_foreign (h : owned (s.root.get (.entry j.stagedGeneration)) = false) :
    discardStaged φ j s = (.error .invalidJournal, s) := by
  have hfirst : onRoot (removeOwnedStaged (φ .removeStagedGeneration)
      (.entry j.stagedGeneration)) s = (.error .invalidJournal, s) := by
    unfold onRoot zoom removeOwnedStaged
    rw [gets_bind_apply]
    rcases hn : s.root.get (.entry j.stagedGeneration) with _ | ⟨⟨f⟩ | ⟨target⟩ | _⟩ | children
    · rw [hn] at h; cases h
    · rw [hn] at h; cases h
    · rfl
    · rfl
    · rw [hn] at h; cases h
  unfold discardStaged
  rw [bind_of_error hfirst]

theorem removeOwned_root (site : Site) {n : RootName} (h : owned (s.root.get n) = true) :
    onRoot (removeOwnedStaged (noFaults site) n) s =
      (.done (), { s with root := unlink n s.root }) :=
  zoom_eq_done.mpr ⟨_, removeOwnedStaged_eq_done.mpr ⟨.inr rfl, h, rfl⟩, rfl⟩

theorem owned_unlink {n m : RootName} (h : owned (s.root.get m) = true) :
    owned ((unlink n s.root).get m) = true := by
  rw [get_unlink]
  split
  · rfl
  · exact h

variable {f : File RootContent}

theorem clear_noFaults (h : s.root.get .journal = some (.leaf (.file f))) :
    clear noFaults s = (.done (), { s with root := unlink .journal s.root }) := by
  unfold clear onRoot
  refine zoom_eq_done.mpr ⟨unlink .journal s.root, ?_, rfl⟩
  rw [gets_bind_apply, h]
  exact removeFile_eq_done.mpr ⟨rfl, ⟨_, h⟩, rfl⟩

theorem abort_noFaults (hstaged : owned (s.root.get (.entry j.stagedConfig)) = true)
    (hjournal : s.root.get .journal = some (.leaf (.file f))) :
    ∃ s', abort noFaults j s = (.done (), s') := by
  have hjournal' : (unlink (.entry j.stagedConfig) s.root).get .journal =
      some (.leaf (.file f)) := by
    rw [get_unlink, if_neg (by simp), hjournal]
  unfold abort removeStagedConfig
  rw [bind_of_done (removeOwned_root _ hstaged)]
  exact ⟨_, clear_noFaults hjournal'⟩

theorem discardStaged_noFaults (hgen : owned (s.root.get (.entry j.stagedGeneration)) = true)
    (hsealed : owned (s.sealed.get j.newGeneration) = true)
    (hstaged : owned (s.root.get (.entry j.stagedConfig)) = true)
    (hjournal : s.root.get .journal = some (.leaf (.file f))) :
    ∃ s', discardStaged noFaults j s = (.done (), s') ∧ s'.sealed.get j.newGeneration = none := by
  have hjournal' : (unlink (.entry j.stagedGeneration) s.root).get .journal =
      some (.leaf (.file f)) := by
    rw [get_unlink, if_neg (by simp), hjournal]
  -- Both removals leave the journal and the staged configuration for the abort.
  obtain ⟨s', hs'⟩ := abort_noFaults (j := j) (f := f) (s := { s with
      root := unlink (.entry j.stagedGeneration) s.root
      sealed := unlink j.newGeneration s.sealed })
    (owned_unlink hstaged) hjournal'
  have hsecond : onSealed (removeOwnedStaged (noFaults .removeGeneration) j.newGeneration)
      { s with root := unlink (.entry j.stagedGeneration) s.root } = (.done (), { s with
        root := unlink (.entry j.stagedGeneration) s.root
        sealed := unlink j.newGeneration s.sealed }) :=
    zoom_eq_done.mpr ⟨_, removeOwnedStaged_eq_done.mpr ⟨.inr rfl, hsealed, rfl⟩, rfl⟩
  refine ⟨s', ?_, ?_⟩
  · unfold discardStaged
    rw [bind_of_done (removeOwned_root _ hgen), bind_of_done hsecond]
    exact hs'
  · have hkeep := (keeps_abort (φ := noFaults)
      (I := fun t => t.sealed = unlink j.newGeneration s.sealed) (fun _ _ h => h) j).holds rfl hs'
    rw [hkeep, get_unlink, if_pos rfl]

theorem completeConfigPublish_done {u : Unit} {s' : Disk}
    (h : completeConfigPublish φ sha j s = (.done u, s')) :
    s'.canonical.map sha.hex = some j.newConfigDigest := by
  unfold completeConfigPublish at h
  rw [gets_bind_apply] at h
  cases hb : stagedBytes j s with
  | none => rw [hb] at h; cases h
  | some bytes =>
    simp only [hb] at h
    by_cases hd : sha.hex bytes = j.newConfigDigest
    · simp only [ne_eq, hd, not_true_eq_false, if_false] at h
      obtain ⟨_, s1, hwrite, hrest⟩ := bind_eq_done.mp h
      obtain ⟨-, fs, hfs, hs1⟩ := step_eq_done.mp hwrite
      cases hfs
      have hcan : s1.canonical = some bytes := by rw [hs1]; rfl
      have hkeep := (keeps_afterPublish (φ := φ) (j := j)
        (I := fun t => t.canonical = some bytes) fun _ _ h => h).holds hcan hrest
      rw [hkeep, Option.map_some, hd]
    · simp only [ne_eq, hd, not_false_eq_true, if_true] at h
      cases h

theorem completeConfigPublish_noFaults {bytes : Bytes} (hb : stagedBytes j s = some bytes)
    (hd : sha.hex bytes = j.newConfigDigest) :
    (completeConfigPublish noFaults sha j s).2.canonical = some bytes := by
  unfold completeConfigPublish
  rw [gets_bind_apply, hb]
  simp only [ne_eq, hd, not_true_eq_false, if_false]
  exact Keeps.after (I := fun t => t.canonical = some bytes)
    (m := writeCanonical (noFaults .publishConfig) bytes) rfl
    fun _ => keeps_afterPublish fun _ _ h => h

end Restart

end NetHop.Subscription
