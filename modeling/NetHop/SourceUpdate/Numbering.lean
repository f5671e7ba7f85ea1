import NetHop.Runs
import NetHop.SourceUpdate.Commit

/-!
# Generation numbers

`next_generation` answers with the current generation plus one.  Over runs of the
service, of `rollback_to` and of crashes this number is free as long as nothing
later than the current generation stays sealed.
-/

namespace NetHop.SourceUpdate

open FaultIo Generation Io GenerationStore List

variable {Ω : Type}

/-- The number the pointer of a store stands for, 0 when there is none. -/
def Points (s : Store) (current : Nat) : Prop :=
  (s.get .current = none ∧ current = 0) ∨
    ∃ g : GenerationId, pointerValue (s.get .current) = .ok g ∧ current = g.get

theorem Points.congr {s t : Store} {current : Nat} (h : Points s current)
    (hget : t.get .current = s.get .current) : Points t current := by
  unfold Points at *
  rwa [hget]

theorem Points.currentGeneration {s : Store} {current : Nat} (h : Points s current) :
    ∃ r, currentGeneration noFaults s = (.done r, s) ∧
      ∀ g : GenerationId, r = some g ↔ (pointerValue (s.get .current) = .ok g) := by
  rcases h with ⟨hnone, rfl⟩ | ⟨g, hg, rfl⟩
  · refine ⟨none, (currentGeneration_eq_done rfl).mpr ⟨rfl, .inl ⟨?_, rfl⟩⟩, fun g => ?_⟩
    · simp [Tree.pathExists, hnone]
    · simp [hnone, pointerValue]
  · refine ⟨some g, (currentGeneration_eq_done rfl).mpr
      ⟨rfl, .inr ⟨pathExists_of_pointerValue hg, rfl, g, hg, rfl⟩⟩, fun g' => ?_⟩
    rw [hg]
    simp

namespace Service

variable {sv : Service Ω} {f : Failures} {w w' : World Ω} {s t : Store} {g : GenerationId}

theorem nextGeneration_eq_done (h : nextGeneration f w = (.done g, w')) :
    w' = w ∧ ∀ current, Points w.generations current → g.get = current + 1 := by
  obtain ⟨r, w1, hread, hret⟩ := bind_eq_done.mp h
  obtain ⟨-, hrun, hw1⟩ := onGenerations_eq_done.mp (mapError_eq_done.mp hread)
  have hstate : w1.generations = w.generations := Keeps.state_eq keeps_currentGeneration hrun
  rw [hstate] at hw1
  obtain rfl : w1 = w := hw1
  constructor
  · cases r with
    | none => cases hret; rfl
    | some c =>
      simp only at hret
      split at hret
      · cases hret; rfl
      · cases hret
  · intro current hp
    obtain ⟨r', hrun', hr'⟩ := hp.currentGeneration
    rw [hrun] at hrun'
    cases hrun'
    rcases hp with ⟨hnone, rfl⟩ | ⟨c, hc, rfl⟩
    · cases r with
      | none => cases hret; rfl
      | some c =>
        have := (hr' c).mp rfl
        rw [hnone] at this
        cases this
    · obtain rfl := (hr' c).mpr hc
      simp only at hret
      split at hret
      · cases hret; rfl
      · cases hret

variable {request : Request sv.store.sha256Hex Ω} {prepared : PreparedCandidate}
  {p : PreparedSourceUpdate Ω}

theorem sealUpdate_eq_done {c : Candidate sv.store.sha256Hex}
    (h : sv.sealUpdate f request c prepared w = (.done p, w')) :
    sv.store.sealCandidate noFaults prepared w.generations = (.done p.token, w'.generations) ∧
      p.pendingManual = request.pendingManual ∧
      p.pendingNodeOverrides = request.pendingNodeOverrides := by
  unfold sealUpdate at h
  split at h
  · obtain ⟨_, _, -, hthrow⟩ := bind_eq_done.mp h
    cases hthrow
  · obtain ⟨r, w1, hatt, hret⟩ := bind_eq_done.mp h
    rcases attempt_eq_done.mp hatt with ⟨token, rfl, hsealed⟩ | ⟨e, rfl, -⟩
    · cases hret
      exact ⟨(onGenerations_eq_done.mp hsealed).2.1, rfl, rfl⟩
    · obtain ⟨_, _, -, hthrow⟩ := bind_eq_done.mp hret
      cases hthrow

/-- The generation store before and after a successful preparation of `g`. -/
structure SealedNext (g : GenerationId) (s s' : Store) : Prop where
  current : s'.get .current = s.get .current
  new : ∃ children, s'.get (.sealed g.get) = some (.dir children)
  old : ∀ n, n ≠ g.get → s'.get (.sealed n) = s.get (.sealed n)

variable {st : GenerationStore}

theorem sealedNext_of_done {c : Candidate st.sha256Hex} {token : SealedGeneration} {s1 s2 : Store}
    (hprep : st.prepareCandidate noFaults c s = (.done prepared, s1))
    (hseal : st.sealCandidate noFaults prepared s1 = (.done token, s2)) :
    token = st.sealedToken c.generation ∧ SealedNext c.generation s s2 := by
  obtain ⟨hp, rfl, -⟩ := (prepareCandidate_eq_done fun _ => rfl).mp hprep
  obtain ⟨-, ⟨children, hdir, -⟩, hframe⟩ := prepareCandidate_spec (fun _ => rfl) hprep
  have hpub : ∀ n : EntryName, n.Published → s1.get n = s.get n := by
    rintro n (rfl | ⟨g, rfl⟩) <;> exact hframe _ (by simp [preparedToken, candidateDirectory])
  have hfresh : s1.pathExists (.sealed c.generation.get) = false := by
    have := hp.fresh
    simpa [Tree.pathExists, hpub _ (.inr ⟨_, rfl⟩)] using this
  obtain ⟨-, -, -, rfl, rfl⟩ := (sealCandidate_eq_done rfl hfresh).mp hseal
  have hget := get_afterSeal hdir
  refine ⟨rfl, ?_, ⟨children, ?_⟩, fun n hn => ?_⟩
  · exact (hget .current).trans (by simp [candidateDirectory, hpub _ (.inl rfl)])
  · exact (hget _).trans (if_pos rfl)
  · exact (hget (.sealed n)).trans (by simp [candidateDirectory, hn, hpub _ (.inr ⟨n, rfl⟩)])

theorem prepare_eq_done (h : sv.prepare f request w = (.done p, w')) :
    (p.pendingManual.isSome = true → sv.hasManualStore = true) ∧
      (p.pendingNodeOverrides.isSome = true → sv.hasNodeOverrideStore = true) ∧
      p.token.storeRoot = sv.store.root ∧ (∀ current, Points w.generations current →
        p.token.generation.get = current + 1) ∧
      SealedNext p.token.generation w.generations w'.generations := by
  unfold prepare at h
  split at h
  · cases h
  next hmanual =>
    split at h
    · cases h
    next hoverrides =>
      obtain ⟨g, w1, hnext, hbuilding⟩ := bind_eq_done.mp h
      obtain ⟨rfl, hnumber⟩ := nextGeneration_eq_done hnext
      obtain ⟨⟨c, rfl⟩, w2, hbuild, hstaging⟩ := bind_eq_done.mp hbuilding
      obtain rfl : w2 = w1 := Keeps.state_eq (Keeps.ofExcept _) hbuild
      obtain ⟨prepared, w3, hprep, hseal⟩ := bind_eq_done.mp hstaging
      obtain ⟨-, hstage, -⟩ := onGenerations_eq_done.mp (mapError_eq_done.mp hprep)
      obtain ⟨hsealed, hpm, hpo⟩ := sealUpdate_eq_done hseal
      obtain ⟨htoken, hnext⟩ := sealedNext_of_done hstage hsealed
      rw [hpm, hpo, htoken]
      refine ⟨fun hs => ?_, fun hs => ?_, rfl, hnumber, hnext⟩
      · simpa [hs] using hmanual
      · simpa [hs] using hoverrides

theorem sealCandidate_error {s' : Store} {e : CoreError}
    (h : st.sealCandidate noFaults prepared s = (.error e, s')) : s' = s := by
  rcases bind_eq_error.mp h with hown | ⟨_, s1, hown, hrest⟩
  · exact Keeps.state_eq keeps_ensureOwned hown
  · obtain rfl : s1 = s := Keeps.state_eq keeps_ensureOwned hown
    rw [lookup_bind_apply (noFaults_apply _)] at hrest
    split at hrest
    · cases hrest
      rfl
    · rcases bind_eq_error.mp hrest with hren | ⟨_, s2, -, hsync⟩
      · exact step_none_error hren
      · obtain hsync | ⟨_, s3, -, hret⟩ := bind_eq_error.mp hsync
        · cases hsync
        · cases hret

theorem prepare_samePublished (request : Request sv.store.sha256Hex Ω) (s : Store) :
    Io.Leaves (fun w : World Ω => SamePublished s w.generations) (sv.prepare f request)
      (fun _ _ => True) (fun w => SamePublished s w.generations) := by
  have hfail : ∀ prepared e, Leaves (fun w : World Ω => SamePublished s w.generations) (do
        compensate (onGenerations f.discardPrepared (sv.store.discardPrepared noFaults prepared))
        throw e : Update Ω (PreparedSourceUpdate Ω))
      (fun _ _ => True) (fun w => SamePublished s w.generations) := by
    intro prepared e
    refine .bind (keeps_iff_triple.mp (keeps_compensate (fun _ _ hw => hw)
      (keeps_onGenerations (I := SamePublished s) fun t ht => ht.trans ?_))) fun _ => ?_
    · exact discardPrepared_samePublished _ _ _ _
    · exact .fail fun _ h => h
  unfold prepare
  split
  · exact .fail fun _ h => h
  · split
    · exact .fail fun _ h => h
    · refine .bind (keeps_iff_triple.mp (keeps_nextGeneration f)) fun g => ?_
      refine .bind (keeps_iff_triple.mp (.ofExcept _)) fun c => ?_
      refine .bind (keeps_iff_triple.mp (.mapError
        (keeps_onGenerations (I := SamePublished s) fun t ht =>
          ht.trans (prepareCandidate_samePublished t)))) fun prepared => ?_
      unfold sealUpdate
      split
      · exact hfail prepared _
      · refine .bind (Q := fun r w => ∀ e, r = .error e →
          SamePublished s w.generations) (.attempt ?_) fun r => ?_
        · -- A failed sealing has not moved the candidate.
          intro w hw
          unfold onGenerations
          cases f.sealCandidate with
          | true =>
            rintro e ⟨⟩
            exact hw
          | false =>
            have hret : (sv.store.sealCandidate noFaults prepared w.generations).1 ≠ .crashed :=
              sealCandidate_returns noFaults_returns prepared w.generations
            rcases hrun : sv.store.sealCandidate noFaults prepared w.generations with ⟨o, t⟩
            simp only [Bool.false_eq_true, if_false, zoom, hrun]
            cases o with
            | done token => rintro e ⟨⟩
            | error e =>
              rintro e' ⟨⟩
              rw [sealCandidate_error hrun]
              exact hw
            | crashed => exact absurd (by rw [hrun]) hret
        · cases r with
          | ok token => exact .ret fun _ _ => trivial
          | error e =>
            exact (hfail prepared _).pre fun _ h => h e rfl

/-! ## Settling an update -/

/-- What is left of the prepared generation `g`: it is current, or it is gone. -/
def Settles (g : GenerationId) (s t : Store) : Prop :=
  (pointerValue (t.get .current) = .ok g ∧ ∀ n, t.get (.sealed n) = s.get (.sealed n)) ∨
    (t.get .current = s.get .current ∧ t.get (.sealed g.get) = none ∧
      ∀ n, n ≠ g.get → t.get (.sealed n) = s.get (.sealed n))

/-- A store in which `discard_sealed` finds nothing in its way. -/
structure Discardable (sv : Service Ω) (p : PreparedSourceUpdate Ω) (s : Store) : Prop where
  owned : p.token.storeRoot = sv.store.root
  inactive : ∃ current, Points s current ∧ current ≠ p.token.generation.get
  directory : ∀ node, s.get (.sealed p.token.generation.get) = some node →
    ∃ children, node = .dir children

variable {p : PreparedSourceUpdate Ω}

theorem Discardable.congr (h : sv.Discardable p s) (hst : SamePublished s t) :
    sv.Discardable p t where
  owned := h.owned
  inactive := by
    obtain ⟨current, hp, hne⟩ := h.inactive
    exact ⟨current, hp.congr (hst _ (.inl rfl)), hne⟩
  directory := by
    intro node hnode
    rw [hst _ (.inr ⟨_, rfl⟩)] at hnode
    exact h.directory node hnode

theorem discardSealed_settles (h : sv.Discardable p s) :
    Settles p.token.generation s (sv.store.discardSealed noFaults p.token s).2 := by
  obtain ⟨current, hp, hne⟩ := h.inactive
  obtain ⟨r, hread, hr⟩ := hp.currentGeneration
  have hother : r ≠ some p.token.generation := by
    intro heq
    rcases hp with ⟨hnone, -⟩ | ⟨g, hg, rfl⟩
    · have := (hr _).mp heq
      rw [hnone] at this
      cases this
    · have := (hr _).mp heq
      rw [hg] at this
      cases this
      exact hne rfl
  have hremovable : s.pathExists (.sealed p.token.generation.get) = true →
      Fault.none = Fault.none ∧ Tree.removable (s.get (.sealed p.token.generation.get)) = true := by
    intro hex
    refine ⟨rfl, ?_⟩
    cases hget : s.get (.sealed p.token.generation.get) with
    | none => simp [Tree.pathExists, hget] at hex
    | some node =>
      obtain ⟨children, rfl⟩ := h.directory node hget
      rfl
  have howned : sv.store.ensureOwned p.token.storeRoot s = (.done (), s) := by
    rw [h.owned]
    exact ensureOwned_root s
  have hremove : removeDirectoryIfPresent .none .none (.sealed p.token.generation.get)
      "discard_generation" s = (.done (), clearStale (.sealed p.token.generation.get) s) :=
    (removeDirectoryIfPresent_eq_done rfl).mpr ⟨hremovable, rfl⟩
  have hrun : sv.store.discardSealed noFaults p.token s =
      (.done (), clearStale (.sealed p.token.generation.get) s) := by
    unfold GenerationStore.discardSealed
    rw [bind_of_done howned, bind_of_done hread, removeInactive,
      if_neg hother, p.token.directory_eq]
    exact (bind_of_done hremove).trans rfl
  rw [hrun]
  unfold clearStale
  cases hex : s.pathExists (.sealed p.token.generation.get) with
  | true =>
    refine .inr ⟨by simp, by simp, fun n hn => ?_⟩
    simp [hn]
  | false =>
    refine .inr ⟨rfl, ?_, fun _ _ => rfl⟩
    cases hget : s.get (.sealed p.token.generation.get) with
    | none => simpa using hget
    | some node =>
      obtain ⟨children, rfl⟩ := h.directory node hget
      simp [Tree.pathExists, hget, Node.resolves] at hex

theorem Settles.of_same {u : Store} (hst : SamePublished s t) (h : Settles g t u) :
    Settles g s u := by
  rcases h with ⟨hp, hsealed⟩ | ⟨hcur, hgone, hsealed⟩
  · exact .inl ⟨hp, fun n => (hsealed n).trans (hst _ (.inr ⟨n, rfl⟩))⟩
  · exact .inr ⟨hcur.trans (hst _ (.inl rfl)), hgone, fun n hn =>
      (hsealed n hn).trans (hst _ (.inr ⟨n, rfl⟩))⟩

theorem compensate_generations {ε α : Type} {m : Io (World Ω) ε α} {u : Unit}
    (h : compensate m w = (.done u, w')) : w'.generations = (m w).2.generations := by
  obtain ⟨r, w1, hatt, hmod⟩ := bind_eq_done.mp h
  have hsnd : ((attempt m : Update Ω (Except ε α)) w).2 = (m w).2 := attempt_snd m w
  rw [hatt] at hsnd
  cases hmod
  rw [← hsnd]

theorem compensate_discard_settles {u : Unit} (hf : f.discardSealed = false)
    (hs : sv.Discardable p s) (hw : SamePublished s w.generations)
    (h : compensate (sv.discardSealed f p) w = (.done u, w')) :
    Settles p.token.generation s w'.generations := by
  rw [compensate_generations h]
  unfold discardSealed onGenerations
  rw [hf]
  exact .of_same hw (discardSealed_settles (hs.congr hw))

theorem keeps_restoreManual {checkpoint : Option (Option ManualFile)} :
    Io.Keeps (fun w : World Ω => w.generations = s) (sv.restoreManual f checkpoint) := by
  unfold restoreManual
  split
  · split
    · refine keeps_compensate (fun _ _ hw => hw) ?_
      unfold manualRestore
      split
      · split
        · exact .fail _
        · split
          · exact .fail _
          · exact .modify fun _ hw => hw
      · split
        · exact .fail _
        · exact .modify fun _ hw => hw
    · exact .ret _
  · exact .ret _

theorem keeps_restoreOverrides {checkpoint : Option Ω} :
    Io.Keeps (fun w : World Ω => w.generations = s) (sv.restoreOverrides f checkpoint) := by
  unfold restoreOverrides
  split
  · split
    · refine keeps_compensate (fun _ _ hw => hw) ?_
      unfold overrideReplace
      split
      · exact .fail _
      · split
        · exact .fail _
        · exact .modify fun _ hw => hw
    · exact .ret _
  · exact .ret _

/-- A commit that avoids the exits that undo nothing and whose discard is not made to
fail settles its update. -/
theorem commit_error_settles {e : SourceUpdateError} (hf : f.discardSealed = false)
    (hs : sv.Discardable p w.generations) (hc : sv.Covered f p w)
    (h : sv.commit f p w = (.error e, w')) :
    Settles p.token.generation w.generations w'.generations := by
  rcases bind_eq_error.mp h with herr | ⟨cpm, w1, hman, hrest⟩
  · rcases replaceManual_eq_error herr with ⟨hsome, hstore, -⟩ | hcomp
    · rw [hc.manual hsome] at hstore
      cases hstore
    · exact compensate_discard_settles hf hs (.refl _) hcomp
  obtain ⟨hwritten, hw1⟩ : ManualWritten f p ∧ w1 = { w with manual := w1.manual } := by
    rcases replaceManual_eq_done.mp hman with ⟨hp, -, rfl⟩ | ⟨m, hp, -, hv, hfm, -, rfl⟩
    · exact ⟨by simp [ManualWritten, hp], rfl⟩
    · exact ⟨by simp [ManualWritten, hp, hv, hfm], rfl⟩
  have hgen1 : w1.generations = w.generations := by rw [hw1]
  rcases bind_eq_error.mp hrest with herr | ⟨cpo, w2, hovr, hcommit⟩
  · rcases replaceOverrides_eq_error herr with ⟨hsome, hno, -⟩ | ⟨w2, hres, hcomp⟩
    · refine absurd (hc.overrides hwritten hsome) ?_
      rwa [hw1] at hno
    · have hgen2 : w2.generations = w.generations := keeps_restoreManual.holds hgen1 hres
      refine compensate_discard_settles hf hs ?_ hcomp
      rw [hgen2]
      exact .refl _
  have hgen2 : w2.generations = w.generations := by
    rcases replaceOverrides_eq_done hovr with ⟨-, rfl⟩ | ⟨o, new, -, -, -, rfl⟩ <;> exact hgen1
  obtain ⟨w3, w4, w5, -, hsame, hres, hreso, hcomp⟩ := commitPrepared_eq_error hcommit
  have hgen5 : w5.generations = w3.generations :=
    keeps_restoreOverrides.holds (keeps_restoreManual.holds rfl hres) hreso
  refine compensate_discard_settles hf hs ?_ hcomp
  rw [hgen5, ← hgen2]
  exact hsame

theorem commit_done_settles {report : SourceUpdateReport}
    (h : sv.commit f p w = (.done report, w')) :
    Settles p.token.generation w.generations w'.generations := by
  obtain ⟨cpm, w1, hman, hrest⟩ := bind_eq_done.mp h
  obtain ⟨cpo, w2, hovr, hcommit⟩ := bind_eq_done.mp hrest
  have hgen1 : w1.generations = w.generations := by
    rcases replaceManual_eq_done.mp hman with ⟨-, -, rfl⟩ | ⟨m, -, -, -, -, -, rfl⟩ <;> rfl
  have hgen2 : w2.generations = w.generations := by
    rcases replaceOverrides_eq_done hovr with ⟨-, rfl⟩ | ⟨o, new, -, -, -, rfl⟩ <;> exact hgen1
  obtain ⟨r, w3, hatt, hret⟩ := bind_eq_done.mp hcommit
  rcases attempt_eq_done.mp hatt with ⟨_, rfl, hdone⟩ | ⟨e, rfl, -⟩
  · cases hret
    obtain ⟨-, hrun, -⟩ := onGenerations_eq_done.mp hdone
    rw [hgen2] at hrun
    refine .inl ⟨?_, fun n =>
      (frame_commitGeneration (by simp) (by simp)).holds rfl hrun⟩
    obtain ⟨_, _, -, hverify⟩ := bind_eq_done.mp hrun
    obtain ⟨_, _, -, hwrite⟩ := bind_eq_done.mp hverify
    exact writeCurrent_done_pointer hwrite
  · obtain ⟨_, _, -, hret⟩ := bind_eq_done.mp hret
    obtain ⟨_, _, -, hret⟩ := bind_eq_done.mp hret
    obtain ⟨_, _, -, hthrow⟩ := bind_eq_done.mp hret
    cases hthrow

/-! ## No call is killed -/

theorem onGenerations_returns {α : Type} {fails : Bool} {m : Run α} (h : Io.Returns m) :
    Io.Returns (onGenerations fails m : Io (World Ω) CoreError α) := by
  intro w
  cases fails with
  | true => exact Returns.fail _ w
  | false => exact h w.generations

theorem compensate_returns {ε α : Type} {m : Io (World Ω) ε α} (h : Io.Returns m) :
    Io.Returns (compensate m) := .bind (.attempt h) fun _ => .modify _

theorem discardSealed_returns (p : PreparedSourceUpdate Ω) : Io.Returns (sv.discardSealed f p) :=
  onGenerations_returns (GenerationStore.discardSealed_returns noFaults_returns _)

theorem manualReplace_returns (fails : Bool) (manual : PendingManualSource) :
    Io.Returns (manualReplace fails manual : Io (World Ω) _ _) := by
  unfold manualReplace
  split
  · exact .fail _
  · refine .bind (.look _) fun _ => ?_
    split
    · exact .fail _
    · exact .bind (.modify _) fun _ => .ret _

theorem manualRestore_returns (fails : Bool) (checkpoint : Option ManualFile) :
    Io.Returns (manualRestore fails checkpoint : Io (World Ω) _ _) := by
  unfold manualRestore
  split
  · split
    · exact .fail _
    · split
      · exact .fail _
      · exact .modify _
  · split
    · exact .fail _
    · exact .modify _

theorem overrideReplace_returns (fails : Bool) (o : Ω) :
    Io.Returns (sv.overrideReplace fails o) := by
  unfold overrideReplace
  split
  · exact .fail _
  · split
    · exact .fail _
    · exact .modify _

theorem restoreManual_returns (checkpoint : Option (Option ManualFile)) :
    Io.Returns (sv.restoreManual f checkpoint) := by
  unfold restoreManual
  split
  · split
    · exact compensate_returns (manualRestore_returns _ _)
    · exact .ret _
  · exact .ret _

theorem replaceManual_returns (p : PreparedSourceUpdate Ω) : Io.Returns (sv.replaceManual f p) := by
  unfold replaceManual
  split
  · exact .ret _
  · split
    · exact .fail _
    · refine .bind (.attempt (manualReplace_returns _ _)) fun r => ?_
      split
      · exact .ret _
      · exact .bind (compensate_returns (discardSealed_returns _)) fun _ =>
          .fail _

theorem replaceOverrides_returns (p : PreparedSourceUpdate Ω)
    (manual : Option (Option ManualFile)) : Io.Returns (sv.replaceOverrides f p manual) := by
  unfold replaceOverrides overrideLoad
  split
  · exact .ret _
  · split
    · exact .fail _
    · refine .bind (.mapError ?_) fun _ => ?_
      · split
        · exact .fail _
        · exact .bind (.look _) fun _ => .ofExcept _
      · refine .bind (.attempt (overrideReplace_returns _ _)) fun r => ?_
        split
        · exact .ret _
        · exact .bind (restoreManual_returns _) fun _ =>
            .bind (compensate_returns (discardSealed_returns _)) fun _ =>
              .fail _

theorem commit_returns (p : PreparedSourceUpdate Ω) : Io.Returns (sv.commit f p) := by
  refine .bind (replaceManual_returns p) fun manual => ?_
  refine .bind (replaceOverrides_returns p manual) fun overrides => ?_
  unfold commitPrepared restoreOverrides
  refine .bind (.attempt (onGenerations_returns
    (commitGeneration_returns noFaults_returns _))) fun r => ?_
  split
  · refine .bind (restoreManual_returns _) fun _ => .bind ?_ fun _ =>
      .bind (compensate_returns (discardSealed_returns _)) fun _ => .fail _
    split
    · split
      · exact compensate_returns (overrideReplace_returns _ _)
      · exact .ret _
    · exact .ret _
  · exact .bind (.modify _) fun _ => .ret _

theorem commit_settles (hf : f.discardSealed = false)
    (hs : sv.Discardable p w.generations) (hc : sv.Covered f p w) :
    Settles p.token.generation w.generations (sv.commit f p w).2.generations := by
  have hret : (sv.commit f p w).1 ≠ .crashed := commit_returns p w
  rcases hrun : sv.commit f p w with ⟨o, w'⟩
  cases o with
  | done report => exact commit_done_settles hrun
  | error e => exact commit_error_settles hf hs hc hrun
  | crashed => exact absurd (by rw [hrun]) hret

/-! ## Runs -/

/-- The service, the store and the updates somebody holds. -/
structure Holding (Ω : Type) where
  world : World Ω
  inHand : List (PreparedSourceUpdate Ω)

/-- One action of a run.  An update in hand is named by its position; a crash drops
all of them and restarts the service with some overrides in memory. -/
inductive Action (sv : Service Ω) where
  | prepare (f : Failures) (request : Request sv.store.sha256Hex Ω)
  | commit (f : Failures) (index : Nat)
  | discard (f : Failures) (index : Nat)
  | rollbackTo (fails : Bool) (generation : GenerationId)
  | crash (nodeOverrides : Ω)

def act (sv : Service Ω) (h : Holding Ω) : sv.Action → Holding Ω
  | .prepare f request =>
    match sv.prepare f request h.world with
    | (.done p, w) => ⟨w, h.inHand ++ [p]⟩
    | (_, w) => { h with world := w }
  | .commit f index =>
    match h.inHand[index]? with
    | some p => ⟨(sv.commit f p h.world).2, h.inHand.eraseIdx index⟩
    | none => h
  | .discard f index =>
    match h.inHand[index]? with
    | some p => ⟨(sv.discard f p h.world).2, h.inHand.eraseIdx index⟩
    | none => h
  | .rollbackTo fails generation =>
    { h with
      world := (onGenerations fails (sv.store.rollbackTo noFaults generation) h.world).2 }
  | .crash nodeOverrides => ⟨{ h.world with nodeOverrides := nodeOverrides }, []⟩

/-- Updates are settled one at a time, the discard calls succeed, the override file
loads when it is needed, and a rollback goes to a generation with none above it. -/
def Orderly (sv : Service Ω) (h : Holding Ω) : sv.Action → Prop
  | .prepare _ _ => h.inHand = []
  | .commit f index =>
    f.discardSealed = false ∧
      ∀ p, h.inHand[index]? = some p → ManualWritten f p →
        p.pendingNodeOverrides.isSome = true →
        f.overrideLoad = false ∧ ∃ o, sv.loadOverrides h.world.overrides = .ok o
  | .discard f _ => f.discardSealed = false
  | .rollbackTo _ generation =>
    h.inHand = [] ∧
      ∀ n, h.world.generations.get (.sealed n) ≠ none → n ≤ generation.get
  | .crash _ => h.inHand = []

/-- The invariant: the pointer can be read, and above it there is only the update in
hand. -/
structure Numbered (sv : Service Ω) (h : Holding Ω) : Prop where
  pointer : ∃ current, Points h.world.generations current ∧
    (∀ n, h.world.generations.get (.sealed n) ≠ none →
      n ≤ current ∨ ∃ p ∈ h.inHand, n = p.token.generation.get) ∧
    ∀ p ∈ h.inHand, p.token.generation.get = current + 1
  directories : ∀ n node, h.world.generations.get (.sealed n) = some node →
    ∃ children, node = .dir children
  single : h.inHand = [] ∨ ∃ p, h.inHand = [p]
  owned : ∀ p ∈ h.inHand, p.token.storeRoot = sv.store.root
  stores : ∀ p ∈ h.inHand, (p.pendingManual.isSome = true → sv.hasManualStore = true) ∧
    (p.pendingNodeOverrides.isSome = true → sv.hasNodeOverrideStore = true)

namespace Numbered

variable {h h' : Holding Ω}

theorem congr (hn : sv.Numbered h) (hsame : SamePublished h.world.generations h'.world.generations)
    (hhand : h'.inHand = h.inHand) : sv.Numbered h' where
  pointer := by
    obtain ⟨current, hp, habove, hnext⟩ := hn.pointer
    refine ⟨current, hp.congr (hsame _ (.inl rfl)), fun n hget => ?_, ?_⟩
    · rw [hsame _ (.inr ⟨n, rfl⟩)] at hget
      rw [hhand]
      exact habove n hget
    · rw [hhand]
      exact hnext
  directories := by
    intro n node hget
    rw [hsame _ (.inr ⟨n, rfl⟩)] at hget
    exact hn.directories n node hget
  single := by rw [hhand]; exact hn.single
  owned := by rw [hhand]; exact hn.owned
  stores := by rw [hhand]; exact hn.stores

theorem discardable (hn : sv.Numbered h) (hp : p ∈ h.inHand) :
    sv.Discardable p h.world.generations where
  owned := hn.owned p hp
  inactive := by
    obtain ⟨current, hcur, -, hnext⟩ := hn.pointer
    refine ⟨current, hcur, ?_⟩
    have := hnext p hp
    omega
  directory := fun node hget => hn.directories _ node hget

theorem settled (hn : sv.Numbered h) (hp : h.inHand = [p])
    (hs : Settles p.token.generation h.world.generations w.generations) : sv.Numbered ⟨w, []⟩ := by
  obtain ⟨current, hcur, habove, hnext⟩ := hn.pointer
  have hg : p.token.generation.get = current + 1 := hnext p (by simp [hp])
  -- Everything sealed is at most the number of the update.
  have hle : ∀ n, h.world.generations.get (.sealed n) ≠ none →
      n ≤ current ∨ n = p.token.generation.get := by
    intro n hget
    rcases habove n hget with hle | ⟨q, hq, hnq⟩
    · exact .inl hle
    · rw [hp, mem_singleton] at hq
      rw [hq] at hnq
      exact .inr hnq
  have hempty : ∀ P : PreparedSourceUpdate Ω → Prop, ∀ q ∈ (⟨w, []⟩ : Holding Ω).inHand, P q := by
    intro P q hq
    cases hq
  rcases hs with ⟨hptr, hsealed⟩ | ⟨hcur', hgone, hsealed⟩
  · refine ⟨⟨p.token.generation.get, .inr ⟨_, hptr, rfl⟩, fun n hget => ?_, hempty _⟩,
      fun n node hget => ?_, .inl rfl, hempty _, hempty _⟩
    · have := hle n (by rwa [← hsealed n])
      omega
    · exact hn.directories n node (by rwa [← hsealed n])
  · refine ⟨⟨current, hcur.congr hcur', fun n hget => ?_, hempty _⟩,
      fun n node hget => ?_, .inl rfl, hempty _, hempty _⟩
    · have hne : n ≠ p.token.generation.get := by
        rintro rfl
        exact hget hgone
      rcases hle n (by rwa [← hsealed n hne]) with hle | heq
      · exact .inl hle
      · exact absurd heq hne
    · have hne : n ≠ p.token.generation.get := by
        rintro rfl
        rw [hgone] at hget
        cases hget
      exact hn.directories n node (by rwa [← hsealed n hne])

end Numbered

variable {h : Holding Ω}

theorem prepare_numbered (hn : sv.Numbered h) (hhand : h.inHand = []) :
    sv.Numbered (sv.act h (.prepare f request)) := by
  have hfail := prepare_samePublished (f := f) request h.world.generations h.world (.refl _)
  rcases hrun : sv.prepare f request h.world with ⟨o, w⟩
  simp only [hrun] at hfail
  cases o with
  | error e | crashed =>
    simp only [act, hrun]
    exact hn.congr hfail rfl
  | done p =>
    simp only [act, hrun, hhand, nil_append]
    obtain ⟨hpm, hpo, howned, hnumber, hnext⟩ := prepare_eq_done hrun
    obtain ⟨current, hcur, habove, -⟩ := hn.pointer
    have hg := hnumber current hcur
    refine ⟨⟨current, hcur.congr hnext.current, fun n hget => ?_, ?_⟩,
      fun n node hget => ?_, .inr ⟨p, rfl⟩, ?_, ?_⟩
    · by_cases hnew : n = p.token.generation.get
      · exact .inr ⟨p, mem_singleton_self p, hnew⟩
      · rw [hnext.old n hnew] at hget
        rcases habove n hget with hle | ⟨q, hq, -⟩
        · exact .inl hle
        · rw [hhand] at hq
          cases hq
    · intro q hq
      rw [mem_singleton.mp hq]
      exact hg
    · by_cases hnew : n = p.token.generation.get
      · obtain ⟨children, hdir⟩ := hnext.new
        rw [hnew, hdir] at hget
        exact ⟨children, (Option.some.inj hget).symm⟩
      · rw [hnext.old n hnew] at hget
        exact hn.directories n node hget
    · intro q hq
      rw [mem_singleton.mp hq]
      exact howned
    · intro q hq
      rw [mem_singleton.mp hq]
      exact ⟨hpm, hpo⟩

theorem Numbered.inHand_eq (hn : sv.Numbered h) {index : Nat}
    (hget : h.inHand[index]? = some p) : h.inHand = [p] ∧ h.inHand.eraseIdx index = [] := by
  rcases hn.single with hnil | ⟨q, hq⟩
  · rw [hnil] at hget
    cases hget
  · rw [hq] at hget ⊢
    cases index with
    | zero =>
      cases hget
      exact ⟨rfl, rfl⟩
    | succ index => cases hget

theorem rollbackTo_numbered {fails : Bool} (hn : sv.Numbered h)
    (hhand : h.inHand = []) (htop : ∀ n, h.world.generations.get (.sealed n) ≠ none → n ≤ g.get) :
    sv.Numbered (sv.act h (.rollbackTo fails g)) := by
  have hsnd := onGenerations_snd fails (sv.store.rollbackTo noFaults g) h.world
  cases fails with
  | true => exact hn.congr (by simp only [act, hsnd]; exact .refl _) rfl
  | false =>
    have hsealed : ∀ n, (sv.store.rollbackTo noFaults g h.world.generations).2.get
        (.sealed n) = h.world.generations.get (.sealed n) :=
      fun n => frame_rollbackTo (by simp) (by simp) _ rfl
    simp only [act, hsnd, Bool.false_eq_true, if_false]
    rcases rollbackTo_pointer sv.store noFaults g h.world.generations with hsame | hptr
    · refine hn.congr ?_ rfl
      rintro n (rfl | ⟨m, rfl⟩)
      · exact hsame
      · exact hsealed m
    · refine ⟨⟨g.get, .inr ⟨g, hptr, rfl⟩, fun n hget => .inl ?_, ?_⟩, fun n node hget => ?_,
        hn.single, hn.owned, hn.stores⟩
      · exact htop n (by rwa [← hsealed n])
      · intro p hp
        rw [hhand] at hp
        cases hp
      · exact hn.directories n node (by rwa [← hsealed n])

theorem act_numbered {a : sv.Action} (hn : sv.Numbered h)
    (ho : sv.Orderly h a) : sv.Numbered (sv.act h a) := by
  cases a with
  | prepare f request => exact prepare_numbered hn ho
  | commit f index =>
    cases hget : h.inHand[index]? with
    | none =>
      simp only [act, hget]
      exact hn
    | some p =>
      obtain ⟨hp, herase⟩ := hn.inHand_eq hget
      have hmem : p ∈ h.inHand := by rw [hp]; exact mem_singleton_self p
      obtain ⟨hpm, hpo⟩ := hn.stores p hmem
      have hcov : sv.Covered f p h.world := ⟨hpm, fun hw hsome => ⟨hpo hsome, ho.2 p hget hw hsome⟩⟩
      simp only [act, hget, herase]
      exact hn.settled hp (commit_settles ho.1 (hn.discardable hmem) hcov)
  | discard f index =>
    cases hget : h.inHand[index]? with
    | none =>
      simp only [act, hget]
      exact hn
    | some p =>
      obtain ⟨hp, herase⟩ := hn.inHand_eq hget
      have hmem : p ∈ h.inHand := by rw [hp]; exact mem_singleton_self p
      have hf : f.discardSealed = false := ho
      simp only [act, hget, herase, discard, mapError_snd]
      refine hn.settled hp ?_
      unfold discardSealed
      rw [hf]
      exact discardSealed_settles (hn.discardable hmem)
  | rollbackTo fails g => exact rollbackTo_numbered hn ho.1 ho.2
  | crash nodeOverrides => exact hn.congr (.refl _) (.symm ho)

def Initial (h : Holding Ω) : Prop := h.world.generations = Dir.empty ∧ h.inHand = []

theorem numbered_of_initial (hi : Initial h) : sv.Numbered h := by
  obtain ⟨hgen, hhand⟩ := hi
  refine ⟨⟨0, .inl ⟨by rw [hgen]; rfl, rfl⟩, fun n hget => ?_, ?_⟩, fun n node hget => ?_,
    .inl hhand, ?_, ?_⟩
  · rw [hgen] at hget
    exact absurd rfl hget
  · simp [hhand]
  · rw [hgen] at hget
    cases hget
  · simp [hhand]
  · simp [hhand]

/-- The number `next_generation` answers with is free, and so `prepare_candidate` does
not find it taken. -/
def NextFresh (sv : Service Ω) (w : World Ω) : Prop :=
  ∀ f g w', nextGeneration f w = (.done g, w') →
    w.generations.pathExists (.sealed g.get) = false ∧
      ∀ φ (c : Candidate sv.store.sha256Hex), c.generation = g →
        (sv.store.prepareCandidate φ c w.generations).1 ≠
          .error (publishError "reserve_generation" "generation already exists")

theorem nextFresh_of_numbered (hn : sv.Numbered h) (hhand : h.inHand = []) :
    sv.NextFresh h.world := by
  intro f g w' hnext
  obtain ⟨current, hcur, habove, -⟩ := hn.pointer
  have hg := (nextGeneration_eq_done hnext).2 current hcur
  have hfree : h.world.generations.get (.sealed g.get) = none := by
    by_contra hget
    rcases habove _ hget with hle | ⟨p, hp, -⟩
    · omega
    · rw [hhand] at hp
      cases hp
  have hfresh : h.world.generations.pathExists (.sealed g.get) = false := by
    simp [Tree.pathExists, hfree]
  refine ⟨hfresh, fun φ c hc herr => ?_⟩
  rw [← hc] at hfresh
  obtain ⟨operation, he⟩ := prepareCandidate_error_system hfresh (Prod.ext herr rfl)
  cases he

/-- In every state of an orderly run in which no update is in hand, the next
generation number is free. -/
theorem nextFresh_of_orderly {h : Holding Ω} (hi : Initial h) {actions : List sv.Action}
    (ho : Runs.Guarded sv.act sv.Orderly h actions)
    (hhand : (Runs.run sv.act h actions).inHand = []) :
    sv.NextFresh (Runs.run sv.act h actions).world := by
  have hn : sv.Numbered (Runs.run sv.act h actions) :=
    Runs.run_invariant (I := sv.Numbered) (fun _ _ hn ha => act_numbered hn ha)
      (numbered_of_initial hi) ho
  exact nextFresh_of_numbered hn hhand

end Service

/-! ## A rollback below a later generation -/

def sampleActions : List sampleService.Action :=
  [.prepare noFailures (sampleRequest none none), .commit noFailures 0]

/-- Generation 2 follows, and then the store is rolled back to 1. -/
def sampleRollback : List sampleService.Action :=
  sampleActions ++ sampleActions ++ [.rollbackTo false .first]

theorem sampleActions_nextFresh : Service.Initial (⟨sampleStart, []⟩ : Service.Holding (List Nat)) ∧
      Runs.Guarded sampleService.act sampleService.Orderly ⟨sampleStart, []⟩ sampleActions ∧
      sampleService.NextFresh
        (Runs.run sampleService.act ⟨sampleStart, []⟩ sampleActions).world := by
  have hguard : Runs.Guarded sampleService.act sampleService.Orderly ⟨sampleStart, []⟩
      sampleActions := by
    refine ⟨rfl, ⟨rfl, fun p hp _ hsome => ?_⟩, trivial⟩
    cases hp
    cases hsome
  exact ⟨⟨rfl, rfl⟩, hguard, Service.nextFresh_of_orderly ⟨rfl, rfl⟩ hguard rfl⟩

/-- After the rollback the next number is 2, which is still sealed, and preparing
the next update fails. -/
theorem sampleRollback_next_taken :
    ∃ h, Runs.run sampleService.act ⟨sampleStart, []⟩ sampleRollback = h ∧ h.inHand = [] ∧
      ¬ sampleService.NextFresh h.world ∧
      (sampleService.prepare noFailures (sampleRequest none none) h.world).1 = .error (.publish
          (publishError "reserve_generation" "generation already exists")) := by
  refine ⟨_, rfl, rfl, fun h => ?_, rfl⟩
  have htaken := (h noFailures ⟨2, by decide, by decide⟩ _ rfl).1
  cases htaken

end NetHop.SourceUpdate
