import NetHop.Generation.Publish
import NetHop.SourceUpdate.Service

/-!
# What a failed commit leaves behind

`commit` changes three stores in turn and undoes the earlier changes on each of
its error exits.  Two exits undo nothing.
-/

namespace NetHop.SourceUpdate

open FaultIo Generation Io GenerationStore SourceUpdateError

variable {Ω : Type}

/-- Every dropped result of the run was a success. -/
def World.AllUndone (w : World Ω) : Prop := ∀ b ∈ w.compensations, b = true

variable {w1 : World Ω}

namespace Service

variable {sv : Service Ω} {f : Failures} {p : PreparedSourceUpdate Ω} {w w' : World Ω}

/-! ## The calls -/

variable {fails : Bool} {manual : PendingManualSource} {checkpoint : Option ManualFile}

theorem manualReplace_eq_done : manualReplace fails manual w = (.done checkpoint, w') ↔
      validBody manual.bytes = true ∧ fails = false ∧ checkpoint = w.manual ∧
        w' = { w with manual := some (.encoded manual.formatHint manual.bytes) } := by
  unfold manualReplace
  cases validBody manual.bytes <;> cases fails <;> simp [eq_comm]

theorem manualReplace_eq_error {e : ManualSourceError}
    (h : manualReplace fails manual w = (.error e, w')) : w' = w := by
  unfold manualReplace at h
  cases hv : validBody manual.bytes <;> cases fails <;> simp_all

variable {u : Unit}

theorem manualRestore_eq_done (h : manualRestore fails checkpoint w = (.done u, w')) :
    w' = { w with manual := checkpoint } := by
  unfold manualRestore at h
  cases checkpoint with
  | none => cases fails <;> simp_all
  | some previous => cases hd : decodes previous <;> cases fails <;> simp_all

theorem overrideLoad_eq_done {o : Ω} : sv.overrideLoad f w = (.done o, w') ↔
      f.overrideLoad = false ∧ sv.loadOverrides w.overrides = .ok o ∧ w' = w := by
  unfold overrideLoad
  cases f.overrideLoad with
  | true => simp
  | false =>
    cases hl : sv.loadOverrides w.overrides <;> simp [hl, Io.ofExcept, eq_comm]

theorem overrideReplace_eq_done {o : Ω} : sv.overrideReplace fails o w = (.done u, w') ↔
      sv.validOverrides o = true ∧ fails = false ∧
        w' = { w with overrides := some (.stored o) } := by
  unfold overrideReplace
  cases sv.validOverrides o <;> cases fails <;> simp [eq_comm]

theorem overrideReplace_eq_error {o : Ω} {e : NodeOverrideError}
    (h : sv.overrideReplace fails o w = (.error e, w')) : w' = w := by
  unfold overrideReplace at h
  cases hv : sv.validOverrides o <;> cases fails <;> simp_all

variable {ε α : Type}

theorem onGenerations_snd (fails : Bool) (m : Run α) (w : World Ω) : (onGenerations fails m w).2 =
      { w with generations := if fails then w.generations else (m w.generations).2 } := by
  cases fails <;> rfl

theorem onGenerations_eq_done {m : Run α} {a : α} : onGenerations fails m w = (.done a, w') ↔
      fails = false ∧ m w.generations = (.done a, w'.generations) ∧
        w' = { w with generations := w'.generations } := by
  unfold onGenerations
  cases fails with
  | true => simp
  | false =>
    simp only [Bool.false_eq_true, if_false, zoom, Prod.mk.injEq, true_and]
    constructor
    · rintro ⟨h, rfl⟩
      exact ⟨Prod.ext h rfl, rfl⟩
    · rintro ⟨h, hw⟩
      rw [h, hw]
      exact ⟨rfl, rfl⟩

variable {m : Io (World Ω) ε α}

theorem compensate_eq_done (h : compensate m w = (.done u, w'))
    (hall : w'.AllUndone) : ∃ a w1, m w = (.done a, w1) ∧ w1.AllUndone ∧
      w' = { w1 with compensations := w1.compensations ++ [true] } := by
  obtain ⟨r, w1, hm, hmod⟩ := bind_eq_done.mp h
  cases hmod
  rcases attempt_eq_done.mp hm with ⟨a, rfl, hdone⟩ | ⟨e, rfl, -⟩
  · refine ⟨a, w1, hdone, fun b hb => hall b (by simp [hb]), rfl⟩
  · have := hall false (by simp [Except.toBool])
    cases this

variable {e : SourceUpdateError} {E : SourceUpdateError → Prop}

theorem errorsIn_compensate : ErrorsIn E (compensate m) := by
  intro s e s' h
  obtain ⟨r, s1, -, hmod⟩ := ErrorsIn.attempt.rest h
  cases hmod

/-! ## The generation store -/

theorem discardSealed_spec (h : sv.discardSealed f p w = (.done u, w')) :
    w' = { w with generations := w'.generations } ∧
      w'.generations.get .current = w.generations.get .current ∧
      w'.generations.pathExists (.sealed p.token.generation.get) = false := by
  obtain ⟨-, hrun, hw⟩ := onGenerations_eq_done.mp h
  have hcur : w'.generations.get .current = w.generations.get .current :=
    (frame_discardSealed (by simp [p.token.directory_eq])).holds rfl hrun
  refine ⟨hw, hcur, ?_⟩
  -- The run passed the pointer check and removed what it found.
  unfold GenerationStore.discardSealed GenerationStore.removeInactive at hrun
  obtain ⟨_, s1, hown, hrun⟩ := bind_eq_done.mp hrun
  obtain ⟨r, s2, -, hrun⟩ := bind_eq_done.mp hrun
  split at hrun
  · cases hrun
  · obtain ⟨_, s3, hremove, hsync⟩ := bind_eq_done.mp hrun
    obtain ⟨-, rfl⟩ := Tree.syncDirectory_eq_done.mp hsync
    obtain ⟨-, hclear⟩ := (removeDirectoryIfPresent_eq_done rfl).mp hremove
    rw [p.token.directory_eq] at hclear
    rw [hclear]
    unfold clearStale
    cases hex : s2.pathExists (.sealed p.token.generation.get) with
    | true => simp [Tree.pathExists]
    | false => simpa using hex

theorem commitGeneration_error_samePublished {st : GenerationStore}
    {token : SealedGeneration} {s s' : Store} {e : CoreError}
    (h : st.commitGeneration noFaults token s = (.error e, s')) : SamePublished s s' := by
  rintro n (rfl | ⟨g, rfl⟩)
  swap
  · exact (frame_commitGeneration (by simp) (by simp)).holds rfl h
  rcases bind_eq_error.mp h with hown | ⟨_, s1, hown, hrest⟩
  · rw [Keeps.state_eq keeps_ensureOwned hown]
  · obtain rfl : s1 = s := Keeps.state_eq keeps_ensureOwned hown
    rcases bind_eq_error.mp hrest with hver | ⟨_, s2, hver, hwrite⟩
    · rw [Keeps.state_eq keeps_ensureSealedExists hver]
    · obtain rfl : s2 = s1 := Keeps.state_eq keeps_ensureSealedExists hver
      obtain ⟨l, -, hcur⟩ := writeCurrent_get_current noFaults token.generation s2
      rw [hwrite] at hcur
      rw [hcur]
      split
      · -- Without faults a pointer that moves is reported as a success.
        next hmoved =>
          have hdone := (writeCurrent_eq_done (φ := noFaults) (u := ())).mpr
            ⟨rfl, hmoved.2.1, hmoved.2.2.1, rfl, rfl, rfl⟩
          rw [hdone] at hwrite
          cases hwrite
      · rfl

/-! ## The parts of a commit -/

variable {checkpoint : Option (Option ManualFile)}

theorem replaceManual_eq_done : sv.replaceManual f p w = (.done checkpoint, w') ↔
      (p.pendingManual = none ∧ checkpoint = none ∧ w' = w) ∨
        ∃ manual, p.pendingManual = some manual ∧ sv.hasManualStore = true ∧
          validBody manual.bytes = true ∧ f.manualReplace = false ∧ checkpoint = some w.manual ∧
          w' = { w with manual := some (.encoded manual.formatHint manual.bytes) } := by
  unfold replaceManual
  cases hp : p.pendingManual with
  | none =>
    constructor
    · rintro ⟨⟩
      exact .inl ⟨rfl, rfl, rfl⟩
    · rintro (⟨-, rfl, rfl⟩ | ⟨_, ⟨⟩, -⟩)
      rfl
  | some manual =>
    cases hs : sv.hasManualStore with
    | false => simp
    | true =>
      simp only [Bool.not_true, Bool.false_eq_true, if_false, bind_eq_done,
        attempt_eq_done, manualReplace_eq_done, reduceCtorEq, false_and, false_or,
        Option.some.injEq, true_and, exists_eq_left']
      constructor
      · rintro ⟨r, w1, ⟨cp, rfl, hv, hf, rfl, rfl⟩ | ⟨e, rfl, -⟩, hret⟩
        · cases hret
          exact ⟨hv, hf, rfl, rfl⟩
        · obtain ⟨_, _, -, hthrow⟩ := bind_eq_done.mp hret
          cases hthrow
      · rintro ⟨hv, hf, rfl, rfl⟩
        exact ⟨.ok w.manual, _, .inl ⟨w.manual, rfl, hv, hf, rfl, rfl⟩, rfl⟩

theorem replaceManual_eq_error (h : sv.replaceManual f p w = (.error e, w')) :
    (p.pendingManual.isSome = true ∧ sv.hasManualStore = false ∧ w' = w) ∨
      compensate (sv.discardSealed f p) w = (.done (), w') := by
  unfold replaceManual at h
  cases hp : p.pendingManual with
  | none => simp [hp] at h
  | some manual =>
    cases hs : sv.hasManualStore with
    | false =>
      simp [hp, hs] at h
      exact .inl ⟨rfl, rfl, h.2.symm⟩
    | true =>
      simp only [hp, hs, Bool.not_true, Bool.false_eq_true, if_false] at h
      obtain ⟨r, w1, hatt, hrest⟩ := ErrorsIn.attempt.rest h
      rcases attempt_eq_done.mp hatt with ⟨cp, rfl, -⟩ | ⟨e', rfl, herr⟩
      · cases hrest
      · obtain rfl := manualReplace_eq_error herr
        obtain ⟨_, w2, hcomp, hthrow⟩ := errorsIn_compensate.rest hrest
        cases hthrow
        exact .inr hcomp

theorem restoreManual_spec (h : sv.restoreManual f checkpoint w = (.done u, w'))
    (hall : w'.AllUndone) (hstore : checkpoint.isSome = true → sv.hasManualStore = true) :
    w.AllUndone ∧ w' = { w with
      manual := checkpoint.getD w.manual, compensations := w'.compensations } := by
  unfold restoreManual at h
  cases checkpoint with
  | none =>
    cases h
    exact ⟨hall, rfl⟩
  | some previous =>
    simp only [hstore rfl, if_true] at h
    obtain ⟨_, w1, hrestore, hall1, rfl⟩ := compensate_eq_done h hall
    obtain rfl := manualRestore_eq_done hrestore
    exact ⟨hall1, rfl⟩

theorem errorsIn_restoreManual : ErrorsIn E (sv.restoreManual f checkpoint) := by
  unfold restoreManual
  cases checkpoint with
  | none => exact .ret _
  | some previous =>
    cases sv.hasManualStore with
    | false => exact .ret _
    | true => exact errorsIn_compensate

variable {checkpoint : Option Ω}

theorem restoreOverrides_spec
    (h : sv.restoreOverrides f checkpoint w = (.done u, w')) (hall : w'.AllUndone)
    (hstore : checkpoint.isSome = true → sv.hasNodeOverrideStore = true) :
    w.AllUndone ∧ (∀ o ∈ checkpoint, sv.validOverrides o = true) ∧ w' = { w with
        overrides := (checkpoint.map .stored).or w.overrides
        compensations := w'.compensations } := by
  unfold restoreOverrides at h
  cases checkpoint with
  | none =>
    cases h
    exact ⟨hall, by simp, rfl⟩
  | some previous =>
    simp only [hstore rfl, if_true] at h
    obtain ⟨_, w1, hrestore, hall1, rfl⟩ := compensate_eq_done h hall
    obtain ⟨hvalid, -, rfl⟩ := overrideReplace_eq_done.mp hrestore
    exact ⟨hall1, by simpa using hvalid, rfl⟩

theorem errorsIn_restoreOverrides : ErrorsIn E (sv.restoreOverrides f checkpoint) := by
  unfold restoreOverrides
  cases checkpoint with
  | none => exact .ret _
  | some previous =>
    cases sv.hasNodeOverrideStore with
    | false => exact .ret _
    | true => exact errorsIn_compensate

variable {manual : Option (Option ManualFile)}

theorem replaceOverrides_eq_done
    (h : sv.replaceOverrides f p manual w = (.done checkpoint, w')) : (checkpoint = none ∧ w' = w) ∨
      ∃ o new, checkpoint = some o ∧ sv.hasNodeOverrideStore = true ∧
        sv.loadOverrides w.overrides = .ok o ∧ w' = { w with overrides := some (.stored new) } := by
  unfold replaceOverrides at h
  cases hp : p.pendingNodeOverrides with
  | none =>
    simp only [hp] at h
    cases h
    exact .inl ⟨rfl, rfl⟩
  | some new =>
    cases hs : sv.hasNodeOverrideStore with
    | false => simp [hp, hs] at h
    | true =>
      simp only [hp, hs, Bool.not_true, Bool.false_eq_true, if_false] at h
      obtain ⟨o, w1, hload, hrest⟩ := bind_eq_done.mp h
      rw [mapError_eq_done, overrideLoad_eq_done] at hload
      obtain ⟨-, hload, rfl⟩ := hload
      obtain ⟨r, w2, hatt, hret⟩ := bind_eq_done.mp hrest
      rcases attempt_eq_done.mp hatt with ⟨_, rfl, hrep⟩ | ⟨e, rfl, -⟩
      · obtain ⟨-, -, rfl⟩ := overrideReplace_eq_done.mp hrep
        cases hret
        exact .inr ⟨o, new, rfl, rfl, hload, rfl⟩
      · obtain ⟨_, _, -, hret⟩ := bind_eq_done.mp hret
        obtain ⟨_, _, -, hthrow⟩ := bind_eq_done.mp hret
        cases hthrow

theorem replaceOverrides_eq_error (h : sv.replaceOverrides f p manual w = (.error e, w')) :
    (p.pendingNodeOverrides.isSome = true ∧
        ¬ (sv.hasNodeOverrideStore = true ∧ f.overrideLoad = false ∧
          ∃ o, sv.loadOverrides w.overrides = .ok o) ∧ w' = w) ∨
      ∃ w1, sv.restoreManual f manual w = (.done (), w1) ∧
        compensate (sv.discardSealed f p) w1 = (.done (), w') := by
  unfold replaceOverrides at h
  cases hp : p.pendingNodeOverrides with
  | none => simp [hp] at h
  | some new =>
    cases hs : sv.hasNodeOverrideStore with
    | false =>
      simp [hp, hs] at h
      exact .inl ⟨rfl, by simp, h.2.symm⟩
    | true =>
      simp only [hp, hs, Bool.not_true, Bool.false_eq_true, if_false] at h
      rcases bind_eq_error.mp h with herr | ⟨o, w1, hload, hrest⟩
      · refine .inl ⟨rfl, ?_, ?_⟩
        · rintro ⟨-, hf, o, ho⟩
          have hdone := (mapError_eq_done (f := fun _ => nodeOverride)).mpr
            (overrideLoad_eq_done.mpr ⟨hf, ho, rfl⟩)
          rw [hdone] at herr
          cases herr
        · have hsnd := mapError_snd (fun _ => nodeOverride) (sv.overrideLoad f) w
          rw [herr] at hsnd
          change w' = _ at hsnd
          rw [hsnd]
          unfold overrideLoad
          cases f.overrideLoad with
          | true => rfl
          | false => exact Keeps.ofExcept (I := fun t => t = w) _ w rfl
      · rw [mapError_eq_done, overrideLoad_eq_done] at hload
        obtain ⟨-, -, rfl⟩ := hload
        obtain ⟨r, w2, hatt, hundo⟩ := ErrorsIn.attempt.rest hrest
        rcases attempt_eq_done.mp hatt with ⟨_, rfl, -⟩ | ⟨e', rfl, hrep⟩
        · cases hundo
        · obtain rfl := overrideReplace_eq_error hrep
          obtain ⟨_, w3, hres, hdiscard⟩ := errorsIn_restoreManual.rest hundo
          obtain ⟨_, w4, hcomp, hthrow⟩ := errorsIn_compensate.rest hdiscard
          cases hthrow
          exact .inr ⟨w3, hres, hcomp⟩

theorem commitPrepared_eq_error {overrides : Option Ω}
    (h : sv.commitPrepared f p manual overrides w = (.error e, w')) :
    ∃ w1 w2 w3, w1 = { w with generations := w1.generations } ∧
      SamePublished w.generations w1.generations ∧
      sv.restoreManual f manual w1 = (.done (), w2) ∧
      sv.restoreOverrides f overrides w2 = (.done (), w3) ∧
      compensate (sv.discardSealed f p) w3 = (.done (), w') := by
  obtain ⟨r, w1, hatt, hrest⟩ := ErrorsIn.attempt.rest h
  have hw1 := onGenerations_snd f.commitGeneration (sv.store.commitGeneration noFaults p.token) w
  rcases attempt_eq_done.mp hatt with ⟨_, rfl, -⟩ | ⟨e', rfl, herr⟩
  · cases hrest
  · rw [herr] at hw1
    change w1 = _ at hw1
    have hsame : SamePublished w.generations w1.generations := by
      rw [hw1]
      unfold onGenerations at herr
      cases hf : f.commitGeneration with
      | true => exact .refl _
      | false =>
        simp only [hf, Bool.false_eq_true, if_false, zoom, Prod.mk.injEq] at herr
        exact commitGeneration_error_samePublished (Prod.ext herr.1 rfl)
    obtain ⟨_, w2, hman, hrest⟩ := errorsIn_restoreManual.rest hrest
    obtain ⟨_, w3, hovr, hrest⟩ := errorsIn_restoreOverrides.rest hrest
    obtain ⟨_, w4, hcomp, hthrow⟩ := errorsIn_compensate.rest hrest
    cases hthrow
    exact ⟨w1, w2, w3, by rw [hw1], hsame, hman, hovr, hcomp⟩

/-! ## The whole commit -/

/-- The stores and the service are as before and the prepared generation is gone. -/
structure Restored (sv : Service Ω) (p : PreparedSourceUpdate Ω) (w w' : World Ω) : Prop where
  manual : w'.manual = w.manual
  overrides : sv.loadOverrides w'.overrides = sv.loadOverrides w.overrides
  memory : w'.nodeOverrides = w.nodeOverrides
  current : w'.generations.get .current = w.generations.get .current
  gone : w'.generations.pathExists (.sealed p.token.generation.get) = false

/-- Every failing commit whose clean-up calls succeed restores `w`. -/
def FailureUndone (sv : Service Ω) (f : Failures) (p : PreparedSourceUpdate Ω)
    (w : World Ω) : Prop :=
  ∀ e w', sv.commit f p { w with compensations := [] } = (.error e, w') →
    w'.AllUndone → sv.Restored p w w'

def ManualWritten (f : Failures) (p : PreparedSourceUpdate Ω) : Prop :=
  ∀ manual ∈ p.pendingManual, validBody manual.bytes = true ∧ f.manualReplace = false

/-- No exit of the commit that undoes nothing is taken: a pending manual source has a
store, and pending overrides that are reached have a store whose file loads. -/
structure Covered (sv : Service Ω) (f : Failures) (p : PreparedSourceUpdate Ω)
    (w : World Ω) : Prop where
  manual : p.pendingManual.isSome = true → sv.hasManualStore = true
  overrides : ManualWritten f p → p.pendingNodeOverrides.isSome = true →
    sv.hasNodeOverrideStore = true ∧ f.overrideLoad = false ∧
      ∃ o, sv.loadOverrides w.overrides = .ok o

/-- Discarding ends every error path that undoes something. -/
theorem restored_of_discard (h : compensate (sv.discardSealed f p) w1 = (.done (), w'))
    (hall : w'.AllUndone) (hmanual : w1.manual = w.manual)
    (hoverrides : sv.loadOverrides w1.overrides = sv.loadOverrides w.overrides)
    (hmemory : w1.nodeOverrides = w.nodeOverrides)
    (hcurrent : w1.generations.get .current = w.generations.get .current) : sv.Restored p w w' := by
  obtain ⟨_, w2, hdone, -, rfl⟩ := compensate_eq_done h hall
  obtain ⟨hw2, hcur, hgone⟩ := discardSealed_spec hdone
  rw [hw2]
  exact ⟨hmanual, hoverrides, hmemory, hcur.trans hcurrent, hgone⟩

theorem compensate_allUndone (h : compensate m w1 = (.done u, w')) (hall : w'.AllUndone)
    (hlog : ∀ a w2, m w1 = (.done a, w2) → w2.compensations = w1.compensations) : w1.AllUndone := by
  obtain ⟨a, w2, hdone, hall2, -⟩ := compensate_eq_done h hall
  intro b hb
  rw [← hlog a w2 hdone] at hb
  exact hall2 b hb

theorem discard_allUndone (h : compensate (sv.discardSealed f p) w1 = (.done u, w'))
    (hall : w'.AllUndone) : w1.AllUndone := by
  refine compensate_allUndone h hall fun a w2 hdone => ?_
  rw [(discardSealed_spec hdone).1]

theorem failureUndone_of_covered (hc : sv.Covered f p w) : sv.FailureUndone f p w := by
  intro e w' hrun hall
  rcases bind_eq_error.mp hrun with herr | ⟨cpm, w1, hman, hrun⟩
  · -- The manual source could not be written.
    rcases replaceManual_eq_error herr with ⟨hsome, hstore, -⟩ | hcomp
    · rw [hc.manual hsome] at hstore
      cases hstore
    · exact restored_of_discard hcomp hall rfl rfl rfl rfl
  -- What the first part leaves: only the manual source may have changed.
  obtain ⟨hwritten, hw1, hback, hcpm⟩ : ManualWritten f p ∧
      w1 = { w with manual := w1.manual, compensations := [] } ∧
      cpm.getD w1.manual = w.manual ∧ (cpm.isSome = true → sv.hasManualStore = true) := by
    rcases replaceManual_eq_done.mp hman with ⟨hp, rfl, rfl⟩ | ⟨m, hp, hs, hv, hf, rfl, rfl⟩
    · exact ⟨by simp [ManualWritten, hp], rfl, rfl, by simp⟩
    · exact ⟨by simp [ManualWritten, hp, hv, hf], rfl, rfl, fun _ => hs⟩
  rcases bind_eq_error.mp hrun with herr | ⟨cpo, w2, hovr, hrun⟩
  · -- The overrides could not be written.
    rcases replaceOverrides_eq_error herr with ⟨hsome, hno, -⟩ | ⟨w2, hres, hcomp⟩
    · refine absurd (hc.overrides hwritten hsome) ?_
      rwa [hw1] at hno
    · obtain ⟨-, hw2⟩ := restoreManual_spec hres (discard_allUndone hcomp hall) hcpm
      rw [hw1] at hw2 hback
      refine restored_of_discard hcomp hall ?_ ?_ ?_ ?_ <;> rw [hw2]
      exact hback
  -- The generation could not be committed.
  obtain ⟨w3, w4, w5, hw3, hsame, hres, hreso, hcomp⟩ := commitPrepared_eq_error hrun
  have hall5 := discard_allUndone hcomp hall
  obtain ⟨hcpo, hw2⟩ : (cpo.isSome = true → sv.hasNodeOverrideStore = true) ∧
      w2 = { w1 with overrides := w2.overrides } := by
    rcases replaceOverrides_eq_done hovr with ⟨rfl, rfl⟩ | ⟨o, new, rfl, hs, -, rfl⟩
    · exact ⟨by simp, rfl⟩
    · exact ⟨fun _ => hs, rfl⟩
  obtain ⟨hall4, hvalid, hw5⟩ := restoreOverrides_spec hreso hall5 hcpo
  obtain ⟨-, hw4⟩ := restoreManual_spec hres hall4 hcpm
  have hload : sv.loadOverrides w5.overrides = sv.loadOverrides w.overrides := by
    rw [hw5, hw4, hw3]
    rcases replaceOverrides_eq_done hovr with ⟨rfl, rfl⟩ | ⟨o, new, rfl, -, hload, -⟩
    · rw [hw1]
      rfl
    · rw [hw1] at hload
      rw [hload]
      simp [loadOverrides, hvalid o rfl]
  have hmanual : w5.manual = w.manual := by
    rw [hw5, hw4, hw3, hw2, ← hback]
  refine restored_of_discard hcomp hall hmanual hload ?_ ?_
  · rw [hw5, hw4, hw3, hw2, hw1]
  · rw [hw5, hw4, hsame _ (.inl rfl), hw2, hw1]

theorem replaceManual_no_store (hsome : p.pendingManual.isSome = true)
    (hstore : sv.hasManualStore = false) : sv.replaceManual f p w = (.error .manualSource, w) := by
  obtain ⟨manual, hp⟩ := Option.isSome_iff_exists.mp hsome
  simp [replaceManual, hp, hstore]

theorem replaceManual_of_written (hstore : p.pendingManual.isSome = true → sv.hasManualStore = true)
    (hwritten : ManualWritten f p) :
    ∃ cp w1, sv.replaceManual f p w = (.done cp, w1) ∧ w1 = { w with manual := w1.manual } := by
  cases hp : p.pendingManual with
  | none => exact ⟨none, w, replaceManual_eq_done.mpr (.inl ⟨hp, rfl, rfl⟩), rfl⟩
  | some manual =>
    obtain ⟨hv, hf⟩ := hwritten manual hp
    exact ⟨_, _, replaceManual_eq_done.mpr
      (.inr ⟨manual, hp, hstore (by rw [hp]; rfl), hv, hf, rfl, rfl⟩), rfl⟩

theorem replaceOverrides_not_loaded (manual : Option (Option ManualFile))
    (hsome : p.pendingNodeOverrides.isSome = true)
    (hno : ¬ (sv.hasNodeOverrideStore = true ∧ f.overrideLoad = false ∧
      ∃ o, sv.loadOverrides w.overrides = .ok o)) :
    sv.replaceOverrides f p manual w = (.error .nodeOverride, w) := by
  obtain ⟨new, hp⟩ := Option.isSome_iff_exists.mp hsome
  unfold replaceOverrides
  cases hs : sv.hasNodeOverrideStore with
  | false => simp [hp]
  | true =>
    have herr : mapError (fun _ => nodeOverride) (sv.overrideLoad f) w =
        (.error .nodeOverride, w) := by
      unfold overrideLoad
      cases hf : f.overrideLoad with
      | true => rfl
      | false =>
        cases hl : sv.loadOverrides w.overrides with
        | ok o => exact absurd ⟨hs, hf, o, hl⟩ hno
        | error e => simp [Io.mapError, hl, Io.ofExcept]
    simp only [hp, Bool.not_true, Bool.false_eq_true, if_false]
    exact bind_of_error herr

/-- An exit that undoes nothing leaves the prepared generation. -/
theorem covered_of_failureUndone
    (hexists : w.generations.pathExists (.sealed p.token.generation.get) = true)
    (h : sv.FailureUndone f p w) : sv.Covered f p w := by
  have hkept : ∀ e w', sv.commit f p { w with compensations := [] } = (.error e, w') →
      w'.compensations = [] → w'.generations = w.generations → False := by
    intro e w' hrun hlog hgen
    have hgone := (h e w' hrun (by simp [World.AllUndone, hlog])).gone
    rw [hgen, hexists] at hgone
    cases hgone
  have hstore : p.pendingManual.isSome = true → sv.hasManualStore = true := by
    intro hsome
    by_contra hno
    exact hkept _ _ (bind_of_error (replaceManual_no_store hsome (by simpa using hno))) rfl rfl
  refine ⟨hstore, fun hwritten hsome => ?_⟩
  by_contra hno
  obtain ⟨cp, w1, hman, hw1⟩ :=
    replaceManual_of_written (w := { w with compensations := [] }) hstore hwritten
  have herr := replaceOverrides_not_loaded (w := w1) cp hsome (by rw [hw1]; exact hno)
  refine hkept .nodeOverride w1 ?_ (by rw [hw1]) (by rw [hw1])
  unfold commit
  rw [bind_of_done hman, bind_of_error herr]

/-- A failing `commit` whose clean-up succeeds restores the three stores and removes
the prepared generation exactly when neither of the exits that undo nothing is taken. -/
theorem commit_failure_undone_iff
    (hexists : w.generations.pathExists (.sealed p.token.generation.get) = true) :
    sv.FailureUndone f p w ↔ sv.Covered f p w :=
  ⟨covered_of_failureUndone hexists, failureUndone_of_covered⟩

end Service

/-! ## A change of the overrides whose registry cannot be read -/

def sampleWorld : World (List Nat) :=
  (sampleService.prepare noFailures (sampleRequest none (some [7])) sampleStart).2

def sampleUpdate : PreparedSourceUpdate (List Nat) where
  token := ⟨"/data", .first, .sealed 1, rfl⟩
  pendingManual := none
  pendingNodeOverrides := some [7]
  report := ⟨.first, 1, 1, 0, 1⟩

theorem sampleUpdate_failure_undone_iff : sampleWorld.generations.pathExists (.sealed 1) = true ∧
      (sampleService.FailureUndone { noFailures with overrideLoad := true } sampleUpdate
          sampleWorld ↔
        sampleService.Covered { noFailures with overrideLoad := true } sampleUpdate sampleWorld) :=
  ⟨rfl, Service.commit_failure_undone_iff rfl⟩

/-- The load fails, no clean-up call is made and the generation stays sealed. -/
theorem sampleUpdate_leaves_generation :
    (∃ w', sampleService.commit { noFailures with overrideLoad := true } sampleUpdate
        sampleWorld = (.error .nodeOverride, w') ∧ w'.compensations = [] ∧
        w'.generations.pathExists (.sealed 1) = true) ∧
      ¬ sampleService.FailureUndone { noFailures with overrideLoad := true } sampleUpdate
        sampleWorld := by
  refine ⟨⟨_, rfl, rfl, rfl⟩, fun h => ?_⟩
  have hgone := (h .nodeOverride _ rfl (by intro b hb; cases hb)).gone
  cases hgone

end NetHop.SourceUpdate
