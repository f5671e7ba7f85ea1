import NetHop.Worker.Calls

/-!
# The ways an update ends

`update_inner` has more than ten exits.  The lemmas here follow each branch once
and say, for an update that was not killed, which branch it took and what it left;
what holds after every update is then a case analysis.
-/

namespace NetHop.Worker

open FaultIo Generation Io WorkerApplication ActiveRuntime

variable {Policy : Type} {a : Answers} {p : Prepared} {now : Nat}
  {accounting : GenerationBuildAccounting} {w w' : WorkerApplication Policy}

abbrev Files.Holds (f : Files) (p : Prepared) : Prop :=
  f.generations.get p.generation = some p.config

/-! ## The restart -/

/-- The configuration on disk was changed while the new core came up: it is stopped
again, before the commit or after it. -/
def Answers.DropsCore (a : Answers) : Prop :=
  a.matchesRecovered = false ∨ a.commit = .none ∧ a.matchesCommitted = false

def Answers.Installs (a : Answers) (c : Config) : Prop :=
  a.BringsUp c ∧ a.matchesRecovered = true ∧ a.commit = .none ∧ a.matchesCommitted = true

/-- The pointer goes to the new generation, whatever the commit reports. -/
def Answers.Switches (a : Answers) (c : Config) : Prop :=
  a.BringsUp c ∧ a.matchesRecovered = true ∧ a.commit ≠ .fail 0

/-- Nothing runs once `w` was stopped, and only its queue can start a core again. -/
structure Idle (w v : WorkerApplication Policy) : Prop where
  runtime : v.runtime = none
  restartAt : v.restartAt = none
  startPending : v.startPending = false
  pending : v.pending = w.pending
  state : v.snapshot.state = .failOpenDirect

theorem Idle.active {v : WorkerApplication Policy} (h : Idle w v) : v.active = none := by
  unfold WorkerApplication.active
  rw [h.runtime]
  rfl

/-- How a restart that was not killed ended. -/
inductive RestartEnds (a : Answers) (p : Prepared) (w w' : WorkerApplication Policy) :
    Outcome WorkerServiceError Unit → Prop
  | started (hstarted : Started w') (hrecover : a.recover ≠ none)
      (hnot : ¬ (a.BringsUp p.config ∧ a.DropsCore)) : RestartEnds a p w w' (.done ())
  | down (hidle : Idle w w')
      (hdown : a.BringsUp p.config ∧ a.DropsCore ∨ a.recover = none ∧ ¬ a.Installs p.config)
      (hcurrent : w'.files.current = none ↔ ¬ a.Switches p.config ∧ w.files.current = none) :
      RestartEnds a p w w' (.done ())
  | installed (r : ActiveRuntime Policy) (hinstalls : a.Installs p.config)
      (hactive : w'.active = some r) (hgeneration : r.generation = p.generation)
      (hpending : r.pendingReload = none) (hcore : w'.files.coreFile = some p.config)
      (hcurrent : w'.files.current = some p.generation)
      (hsealed : w'.files.generations.get p.generation = some p.config) :
      RestartEnds a p w w' (.done ())
  | failed {e : WorkerServiceError} (hruntime : w'.runtime = none) : RestartEnds a p w w' (.error e)

variable {u : Unit} {v : WorkerApplication Policy} {o : Outcome WorkerServiceError Unit}

/-- A restart that comes to `start`. -/
theorem Idle.start_ends (hidle : Idle w v) (hnot : ¬ (a.BringsUp p.config ∧ a.DropsCore))
    (hinstalls : ¬ a.Installs p.config)
    (hcurrent : v.files.current = none ↔ ¬ a.Switches p.config ∧ w.files.current = none)
    (h : start a.recover now v = (o, w')) (ho : o ≠ .crashed) : RestartEnds a p w w' o := by
  cases hrecover : a.recover with
  | none =>
    rw [hrecover, start_none hidle.runtime] at h
    cases h
    exact .down ⟨hidle.runtime, rfl, hidle.startPending, hidle.pending, rfl⟩
      (.inr ⟨hrecover, hinstalls⟩) hcurrent
  | some l =>
    rw [hrecover] at h
    obtain ⟨rfl, hstarted⟩ := Worker.start_ends hidle.runtime h ho
    exact .started hstarted (by rw [hrecover]; nofun) hnot

theorem fallBack_ends (hidle : Idle w v) (hcurrent : v.files.current = w.files.current)
    (hno : ¬ a.BringsUp p.config) (h : fallBack a now accounting p v = (o, w'))
    (ho : o ≠ .crashed) : RestartEnds a p w w' o := by
  obtain ⟨f, s, hf, h, hs⟩ := dropCandidate_bind h ho
  have hleft : Idle w ((v.setFiles f).setSnapshot s) :=
    ⟨hidle.runtime, hidle.restartAt, hidle.startPending, hidle.pending,
      (hs hidle.runtime).trans hidle.state⟩
  refine hleft.start_ends (fun hboth => hno hboth.1) (fun hinst => hno hinst.1) ?_ h ho
  change f.current = none ↔ _
  rw [hf.current, hcurrent]
  exact ⟨fun hnone => ⟨fun hswitches => hno hswitches.1, hnone⟩, fun hnone => hnone.2⟩

theorem dropRecovered_ends {next : Service Policy Unit} (h : dropRecovered a next w = (o, w')) :
    next w = (o, w') ∨ o = .error .shutdownFailed ∧ w' = w := by
  unfold dropRecovered at h
  split at h
  · exact .inl h
  · cases h
    exact .inr ⟨rfl, rfl⟩

variable {r : ActiveRuntime Policy}

theorem finishRestart_ends (hget : w.files.Holds p)
    (hup : a.BringsUp p.config) (hgen : r.generation = p.generation)
    (hpend : r.pendingReload = none)
    (h : finishRestart a now accounting p r (w.stopped.setCore (some p.config)) = (o, w'))
    (ho : o ≠ .crashed) : RestartEnds a p w w' o := by
  unfold finishRestart at h
  cases hrec : a.matchesRecovered with
  | false =>
    rw [hrec] at h
    obtain ⟨f, s, hf, h, hs⟩ := dropCandidate_bind h ho
    rcases dropRecovered_ends h with h | ⟨rfl, rfl⟩
    · cases h
      refine .down ⟨rfl, rfl, rfl, rfl, hs rfl⟩ (.inl ⟨hup, .inl hrec⟩) ?_
      change f.current = none ↔ _
      rw [hf.current]
      refine ⟨fun hnone => ⟨fun hswitches => ?_, hnone⟩, fun hnone => hnone.2⟩
      cases hrec.symm.trans hswitches.2.1
    · exact .failed rfl
  | true =>
    rw [hrec] at h
    obtain ⟨b, v, hcommit, h⟩ := ErrorsIn.succeeds.ends h ho
    rcases succeeds_eq_done.mp hcommit with ⟨rfl, _, hcommit⟩ | ⟨rfl, _, hcommit⟩
    · obtain ⟨hφ, rfl⟩ := commitUpdate_eq_done hcommit
      cases hmatch : a.matchesCommitted with
      | false =>
        rw [hmatch] at h
        obtain ⟨s, h, hs⟩ := publishBuildStatus_bind h
        rcases dropRecovered_ends h with h | ⟨rfl, rfl⟩
        · cases h
          have hswitches : a.Switches p.config := ⟨hup, hrec, by rw [hφ]; nofun⟩
          exact .down ⟨rfl, rfl, rfl, rfl, hs rfl⟩ (.inl ⟨hup, .inr ⟨hφ, hmatch⟩⟩)
            ⟨nofun, fun hnone => absurd hswitches hnone.1⟩
        · exact .failed rfl
      | true =>
        rw [hmatch] at h
        change (modify _ >>= _ : Service Policy Unit) _ = _ at h
        rw [modify_bind_apply] at h
        obtain ⟨s, h, -⟩ := publishBuildStatus_bind h
        cases h
        exact .installed r ⟨hup, hrec, hφ, hmatch⟩ rfl hgen hpend rfl rfl hget
    · obtain ⟨k, f, hφ, hf, rfl⟩ := commitUpdate_eq_error hcommit
      obtain ⟨s, h, hs⟩ := publishBuildStatus_bind h
      rcases dropRecovered_ends h with h | ⟨rfl, rfl⟩
      · have hleft : Idle w (((w.stopped.setCore (some p.config)).setFiles f).setSnapshot s) :=
          ⟨rfl, rfl, rfl, rfl, hs rfl⟩
        refine hleft.start_ends ?_ ?_ ?_ h ho
        · rintro ⟨-, hno | ⟨hno, -⟩⟩
          · rw [hrec] at hno
            cases hno
          · rw [hφ] at hno
            cases hno
        · rintro ⟨-, -, hno, -⟩
          rw [hφ] at hno
          cases hno
        · -- The pointer was switched unless the commit failed without an effect.
          change f.current = none ↔ _
          rw [hf.current]
          cases k with
          | zero => exact ⟨fun hnone => ⟨fun hsw => hsw.2.2 hφ, hnone⟩, fun hnone => hnone.2⟩
          | succ k =>
            have hswitches : a.Switches p.config := ⟨hup, hrec, by rw [hφ]; nofun⟩
            exact ⟨nofun, fun hnone => absurd hswitches hnone.1⟩
      · exact .failed rfl

theorem restartUpdate_ends (hget : w.files.Holds p)
    (h : restartUpdate a now accounting p w = (o, w')) (ho : o ≠ .crashed) :
    RestartEnds a p w w' o := by
  obtain ⟨b, v, hstop, h⟩ := ErrorsIn.succeeds.ends h ho
  rcases succeeds_eq_done.mp hstop with ⟨rfl, _, hstop⟩ | ⟨rfl, _, hstop⟩
  · obtain rfl := stop_ends hstop
    have hget : w.stopped.files.Holds p := hget
    obtain ⟨result, v, hattempt, h⟩ := ErrorsIn.attempt.ends h ho
    rcases attempt_eq_done.mp hattempt with ⟨found, rfl, hrec⟩ | ⟨e, rfl, hrec⟩
    · rcases recoverGeneration_eq_done hget hrec with
        ⟨rfl, hno, rfl⟩ | ⟨r, rfl, hup, hgen, hpend, rfl⟩
      · have hidle : Idle w w.stopped := ⟨rfl, rfl, rfl, rfl, rfl⟩
        exact fallBack_ends hidle rfl hno h ho
      · exact finishRestart_ends hget hup hgen hpend h ho
    · obtain ⟨hno, file, rfl⟩ := recoverGeneration_eq_error hget hrec
      have hidle : Idle w (w.stopped.setCore file) := ⟨rfl, rfl, rfl, rfl, rfl⟩
      exact fallBack_ends hidle rfl hno h ho
  · obtain rfl := stop_ends hstop
    obtain ⟨f, s, -, h, -⟩ := dropCandidate_bind h ho
    cases h
    exact .failed rfl

/-! ## The reload -/

namespace Answers

/-- The new configuration is written and the core is told. -/
def Stages (a : Answers) : Prop := a.stageWrite = .none ∧ a.stageSignal = true

def Healthy (a : Answers) : Prop := a.coreHealthy = true ∧ a.dataPlaneHealthy = true

/-- The stage of a reload fails and leaves the new configuration in place: its
write was reported as failed, or putting the old one back had no effect. -/
inductive Tears (a : Answers) : Prop
  | written (k : Nat) (h : a.stageWrite = .fail (k + 1))
  | unsignalled (hwrite : a.stageWrite = .none) (hsignal : a.stageSignal = false)
      (h : a.restoreWrite = .fail 0)
  | unhealthy (hstages : a.Stages) (hhealth : ¬ a.Healthy) (h : a.rollbackWrite = .fail 0)

end Answers

/-- The checks of the reload up to the write of the configuration. -/
structure Stageable (a : Answers) (w : WorkerApplication Policy) (p : Prepared) (old : Config) :
    Prop where
  sealedFound : a.sealedFound = true
  checks : a.checks = true
  coreRunning : a.coreRunning = true
  sourceValid : a.sourceValid = true
  idle : w.active.bind pendingReload = none
  core : w.files.coreFile = some old
  publishable : Publishable p.config

/-- The core was told to reload `p` and could go back to `old`. -/
def WorkerApplication.staged (w : WorkerApplication Policy) (p : Prepared) (old : Config) :
    WorkerApplication Policy :=
  (w.setCore (some p.config)).setPending (some old)

variable {old : Config}

theorem stageConfig_eq_done (hget : w.files.Holds p)
    (h : stageConfig a p.generation old w = (.done u, w')) :
    Publishable p.config ∧ a.Stages ∧ w' = w.staged p old := by
  obtain ⟨_, v, hwrite, h⟩ := bind_eq_done.mp h
  obtain ⟨c, hget', hc, hφ, rfl⟩ := publishRuntimeConfig_eq_done hwrite
  rw [hget] at hget'
  cases hget'
  cases hsignal : a.stageSignal with
  | true =>
    rw [hsignal] at h
    cases h
    exact ⟨hc, ⟨hφ, hsignal⟩, rfl⟩
  | false =>
    rw [hsignal] at h
    obtain ⟨_, _, _, h⟩ := bind_eq_done.mp h
    cases h

theorem stageConfig_eq_error {e : Unit} (hget : w.files.Holds p)
    (hcore : w.files.coreFile = some old) (h : stageConfig a p.generation old w = (.error e, w')) :
    (Publishable p.config → ¬ a.Stages) ∧ (w' = w ∧ (Publishable p.config → ¬ a.Tears) ∨
        w' = w.setCore (some p.config) ∧ Publishable p.config ∧ a.Tears) := by
  rcases bind_eq_error.mp h with hwrite | ⟨_, v, hwrite, h⟩
  · rcases publishRuntimeConfig_eq_error hwrite with ⟨hno, rfl⟩ | ⟨c, k, hget', hc, hφ, hw⟩
    · exact ⟨fun hc => absurd hc (hno _ hget), .inl ⟨rfl, fun hc => absurd hc (hno _ hget)⟩⟩
    · rw [hget] at hget'
      cases hget'
      have hstages : ¬ a.Stages := fun hs => by rw [hs.1] at hφ; cases hφ
      refine ⟨fun _ => hstages, ?_⟩
      cases k with
      | zero =>
        refine .inl ⟨hw, fun _ htears => ?_⟩
        cases htears with
        | written k h => rw [hφ] at h; cases h
        | unsignalled hwrite => rw [hφ] at hwrite; cases hwrite
        | unhealthy hs => exact hstages hs
      | succ k => exact .inr ⟨hw, hc, .written k hφ⟩
  · obtain ⟨c, hget', hc, hφ, rfl⟩ := publishRuntimeConfig_eq_done hwrite
    rw [hget] at hget'
    cases hget'
    cases hsignal : a.stageSignal with
    | true => rw [hsignal] at h; cases h
    | false =>
      rw [hsignal] at h
      have hstages : ¬ a.Stages := fun hs => by rw [hs.2] at hsignal; cases hsignal
      refine ⟨fun _ => hstages, ?_⟩
      have hback : (w.setCore (some p.config)).setCore (some old) = w := w.setCore_self hcore
      have hkept : a.restoreWrite ≠ .fail 0 → ¬ a.Tears := by
        rintro hne (⟨k, h⟩ | ⟨-, -, h⟩ | ⟨hs, -, -⟩)
        · rw [hφ] at h
          cases h
        · exact hne h
        · exact hstages hs
      obtain ⟨_, v, hrestore, h⟩ := ErrorsIn.ignore.rest h
      cases h
      rcases ignore_eq_done.mp hrestore with ⟨_, h⟩ | ⟨_, h⟩
      · obtain ⟨hr, rfl⟩ := atomicWrite_eq_done.mp h
        exact .inl ⟨hback, fun _ => hkept (by rw [hr]; nofun)⟩
      · obtain ⟨k, hr, rfl⟩ := atomicWrite_eq_error.mp h
        cases k with
        | zero => exact .inr ⟨rfl, hc, .unsignalled hφ hsignal hr⟩
        | succ k => exact .inl ⟨hback, fun _ => hkept (by rw [hr]; nofun)⟩

/-- The files after a rollback to `old`: only a write without effect loses it. -/
def rolledBack (a : Answers) (old : Config) (f : Files) : Files :=
  if a.rollbackWrite = .fail 0 then f else { f with coreFile := some old }

theorem rollbackProcessReload_ends {o : Outcome Unit Unit}
    (hpend : w.active.bind pendingReload = some old)
    (h : rollbackProcessReload a w = (o, w')) (ho : o ≠ .crashed) :
    w' = (w.setPending none).setFiles (rolledBack a old w.files) := by
  unfold rollbackProcessReload at h
  rw [gets_bind_apply, hpend] at h
  change (modify _ >>= _ : Call Policy Unit Unit) w = _ at h
  rw [modify_bind_apply] at h
  rcases bind_ends h ho with ⟨e, rfl, hwrite⟩ | ⟨_, v, hwrite, h⟩
  · obtain ⟨k, hφ, rfl⟩ := atomicWrite_eq_error.mp hwrite
    unfold rolledBack
    rw [hφ]
    cases k <;> rfl
  · obtain ⟨hφ, rfl⟩ := atomicWrite_eq_done.mp hwrite
    unfold rolledBack
    rw [hφ]
    split at h <;> cases h <;> rfl

theorem rollbackReload_ends {o : Outcome RuntimeReloadError Unit}
    (hpend : w.active.bind pendingReload = some old)
    (h : rollbackReload a w = (o, w')) (ho : o ≠ .crashed) :
    w' = (w.setPending none).setFiles (rolledBack a old w.files) := by
  rcases bind_ends h ho with ⟨e, rfl, hback⟩ | ⟨_, v, hback, h⟩
  · obtain ⟨_, -, hback⟩ := mapError_eq_error.mp hback
    exact rollbackProcessReload_ends hpend hback nofun
  · obtain rfl := rollbackProcessReload_ends hpend (mapError_eq_done.mp hback) nofun
    split at h <;> cases h <;> rfl

theorem WorkerApplication.pending_staged (hactive : w.active = some r) :
    (w.staged p old).active.bind pendingReload = some old := by
  unfold staged setPending
  rw [active_modifyActive, active_setCore, hactive]
  rfl

theorem WorkerApplication.setPending_staged (hidle : w.active.bind pendingReload = none) :
    (w.staged p old).setPending none = w.setCore (some p.config) := by
  unfold staged setPending modifyActive setCore
  unfold active at hidle
  cases hrun : w.runtime with
  | none => rfl
  | some runtime =>
    obtain ⟨act, state⟩ := runtime
    rw [hrun] at hidle
    cases act with
    | none => rfl
    | some r =>
      simp [← hidle]

theorem rolledBack_staged (hcore : w.files.coreFile = some old) :
    (w.setCore (some p.config)).setFiles (rolledBack a old (w.staged p old).files) =
      if a.rollbackWrite = .fail 0 then w.setCore (some p.config) else w := by
  unfold rolledBack
  split
  · rfl
  · exact w.setCore_self hcore

variable {e : RuntimeReloadError}

theorem undoStage_ends {error : RuntimeReloadError} (hactive : w.active = some r)
    (hidle : w.active.bind pendingReload = none) (hcore : w.files.coreFile = some old)
    (h : undoStage a error (w.staged p old) = (.error e, w')) : (e = error ∨ e = .rollbackFailed) ∧
      w' = if a.rollbackWrite = .fail 0 then w.setCore (some p.config) else w := by
  have hpend : (w.staged p old).active.bind pendingReload = some old := pending_staged hactive
  obtain ⟨b, v, hback, h⟩ := ErrorsIn.succeeds.rest h
  have hv : v = (w.setCore (some p.config)).setFiles (rolledBack a old (w.staged p old).files) := by
    rw [← setPending_staged hidle]
    rcases succeeds_eq_done.mp hback with ⟨-, _, hback⟩ | ⟨-, _, hback⟩ <;>
      exact rollbackProcessReload_ends hpend hback nofun
  rw [rolledBack_staged hcore] at hv
  cases b with
  | true =>
    cases h
    exact ⟨.inl rfl, hv⟩
  | false =>
    cases h
    exact ⟨.inr rfl, hv⟩

/-- The reload is open to the candidate: same policy, and the core can reload. -/
structure Reloads (a : Answers) (w : WorkerApplication Policy) : Prop where
  policy : w.active.map ActiveRuntime.policy = some w.policy
  supportsReload : a.supportsReload = true

theorem stageProcessReload_ends {o : Outcome Unit Unit} (hfound : a.sealedFound = true)
    (hchecks : a.checks = true) (h : stageProcessReload a p.generation w = (o, w')) :
    (o = .error () ∧ w' = w ∧ (a.supportsReload = true → ∀ old, ¬ Stageable a w p old)) ∨
      ∃ old, w.files.coreFile = some old ∧ (Publishable p.config → Stageable a w p old) ∧
        stageConfig a p.generation old w = (o, w') := by
  unfold stageProcessReload at h
  rw [gets_bind_apply] at h
  split at h
  next hclosed =>
    cases h
    refine .inl ⟨rfl, rfl, fun hsupports old hst => ?_⟩
    rw [hst.idle, hsupports, hst.coreRunning, hst.sourceValid] at hclosed
    cases hclosed
  next hopen =>
  simp only [Bool.or_eq_true, Bool.not_eq_true', not_or, Bool.not_eq_false,
    Option.isSome_iff_ne_none, not_not, ne_eq] at hopen
  obtain ⟨⟨⟨hidle, -⟩, hrunning⟩, hvalid⟩ := hopen
  rw [gets_bind_apply] at h
  cases hcore : w.files.coreFile with
  | none =>
    rw [hcore] at h
    cases h
    refine .inl ⟨rfl, rfl, fun _ old hst => ?_⟩
    rw [hst.core] at hcore
    cases hcore
  | some old =>
    rw [hcore] at h
    exact .inr ⟨old, rfl, fun hc => ⟨hfound, hchecks, hrunning, hvalid, hidle, hcore, hc⟩, h⟩

theorem stageProcessReload_eq_done (hget : w.files.Holds p)
    (hfound : a.sealedFound = true) (hchecks : a.checks = true)
    (h : stageProcessReload a p.generation w = (.done u, w')) :
    ∃ old, Stageable a w p old ∧ a.Stages ∧ w' = w.staged p old := by
  rcases stageProcessReload_ends hfound hchecks h with ⟨ho, -⟩ | ⟨old, -, hst, h⟩
  · cases ho
  · obtain ⟨hc, hstages, rfl⟩ := stageConfig_eq_done hget h
    exact ⟨old, hst hc, hstages, rfl⟩

theorem stageProcessReload_eq_error {e : Unit} (hget : w.files.Holds p)
    (hsupports : a.supportsReload = true) (hfound : a.sealedFound = true)
    (hchecks : a.checks = true) (h : stageProcessReload a p.generation w = (.error e, w')) :
    (∀ old, Stageable a w p old → ¬ a.Stages) ∧ (w' = w ∧ (∀ old, Stageable a w p old → ¬ a.Tears) ∨
        ∃ old, Stageable a w p old ∧ a.Tears ∧ w' = w.setCore (some p.config)) := by
  rcases stageProcessReload_ends hfound hchecks h with ⟨-, rfl, hno⟩ | ⟨old, hcore, hst, h⟩
  · have hno := hno hsupports
    exact ⟨fun old hst => absurd hst (hno old), .inl ⟨rfl, fun old hst => absurd hst (hno old)⟩⟩
  · obtain ⟨hstages, hleft⟩ := stageConfig_eq_error hget hcore h
    refine ⟨fun _ hst => hstages hst.publishable, ?_⟩
    rcases hleft with ⟨hw, htears⟩ | ⟨hw, hc, htears⟩
    · exact .inl ⟨hw, fun _ hst => htears hst.publishable⟩
    · exact .inr ⟨old, hst hc, htears, hw⟩

theorem awaitStaged_eq_done (h : awaitStaged a w = (.done u, w')) : a.Healthy ∧ w' = w := by
  have hundo : ∀ error, undoStage a error w ≠ (.done u, w') := by
    intro error h
    obtain ⟨b, _, _, h⟩ := bind_eq_done.mp h
    cases b <;> cases h
  unfold awaitStaged at h
  split at h
  · exact absurd h (hundo _)
  next hcore =>
    split at h
    · exact absurd h (hundo _)
    next hplane =>
      cases h
      exact ⟨⟨by simpa using hcore, by simpa using hplane⟩, rfl⟩

theorem awaitStaged_eq_error (hactive : w.active = some r)
    (hidle : w.active.bind pendingReload = none) (hcore : w.files.coreFile = some old)
    (h : awaitStaged a (w.staged p old) = (.error e, w')) :
    e ≠ .unsupported ∧ e ≠ .policyChanged ∧ ¬ a.Healthy ∧
      w' = if a.rollbackWrite = .fail 0 then w.setCore (some p.config) else w := by
  unfold awaitStaged at h
  split at h
  next hsick =>
    obtain ⟨he, hw⟩ := undoStage_ends hactive hidle hcore h
    have hsick : ¬ a.Healthy := fun hh => by rw [hh.1] at hsick; cases hsick
    rcases he with rfl | rfl <;> exact ⟨nofun, nofun, hsick, hw⟩
  · split at h
    next hsick =>
      obtain ⟨he, hw⟩ := undoStage_ends hactive hidle hcore h
      have hsick : ¬ a.Healthy := fun hh => by rw [hh.2] at hsick; cases hsick
      rcases he with rfl | rfl
      · exact ⟨nofun, nofun, hsick, hw⟩
      · exact ⟨nofun, nofun, hsick, hw⟩
    · cases h

/-- What a stage that failed leaves when the reload was open: nothing changed, or
the new configuration in the place of the old one. -/
inductive StageFailed (a : Answers) (p : Prepared) (w w' : WorkerApplication Policy) : Prop
  | unchanged (hw : w' = w) (hnot : ∀ old, Stageable a w p old → ¬ a.Tears)
  | torn (old : Config) (hst : Stageable a w p old) (htears : a.Tears)
      (hw : w' = w.setCore (some p.config))

/-- The stage ends with an error that ends the update. -/
structure StageRefused (a : Answers) (p : Prepared) (w : WorkerApplication Policy)
    (e : RuntimeReloadError) (w' : WorkerApplication Policy) : Prop where
  policyChanged : e ≠ .policyChanged
  unsupported : e ≠ .unsupported
  sick : ∀ old, Stageable a w p old → a.Stages → ¬ a.Healthy
  failed : StageFailed a p w w'

theorem StageRefused.of_unstageable (hpolicy : e ≠ .policyChanged) (hsupports : e ≠ .unsupported)
    (hno : ∀ old, ¬ Stageable a w p old) : StageRefused a p w e w where
  policyChanged := hpolicy
  unsupported := hsupports
  sick := fun old hst => absurd hst (hno old)
  failed := .unchanged rfl fun old hst => absurd hst (hno old)

theorem StageRefused.of_stage {e : Unit} (hget : w.files.Holds p)
    (hsupports : a.supportsReload = true) (hfound : a.sealedFound = true)
    (hchecks : a.checks = true) (h : stageProcessReload a p.generation w = (.error e, w')) :
    StageRefused a p w .stage w' := by
  obtain ⟨hstages, hleft⟩ := stageProcessReload_eq_error hget hsupports hfound hchecks h
  refine ⟨nofun, nofun, fun old hst hs => absurd hs (hstages old hst), ?_⟩
  rcases hleft with ⟨hw, hno⟩ | ⟨old, hst, htears, hw⟩
  · exact .unchanged hw hno
  · exact .torn old hst htears hw

theorem StageRefused.of_await (hactive : w.active = some r) (hst : Stageable a w p old)
    (hstages : a.Stages) (h : awaitStaged a (w.staged p old) = (.error e, w')) :
    StageRefused a p w e w' := by
  obtain ⟨hu, hp, hsick, hw⟩ := awaitStaged_eq_error hactive hst.idle hst.core h
  refine ⟨hp, hu, fun _ _ _ => hsick, ?_⟩
  split at hw
  · next hback => exact .torn old hst (.unhealthy hstages hsick hback) hw
  next hback =>
    refine .unchanged hw fun _ _ htears => ?_
    rcases htears with ⟨k, h⟩ | ⟨-, h, -⟩ | ⟨-, -, h⟩
    · rw [hstages.1] at h
      cases h
    · rw [hstages.2] at h
      cases h
    · exact hback h

theorem sealedExists_eq (hget : w.files.Holds p) :
    sealedExists a p.generation w = a.sealedFound := by
  unfold sealedExists
  rw [hget]
  exact Bool.and_true _

theorem stageSealed_eq_done (hget : w.files.Holds p)
    (h : stageSealed a p.generation w = (.done u, w')) :
    ∃ old, Stageable a w p old ∧ a.Stages ∧ a.Healthy ∧ w' = w.staged p old := by
  unfold stageSealed at h
  rw [gets_bind_apply, sealedExists_eq hget] at h
  split at h
  · cases h
  next hfound =>
  split at h
  · cases h
  next hchecks =>
  obtain ⟨_, v, hstage, h⟩ := bind_eq_done.mp h
  obtain ⟨hhealthy, rfl⟩ := awaitStaged_eq_done h
  obtain ⟨old, hst, hstages, hw⟩ := stageProcessReload_eq_done hget (by simpa using hfound)
    (by simpa using hchecks) (mapError_eq_done.mp hstage)
  exact ⟨old, hst, hstages, hhealthy, hw⟩

theorem stageSealed_eq_error (hget : w.files.Holds p) (hsupports : a.supportsReload = true)
    (hactive : w.active = some r) (h : stageSealed a p.generation w = (.error e, w')) :
    StageRefused a p w e w' := by
  unfold stageSealed at h
  rw [gets_bind_apply, sealedExists_eq hget] at h
  split at h
  next hfound =>
    cases h
    refine .of_unstageable nofun nofun fun old hst => ?_
    rw [hst.sealedFound] at hfound
    cases hfound
  next hfound =>
  split at h
  next hchecks =>
    cases h
    refine .of_unstageable nofun nofun fun old hst => ?_
    rw [hst.checks] at hchecks
    cases hchecks
  next hchecks =>
  have hfound : a.sealedFound = true := by simpa using hfound
  have hchecks : a.checks = true := by simpa using hchecks
  rcases bind_eq_error.mp h with hstage | ⟨_, v, hstage, h⟩
  · obtain ⟨_, rfl, hfails⟩ := mapError_eq_error.mp hstage
    exact .of_stage hget hsupports hfound hchecks hfails
  · obtain ⟨old, hst, hstages, rfl⟩ := stageProcessReload_eq_done hget hfound hchecks
      (mapError_eq_done.mp hstage)
    exact .of_await hactive hst hstages h

section

variable [DecidableEq Policy] {g : GenerationId}

theorem stageReload_apply (h : Reloads a w) : stageReload a g w = stageSealed a g w := by
  unfold stageReload
  rw [gets_bind_apply, decide_eq_true h.policy, h.supportsReload]
  rfl

theorem stageReload_closed (h : ¬ Reloads a w) :
    ∃ e, (e = .policyChanged ∨ e = .unsupported) ∧ stageReload a g w = (.error e, w) := by
  unfold stageReload
  rw [gets_bind_apply]
  by_cases hpolicy : w.active.map ActiveRuntime.policy = some w.policy
  · have hsupports : a.supportsReload = false := by
      by_contra hopen
      exact h ⟨hpolicy, Bool.not_eq_false _ ▸ hopen⟩
    rw [decide_eq_true hpolicy, hsupports]
    exact ⟨_, .inr rfl, rfl⟩
  · rw [decide_eq_false hpolicy]
    exact ⟨_, .inl rfl, rfl⟩

end

/-- How a staged reload that was not killed ended. -/
inductive ReloadEnds (a : Answers) (p : Prepared) (old : Config) (r : ActiveRuntime Policy)
    (f : Files) (w' : WorkerApplication Policy) : Prop
  | undone (hmatch : a.matchesStaged = false) (hactive : w'.active = some r)
      (hfiles : Dropped p (rolledBack a old { f with coreFile := some p.config }) w'.files)
  | committed (hmatch : a.matchesStaged = true) (hcommit : a.commit = .none)
      (hactive : w'.active = some { r with generation := p.generation, pendingReload := none })
      (hfiles : w'.files =
        { f with coreFile := some p.config, current := some p.generation })
  | refused (k : Nat) (hmatch : a.matchesStaged = true) (hcommit : a.commit = .fail k)
      (hactive : w'.active = some r) (f' : Files)
      (hdropped : Dropped p { f with
        coreFile := some p.config
        current := if k = 0 then f.current else some p.generation } f')
      (hfiles : w'.files = rolledBack a old f')

theorem commitReload_apply {g : GenerationId} (hpend : w.active.bind pendingReload = some old) :
    commitReload g w = (.done (), w.modifyActive fun r =>
      { r with pendingReload := none, generation := g }) := by
  unfold commitReload
  rw [gets_bind_apply, hpend]
  rfl

theorem recordReload_ends (h : recordReload accounting p w = (o, w')) (ho : o ≠ .crashed) :
    w'.active = w.active ∧ w'.files = w.files := by
  unfold recordReload at h
  rw [modify_bind_apply, gets_bind_apply] at h
  obtain ⟨s, h, -⟩ := publishBuildStatus_bind h
  cases h
  exact ⟨rfl, rfl⟩

theorem finishReload_ends (hactive : w.active = some r)
    (hidle : w.active.bind pendingReload = none)
    (h : finishReload a accounting p (w.staged p old) = (o, w')) (ho : o ≠ .crashed) :
    ReloadEnds a p old r w.files w' := by
  have hpend : (w.staged p old).active.bind pendingReload = some old := pending_staged hactive
  have hforget : ((w.staged p old).setPending none).active = some r := by
    rw [setPending_staged hidle]
    exact hactive
  unfold finishReload at h
  cases hmatch : a.matchesStaged with
  | false =>
    rw [hmatch] at h
    obtain ⟨_, v, hback, h⟩ := ErrorsIn.ignore.ends h ho
    have hv : v = ((w.staged p old).setPending none).setFiles
        (rolledBack a old (w.staged p old).files) := by
      rcases ignore_eq_done.mp hback with ⟨_, hback⟩ | ⟨_, hback⟩ <;>
        exact rollbackReload_ends hpend hback nofun
    subst hv
    obtain ⟨-, f, s, hf, rfl, -⟩ := dropCandidate_ends h ho
    exact .undone hmatch hforget hf
  | true =>
    rw [hmatch] at h
    obtain ⟨b, v, hcommit, h⟩ := ErrorsIn.succeeds.ends h ho
    rcases succeeds_eq_done.mp hcommit with ⟨rfl, _, hcommit⟩ | ⟨rfl, _, hcommit⟩
    · obtain ⟨hφ, rfl⟩ := commitUpdate_eq_done hcommit
      obtain ⟨b, v, hreload, h⟩ := ErrorsIn.succeeds.ends h ho
      have hpend : ((w.staged p old).setCurrent p.generation).active.bind
          pendingReload = some old := hpend
      rcases succeeds_eq_done.mp hreload with ⟨rfl, _, hdone⟩ | ⟨rfl, _, herror⟩
      · cases (commitReload_apply hpend).symm.trans hdone
        obtain ⟨hruns, hfiles⟩ := recordReload_ends h ho
        refine .committed hmatch hφ ?_ hfiles
        rw [hruns]
        simp [staged, setPending, hactive]
      · cases (commitReload_apply hpend).symm.trans herror
    · obtain ⟨k, f, hφ, hf, rfl⟩ := commitUpdate_eq_error hcommit
      obtain ⟨b, v, hback, h⟩ := ErrorsIn.succeeds.ends h ho
      have hpend : ((w.staged p old).setFiles f).active.bind pendingReload = some old := hpend
      have hv : v = ((w.staged p old).setPending none).setFiles (rolledBack a old f) := by
        rcases succeeds_eq_done.mp hback with ⟨-, _, hback⟩ | ⟨-, _, hback⟩ <;>
          exact rollbackReload_ends hpend hback nofun
      subst hv
      obtain ⟨s, h, -⟩ := publishBuildStatus_bind h
      -- The outcome tells whether the rollback succeeded; the state is the same.
      have hend : w' = (((w.staged p old).setPending none).setFiles
          (rolledBack a old f)).setSnapshot s := by
        cases b <;> cases h <;> rfl
      subst hend
      refine .refused k hmatch hφ hforget f ?_ rfl
      cases k with
      | zero | succ k => exact hf

/-! ## The update -/

structure Applies (a : Answers) (w : WorkerApplication Policy) (p : Prepared) : Prop where
  prepared : a.prepare = some p
  fresh : w.files.generations.get p.generation = none
  serviceEnabled : a.serviceEnabled = true
  isCurrent : a.isCurrent = true
  matchesBefore : a.matchesBefore = true
  wet : w.dryRun = false

theorem WorkerApplication.get_addSealed (w : WorkerApplication Policy) (p : Prepared) :
    (w.addSealed p).files.Holds p := by
  change (w.files.generations.set _ _).get _ = _
  rw [Dir.get_set, if_pos rfl]

theorem Applies.unique {q : Prepared} (h : Applies a w p) (h' : Applies a w q) : q = p :=
  Option.some.inj (h'.prepared.symm.trans h.prepared)

/-- The runtime and its files stay, beside generations that were not there before. -/
structure Quiet (w w' : WorkerApplication Policy) : Prop where
  active : w'.active = w.active
  coreFile : w'.files.coreFile = w.files.coreFile
  current : w'.files.current = w.files.current
  sealed : ∀ g c, w.files.generations.get g = some c → w'.files.generations.get g = some c

theorem Quiet.of_dropped {f : Files} (hfresh : w.files.generations.get p.generation = none)
    (hf : Dropped p (w.addSealed p).files f) (hactive : w'.active = w.active)
    (hfiles : w'.files = f) : Quiet w w' := by
  have hne : ∀ g c, w.files.generations.get g = some c → g ≠ p.generation := by
    rintro g c hget rfl
    rw [hfresh] at hget
    cases hget
  subst hfiles
  rcases hf with hf | ⟨-, hf⟩
  · refine ⟨hactive, by rw [hf]; rfl, by rw [hf]; rfl, fun g c hget => ?_⟩
    rw [hf]
    change (w.files.generations.set _ _).get _ = _
    rw [Dir.get_set, if_neg (hne g c hget), hget]
  · refine ⟨hactive, by rw [hf]; rfl, by rw [hf]; rfl, fun g c hget => ?_⟩
    rw [hf]
    change ((w.files.generations.set _ _).del _).get _ = _
    rw [Dir.get_del, if_neg (hne g c hget), Dir.get_set, if_neg (hne g c hget), hget]

/-- How an update that was not killed ended. -/
inductive UpdateEnds (a : Answers) (w w' : WorkerApplication Policy)
    (o : Outcome WorkerServiceError Unit) : Prop
  | quiet (h : Quiet w w') (hnot : ∀ p, ¬ Applies a w p)
  | restarted (p : Prepared) (happ : Applies a w p)
      (hnot : ¬ (p.exposesSealed = true ∧ Reloads a w))
      (h : RestartEnds a p (w.addSealed p) w' o)
  | unstaged (p : Prepared) (happ : Applies a w p) (hexp : p.exposesSealed = true)
      (hrel : Reloads a w) (e : RuntimeReloadError) (v : WorkerApplication Policy)
      (hrefused : StageRefused a p (w.addSealed p) e v)
      (hactive : w'.active = v.active) (hfiles : Dropped p v.files w'.files)
  | reloaded (p : Prepared) (happ : Applies a w p) (hexp : p.exposesSealed = true)
      (hrel : Reloads a w) (old : Config) (hst : Stageable a (w.addSealed p) p old)
      (hstages : a.Stages) (hhealthy : a.Healthy) (r : ActiveRuntime Policy)
      (hactive : w.active = some r) (h : ReloadEnds a p old r (w.addSealed p).files w')

theorem dryUpdate_quiet (hfresh : w.files.generations.get p.generation = none)
    (h : dryUpdate a accounting p (w.addSealed p) = (o, w')) (ho : o ≠ .crashed) :
    Quiet w w' := by
  obtain ⟨b, v, hdiscard, h⟩ := ErrorsIn.succeeds.ends h ho
  have hdrop : ∃ f, Dropped p (w.addSealed p).files f ∧ v = (w.addSealed p).setFiles f := by
    rcases succeeds_eq_done.mp hdiscard with ⟨-, _, hdiscard⟩ | ⟨-, _, hdiscard⟩ <;>
      exact discardUpdate_ends hdiscard
  obtain ⟨f, hf, rfl⟩ := hdrop
  obtain ⟨s, h, -⟩ := publishBuildStatus_bind h
  have hend : w' = ((w.addSealed p).setFiles f).setSnapshot s := by
    cases b <;> cases h <;> rfl
  subst hend
  exact .of_dropped hfresh hf rfl rfl

section

variable [DecidableEq Policy]

theorem reloadUpdate_ends (happ : Applies a w p) (hexp : p.exposesSealed = true)
    (h : reloadUpdate a now accounting p (w.addSealed p) = (o, w')) (ho : o ≠ .crashed) :
    UpdateEnds a w w' o := by
  unfold reloadUpdate at h
  rw [gets_bind_apply] at h
  have hget : (w.addSealed p).files.Holds p := w.get_addSealed p
  cases hactive : w.active with
  | none =>
    have hno : (w.addSealed p).active = none := hactive
    rw [hno] at h
    cases h
    exact absurd rfl ho
  | some r =>
    have hr : (w.addSealed p).active = some r := hactive
    rw [hr] at h
    obtain ⟨result, v, hattempt, h⟩ := ErrorsIn.attempt.ends h ho
    by_cases hrel : Reloads a (w.addSealed p)
    · have hopen : Reloads a w := ⟨hrel.policy, hrel.supportsReload⟩
      rcases attempt_eq_done.mp hattempt with ⟨_, rfl, hstage⟩ | ⟨e, rfl, hstage⟩
      · rw [stageReload_apply hrel] at hstage
        obtain ⟨old, hst, hstages, hhealthy, rfl⟩ := stageSealed_eq_done hget hstage
        exact .reloaded p happ hexp hopen old hst hstages hhealthy r hactive
          (finishReload_ends hr hst.idle h ho)
      · rw [stageReload_apply hrel] at hstage
        have hrefused := stageSealed_eq_error hget hrel.supportsReload hr hstage
        have hdrop : dropCandidate a accounting p v = (o, w') := by
          cases e with
          | unsupported => exact absurd rfl hrefused.unsupported
          | policyChanged => exact absurd rfl hrefused.policyChanged
          | _ => exact h
        obtain ⟨-, f, s, hf, rfl, -⟩ := dropCandidate_ends hdrop ho
        exact .unstaged p happ hexp hopen e v hrefused rfl hf
    · -- A refused policy or core sends the update to the restart.
      obtain ⟨e, he, hclosed⟩ := @stageReload_closed _ _ _ _ p.generation hrel
      cases (attempt_of_error hclosed).symm.trans hattempt
      have hrestart : restartUpdate a now accounting p (w.addSealed p) = (o, w') := by
        rcases he with rfl | rfl
        · exact h
        · exact h
      exact .restarted p happ (fun hboth => hrel ⟨hboth.2.policy, hboth.2.supportsReload⟩)
        (restartUpdate_ends hget hrestart ho)

theorem applyUpdate_ends (hprep : a.prepare = some p)
    (hfresh : w.files.generations.get p.generation = none) (henabled : a.serviceEnabled = true)
    (hcurrent : a.isCurrent = true) (hmatch : a.matchesBefore = true)
    (h : applyUpdate a now accounting p (w.addSealed p) = (o, w')) (ho : o ≠ .crashed) :
    UpdateEnds a w w' o := by
  unfold applyUpdate at h
  rw [gets_bind_apply, gets_bind_apply] at h
  have hdryRun : (w.addSealed p).dryRun = w.dryRun := rfl
  rw [hdryRun] at h
  cases hdry : w.dryRun with
  | true =>
    rw [hdry] at h
    refine .quiet (dryUpdate_quiet hfresh h ho) fun q hq => ?_
    rw [hq.wet] at hdry
    cases hdry
  | false =>
    rw [hdry, if_neg Bool.false_ne_true] at h
    have happ : Applies a w p := ⟨hprep, hfresh, henabled, hcurrent, hmatch, hdry⟩
    split at h
    · next hreload => exact reloadUpdate_ends happ (Bool.and_eq_true_iff.mp hreload).1 h ho
    next hrestart =>
      refine .restarted p happ (fun hboth => hrestart ?_)
        (restartUpdate_ends (w.get_addSealed p) h ho)
      rw [hboth.1]
      have hpolicy := hboth.2.policy
      unfold active at hpolicy
      change w.runtime.isSome = true
      cases hrun : w.runtime with
      | none => rw [hrun] at hpolicy; cases hpolicy
      | some runtime => rfl

theorem updateInner_ends (hrun : updateInner a now accounting w = (o, w')) (ho : o ≠ .crashed) :
    UpdateEnds a w w' o := by
  obtain ⟨result, v, hattempt, h⟩ := ErrorsIn.attempt.ends hrun ho
  rcases attempt_eq_done.mp hattempt with ⟨p, rfl, hprep⟩ | ⟨e, rfl, hprep⟩
  · obtain ⟨hp, hfresh, rfl⟩ := prepareUpdate_eq_done hprep
    change (if _ then _ else _ : Service Policy Unit) _ = _ at h
    split at h
    next hsuperseded =>
      obtain ⟨_, v, hdiscard, h⟩ := ErrorsIn.ignore.ends h ho
      obtain ⟨f, hf, rfl⟩ := ignore_discardUpdate_ends hdiscard
      cases h
      refine .quiet (.of_dropped hfresh hf rfl rfl) fun q hq => ?_
      rw [hq.serviceEnabled, hq.isCurrent] at hsuperseded
      cases hsuperseded
    next hopen =>
      split at h
      next hchanged =>
        obtain ⟨-, f, s, hf, rfl, -⟩ := dropCandidate_ends h ho
        refine .quiet (.of_dropped hfresh hf rfl rfl) fun q hq => ?_
        rw [hq.matchesBefore] at hchanged
        cases hchanged
      next hmatch =>
        simp only [Bool.or_eq_true, Bool.not_eq_true', not_or, Bool.not_eq_false] at hopen
        exact applyUpdate_ends hp hfresh hopen.1 hopen.2 (by simpa using hmatch) h ho
  · obtain ⟨htaken, rfl⟩ := prepareUpdate_eq_error hprep
    obtain ⟨-, s, rfl, -⟩ := publishBuildStatus_ends h
    refine .quiet ⟨rfl, rfl, rfl, fun _ _ hget => hget⟩ fun q hq => ?_
    have := htaken q hq.prepared
    rw [hq.fresh] at this
    cases this

end

end NetHop.Worker
