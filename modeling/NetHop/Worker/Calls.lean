import NetHop.Worker.Application

/-!
# What the calls of an update do

One lemma for each way a call of `update_inner` can end: the answers it ends so
on and the state it leaves.  A call that is killed ends the worker, so only the
calls that return or report an error are described.
-/

namespace NetHop.Worker

open FaultIo Generation Io WorkerApplication

variable {Policy : Type} {a : Answers} {p : Prepared} {g : GenerationId}
  {w w' : WorkerApplication Policy}

/-- `publish_runtime_config` accepts the bytes. -/
def Publishable (c : Config) : Prop := c ≠ [] ∧ c.length ≤ maxRuntimeConfigBytes

instance (c : Config) : Decidable (Publishable c) := inferInstanceAs (Decidable (_ ∧ _))

namespace WorkerApplication

variable (w) (file : Option Config)

def setFiles (f : Files) : WorkerApplication Policy := { w with files := f }

def setSnapshot (s : ControlSnapshot) : WorkerApplication Policy := { w with snapshot := s }

@[simp] theorem active_setCore : (w.setCore file).active = w.active := rfl

@[simp] theorem active_setCurrent : (w.setCurrent g).active = w.active := rfl

@[simp] theorem active_modifyActive (f : ActiveRuntime Policy → ActiveRuntime Policy) :
    (w.modifyActive f).active = w.active.map f := by
  unfold active modifyActive
  cases w.runtime <;> rfl

theorem setCore_self {c : Option Config} (h : w.files.coreFile = c) : w.setCore c = w := by
  rw [← h]
  rfl

end WorkerApplication

/-! ## The core process -/

variable {u : Unit} {φ : Fault} {c : Config}

@[simp] theorem atomicWrite_eq_done :
    atomicWrite φ c w = (.done u, w') ↔ φ = .none ∧ w' = w.setCore (some c) := by
  unfold atomicWrite
  rw [step_eq_done]
  simp

variable {e : Unit}

@[simp] theorem atomicWrite_eq_error : atomicWrite φ c w = (.error e, w') ↔
      ∃ k, φ = .fail k ∧ w' = if k = 0 then w else w.setCore (some c) := by
  unfold atomicWrite
  rw [step_single_eq_error]
  simp

theorem not_publishable_iff (c : Config) :
    (c.isEmpty || decide (maxRuntimeConfigBytes < c.length)) = true ↔ ¬ Publishable c := by
  unfold Publishable
  rw [Bool.or_eq_true, List.isEmpty_iff, decide_eq_true_eq, not_and_or, not_not, Nat.not_le]

theorem publishRuntimeConfig_apply (hget : w.files.generations.get g = some c)
    (hc : Publishable c) : publishRuntimeConfig φ g w = atomicWrite φ c w := by
  unfold publishRuntimeConfig
  rw [gets_bind_apply, hget]
  change (if _ then _ else _ : Call Policy Unit Unit) w = _
  rw [if_neg fun h => (not_publishable_iff c).mp h hc]

theorem publishRuntimeConfig_refused
    (h : ∀ c, w.files.generations.get g = some c → ¬ Publishable c) :
    publishRuntimeConfig φ g w = (.error (), w) := by
  unfold publishRuntimeConfig
  rw [gets_bind_apply]
  cases hget : w.files.generations.get g with
  | none => rfl
  | some c =>
    change (if _ then _ else _ : Call Policy Unit Unit) w = _
    rw [if_pos ((not_publishable_iff c).mpr (h c hget))]
    rfl

theorem publishRuntimeConfig_eq_done (h : publishRuntimeConfig φ g w = (.done u, w')) :
    ∃ c, w.files.generations.get g = some c ∧ Publishable c ∧ φ = .none ∧
      w' = w.setCore (some c) := by
  by_cases hex : ∃ c, w.files.generations.get g = some c ∧ Publishable c
  · obtain ⟨c, hget, hc⟩ := hex
    rw [publishRuntimeConfig_apply hget hc, atomicWrite_eq_done] at h
    exact ⟨c, hget, hc, h⟩
  · rw [publishRuntimeConfig_refused fun c hget hc => hex ⟨c, hget, hc⟩] at h
    cases h

theorem publishRuntimeConfig_eq_error (h : publishRuntimeConfig φ g w = (.error e, w')) :
    (∀ c, w.files.generations.get g = some c → ¬ Publishable c) ∧ w' = w ∨
      ∃ c k, w.files.generations.get g = some c ∧ Publishable c ∧ φ = .fail k ∧
        w' = if k = 0 then w else w.setCore (some c) := by
  by_cases hex : ∃ c, w.files.generations.get g = some c ∧ Publishable c
  · obtain ⟨c, hget, hc⟩ := hex
    rw [publishRuntimeConfig_apply hget hc, atomicWrite_eq_error] at h
    obtain ⟨k, hk, hw⟩ := h
    exact .inr ⟨c, k, hget, hc, hk, hw⟩
  · have hno : ∀ c, w.files.generations.get g = some c → ¬ Publishable c :=
      fun c hget hc => hex ⟨c, hget, hc⟩
    rw [publishRuntimeConfig_refused hno] at h
    cases h
    exact .inl ⟨hno, rfl⟩

/-- What `recover_sealed` needs of the answers to bring up a core on `c`. -/
structure Launch.BringsUp (l : Launch) (c : Config) : Prop where
  ready : l.ready = true
  publishable : Publishable c
  written : l.write = .none
  comesUp : l.comesUp = true

variable {l : Launch}

theorem recoverSealed_eq_done {r : ActiveRuntime Policy}
    (h : recoverSealed l g w = (.done r, w')) :
    ∃ c, w.files.generations.get g = some c ∧ l.BringsUp c ∧
      r = ⟨g, l.attachedAs, w.policy, none⟩ ∧ w' = w.setCore (some c) := by
  unfold recoverSealed at h
  cases hready : l.ready with
  | false => rw [hready] at h; cases h
  | true =>
    rw [hready, if_pos rfl, bind_eq_done] at h
    obtain ⟨_, v, hwrite, h⟩ := h
    obtain ⟨c, hget, hc, hφ, rfl⟩ := publishRuntimeConfig_eq_done hwrite
    cases hup : l.comesUp with
    | false => rw [hup] at h; cases h
    | true =>
      rw [hup] at h
      cases h
      exact ⟨c, hget, ⟨hready, hc, hφ, hup⟩, rfl, rfl⟩

theorem recoverSealed_eq_error (h : recoverSealed l g w = (.error e, w')) :
    (∀ c, w.files.generations.get g = some c → ¬ l.BringsUp c) ∧ ∃ file, w' = w.setCore file := by
  unfold recoverSealed at h
  cases hready : l.ready with
  | false =>
    rw [hready] at h
    cases h
    refine ⟨fun c _ hl => ?_, _, rfl⟩
    rw [hl.ready] at hready
    cases hready
  | true =>
    rw [hready, if_pos rfl, bind_eq_error] at h
    rcases h with hwrite | ⟨_, v, hwrite, h⟩
    · rcases publishRuntimeConfig_eq_error hwrite with ⟨hno, rfl⟩ | ⟨c, k, _, _, hφ, hw⟩
      · exact ⟨fun c hget hl => hno c hget hl.publishable, _, rfl⟩
      · refine ⟨fun c _ hl => ?_, ?_⟩
        · rw [hl.written] at hφ
          cases hφ
        · split at hw
          · exact ⟨_, hw⟩
          · exact ⟨_, hw⟩
    · obtain ⟨c, _, _, _, rfl⟩ := publishRuntimeConfig_eq_done hwrite
      refine ⟨fun c _ hl => ?_, ?_⟩
      · rw [hl.comesUp] at h
        cases h
      · split at h
        · cases h
        · cases h
          exact ⟨_, rfl⟩

variable {found : Option (ActiveRuntime Policy)}

theorem recover_eq_done (h : recover (some l) w = (.done found, w')) :
    (found = none ∧ w.files.current = none ∧ w' = w) ∨
      ∃ r c, found = some r ∧ r.pendingReload = none ∧ w.files.current = some r.generation ∧
        w.files.generations.get r.generation = some c ∧ w' = w.setCore (some c) := by
  change (if l.found = true then _ else _ : Call Policy Unit _) w = _ at h
  split at h
  · rw [gets_bind_apply] at h
    cases hcur : w.files.current with
    | none =>
      rw [hcur] at h
      cases h
      exact .inl ⟨rfl, rfl, rfl⟩
    | some g =>
      rw [hcur] at h
      obtain ⟨r, v, hr, hpure⟩ := bind_eq_done.mp h
      cases hpure
      obtain ⟨c, hget, -, rfl, rfl⟩ := recoverSealed_eq_done hr
      exact .inr ⟨_, c, rfl, rfl, rfl, hget, rfl⟩
  · cases h

theorem recover_eq_error (h : recover (some l) w = (.error e, w')) :
    ∃ file, w' = w.setCore file := by
  change (if l.found = true then _ else _ : Call Policy Unit _) w = _ at h
  split at h
  · rw [gets_bind_apply] at h
    cases hcur : w.files.current with
    | none => rw [hcur] at h; cases h
    | some g =>
      rw [hcur] at h
      rcases bind_eq_error.mp h with hr | ⟨_, _, _, hpure⟩
      · exact (recoverSealed_eq_error hr).2
      · cases hpure
  · cases h
    exact ⟨_, rfl⟩

/-- `recover_generation` brings up a core on `c`. -/
def Answers.BringsUp (a : Answers) (c : Config) : Prop :=
  ∃ l, a.recoverGeneration = some l ∧ l.found = true ∧ l.BringsUp c

theorem recoverGeneration_eq_done (hget : w.files.generations.get g = some c)
    (h : recoverGeneration a.recoverGeneration g w = (.done found, w')) :
    (found = none ∧ ¬ a.BringsUp c ∧ w' = w) ∨
      ∃ r, found = some r ∧ a.BringsUp c ∧ r.generation = g ∧ r.pendingReload = none ∧
        w' = w.setCore (some c) := by
  cases hl : a.recoverGeneration with
  | none =>
    rw [hl] at h
    cases h
    refine .inl ⟨rfl, ?_, rfl⟩
    rintro ⟨l, hl', -⟩
    rw [hl] at hl'
    cases hl'
  | some l =>
    rw [hl] at h
    change (if l.found = true then _ else _ : Call Policy Unit _) w = _ at h
    split at h
    next hfound =>
      obtain ⟨r, v, hr, hpure⟩ := bind_eq_done.mp h
      cases hpure
      obtain ⟨c', hget', hup, rfl, rfl⟩ := recoverSealed_eq_done hr
      rw [hget] at hget'
      cases hget'
      exact .inr ⟨_, rfl, ⟨l, hl, hfound, hup⟩, rfl, rfl, rfl⟩
    · cases h

theorem recoverGeneration_eq_error (hget : w.files.generations.get g = some c)
    (h : recoverGeneration a.recoverGeneration g w = (.error e, w')) :
    ¬ a.BringsUp c ∧ ∃ file, w' = w.setCore file := by
  cases hl : a.recoverGeneration with
  | none => rw [hl] at h; cases h
  | some l =>
    rw [hl] at h
    change (if l.found = true then _ else _ : Call Policy Unit _) w = _ at h
    split at h
    next hfound =>
      rcases bind_eq_error.mp h with hr | ⟨_, _, _, hpure⟩
      · obtain ⟨hno, hfile⟩ := recoverSealed_eq_error hr
        refine ⟨?_, hfile⟩
        rintro ⟨l', hl', -, hup⟩
        rw [hl] at hl'
        cases hl'
        exact hno c hget hup
      · cases hpure
    next hfound =>
      cases h
      refine ⟨?_, _, rfl⟩
      rintro ⟨l', hl', hfound', -⟩
      rw [hl] at hl'
      cases hl'
      exact hfound hfound'

/-! ## The updater -/

theorem prepareUpdate_eq_done (h : prepareUpdate a w = (.done p, w')) :
    a.prepare = some p ∧ w.files.generations.get p.generation = none ∧ w' = w.addSealed p := by
  unfold prepareUpdate at h
  cases hp : a.prepare with
  | none => rw [hp] at h; cases h
  | some q =>
    simp only [hp, gets_bind_apply] at h
    split at h
    · cases h
    next hget =>
      cases h
      exact ⟨rfl, by simpa using hget, rfl⟩

theorem prepareUpdate_eq_error (h : prepareUpdate a w = (.error e, w')) :
    (∀ q, a.prepare = some q → (w.files.generations.get q.generation).isSome) ∧ w' = w := by
  unfold prepareUpdate at h
  cases hp : a.prepare with
  | none =>
    rw [hp] at h
    cases h
    exact ⟨nofun, rfl⟩
  | some q =>
    simp only [hp, gets_bind_apply] at h
    split at h
    next hget =>
      cases h
      exact ⟨fun _ hq => Option.some_inj.mp hq ▸ hget, rfl⟩
    · cases h

/-- The candidate was dropped, or it is still there. -/
def Dropped (p : Prepared) (f f' : Files) : Prop :=
  f' = f ∨ f.current ≠ some p.generation ∧
    f' = { f with generations := f.generations.del p.generation }

theorem Dropped.current {f f' : Files} (h : Dropped p f f') : f'.current = f.current := by
  rcases h with rfl | ⟨-, rfl⟩ <;> rfl

theorem discardUpdate_ends {o : Outcome Unit Unit} (h : discardUpdate a p w = (o, w')) :
    ∃ f, Dropped p w.files f ∧ w' = w.setFiles f := by
  have hend : w' = (discardUpdate a p w).2 := by rw [h]
  unfold discardUpdate at hend
  rw [step_snd] at hend
  by_cases hcur : w.files.current = some p.generation
  · rw [if_pos hcur] at hend
    exact ⟨_, .inl rfl, hend⟩
  · rw [if_neg hcur] at hend
    change w' = applyAll ([dropSealed p].take (a.discard.applied 1)) w at hend
    cases hk : a.discard.applied 1 with
    | zero =>
      rw [hk] at hend
      exact ⟨_, .inl rfl, hend⟩
    | succ k =>
      rw [hk, List.take_of_length_le (by simp)] at hend
      exact ⟨_, .inr ⟨hcur, rfl⟩, hend⟩

theorem ignore_discardUpdate_ends {ε : Type}
    (h : (Io.ignore (discardUpdate a p) : Call Policy ε Unit) w = (.done u, w')) :
    ∃ f, Dropped p w.files f ∧ w' = w.setFiles f := by
  rcases ignore_eq_done.mp h with ⟨_, h⟩ | ⟨_, h⟩ <;> exact discardUpdate_ends h

theorem commitUpdate_eq_done (h : commitUpdate a p w = (.done u, w')) :
    a.commit = .none ∧ w' = w.setCurrent p.generation := by
  obtain ⟨b, v, hswitch, h⟩ := bind_eq_done.mp h
  rcases succeeds_eq_done.mp hswitch with ⟨rfl, _, hstep⟩ | ⟨rfl, _, hstep⟩
  · cases h
    obtain ⟨hφ, fs, hfs, rfl⟩ := step_eq_done.mp hstep
    cases hfs
    exact ⟨hφ, rfl⟩
  · obtain ⟨_, _, _, h⟩ := bind_eq_done.mp h
    cases h

theorem commitUpdate_eq_error (h : commitUpdate a p w = (.error e, w')) :
    ∃ k f, a.commit = .fail k ∧
      Dropped p (if k = 0 then w else w.setCurrent p.generation).files f ∧ w' = w.setFiles f := by
  obtain ⟨b, v, hswitch, h⟩ := ErrorsIn.succeeds.rest h
  rcases succeeds_eq_done.mp hswitch with ⟨rfl, _, hstep⟩ | ⟨rfl, _, hstep⟩
  · cases h
  · obtain ⟨-, k, hk, hv⟩ := step_single_eq_error.mp hstep
    obtain ⟨_, u, hdiscard, h⟩ := ErrorsIn.ignore.rest h
    cases h
    obtain ⟨f, hf, rfl⟩ := ignore_discardUpdate_ends hdiscard
    refine ⟨k, f, hk, hv ▸ hf, ?_⟩
    rw [hv]
    split <;> rfl

/-! ## Snapshots, starting and stopping -/

variable {accounting : GenerationBuildAccounting} {o : Outcome WorkerServiceError Unit}

theorem publishBuildStatus_ends {status : UpdateStatus}
    (h : publishBuildStatus accounting status w = (o, w')) :
    o = .done () ∧ ∃ s, w' = w.setSnapshot s ∧ (w.runtime = none → s.state = w.snapshot.state) := by
  cases accounting with
  | cachedRebuild =>
    cases h
    exact ⟨rfl, _, rfl, fun _ => rfl⟩
  | subscriptionRefresh =>
    cases h
    refine ⟨rfl, _, rfl, fun hnone => ?_⟩
    rw [hnone]
    rfl

variable {next : Unit → Service Policy Unit}

theorem publishBuildStatus_bind {status : UpdateStatus}
    (h : (publishBuildStatus accounting status >>= next) w = (o, w')) :
    ∃ s, next () (w.setSnapshot s) = (o, w') ∧
      (w.runtime = none → s.state = w.snapshot.state) := by
  rcases hstatus : publishBuildStatus accounting status w with ⟨o', v⟩
  obtain ⟨rfl, s, rfl, hs⟩ := publishBuildStatus_ends hstatus
  rw [bind_of_done hstatus] at h
  exact ⟨s, h, hs⟩

theorem dropCandidate_ends (h : dropCandidate a accounting p w = (o, w')) (ho : o ≠ .crashed) :
    o = .done () ∧ ∃ f s, Dropped p w.files f ∧ w' = (w.setFiles f).setSnapshot s ∧
      (w.runtime = none → s.state = w.snapshot.state) := by
  obtain ⟨_, v, hdiscard, h⟩ := ErrorsIn.ignore.ends h ho
  obtain ⟨f, hf, rfl⟩ := ignore_discardUpdate_ends hdiscard
  obtain ⟨ho, s, rfl, hs⟩ := publishBuildStatus_ends h
  exact ⟨ho, f, s, hf, rfl, hs⟩

theorem dropCandidate_bind (h : (dropCandidate a accounting p >>= next) w = (o, w'))
    (ho : o ≠ .crashed) :
    ∃ f s, Dropped p w.files f ∧ next () ((w.setFiles f).setSnapshot s) = (o, w') ∧
      (w.runtime = none → s.state = w.snapshot.state) := by
  rcases bind_ends h ho with ⟨e, rfl, hdrop⟩ | ⟨_, v, hdrop, h⟩
  · cases (dropCandidate_ends hdrop nofun).1
  · obtain ⟨-, f, s, hf, rfl, hs⟩ := dropCandidate_ends hdrop nofun
    exact ⟨f, s, hf, h, hs⟩

/-- What `start` leaves: a core on the current generation, or a reason why not. -/
inductive Started (w : WorkerApplication Policy) : Prop
  | up (r : ActiveRuntime Policy) (c : Config) (hactive : w.active = some r)
      (hpending : r.pendingReload = none) (hcurrent : w.files.current = some r.generation)
      (hsealed : w.files.generations.get r.generation = some c)
      (hcore : w.files.coreFile = some c)
  | down (hactive : w.active = none)
      (hreason : w.restartAt.isSome ∨ w.snapshot.state = .circuitOpen ∨ w.files.current = none)

variable {now : Nat}

theorem registerStartFailure_ends (hnone : w.runtime = none)
    (h : registerStartFailure now w = (o, w')) : o = .done () ∧ Started w' := by
  unfold registerStartFailure at h
  rw [gets_bind_apply] at h
  rcases hb : w.restartBudget.registerFailure now with ⟨decision, budget⟩
  rw [hb] at h
  cases decision with
  | retryAfter delay =>
    cases h
    exact ⟨rfl, .down (by simp [active, hnone]) (.inl rfl)⟩
  | circuitOpen =>
    cases h
    exact ⟨rfl, .down (by simp [active, hnone]) (.inr (.inl rfl))⟩

theorem start_ends (hnone : w.runtime = none) (h : start (some l) now w = (o, w'))
    (ho : o ≠ .crashed) : o = .done () ∧ Started w' := by
  unfold start at h
  rw [gets_bind_apply, hnone] at h
  change (modify _ >>= _ : Service Policy Unit) w = _ at h
  rw [modify_bind_apply] at h
  obtain ⟨result, v, hattempt, h⟩ := ErrorsIn.attempt.ends h ho
  rcases attempt_eq_done.mp hattempt with ⟨found, rfl, hrec⟩ | ⟨e, rfl, hrec⟩
  · rcases recover_eq_done hrec with ⟨rfl, hcur, rfl⟩ | ⟨r, c, rfl, hpend, hcur, hget, rfl⟩
    · cases h
      exact ⟨rfl, .down (by simp [active, hnone]) (.inr (.inr hcur))⟩
    · cases h
      exact ⟨rfl, .up r c rfl hpend hcur hget rfl⟩
  · obtain ⟨file, rfl⟩ := recover_eq_error hrec
    have hnone' : (setCore file { w with restartAt := none }).runtime = none := hnone
    exact registerStartFailure_ends hnone' h

theorem start_none (hnone : w.runtime = none) : start none now w = (.done (), { w with
    restartAt := none
    snapshot := { w.snapshot with state := .failOpenDirect, generation := none } }) := by
  have hdown : w.runtime.isSome = false := by
    rw [hnone]
    rfl
  unfold start
  rw [gets_bind_apply, hdown]
  rfl

def WorkerApplication.stopped (w : WorkerApplication Policy) : WorkerApplication Policy :=
  { w with
    restartAt := none
    startPending := false
    runtime := none
    snapshot := { w.snapshot with state := .failOpenDirect, generation := none } }

theorem stop_ends {stops : Bool} (h : stop stops w = (o, w')) : w' = w.stopped := by
  unfold stop at h
  rw [gets_bind_apply] at h
  split at h
  · cases h
    rfl
  · cases h
    rfl

end NetHop.Worker
