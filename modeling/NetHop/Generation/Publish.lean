import NetHop.Generation.Invariant

/-!
# Publishing when calls fail

What `publish_with_path` leaves of the published part of the store, the pointer
and the sealed generations, when it returns an error.  No step is killed here:
every call returns, but it may report an error before, in the middle of or
after its effect, and lookups do not fail.
-/

namespace NetHop.Generation

open FaultIo Text Io Tree Keeps

variable {children : Dir ChildName (Leaf Content)}

def EntryName.Published (n : EntryName) : Prop := n = .current ∨ ∃ g, n = .sealed g

/-- The pointer and the sealed generations are the same in both stores. -/
def SamePublished (s t : Store) : Prop := Tree.SameOn EntryName.Published s t

structure Faults.NoCrash (φ : Faults) : Prop where
  returns : ∀ site, (φ site).NoCrash
  looks : ∀ l, φ (.look l) = .none

theorem noFaults_returns (site : Site) : (noFaults site).NoCrash := Fault.noCrash_none

namespace GenerationStore

variable {st : GenerationStore} {φ : Faults} {c : Candidate st.sha256Hex}

/-! ## Writing the candidate -/

structure WritesCandidate (φ : Faults) (c : Candidate st.sha256Hex) : Prop where
  config : φ .writeConfig = .none
  registry : c.nodeRegistry.isSome → φ .writeRegistry = .none
  manifest : φ .writeManifest = .none
  sync : φ .syncCandidate = .none

/-- The directory holds exactly the files of the candidate. -/
structure Written (c : Candidate st.sha256Hex) (children : Dir ChildName (Leaf Content)) :
    Prop where
  config : children.get .config = some (.file ⟨.config c.config.bytes, true⟩)
  nodes : children.get .nodes = c.nodeRegistry.map fun r => .file ⟨.registry r, true⟩
  manifest : children.get .manifest = some (.file ⟨.manifest c.manifest, true⟩)

def putRegistry (registry : Option GenerationNodeRegistry) (d : EntryName) (t : Store) :
    Store :=
  match registry with
  | some r => put (.child d .nodes) ⟨.registry r, true⟩ t
  | none => t

def putCandidate (c : Candidate st.sha256Hex) (d : EntryName) (t : Store) : Store :=
  put (.child d .manifest) ⟨.manifest c.manifest, true⟩
    (putRegistry c.nodeRegistry d
      (put (.child d .config) ⟨.config c.config.bytes, true⟩ t))

variable {d : EntryName} {u : Unit}

theorem writeNodeRegistry_eq_done {registry : Option GenerationNodeRegistry}
    {t t' : Store} (h : t.get d = some (.dir children))
    (hk : children.get .nodes = none) : writeNodeRegistry φ registry d t = (.done u, t') ↔
      (registry.isSome → φ .writeRegistry = .none) ∧ t' = putRegistry registry d t := by
  cases registry with
  | none => simp [writeNodeRegistry, putRegistry, eq_comm]
  | some r =>
    simp [writeNodeRegistry, putRegistry, writeSync_eq_done, leafAt_child h hk]

variable {t : Store}
  {s s' t' : Store} {f : Fault} {p : PreparedCandidate} {e : CoreError}

theorem get_putRegistry (registry : Option GenerationNodeRegistry)
    (h : t.get d = some (.dir children)) (hk : children.get .nodes = none) :
    ∃ children', (putRegistry registry d t).get d = some (.dir children') ∧
      children'.get .config = children.get .config ∧
      children'.get .nodes = (registry.map fun r => .file ⟨.registry r, true⟩) ∧
      children'.get .manifest = children.get .manifest := by
  cases registry with
  | none => exact ⟨children, h, rfl, hk, rfl⟩
  | some r =>
    refine ⟨_, get_put_child h _, ?_⟩
    simp [hk, overwrite]

theorem writeCandidate_eq_done (h : t.get d = some (.dir .empty)) :
    st.writeCandidate φ c d t = (.done u, t') ↔ WritesCandidate φ c ∧ t' = putCandidate c d t := by
  have hconfig : (put (.child d .config) ⟨.config c.config.bytes, true⟩ t).get d =
      some (.dir (Dir.empty.set .config (.file ⟨.config c.config.bytes, true⟩))) :=
    get_put_child h _
  obtain ⟨children, hget, -, -, hmanifest⟩ := get_putRegistry c.nodeRegistry hconfig (by simp)
  have hslot := leafAt_child hget (by simpa using hmanifest)
  unfold writeCandidate
  simp only [bind_eq_done, writeSync_eq_done, syncDirectory_eq_done,
    leafAt_child h (Dir.get_empty _)]
  constructor
  · rintro ⟨_, _, ⟨hc, -, rfl⟩, _, _, hreg, _, _, ⟨hm, -, rfl⟩, hs, rfl⟩
    rw [writeNodeRegistry_eq_done hconfig (by simp)] at hreg
    obtain ⟨hr, rfl⟩ := hreg
    exact ⟨⟨hc, hr, hm, hs⟩, rfl⟩
  · rintro ⟨hw, rfl⟩
    refine ⟨(), _, ⟨hw.config, rfl, rfl⟩, (), putRegistry c.nodeRegistry d _, ?_, (), _,
      ⟨hw.manifest, ?_, rfl⟩, hw.sync, rfl⟩
    · exact (writeNodeRegistry_eq_done hconfig (by simp)).mpr ⟨hw.registry, rfl⟩
    · rw [hslot]
      rfl

theorem get_putCandidate (h : t.get d = some (.dir .empty)) :
    ∃ children, (putCandidate c d t).get d = some (.dir children) ∧ Written c children := by
  have hconfig : (put (.child d .config) ⟨.config c.config.bytes, true⟩ t).get d =
      some (.dir (Dir.empty.set .config (.file ⟨.config c.config.bytes, true⟩))) :=
    get_put_child h _
  obtain ⟨children, hget, hc, hn, hm⟩ := get_putRegistry c.nodeRegistry hconfig (by simp)
  refine ⟨_, get_put_child hget _, ?_, ?_, ?_⟩
  · simp [hc]
  · simp [hn]
  · simp [hm, overwrite]

def fileCount (c : Candidate st.sha256Hex) : Nat := if c.nodeRegistry.isSome then 3 else 2

theorem Written.names_length (h : Written c children) : children.names.length = fileCount c := by
  have hperm : ∀ l : List ChildName, l.Nodup →
      (∀ k, k ∈ l ↔ (children.get k).isSome) → children.names.length = l.length := by
    intro l hl hmem
    refine List.Perm.length_eq ((List.perm_ext_iff_of_nodup children.names_nodup hl).mpr ?_)
    intro k
    rw [Dir.mem_names, hmem]
  unfold fileCount
  cases hreg : c.nodeRegistry with
  | none =>
    refine hperm [.config, .manifest] (by decide) fun k => ?_
    cases k <;> simp [h.config, h.nodes, h.manifest, hreg]
  | some r =>
    refine hperm [.config, .nodes, .manifest] (by decide) fun k => ?_
    cases k <;> simp [h.config, h.nodes, h.manifest, hreg]

/-! ## Preparing -/

structure Prepares (st : GenerationStore) (φ : Faults) (s : Store)
    (c : Candidate st.sha256Hex) : Prop where
  fresh : s.pathExists (.sealed c.generation.get) = false
  stale : s.pathExists (st.candidateDirectory c.generation) = true →
    φ .removeStale = .none ∧
      removable (s.get (st.candidateDirectory c.generation)) = true
  /-- What is not found must not block the name either, as a dead link does. -/
  free : s.pathExists (st.candidateDirectory c.generation) = false →
    s.get (st.candidateDirectory c.generation) = none
  create : φ .createCandidate = .none
  writes : WritesCandidate φ c

def clearStale (d : EntryName) (s : Store) : Store :=
  if s.pathExists d then unlink d s else s

theorem removeDirectoryIfPresent_eq_done {l : Fault} {operation : String} (hlook : l = .none) :
    removeDirectoryIfPresent l f d operation s = (.done u, s') ↔
      (s.pathExists d = true → f = .none ∧ removable (s.get d) = true) ∧
        s' = clearStale d s := by
  unfold removeDirectoryIfPresent clearStale
  rw [lookup_bind_apply hlook]
  cases hex : s.pathExists d with
  | false =>
    constructor
    · rintro ⟨⟩
      simp
    · rintro ⟨-, rfl⟩
      rfl
  | true =>
    rw [if_pos rfl, removeDirAll_eq_done, ← and_assoc]
    simp

theorem get_clearStale_eq_none :
    (clearStale d s).get d = none ↔ (s.pathExists d = false → s.get d = none) := by
  unfold clearStale
  cases hex : s.pathExists d <;> simp

def preparedToken (st : GenerationStore) (g : GenerationId) : PreparedCandidate :=
  ⟨st.root, g, st.candidateDirectory g, st.processId, rfl⟩

theorem prepareCandidate_eq_done (hlook : ∀ l, φ (.look l) = .none) :
    st.prepareCandidate φ c s = (.done p, s') ↔
      st.Prepares φ s c ∧ p = st.preparedToken c.generation ∧
        s' = putCandidate c (st.candidateDirectory c.generation)
          (makeDir (st.candidateDirectory c.generation)
            (clearStale (st.candidateDirectory c.generation) s)) := by
  have hempty : ∀ t : Store, (makeDir (st.candidateDirectory c.generation) t).get
        (st.candidateDirectory c.generation) = some (.dir .empty) := by
    simp
  unfold prepareCandidate stageCandidate
  rw [lookup_bind_apply (hlook _)]
  cases hfresh : s.pathExists (.sealed c.generation.get) with
  | true =>
    constructor
    · rintro ⟨⟩
    · rintro ⟨hp, -⟩
      rw [hp.fresh] at hfresh
      cases hfresh
  | false =>
    simp only [Bool.false_eq_true, if_false, bind_eq_done,
      removeDirectoryIfPresent_eq_done (hlook _), createDir_eq_done, attempt_eq_done]
    constructor
    · rintro ⟨_, _, ⟨hstale, rfl⟩, _, _, ⟨hcreate, hfree, rfl⟩, r, s1, hwrite, hret⟩
      rw [get_clearStale_eq_none] at hfree
      rcases hwrite with ⟨u, rfl, hwrite⟩ | ⟨e, rfl, -⟩
      · obtain ⟨hw, rfl⟩ := (writeCandidate_eq_done (hempty _)).mp hwrite
        cases hret
        exact ⟨⟨hfresh, hstale, hfree, hcreate, hw⟩, rfl, rfl⟩
      · obtain ⟨_, _, _, hthrow⟩ := bind_eq_done.mp hret
        cases hthrow
    · rintro ⟨hp, rfl, rfl⟩
      refine ⟨(), _, ⟨hp.stale, rfl⟩, (), _, ⟨hp.create, ?_, rfl⟩, .ok (), _, .inl ⟨(), rfl,
        (writeCandidate_eq_done (hempty _)).mpr ⟨hp.writes, rfl⟩⟩, rfl⟩
      exact get_clearStale_eq_none.mpr hp.free

theorem prepareCandidate_spec (hlook : ∀ l, φ (.look l) = .none)
    (h : st.prepareCandidate φ c s = (.done p, s')) :
    p = st.preparedToken c.generation ∧
      (∃ children, s'.get p.directory = some (.dir children) ∧ Written c children) ∧
      ∀ n, n ≠ p.directory → s'.get n = s.get n := by
  obtain ⟨hp, rfl, hs'⟩ := (prepareCandidate_eq_done hlook).mp h
  refine ⟨rfl, ?_, fun n hn => ?_⟩
  · rw [hs']
    exact get_putCandidate (by simp)
  · exact (frame_prepareCandidate hn).holds rfl h

theorem prepareCandidate_error_system (hfresh : s.pathExists (.sealed c.generation.get) = false)
    (h : st.prepareCandidate φ c s = (.error e, s')) : ∃ operation, e = ioError operation := by
  have hstage : ErrorsIn (fun e => ∃ operation, e = ioError operation) (st.stageCandidate φ c) := by
    refine .bind ?_ fun _ => .bind (.step ⟨_, rfl⟩) fun _ =>
      .bind_attempt ?_ (fun _ => .ret _) fun e he =>
        .bind ErrorsIn.ignore fun _ => .fail he
    · refine .bind (.lookup _ _) fun found => ?_
      split
      · exact .step ⟨_, rfl⟩
      · exact .ret _
    · refine .bind (.step ⟨_, rfl⟩) fun _ =>
        .bind ?_ fun _ => .bind (.step ⟨_, rfl⟩) fun _ =>
          .step ⟨_, rfl⟩
      unfold writeNodeRegistry
      split
      · exact .step ⟨_, rfl⟩
      · exact .ret _
  obtain ⟨reserved, s1, hseen, h⟩ := (ErrorsIn.lookup _ _).rest h
  have hreserved : reserved = false := by
    obtain ⟨-, ⟨-, rfl⟩ | ⟨-, rfl⟩⟩ := lookup_eq_done.mp hseen
    · exact hfresh
    · rfl
  rw [hreserved] at h
  exact hstage s1 e s' h

theorem prepareCandidate_samePublished (s : Store) :
    SamePublished s (st.prepareCandidate φ c s).2 := by
  refine sameOn_of_frame (fun n hn v => frame_prepareCandidate ?_) s
  rcases hn with rfl | ⟨g, rfl⟩ <;> simp [candidateDirectory]

theorem discardPrepared_samePublished (st : GenerationStore) (φ : Faults)
    (p : PreparedCandidate) (s : Store) : SamePublished s (st.discardPrepared φ p s).2 := by
  obtain ⟨pid, hdir⟩ := p.directory_eq
  refine sameOn_of_frame (fun n hn v => frame_discardPrepared ?_) s
  rcases hn with rfl | ⟨g, rfl⟩ <;> simp [hdir]

/-! ## Sealing -/

def sealedToken (st : GenerationStore) (g : GenerationId) : SealedGeneration :=
  ⟨st.root, g, .sealed g.get, rfl⟩

theorem ensureOwned_root (s : Store) : st.ensureOwned st.root s = (.done (), s) := by
  simp [ensureOwned]

variable {g : GenerationId}

section

variable (hlook : φ (.look .final) = .none) (hfresh : s.pathExists (.sealed g.get) = false)

include hlook hfresh

theorem sealCandidate_apply : st.sealCandidate φ (st.preparedToken g) s = (do
        rename (φ .renameSealed) (ioError "seal_generation")
          (st.candidateDirectory g) (.sealed g.get)
        syncDirectory (φ .syncSealed) (ioError "sync_generations")
        pure (st.sealedToken g) : Run SealedGeneration) s := by
  have howned : st.ensureOwned (st.preparedToken g).storeRoot s = (.done (), s) :=
    ensureOwned_root s
  have hfresh' : s.pathExists (.sealed (st.preparedToken g).generation.get) = false := hfresh
  unfold sealCandidate
  rw [bind_of_done howned, lookup_bind_apply hlook, hfresh']
  rfl

theorem sealCandidate_eq_done {token : SealedGeneration} :
    st.sealCandidate φ (st.preparedToken g) s = (.done token, s') ↔
      φ .renameSealed = .none ∧ φ .syncSealed = .none ∧
        s.canMove (st.candidateDirectory g) (.sealed g.get) = true ∧ token = st.sealedToken g ∧
        s' = move (st.candidateDirectory g) (.sealed g.get) s := by
  rw [sealCandidate_apply hlook hfresh]
  simp only [bind_eq_done, rename_eq_done, syncDirectory_eq_done,
    pure_apply, Prod.mk.injEq, Outcome.done.injEq]
  constructor
  · rintro ⟨_, _, ⟨hr, hc, rfl⟩, _, _, ⟨hs, rfl⟩, rfl, rfl⟩
    exact ⟨hr, hs, hc, rfl, rfl⟩
  · rintro ⟨hr, hs, hc, rfl, rfl⟩
    exact ⟨(), _, ⟨hr, hc, rfl⟩, (), _, ⟨hs, rfl⟩, rfl, rfl⟩

theorem sealCandidate_snd : (st.sealCandidate φ (st.preparedToken g) s).2 =
      if s.canMove (st.candidateDirectory g) (.sealed g.get) = true ∧
          (φ .renameSealed).Completes 1 then move (st.candidateDirectory g) (.sealed g.get) s
      else s := by
  rw [sealCandidate_apply hlook hfresh, ← rename_snd (φ .renameSealed) (ioError "seal_generation")]
  -- After the rename only the directory is flushed.
  refine after (I := fun t => t = _) rfl fun _ => ?_
  exact bind (probe _ _) fun _ => ret _

end

/-! ## Committing -/

structure ReadsBack (φ : Faults) (c : Candidate st.sha256Hex) : Prop where
  manifest : φ .readManifest = .none
  config : φ .readConfig = .none
  registry : c.nodeRegistry.isSome → φ .readRegistry = .none

theorem checkManifest_written (hlook : φ (.look .nodes) = .none) (h : Written c children) :
    st.checkManifest φ c.generation children c.manifest s = (.done u, s') ↔
      (c.nodeRegistry.isSome → φ .readRegistry = .none) ∧ s' = s := by
  have hd := c.describes
  unfold checkManifest checkRegistry
  rw [if_neg (by simp [hd.schema, hd.generation, hd.config, h.config, contentOf, Leaf.read])]
  cases hreg : c.nodeRegistry with
  | none =>
    have hnodes : children.get .nodes = none := by rw [h.nodes, hreg]; rfl
    have hdigest : c.manifest.nodeRegistrySha256 = none := by rw [hd.digest, hreg]; rfl
    simp [hdigest, hnodes, lookup_bind_apply hlook, eq_comm]
  | some r =>
    have hnodes : children.get .nodes = some (.file ⟨.registry r, true⟩) := by
      rw [h.nodes, hreg]
      rfl
    have hdigest : c.manifest.nodeRegistrySha256 = some (st.sha256Hex (.registry r)) := by
      rw [hd.digest, hreg]
      rfl
    obtain ⟨hschema, hcount⟩ := hd.records r hreg
    simp only [hdigest, hnodes, lookup_bind_apply hlook, isPrivateRegularFile, Bool.not_true,
      Bool.false_eq_true, if_false, contentOf, Leaf.read, Option.getD_some, hschema, hcount, ne_eq,
      not_true_eq_false, or_self, bind_eq_done, probe_eq_done, pure_apply,
      Option.isSome_some, forall_const]
    constructor
    · rintro ⟨_, _, ⟨hφ, rfl⟩, ⟨⟩⟩
      exact ⟨hφ, rfl⟩
    · rintro ⟨hφ, rfl⟩
      exact ⟨(), _, ⟨hφ, rfl⟩, rfl⟩

theorem checkSealed_written (hlook : ∀ l, φ (.look l) = .none) (h : Written c children) :
    st.checkSealed φ c.generation (some (.dir children)) s = (.done u, s') ↔
      ReadsBack φ c ∧ s' = s := by
  rw [checkSealed_eq_done]
  constructor
  · rintro ⟨_, ⟨⟩, -, hm, manifest, hcontent, hc, hcheck⟩
    rw [h.manifest] at hcontent
    cases hcontent
    obtain ⟨hr, rfl⟩ := (checkManifest_written (hlook _) h).mp hcheck
    exact ⟨⟨hm, hc, hr⟩, rfl⟩
  · rintro ⟨hr, rfl⟩
    refine ⟨children, rfl, ⟨hlook _, ?_⟩, hr.manifest, c.manifest, ?_, hr.config, ?_⟩
    · simp [hasFiles, h.config, h.manifest, isPrivateRegularFile]
    · simp [h.manifest, contentOf, Leaf.read]
    · exact (checkManifest_written (hlook _) h).mpr ⟨hr.registry, rfl⟩

structure PointerMoves (φ : Faults) (s : Store) (c : Candidate st.sha256Hex) : Prop where
  reads : ReadsBack φ c
  temp : φ .writeCurrent = .none
  slot : (s.leafAt (.entry (.currentTemp c.generation.get))).isSome
  target : (s.get .current).any Node.isDir = false
  rename : (φ .renameCurrent).Completes 1

structure Commits (φ : Faults) (s : Store) (c : Candidate st.sha256Hex) : Prop where
  moves : PointerMoves φ s c
  rename : φ .renameCurrent = .none
  sync : φ .syncCurrent = .none

def putTemp (g : GenerationId) (s : Store) : Store :=
  put (.entry (.currentTemp g.get)) ⟨pointerText g, true⟩ s

theorem get_putTemp (g : GenerationId) (s : Store) :
    ∃ l, (putTemp g s).get (.currentTemp g.get) = some (.leaf l) ∧
      l.read = some (pointerText g) := by
  obtain ⟨l, hl, hread, -⟩ := get_put_entry (κ := ChildName) (.currentTemp g.get)
    ⟨pointerText g, true⟩ s
  exact ⟨l, hl, hread⟩

theorem current_putTemp (g : GenerationId) (s : Store) :
    (putTemp g s).get .current = s.get .current := get_put_ne (by simp [Slot.top]) _ s

theorem canMove_putTemp (g : GenerationId) (s : Store) :
    (putTemp g s).canMove (.currentTemp g.get) .current = true ↔
      (s.get .current).any Node.isDir = false := by
  obtain ⟨l, htemp, -⟩ := get_putTemp g s
  unfold canMove
  rw [current_putTemp, htemp]
  rcases s.get .current with _ | l' | ch <;> simp [Node.isDir]

theorem writeCurrent_eq_done : writeCurrent φ g s = (.done u, s') ↔
      φ .writeCurrent = .none ∧ (s.leafAt (.entry (.currentTemp g.get))).isSome ∧
        (s.get .current).any Node.isDir = false ∧ φ .renameCurrent = .none ∧
        φ .syncCurrent = .none ∧ s' = move (.currentTemp g.get) .current (putTemp g s) := by
  unfold writeCurrent
  simp only [bind_eq_done, writeSync_eq_done, rename_eq_done, syncDirectory_eq_done]
  constructor
  · rintro ⟨_, _, ⟨hw, hl, rfl⟩, _, _, ⟨hr, hc, rfl⟩, hs, rfl⟩
    exact ⟨hw, hl, (canMove_putTemp g s).mp hc, hr, hs, rfl⟩
  · rintro ⟨hw, hl, hd, hr, hs, rfl⟩
    exact ⟨(), putTemp g s, ⟨hw, hl, rfl⟩, (), _, ⟨hr, (canMove_putTemp g s).mpr hd, rfl⟩, hs, rfl⟩

theorem writeCurrent_get_current (φ : Faults) (g : GenerationId) (s : Store) :
    ∃ l : Leaf Content, l.read = some (pointerText g) ∧ (writeCurrent φ g s).2.get .current =
      if φ .writeCurrent = .none ∧ (s.leafAt (.entry (.currentTemp g.get))).isSome ∧
          (s.get .current).any Node.isDir = false ∧ (φ .renameCurrent).Completes 1 then
        some (.leaf l) else s.get .current := by
  obtain ⟨l, htemp, hread⟩ := get_putTemp g s
  refine ⟨l, hread, ?_⟩
  unfold writeCurrent
  by_cases hwrite : φ .writeCurrent = .none ∧ (s.leafAt (.entry (.currentTemp g.get))).isSome
  · obtain ⟨hw, hl⟩ := hwrite
    have hdone : writeSync (φ .writeCurrent) (ioError "write_current")
        (.entry (.currentTemp g.get)) (pointerText g) s = (.done (), putTemp g s) :=
      writeSync_eq_done.mpr ⟨hw, hl, rfl⟩
    rw [bind_of_done hdone]
    refine after (I := fun t : Store => t.get .current = _) ?_ fun _ =>
      frame_syncDirectory
    rw [rename_snd]
    simp only [hw, hl, canMove_putTemp, true_and]
    split
    · rw [get_move]
      simp [htemp]
    · exact current_putTemp g s
  · have hnot : ¬ ∃ u t, writeSync (φ .writeCurrent) (ioError "write_current")
        (.entry (.currentTemp g.get)) (pointerText g) s = (.done u, t) := by
      rintro ⟨u, t, hdone⟩
      obtain ⟨hw, hl, -⟩ := writeSync_eq_done.mp hdone
      exact hwrite ⟨hw, hl⟩
    rw [bind_snd_of_not_done hnot, if_neg fun h => hwrite ⟨h.1, h.2.1⟩]
    exact frame_writeSync (by simp [Slot.top]) s rfl

theorem writeCurrent_pointer (φ : Faults) (g : GenerationId) (s : Store) :
    (writeCurrent φ g s).2.get .current = s.get .current ∨
      pointerValue ((writeCurrent φ g s).2.get .current) = .ok g := by
  obtain ⟨l, hread, hcur⟩ := writeCurrent_get_current φ g s
  rw [hcur]
  split
  · exact .inr (pointerValue_of_read hread)
  · exact .inl rfl

theorem writeCurrent_done_pointer (h : writeCurrent φ g s = (.done u, s')) :
    pointerValue (s'.get .current) = .ok g := by
  obtain ⟨hw, hl, hd, hr, -, -⟩ := writeCurrent_eq_done.mp h
  obtain ⟨l, hread, hcur⟩ := writeCurrent_get_current φ g s
  rw [h, if_pos ⟨hw, hl, hd, by rw [hr]; exact Fault.completes_none 1⟩] at hcur
  rw [show s'.get .current = _ from hcur]
  exact pointerValue_of_read hread

theorem rollbackTo_pointer (st : GenerationStore) (φ : Faults) (g : GenerationId) (s : Store) :
    (st.rollbackTo φ g s).2.get .current = s.get .current ∨
      pointerValue ((st.rollbackTo φ g s).2.get .current) = .ok g := by
  unfold rollbackTo
  by_cases hdone : ∃ u s', st.ensureSealedExists φ g s = (.done u, s')
  · obtain ⟨u, s', hdone⟩ := hdone
    obtain rfl : s' = s := state_eq keeps_ensureSealedExists hdone
    rw [bind_of_done hdone]
    exact writeCurrent_pointer φ g s'
  · rw [bind_snd_of_not_done hdone]
    exact .inl (keeps_ensureSealedExists (I := fun t => t.get .current = s.get .current) s rfl)

theorem commitGeneration_apply (s : Store) :
    st.commitGeneration φ (st.sealedToken g) s = st.rollbackTo φ g s := by
  have howned : st.ensureOwned (st.sealedToken g).storeRoot s = (.done (), s) := ensureOwned_root s
  unfold commitGeneration
  rw [bind_of_done howned]
  rfl

section Sealed

/-! In what follows the candidate stands sealed in the store `s`. -/

variable (hlook : ∀ l, φ (.look l) = .none) (h : Written c children)
  (hget : s.get (.sealed c.generation.get) = some (.dir children))

section

include hlook h hget

theorem ensureSealedExists_written :
    st.ensureSealedExists φ c.generation s = (.done u, s') ↔ ReadsBack φ c ∧ s' = s := by
  unfold ensureSealedExists
  rw [gets_bind_apply, hget]
  exact checkSealed_written hlook h

theorem commitGeneration_done_iff :
    (∃ u s', st.commitGeneration φ (st.sealedToken c.generation) s = (.done u, s')) ↔
      Commits φ s c := by
  rw [commitGeneration_apply]
  unfold rollbackTo
  simp only [bind_eq_done, ensureSealedExists_written hlook h hget, writeCurrent_eq_done]
  constructor
  · rintro ⟨_, _, _, _, ⟨hr, rfl⟩, hw, hl, hd, hren, hs, -⟩
    refine ⟨⟨hr, hw, hl, hd, ?_⟩, hren, hs⟩
    rw [hren]
    exact Fault.completes_none 1
  · rintro ⟨⟨hr, hw, hl, hd, -⟩, hren, hs⟩
    exact ⟨(), _, (), s, ⟨hr, rfl⟩, hw, hl, hd, hren, hs, rfl⟩

theorem commitGeneration_get_current :
    (PointerMoves φ s c → ∃ l, (st.commitGeneration φ (st.sealedToken c.generation) s).2.get
        .current = some (.leaf l) ∧ l.read = some (pointerText c.generation)) ∧
      (¬ PointerMoves φ s c → (st.commitGeneration φ (st.sealedToken c.generation) s).2.get
        .current = s.get .current) := by
  rw [commitGeneration_apply]
  unfold rollbackTo
  by_cases hr : ReadsBack φ c
  · have hdone := (ensureSealedExists_written (u := ()) hlook h hget).mpr ⟨hr, rfl⟩
    obtain ⟨l, hread, hcur⟩ := writeCurrent_get_current φ c.generation s
    rw [bind_of_done hdone, hcur]
    constructor
    · intro hm
      rw [if_pos ⟨hm.temp, hm.slot, hm.target, hm.rename⟩]
      exact ⟨l, rfl, hread⟩
    · intro hm
      exact if_neg fun ⟨hw, hl, hd, hren⟩ => hm ⟨hr, hw, hl, hd, hren⟩
  · have hnot : ¬ ∃ u s', st.ensureSealedExists φ c.generation s = (.done u, s') := by
      rintro ⟨u, s', hdone⟩
      exact hr ((ensureSealedExists_written hlook h hget).mp hdone).1
    rw [bind_snd_of_not_done hnot]
    refine ⟨fun hm => absurd hm.reads hr, fun _ => ?_⟩
    exact keeps_ensureSealedExists (I := fun t => t.get .current = s.get .current) s rfl

end

/-! ## Undoing -/

/-- `discard_sealed` finds the pointer readable and elsewhere, and its removal of
the sealed candidate runs to the end. -/
structure CleansUp (φ : Faults) (s : Store) (c : Candidate st.sha256Hex) : Prop where
  pointer : s.pathExists .current = false ∨
    (φ .readCurrent = .none ∧
      ∃ g, pointerValue (s.get .current) = .ok g ∧ g ≠ c.generation)
  removal : (φ .removeSealed).Completes (fileCount c + 1)

section

variable (hcur : t.get .current = s.get .current)
  (htemp : t.get (.currentTemp c.generation.get) = s.get (.currentTemp c.generation.get))

include hcur htemp

theorem PointerMoves.congr (h : PointerMoves φ s c) : PointerMoves φ t c where
  reads := h.reads
  temp := h.temp
  slot := by
    have := h.slot
    simp only [leafAt, htemp] at this ⊢
    exact this
  target := by rw [hcur]; exact h.target
  rename := h.rename

theorem Commits.congr (h : Commits φ s c) :
    Commits φ t c := ⟨h.moves.congr hcur htemp, h.rename, h.sync⟩

end

theorem CleansUp.congr (hcur : t.get .current = s.get .current) (h : CleansUp φ s c) :
    CleansUp φ t c where
  pointer := by
    have hfound : t.pathExists .current = s.pathExists .current := by
      simp [pathExists, hcur]
    rw [hfound, hcur]
    exact h.pointer
  removal := h.removal

include hlook h hget

theorem removeInactive_get_eq_none {r : Option GenerationId} (hr : r ≠ some c.generation) :
    (removeInactive φ (st.sealedToken c.generation) r s).2.get (.sealed c.generation.get) = none ↔
      (φ .removeSealed).Completes (fileCount c + 1) := by
  have hfound : s.pathExists (.sealed c.generation.get) = true := by
    simp [pathExists, hget, Node.resolves]
  have hremove : removeDirectoryIfPresent (φ (.look .sealed)) (φ .removeSealed)
      (.sealed c.generation.get) "discard_generation" s = removeDirAll (φ .removeSealed)
        (ioError "discard_generation") (.sealed c.generation.get) s := by
    unfold removeDirectoryIfPresent
    rw [lookup_bind_apply (hlook _), hfound]
    rfl
  have hsame := after (I := fun t : Store => t.get (.sealed c.generation.get) =
      (removeDirectoryIfPresent (φ (.look .sealed)) (φ .removeSealed) (.sealed c.generation.get)
        "discard_generation" s).2.get (.sealed c.generation.get)) rfl
    fun _ : Unit => (frame_syncDirectory : Keeps _
      (syncDirectory (φ .syncDiscard) (ioError "sync_generations")))
  have hr' : r ≠ some (st.sealedToken c.generation).generation := hr
  rw [← h.names_length, ← removeDirAll_get_eq_none hget, removeInactive, if_neg hr']
  show ((removeDirectoryIfPresent (φ (.look .sealed)) (φ .removeSealed) (.sealed c.generation.get)
    "discard_generation" >>= fun _ => _) s).2.get _ = none ↔ _
  rw [hsame, hremove]

/-- The sealed candidate is gone after `discard_sealed` exactly when the clean-up
conditions hold. -/
theorem discardSealed_get_eq_none : (st.discardSealed φ (st.sealedToken c.generation) s).2.get
        (.sealed c.generation.get) = none ↔ CleansUp φ s c := by
  have howned : st.ensureOwned (st.sealedToken c.generation).storeRoot s = (.done (), s) :=
    ensureOwned_root s
  unfold discardSealed
  rw [bind_of_done howned]
  by_cases hread : ∃ r s', currentGeneration φ s = (.done r, s') ∧ r ≠ some c.generation
  · obtain ⟨r, s', hdone, hr⟩ := hread
    obtain ⟨rfl, hcases⟩ := (currentGeneration_eq_done (hlook _)).mp hdone
    rw [bind_of_done hdone, removeInactive_get_eq_none hlook h hget hr]
    refine ⟨fun hk => ⟨?_, hk⟩, fun hc => hc.removal⟩
    rcases hcases with ⟨hnone, -⟩ | ⟨-, hφ, g, hg, rfl⟩
    · exact .inl hnone
    · exact .inr ⟨hφ, g, hg, fun heq => hr (by rw [heq])⟩
  · -- The pointer cannot be read, or it names this generation: nothing is removed.
    have hstay : ((currentGeneration φ >>=
        removeInactive φ (st.sealedToken c.generation)) s).2 = s := by
      by_cases hdone : ∃ r s', currentGeneration φ s = (.done r, s')
      · obtain ⟨r, s', hdone⟩ := hdone
        have hr : r = some (st.sealedToken c.generation).generation := by
          by_contra hr
          exact hread ⟨r, s', hdone, hr⟩
        obtain ⟨rfl, -⟩ := (currentGeneration_eq_done (hlook _)).mp hdone
        rw [bind_of_done hdone, removeInactive, if_pos hr]
        rfl
      · rw [bind_snd_of_not_done hdone]
        exact keeps_currentGeneration (I := fun t => t = s) s rfl
    rw [hstay, hget]
    refine iff_of_false (by simp) fun hc => hread ?_
    rcases hc.pointer with hnone | ⟨hφ, g, hg, hne⟩
    · exact ⟨none, s, (currentGeneration_eq_done (hlook _)).mpr ⟨rfl, .inl ⟨hnone, rfl⟩⟩, by simp⟩
    · refine ⟨some g, s, (currentGeneration_eq_done (hlook _)).mpr
        ⟨rfl, .inr ⟨pathExists_of_pointerValue hg, hφ, g, hg, rfl⟩⟩, ?_⟩
      simpa using hne

end Sealed

/-! ## Without crashes every operation returns -/

section Returns

variable (hφ : ∀ site, (φ site).NoCrash)

include hφ

theorem currentGeneration_returns : Io.Returns (currentGeneration φ) := by
  refine .bind (.lookup (hφ _) _) fun found => ?_
  split
  · exact .bind (.probe (hφ _)) fun _ =>
      .bind (.look _) fun _ => .ofExcept _
  · exact .ret _

omit hφ in
theorem removeDirectoryIfPresent_returns {l : Fault} (hl : l.NoCrash) (hf : f.NoCrash)
    (n : EntryName) (operation : String) :
    Io.Returns (removeDirectoryIfPresent l f n operation) := by
  refine .bind (.lookup hl _) fun found => ?_
  split
  · exact .step hf
  · exact .ret _

omit hφ in
theorem ensureOwned_returns (tokenRoot : String) : Io.Returns (st.ensureOwned tokenRoot) := by
  unfold ensureOwned
  split
  · exact .ret _
  · exact .fail _

theorem checkManifest_returns (g : GenerationId) (children : Dir ChildName (Leaf Content))
    (m : GenerationManifest) : Io.Returns (st.checkManifest φ g children m) := by
  unfold checkManifest checkRegistry
  split
  · exact .fail _
  · split
    · refine .bind (.lookup (hφ _) _) fun found => ?_
      split
      · exact .fail _
      · refine .bind (.probe (hφ _)) fun _ => ?_
        split
        · split
          · exact .fail _
          · exact .ret _
        · exact .fail _
    · refine .bind (.lookup (hφ _) _) fun found => ?_
      split
      · exact .fail _
      · exact .ret _

theorem ensureSealedExists_returns (g : GenerationId) : Io.Returns (st.ensureSealedExists φ g) := by
  refine .bind (.look _) fun node => .bind (.lookup (hφ _) _) fun found => ?_
  split
  · refine .bind (.probe (hφ _)) fun _ => ?_
    split
    · exact .bind (.probe (hφ _)) fun _ => checkManifest_returns hφ _ _ _
    · exact .fail _
  · exact .fail _

theorem discardPrepared_returns (p : PreparedCandidate) : Io.Returns (st.discardPrepared φ p) :=
  .bind (ensureOwned_returns _) fun _ =>
    removeDirectoryIfPresent_returns (hφ _) (hφ _) _ _

theorem sealCandidate_returns (p : PreparedCandidate) : Io.Returns (st.sealCandidate φ p) := by
  refine .bind (ensureOwned_returns _) fun _ => ?_
  refine .bind (.lookup (hφ _) _) fun reserved => ?_
  split
  · exact .fail _
  · exact .bind (.step (hφ _)) fun _ =>
      .bind (.probe (hφ _)) fun _ => .ret _

theorem commitGeneration_returns (token : SealedGeneration) :
    Io.Returns (st.commitGeneration φ token) := .bind (ensureOwned_returns _) fun _ =>
    .bind (ensureSealedExists_returns hφ _) fun _ =>
      .bind (.step (hφ _)) fun _ =>
        .bind (.step (hφ _)) fun _ => .probe (hφ _)

theorem discardSealed_returns (token : SealedGeneration) :
    Io.Returns (st.discardSealed φ token) := by
  refine .bind (ensureOwned_returns _) fun _ => ?_
  refine .bind (currentGeneration_returns hφ) fun current => ?_
  unfold removeInactive
  split
  · exact .fail _
  · exact .bind (removeDirectoryIfPresent_returns (hφ _) (hφ _) _ _) fun _ =>
      .probe (hφ _)

end Returns

/-! ## A prepared candidate -/

section Prepared

theorem canMove_candidate (hdir : s.get (st.candidateDirectory g) = some (.dir children))
    (hfresh : s.pathExists (.sealed g.get) = false) :
    s.canMove (st.candidateDirectory g) (.sealed g.get) = true ↔ s.get (.sealed g.get) = none := by
  unfold pathExists at hfresh
  unfold canMove
  rw [hdir]
  rcases hget : s.get (.sealed g.get) with _ | l | ch <;> simp_all [Node.isDir, Node.resolves]

def afterSeal (st : GenerationStore) (g : GenerationId) (s : Store) : Store :=
  move (st.candidateDirectory g) (.sealed g.get) s

theorem get_afterSeal (hdir : s.get (st.candidateDirectory g) = some (.dir children))
    (n : EntryName) : (st.afterSeal g s).get n = if n = .sealed g.get then some (.dir children)
      else if n = st.candidateDirectory g then none else s.get n := by
  unfold afterSeal
  rw [get_move, hdir]
  simp

theorem publishPrepared_of_unsealed (hφ : φ.NoCrash)
    (hnot : ¬ ∃ token s', st.sealCandidate φ (st.preparedToken g) s = (.done token, s')) :
    ∃ e s', st.publishPrepared φ (st.preparedToken g) s = (.error e, s') ∧
      SamePublished (st.sealCandidate φ (st.preparedToken g) s).2 s' := by
  obtain ⟨e, herr⟩ := (sealCandidate_returns hφ.returns _).exists_error hnot
  refine ⟨e, _, ?_, discardPrepared_samePublished st φ (st.preparedToken g) _⟩
  unfold publishPrepared
  rw [bind_of_done (attempt_of_error herr)]
  exact ignore_throw_apply (discardPrepared_returns hφ.returns _ _)

section

variable (hφ : φ.NoCrash) (hdir : s.get (st.candidateDirectory c.generation) = some (.dir children))
  (hfresh : s.pathExists (.sealed c.generation.get) = false)

include hφ hdir hfresh

theorem publishPrepared_not_sealed
    (hno : ¬ (s.get (.sealed c.generation.get) = none ∧ (φ .renameSealed).Completes 1)) :
    ∃ e s', st.publishPrepared φ (st.preparedToken c.generation) s = (.error e, s') ∧
      SamePublished s s' := by
  have hsnd : (st.sealCandidate φ (st.preparedToken c.generation) s).2 = s := by
    rw [sealCandidate_snd (hφ.looks _) hfresh,
      if_neg fun h => hno ⟨(canMove_candidate hdir hfresh).mp h.1, h.2⟩]
  have hnot : ¬ ∃ token s', st.sealCandidate φ (st.preparedToken c.generation) s =
      (.done token, s') := by
    rintro ⟨token, s', hdone⟩
    obtain ⟨hr, -, hmove, -, -⟩ := (sealCandidate_eq_done (hφ.looks _) hfresh).mp hdone
    refine hno ⟨(canMove_candidate hdir hfresh).mp hmove, ?_⟩
    rw [hr]
    exact Fault.completes_none 1
  have hunsealed := publishPrepared_of_unsealed hφ hnot
  rw [hsnd] at hunsealed
  exact hunsealed

/-- The rename took effect but sealing reported an error: the clean-up looks for the
candidate directory, which is gone, and the sealed directory stays. -/
theorem publishPrepared_seal_failed (hfree : s.get (.sealed c.generation.get) = none)
    (heffect : (φ .renameSealed).Completes 1)
    (hfail : ¬ (φ .renameSealed = .none ∧ φ .syncSealed = .none)) :
    ∃ e s', st.publishPrepared φ (st.preparedToken c.generation) s = (.error e, s') ∧
      s'.get (.sealed c.generation.get) = some (.dir children) := by
  have hsnd : (st.sealCandidate φ (st.preparedToken c.generation) s).2 =
      st.afterSeal c.generation s := by
    rw [sealCandidate_snd (hφ.looks _) hfresh,
      if_pos ⟨(canMove_candidate hdir hfresh).mpr hfree, heffect⟩]
    rfl
  obtain ⟨e, s', herr, hsame⟩ := publishPrepared_of_unsealed (s := s) (g := c.generation) hφ (by
    rintro ⟨token, s', hdone⟩
    obtain ⟨hr, hs, -⟩ := (sealCandidate_eq_done (hφ.looks _) hfresh).mp hdone
    exact hfail ⟨hr, hs⟩)
  refine ⟨e, s', herr, ?_⟩
  rw [hsame _ (.inr ⟨_, rfl⟩), hsnd, get_afterSeal hdir, if_pos rfl]

end

theorem publishPrepared_of_sealed (hlook : φ (.look .final) = .none)
    (hdir : s.get (st.candidateDirectory c.generation) = some (.dir children))
    (hfresh : s.pathExists (.sealed c.generation.get) = false)
    (hfree : s.get (.sealed c.generation.get) = none)
    (hrename : φ .renameSealed = .none) (hsync : φ .syncSealed = .none) :
    st.publishPrepared φ (st.preparedToken c.generation) s =
      st.publishSealed φ (st.sealedToken c.generation) (st.afterSeal c.generation s) := by
  have hdone : st.sealCandidate φ (st.preparedToken c.generation) s =
      (.done (st.sealedToken c.generation), st.afterSeal c.generation s) :=
    (sealCandidate_eq_done hlook hfresh).mpr
      ⟨hrename, hsync, (canMove_candidate hdir hfresh).mpr hfree, rfl, rfl⟩
  unfold publishPrepared
  rw [bind_of_done (attempt_of_done hdone)]

theorem publishSealed_failed (hφ : φ.NoCrash) (hw : Written c children)
    (hget : t.get (.sealed c.generation.get) = some (.dir children)) (hno : ¬ Commits φ t c) :
    ∃ e t', st.publishSealed φ (st.sealedToken c.generation) t = (.error e, t') ∧
      (∀ g, g ≠ c.generation.get → t'.get (.sealed g) = t.get (.sealed g)) ∧
      ((t'.get .current = t.get .current ∧ t'.get (.sealed c.generation.get) = none) ↔
        ¬ PointerMoves φ t c ∧ CleansUp φ t c) := by
  obtain ⟨e, herr⟩ := (commitGeneration_returns hφ.returns _).exists_error
    (mt (commitGeneration_done_iff hφ.looks hw hget).mp hno)
  refine ⟨e, (st.discardSealed φ (st.sealedToken c.generation)
    (st.commitGeneration φ (st.sealedToken c.generation) t).2).2, ?_, ?_, ?_⟩
  · unfold publishSealed
    rw [bind_of_done (attempt_of_error herr)]
    exact ignore_throw_apply (discardSealed_returns hφ.returns _ _)
  · intro g hg
    rw [frame_discardSealed (by simpa [sealedToken] using hg) _ rfl,
      frame_commitGeneration (by simp) (by simp) t rfl]
  · -- The commit leaves the sealed directory, so the clean-up can be judged after it.
    obtain ⟨hmoves, hstays⟩ := commitGeneration_get_current hφ.looks hw hget
    generalize ht1 : (st.commitGeneration φ (st.sealedToken c.generation) t).2 = t1 at *
    have hget1 : t1.get (.sealed c.generation.get) = some (.dir children) := by
      rw [← ht1, frame_commitGeneration (by simp) (by simp) t rfl, hget]
    have hcur : (st.discardSealed φ (st.sealedToken c.generation) t1).2.get .current =
        t1.get .current := frame_discardSealed (by simp [sealedToken]) t1 rfl
    rw [hcur, discardSealed_get_eq_none hφ.looks hw hget1]
    by_cases hm : PointerMoves φ t c
    · -- The pointer names this generation now, so the clean-up refuses to remove it.
      obtain ⟨l, hl, hread⟩ := hmoves hm
      refine iff_of_false ?_ fun h => h.1 hm
      rintro ⟨-, hclean⟩
      have hval : pointerValue (t1.get .current) = .ok c.generation := by
        rw [hl]
        exact pointerValue_of_read hread
      rcases hclean.pointer with hnone | ⟨-, g, hg, hne⟩
      · rw [pathExists_of_pointerValue hval] at hnone
        cases hnone
      · rw [hval] at hg
        cases hg
        exact hne rfl
    · have hsame := hstays hm
      have hiff : CleansUp φ t1 c ↔ CleansUp φ t c := ⟨.congr hsame.symm, .congr hsame⟩
      rw [hiff]
      exact ⟨fun h => ⟨hm, h.2⟩, fun h => ⟨hsame, h.2⟩⟩

end Prepared

/-! ## The whole operation -/

/-- The rename that seals the candidate takes effect, whatever it reports. -/
structure Seals (st : GenerationStore) (φ : Faults) (s : Store) (c : Candidate st.sha256Hex)
    (validate : EntryName → List UInt8 → Except CoreError Unit) : Prop where
  prepares : st.Prepares φ s c
  valid : validate (st.candidateDirectory c.generation) c.config.bytes = .ok ()
  free : s.get (.sealed c.generation.get) = none
  rename : (φ .renameSealed).Completes 1

/-- The faults and the store under which a failed publication leaves nothing: the
candidate never reaches its stable path, or sealing succeeds and then committing
succeeds or fails before the pointer moves and the clean-up removes the directory. -/
def Undone (st : GenerationStore) (φ : Faults) (s : Store) (c : Candidate st.sha256Hex)
    (validate : EntryName → List UInt8 → Except CoreError Unit) : Prop :=
  ¬ st.Seals φ s c validate ∨
    (φ .renameSealed = .none ∧ φ .syncSealed = .none ∧
      (Commits φ s c ∨ (¬ PointerMoves φ s c ∧ CleansUp φ s c)))

def ErrorKeepsPublished (m : Run Unit) (s : Store) : Prop :=
  ∀ e s', m s = (.error e, s') → SamePublished s s'

variable {validate : EntryName → List UInt8 → Except CoreError Unit}

attribute [local simp] candidateDirectory

theorem errorKeepsPublished_of_error {m : Run Unit} (h : m s = (.error e, s')) :
    ErrorKeepsPublished m s ↔ SamePublished s s' := by
  constructor
  · intro hm
    exact hm e s' h
  · intro hsame e' s'' h'
    rw [h] at h'
    cases h'
    exact hsame

theorem publishWithPath_not_validated (hφ : φ.NoCrash) (hno : ¬ (st.Prepares φ s c ∧
      validate (st.candidateDirectory c.generation) c.config.bytes = .ok ())) :
    ErrorKeepsPublished (st.publishWithPath φ c validate) s := by
  unfold publishWithPath
  by_cases hp : st.Prepares φ s c
  · have hprep := (prepareCandidate_eq_done (p := st.preparedToken c.generation) hφ.looks).mpr
      ⟨hp, rfl, rfl⟩
    have hsame := prepareCandidate_samePublished (φ := φ) (c := c) s
    rw [hprep] at hsame
    generalize putCandidate c _ _ = s1 at hprep hsame
    cases hv : validate (st.candidateDirectory c.generation) c.config.bytes with
    | ok u => exact absurd ⟨hp, hv⟩ hno
    | error e =>
      have hv' : validate (st.preparedToken c.generation).directory c.config.bytes = .error e := hv
      have herr : ((ignore (st.discardPrepared φ (st.preparedToken c.generation)) :
          Run Unit) >>= fun _ => (throw e : Run Unit)) s1 = _ :=
        ignore_throw_apply (discardPrepared_returns hφ.returns _ s1)
      intro e' s' hrun
      rw [bind_of_done hprep, hv'] at hrun
      cases herr.symm.trans hrun
      exact hsame.trans (discardPrepared_samePublished st φ _ _)
  · have hnot : ¬ ∃ p s', st.prepareCandidate φ c s = (.done p, s') :=
      fun ⟨p, s', hdone⟩ => hp ((prepareCandidate_eq_done hφ.looks).mp hdone).1
    intro e s' hrun
    have hsnd := congrArg Prod.snd hrun
    rw [bind_snd_of_not_done hnot] at hsnd
    change (st.prepareCandidate φ c s).2 = s' at hsnd
    rw [← hsnd]
    exact prepareCandidate_samePublished s

theorem publishWithPath_of_validated (hlook : ∀ l, φ (.look l) = .none) (hp : st.Prepares φ s c)
    (hv : validate (st.candidateDirectory c.generation) c.config.bytes = .ok ()) : ∃ s1 children,
      st.publishWithPath φ c validate s = st.publishPrepared φ (st.preparedToken c.generation) s1 ∧
        s1.get (st.candidateDirectory c.generation) = some (.dir children) ∧ Written c children ∧
        ∀ n, n ≠ st.candidateDirectory c.generation → s1.get n = s.get n := by
  have hdone := (prepareCandidate_eq_done (p := st.preparedToken c.generation) hlook).mpr
    ⟨hp, rfl, rfl⟩
  obtain ⟨-, ⟨children, hget, hw⟩, hframe⟩ := prepareCandidate_spec hlook hdone
  refine ⟨_, children, ?_, hget, hw, hframe⟩
  have hv' : validate (st.preparedToken c.generation).directory c.config.bytes = .ok () := hv
  unfold publishWithPath
  rw [bind_of_done hdone, hv']

theorem publishSealed_keeps_iff (hφ : φ.NoCrash) (hw : Written c children)
    (hget : t.get (.sealed c.generation.get) = some (.dir children))
    (hfree : s.get (.sealed c.generation.get) = none) (hcur : t.get .current = s.get .current)
    (hother : ∀ g, g ≠ c.generation.get → t.get (.sealed g) = s.get (.sealed g)) :
    (∀ e s', st.publishSealed φ (st.sealedToken c.generation) t = (.error e, s') →
        SamePublished s s') ↔ Commits φ t c ∨ (¬ PointerMoves φ t c ∧ CleansUp φ t c) := by
  by_cases hc : Commits φ t c
  · refine iff_of_true (fun e s' herr => ?_) (.inl hc)
    obtain ⟨u, t', hdone⟩ := (commitGeneration_done_iff hφ.looks hw hget).mpr hc
    unfold publishSealed at herr
    rw [bind_of_done (attempt_of_done hdone)] at herr
    cases herr
  · obtain ⟨e, t', herr, hothers, hiff⟩ := publishSealed_failed hφ hw hget hc
    rw [or_iff_right hc, ← hiff, hcur]
    constructor
    · intro h
      have hsame := h e t' herr
      exact ⟨hsame _ (.inl rfl), (hsame _ (.inr ⟨_, rfl⟩)).trans hfree⟩
    · rintro ⟨hcur', hgone⟩ e' s' herr'
      cases herr.symm.trans herr'
      rintro n (rfl | ⟨g, rfl⟩)
      · exact hcur'
      · by_cases hg : g = c.generation.get
        · rw [hg, hgone, hfree]
        · rw [hothers g hg, hother g hg]

theorem undone_iff (hseals : st.Seals φ s c validate) (hrename : φ .renameSealed = .none)
    (hsync : φ .syncSealed = .none) (hcur : t.get .current = s.get .current)
    (htemp : t.get (.currentTemp c.generation.get) = s.get (.currentTemp c.generation.get)) :
    st.Undone φ s c validate ↔ Commits φ t c ∨ (¬ PointerMoves φ t c ∧ CleansUp φ t c) := by
  have hcommits : Commits φ s c ↔ Commits φ t c :=
    ⟨.congr hcur htemp, .congr hcur.symm htemp.symm⟩
  have hmoves : PointerMoves φ s c ↔ PointerMoves φ t c :=
    ⟨.congr hcur htemp, .congr hcur.symm htemp.symm⟩
  have hcleans : CleansUp φ s c ↔ CleansUp φ t c := ⟨.congr hcur, .congr hcur.symm⟩
  unfold Undone
  rw [hcommits, hmoves, hcleans]
  simp [hseals, hrename, hsync]

/-- For one call: it keeps what was published on every error exactly when the
faults leave something to be undone that can be undone. -/
theorem publishWithPath_keeps_iff (hφ : φ.NoCrash) :
    ErrorKeepsPublished (st.publishWithPath φ c validate) s ↔ st.Undone φ s c validate := by
  by_cases hpv : st.Prepares φ s c ∧
      validate (st.candidateDirectory c.generation) c.config.bytes = .ok ()
  swap
  · exact iff_of_true (publishWithPath_not_validated hφ hpv)
      (.inl fun hs => hpv ⟨hs.prepares, hs.valid⟩)
  obtain ⟨hp, hv⟩ := hpv
  obtain ⟨s1, children, hrun, hdir, hw, hframe⟩ := publishWithPath_of_validated hφ.looks hp hv
  -- The published part of the store is the same before and after preparing.
  have hpub : ∀ n, n.Published → s1.get n = s.get n := by
    rintro n (rfl | ⟨g, rfl⟩) <;> exact hframe _ (by simp)
  have hfresh : s1.pathExists (.sealed c.generation.get) = false := by
    have := hp.fresh
    simpa [pathExists, hpub _ (.inr ⟨_, rfl⟩)] using this
  by_cases hsealed : s1.get (.sealed c.generation.get) = none ∧ (φ .renameSealed).Completes 1
  swap
  · obtain ⟨e, s', herr, hsame⟩ := publishPrepared_not_sealed hφ hdir hfresh hsealed
    refine iff_of_true ((errorKeepsPublished_of_error (hrun.trans herr)).mpr
      fun n hn => (hsame n hn).trans (hpub n hn)) (.inl fun hs => hsealed ⟨?_, hs.rename⟩)
    rw [hpub _ (.inr ⟨_, rfl⟩), hs.free]
  obtain ⟨hfree, heffect⟩ := hsealed
  have hfree' : s.get (.sealed c.generation.get) = none := by
    rw [← hpub _ (.inr ⟨_, rfl⟩), hfree]
  have hseals : st.Seals φ s c validate := ⟨hp, hv, hfree', heffect⟩
  by_cases hok : φ .renameSealed = .none ∧ φ .syncSealed = .none
  swap
  · obtain ⟨e, s', herr, hstay⟩ := publishPrepared_seal_failed hφ hdir hfresh hfree heffect hok
    refine iff_of_false (fun h => ?_) ?_
    · have := h e s' (hrun.trans herr) (.sealed c.generation.get) (.inr ⟨_, rfl⟩)
      rw [hstay, hfree'] at this
      cases this
    · rintro (h | ⟨hr, hs, -⟩)
      · exact h hseals
      · exact hok ⟨hr, hs⟩
  -- Sealing succeeded: the store it leaves is `s` but for the sealed directory.
  have hget := get_afterSeal hdir
  have hcur : (st.afterSeal c.generation s1).get .current = s.get .current := by
    rw [hget, if_neg (by simp), if_neg (by simp), hpub _ (.inl rfl)]
  have htemp : (st.afterSeal c.generation s1).get (.currentTemp c.generation.get) =
      s.get (.currentTemp c.generation.get) := by
    rw [hget, if_neg (by simp), if_neg (by simp), hframe _ (by simp)]
  rw [undone_iff hseals hok.1 hok.2 hcur htemp]
  unfold ErrorKeepsPublished
  rw [hrun, publishPrepared_of_sealed (hφ.looks _) hdir hfresh hfree hok.1 hok.2]
  refine publishSealed_keeps_iff hφ hw (by rw [hget, if_pos rfl]) hfree' hcur fun g hg => ?_
  rw [hget, if_neg (by simpa using hg), if_neg (by simp), hpub _ (.inr ⟨_, rfl⟩)]

/-- A failed `publish` or `publish_with_path` keeps the pointer and the sealed
generations exactly under `Undone`. -/
theorem publish_error_keeps_published_iff (hφ : φ.NoCrash) (s : Store)
    (c : Candidate st.sha256Hex) :
    (∀ validate, ErrorKeepsPublished (st.publishWithPath φ c validate) s ↔
        st.Undone φ s c validate) ∧ (∀ validate, ErrorKeepsPublished (st.publish φ c validate) s ↔
        st.Undone φ s c fun _ bytes => validate bytes) :=
  ⟨fun _ => publishWithPath_keeps_iff hφ, fun _ => publishWithPath_keeps_iff hφ⟩

/-! ## Sealed generations stay as they are -/

section Immutable

variable {n : Nat} {v : Option (Node ChildName Content)} {p : PreparedCandidate}
  {validate : EntryName → List UInt8 → Except CoreError Unit}

def Operation.Discards {sha256Hex : Content → String} (n : Nat) : Operation sha256Hex → Prop
  | .discardSealed token => token.generation.get = n
  | _ => False

theorem frame_discardPrepared_sealed : Frames (.sealed n) v (st.discardPrepared φ p) := by
  obtain ⟨pid, hdir⟩ := p.directory_eq
  exact frame_discardPrepared (by simp [hdir])

theorem frame_discardSealed_sealed {token : SealedGeneration} (h : token.generation.get ≠ n) :
    Frames (.sealed n) v (st.discardSealed φ token) := by
  refine frame_discardSealed ?_
  rw [token.directory_eq]
  simpa using h.symm

theorem sealCandidate_generation {token : SealedGeneration}
    (h : st.sealCandidate φ p s = (.done token, s')) : token.generation = p.generation := by
  obtain ⟨_, _, -, h⟩ := bind_eq_done.mp h
  obtain ⟨_, _, -, h⟩ := bind_eq_done.mp h
  split at h
  · cases h
  · obtain ⟨_, _, -, h⟩ := bind_eq_done.mp h
    obtain ⟨_, _, -, h⟩ := bind_eq_done.mp h
    cases h
    rfl

theorem frame_sealCandidate_sealed (hv : Taken φ v) :
    Frames (.sealed n) v (st.sealCandidate φ p) := by
  obtain ⟨pid, hdir⟩ := p.directory_eq
  by_cases hn : n = p.generation.get
  · rintro s rfl
    subst hn
    rw [Triple.final (sealCandidate_refused hv) rfl (fun _ _ => False.elim) fun _ ht => ht]
  · exact frame_sealCandidate (by simp [hdir]) (by simpa using hn)

theorem frame_publishSealed {token : SealedGeneration} (h : token.generation.get ≠ n) :
    Frames (.sealed n) v (st.publishSealed φ token) := by
  refine .bind (.attempt (frame_commitGeneration (by simp) (by simp))) fun committing => ?_
  split
  · exact .bind (.ignore (frame_discardSealed_sealed h)) fun _ => .fail _
  · exact .ret _

theorem frame_publishPrepared (hv : Taken φ v) : Frames (.sealed n) v (st.publishPrepared φ p) := by
  refine .bind_done (.attempt (frame_sealCandidate_sealed hv)) fun s sealing t hs hrun ht => ?_
  rcases attempt_eq_done.mp hrun with ⟨token, rfl, hseal⟩ | ⟨e, rfl, -⟩
  · refine frame_publishSealed ?_ t ht
    rw [sealCandidate_generation hseal]
    rintro rfl
    have hrefused := (sealCandidate_refused (hs ▸ hv) :
      Io.Leaves (· = s) (st.sealCandidate φ p) (fun _ _ => False) (· = s)) s rfl
    rw [hseal] at hrefused
    exact hrefused
  · exact bind (ignore frame_discardPrepared_sealed) (fun _ => .fail _) t ht

/-- However it ends, a publication leaves every generation that was there. -/
theorem frame_publishWithPath (hv : Taken φ v) :
    Frames (.sealed n) v (st.publishWithPath φ c validate) := by
  refine .bind (frame_prepareCandidate (by simp [candidateDirectory])) fun p => ?_
  cases hcheck : validate p.directory c.config.bytes with
  | error e => exact bind (ignore frame_discardPrepared_sealed) fun _ => .fail _
  | ok => exact frame_publishPrepared hv

theorem exec_sealed_same (hv : Taken φ v) (operation : Operation st.sha256Hex)
    (hkeep : ¬ operation.Discards n) (hs : s.get (.sealed n) = v) :
    (st.exec φ s operation).get (.sealed n) = v := by
  cases operation with
  | prepareCandidate candidate => exact frame_prepareCandidate (by simp [candidateDirectory]) s hs
  | sealCandidate prepared => exact frame_sealCandidate_sealed hv s hs
  | commitGeneration token => exact frame_commitGeneration (by simp) (by simp) s hs
  | discardPrepared prepared => exact frame_discardPrepared_sealed s hs
  | discardSealed token => exact frame_discardSealed_sealed hkeep s hs
  | rollbackTo generation => exact frame_rollbackTo (by simp) (by simp) s hs
  | publish candidate validate
  | publishWithPath candidate validate => exact frame_publishWithPath hv s hs

/-- Whatever is called, fails or is killed, a sealed generation stays as it is until it is
discarded; so does an empty directory of that name that every lookup finds. -/
theorem execAll_sealed_same (calls : List (Call st.sha256Hex))
    (h : ∀ call ∈ calls, Taken call.faults (s.get (.sealed n)))
    (hkeep : ∀ call ∈ calls, ¬ call.operation.Discards n) :
    (st.execAll s calls).get (.sealed n) = s.get (.sealed n) := by
  have hrun : ∀ t : Store, t.get (.sealed n) = s.get (.sealed n) →
      (st.execAll t calls).get (.sealed n) = s.get (.sealed n) := by
    induction calls with
    | nil => exact fun _ ht => ht
    | cons call calls ih =>
      intro t ht
      obtain ⟨htaken, h⟩ := List.forall_mem_cons.mp h
      obtain ⟨hcall, hkeep⟩ := List.forall_mem_cons.mp hkeep
      exact ih h hkeep _ (@exec_sealed_same { st with processId := call.processId } _ _ _ _ htaken
        call.operation hcall ht)
  exact hrun s rfl

end Immutable

/-- Generation 1 through a kill while 2 is sealed and a rollback by another process. -/
theorem sampleCalls_sealed_same : (sampleStore.execAll Dir.empty sampleCalls).get (.sealed 1) =
    (sampleStore.publish noFaults (sampleCandidate .first) (fun _ => .ok ()) Dir.empty).2.get
      (.sealed 1) :=
  execAll_sealed_same
    (s := (sampleStore.publish noFaults (sampleCandidate .first) (fun _ => .ok ()) Dir.empty).2)
    sampleCalls.tail (fun _ _ => .inl rfl) (by simp [sampleCalls, Operation.Discards])

end GenerationStore

def flushFails : Faults
  | .syncSealed => .fail 0
  | _ => .none

theorem flushFails_noCrash : flushFails.NoCrash := by
  refine ⟨fun site k => ?_, fun _ => rfl⟩
  cases site <;> simp [flushFails]

/-- With a flush that fails nothing can be undone. -/
theorem publish_flushFails_iff : flushFails.NoCrash ∧ (GenerationStore.ErrorKeepsPublished
          (sampleStore.publish flushFails (sampleCandidate ⟨1, by decide, by decide⟩)
            fun _ => .ok ()) Dir.empty ↔
        sampleStore.Undone flushFails Dir.empty (sampleCandidate ⟨1, by decide, by decide⟩)
          fun _ _ => .ok ()) := ⟨flushFails_noCrash,
    (GenerationStore.publish_error_keeps_published_iff flushFails_noCrash _ _).2 _⟩

/-- On an empty store: the call reports an error, generation 1 stays sealed, and
publishing it again is refused. -/
theorem publish_flushFails_leaves_generation :
    ∃ s', sampleStore.publish flushFails (sampleCandidate ⟨1, by decide, by decide⟩)
        (fun _ => .ok ()) Dir.empty = (.error (ioError "sync_generations"), s') ∧
      ¬ SamePublished Dir.empty s' ∧
      (sampleStore.publish noFaults (sampleCandidate ⟨1, by decide, by decide⟩)
        (fun _ => .ok ()) s').1 =
          .error (publishError "reserve_generation" "generation already exists") := by
  refine ⟨_, rfl, fun h => ?_, rfl⟩
  have hsealed := h (.sealed 1) (.inr ⟨1, rfl⟩)
  cases hsealed

end NetHop.Generation
