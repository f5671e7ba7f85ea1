import NetHop.FaultIo.Outcome
import NetHop.Generation.Store

/-!
# The active generation is always complete

`ActiveSealed` says that a pointer that is set names a generation that passes
`ensure_sealed_exists`.  Each operation keeps it on every exit, killed in the
middle or not, unless a lookup fails: a pointer that is not found does not protect its
generation from being discarded, and a registry that is not found is not held against one.
-/

namespace NetHop.Generation

open FaultIo Text Io Tree Triple

/-! ## Reading the pointer -/

variable {s s' : Store}

theorem currentGeneration_eq_done {φ : Faults} {r : Option GenerationId}
    (hlook : φ (.look .current) = .none) :
    currentGeneration φ s = (.done r, s') ↔ s' = s ∧ ((s.pathExists .current = false ∧ r = none) ∨
          (s.pathExists .current = true ∧ φ .readCurrent = .none ∧
            ∃ g, pointerValue (s.get .current) = .ok g ∧ r = some g)) := by
  unfold currentGeneration
  rw [lookup_bind_apply hlook]
  cases hex : s.pathExists .current with
  | false => simp [and_comm, eq_comm]
  | true =>
    simp only [if_true, bind_eq_done, probe_eq_done, gets_bind_apply]
    cases hval : pointerValue (s.get .current) with
    | error e =>
      constructor
      · rintro ⟨_, _, ⟨_, rfl⟩, hdone⟩
        rw [hval] at hdone
        cases hdone
      · simp
    | ok g =>
      constructor
      · rintro ⟨_, _, ⟨hφ, rfl⟩, hdone⟩
        rw [hval] at hdone
        cases hdone
        simp [hφ]
      · rintro ⟨rfl, ⟨h, _⟩ | ⟨_, hφ, g', hg, rfl⟩⟩
        · cases h
        · cases hg
          refine ⟨(), s', ⟨hφ, rfl⟩, ?_⟩
          rw [hval]
          rfl

variable {g : GenerationId}

theorem pointerValue_of_read {node : Node ChildName Content}
    (h : node.read = some (GenerationStore.pointerText g)) : pointerValue (some node) = .ok g := by
  have hparse := parseU64_trim_format g.lt
  simp [pointerValue, h, GenerationStore.pointerText, hparse]

theorem pathExists_of_pointerValue (h : pointerValue (s.get .current) = .ok g) :
    s.pathExists .current = true := by
  unfold pointerValue at h
  rcases hget : s.get .current with _ | ⟨⟨f⟩ | ⟨_ | f⟩ | _⟩ | ch <;>
    simp_all [pathExists, Node.resolves, Leaf.resolves, Node.read, Leaf.read]

namespace GenerationStore

variable {st : GenerationStore} {φ : Faults}

/-! ## Verification does not depend on faults that did not happen -/

variable {children : Dir ChildName (Leaf Content)}

theorem checkRegistry_of_done {expected : String} {nodeCount : Nat} {u : Unit}
    (h : st.checkRegistry φ expected nodeCount children s = (.done u, s')) (t : Store) :
    st.checkRegistry noFaults expected nodeCount children t = (.done (), t) := by
  obtain ⟨found, _, hlook, h⟩ := bind_eq_done.mp h
  rcases lookup_eq_done.mp hlook with ⟨-, ⟨-, rfl⟩ | ⟨-, rfl⟩⟩
  swap
  · cases h
  unfold checkRegistry
  rw [lookup_bind_apply (noFaults_apply _)]
  split at h
  · cases h
  next hfile =>
    obtain ⟨_, _, hprobe, hrest⟩ := bind_eq_done.mp h
    rw [if_neg hfile]
    cases hc : contentOf (children.get .nodes) with
    | registry registry =>
      simp only [hc] at hrest ⊢
      split at hrest
      · cases hrest
      · next hok => rw [if_neg hok]; rfl
    | text chars | config bytes | manifest m | cut => simp [hc] at hrest

variable {generation : GenerationId}

section

variable (hnodes : ¬(φ (.look .nodes)).Fails)

include hnodes

theorem checkManifest_of_done {manifest : GenerationManifest} {u : Unit}
    (h : st.checkManifest φ generation children manifest s = (.done u, s')) (t : Store) :
    st.checkManifest noFaults generation children manifest t = (.done (), t) := by
  unfold checkManifest at h ⊢
  split at h
  · cases h
  next hmatch =>
    rw [if_neg hmatch]
    cases hreg : manifest.nodeRegistrySha256 with
    | some expected =>
      simp only [hreg] at h
      exact checkRegistry_of_done h t
    | none =>
      simp only [hreg] at h ⊢
      obtain ⟨found, _, hlook, h⟩ := bind_eq_done.mp h
      obtain ⟨-, ⟨-, rfl⟩ | ⟨hfails, -⟩⟩ := lookup_eq_done.mp hlook
      swap
      · exact absurd hfails hnodes
      rw [lookup_bind_apply (noFaults_apply _)]
      split at h
      · cases h
      next hnone =>
        rw [if_neg hnone]
        rfl

variable {node : Option (Node ChildName Content)} {u : Unit}

omit hnodes in
theorem checkSealed_eq_done :
    st.checkSealed φ generation node s = (.done u, s') ↔ ∃ children, node = some (.dir children) ∧
        (φ (.look .files) = .none ∧ hasFiles (some (.dir children)) = true) ∧
        φ .readManifest = .none ∧
        ∃ manifest, contentOf (children.get .manifest) = .manifest manifest ∧
          φ .readConfig = .none ∧
          st.checkManifest φ generation children manifest s = (.done u, s') := by
  unfold checkSealed
  rcases node with _ | l | children
  · simp [bind_eq_done]
  · simp [bind_eq_done]
  · cases hfiles : hasFiles (some (.dir children)) <;>
      simp [bind_eq_done, lookup_eq_done, hfiles]
    cases hcontent : contentOf (children.get .manifest) <;> simp [bind_eq_done]

theorem checkSealed_of_done (h : st.checkSealed φ generation node s = (.done u, s')) (t : Store) :
    st.checkSealed noFaults generation node t = (.done (), t) := by
  obtain ⟨children, rfl, hfiles, hrest⟩ := checkSealed_eq_done.mp h
  refine checkSealed_eq_done.mpr ⟨children, rfl, ⟨rfl, hfiles.2⟩, rfl, ?_⟩
  obtain ⟨-, manifest, hcontent, -, hmanifest⟩ := hrest
  exact ⟨manifest, hcontent, rfl, checkManifest_of_done hnodes hmanifest t⟩

end

/-- `generations/{g}` passes `ensure_sealed_exists`. -/
def Verified (st : GenerationStore) (g : GenerationId) (s : Store) : Prop :=
  st.ensureSealedExists noFaults g s = (.done (), s)

theorem Verified.congr {t : Store} (h : st.Verified g s)
    (hget : t.get (.sealed g.get) = s.get (.sealed g.get)) : st.Verified g t := by
  have hcheck : st.checkSealed noFaults g (s.get (.sealed g.get)) s = (.done (), s) := h
  show st.checkSealed noFaults g (t.get (.sealed g.get)) t = (.done (), t)
  rw [hget]
  exact checkSealed_of_done (by simp [Fault.Fails]) hcheck t

/-! ## The invariant -/

/-- No pointer is set, or it names a generation that passes verification. -/
def ActiveSealed (st : GenerationStore) (s : Store) : Prop :=
  currentGeneration noFaults s = (.done none, s) ∨
    ∃ g, currentGeneration noFaults s = (.done (some g), s) ∧ st.Verified g s

theorem activeSealed_iff : st.ActiveSealed s ↔ (s.pathExists .current = true →
        ∃ g, pointerValue (s.get .current) = .ok g ∧ st.Verified g s) := by
  unfold ActiveSealed
  simp only [currentGeneration_eq_done (noFaults_apply _), noFaults_apply]
  cases s.pathExists .current <;> simp

theorem ActiveSealed.congr {t : Store} (h : st.ActiveSealed s)
    (hcur : t.get .current = s.get .current)
    (hgen : ∀ g, pointerValue (s.get .current) = .ok g → st.Verified g s →
      t.get (.sealed g.get) = s.get (.sealed g.get)) : st.ActiveSealed t := by
  rw [activeSealed_iff] at h ⊢
  intro hset
  have hset' : s.pathExists .current = true := by
    simpa [pathExists, hcur] using hset
  obtain ⟨g, hg, hv⟩ := h hset'
  exact ⟨g, by rw [hcur, hg], hv.congr (hgen g hg hv)⟩

theorem activeSealed_of_pointer {node : Node ChildName Content}
    (hcur : s.get .current = some node) (hread : node.read = some (pointerText g))
    (hv : st.Verified g s) : st.ActiveSealed s :=
  activeSealed_iff.mpr fun _ => ⟨g, by rw [hcur, pointerValue_of_read hread], hv⟩

theorem keeps_activeSealed_of_frame {α : Type} {m : Run α}
    (h : ∀ n, n = .current ∨ (∃ g, n = .sealed g) → ∀ v,
      Frames n v m) : Io.Keeps st.ActiveSealed m := by
  intro s hs
  exact hs.congr (h .current (.inl rfl) _ s rfl) fun g _ _ =>
    h (.sealed g.get) (.inr ⟨_, rfl⟩) _ s rfl

/-! ## The operations keep it -/

variable {candidate : Candidate st.sha256Hex}

theorem prepareCandidate_keeps : Io.Keeps st.ActiveSealed (st.prepareCandidate φ candidate) := by
  refine keeps_activeSealed_of_frame fun n hn v => frame_prepareCandidate ?_
  rcases hn with rfl | ⟨g, rfl⟩ <;> simp [candidateDirectory]

variable {prepared : PreparedCandidate}

theorem discardPrepared_keeps : Io.Keeps st.ActiveSealed (st.discardPrepared φ prepared) := by
  obtain ⟨pid, hdir⟩ := prepared.directory_eq
  refine keeps_activeSealed_of_frame fun n hn v => frame_discardPrepared ?_
  rcases hn with rfl | ⟨g, rfl⟩ <;> simp [hdir]

/-- The stable path is taken by a directory that is not empty, or by what the lookup will find. -/
def Taken (φ : Faults) (v : Option (Node ChildName Content)) : Prop :=
  v.any Node.isFull = true ∨ v.any Node.resolves = true ∧ ¬(φ (.look .final)).Fails

theorem sealCandidate_refused (h : Taken φ (s.get (.sealed prepared.generation.get))) :
    Io.Leaves (fun t => t = s) (st.sealCandidate φ prepared) (fun _ _ => False)
      (fun t => t = s) := by
  refine bind (keeps_iff_triple.mp keeps_ensureOwned) fun _ => ?_
  refine bind (Q := fun reserved t => t = s ∧ (reserved = false →
    (s.get (.sealed prepared.generation.get)).any Node.isFull = true))
    (.lookup ?_ ?_ fun _ ht => ht) fun reserved => ?_
  · rintro t rfl
    refine ⟨rfl, fun hfree => h.resolve_right fun ⟨hres, _⟩ => ?_⟩
    rw [pathExists, hres] at hfree
    cases hfree
  · exact fun hfails t ht => ⟨ht, fun _ => h.resolve_right fun ⟨_, hlook⟩ => hlook hfails⟩
  · split
    · exact .fail fun _ ht => ht.1
    · next hfree =>
      refine bind (Q := fun _ _ => False) (refused ?_ (fun _ ht => ht.1) fun _ ht => ht.1)
        fun _ _ => False.elim
      rintro t ⟨rfl, hfull⟩
      have hfull := hfull (by simpa using hfree)
      refine if_neg ?_
      unfold canMove
      rcases htarget : t.get (.sealed prepared.generation.get) with _ | _ | children <;>
        rw [htarget] at hfull
      · cases hfull
      · cases hfull
      · rcases t.get prepared.directory with _ | _ | _ <;> simp_all

theorem Verified.isFull (h : st.Verified g s) : (s.get (.sealed g.get)).any Node.isFull = true := by
  have hcheck : st.checkSealed noFaults g (s.get (.sealed g.get)) s = (.done (), s) := h
  obtain ⟨children, hget, ⟨-, hfiles⟩, -⟩ := checkSealed_eq_done.mp hcheck
  have hconfig : .config ∈ children.names := by
    rw [Dir.mem_names]
    cases hget : children.get .config <;> simp_all [hasFiles, isPrivateRegularFile]
  rw [hget]
  simpa [Node.isFull] using List.ne_nil_of_mem hconfig

theorem sealCandidate_keeps : Io.Keeps st.ActiveSealed (st.sealCandidate φ prepared) := by
  obtain ⟨pid, hdir⟩ := prepared.directory_eq
  intro s hs
  refine hs.congr (frame_sealCandidate (by simp [hdir]) (by simp) s rfl) fun g _ hv => ?_
  by_cases heq : g.get = prepared.generation.get
  · have hfull := hv.isFull
    rw [heq] at hfull
    rw [final (sealCandidate_refused (.inl hfull)) rfl (fun _ _ => False.elim) fun _ ht => ht]
  · exact frame_sealCandidate (by simp [hdir]) (by simpa using heq) s rfl

theorem writeCurrent_keeps :
    Io.Leaves (fun t => st.ActiveSealed t ∧ st.Verified g t) (writeCurrent φ g)
      (fun _ => st.ActiveSealed) st.ActiveSealed := by
  -- The temporary file is neither the pointer nor a generation.
  have htemp : Keeps (fun t => st.ActiveSealed t ∧ st.Verified g t)
      (writeSync (φ .writeCurrent) (ioError "write_current")
        (.entry (.currentTemp g.get)) (pointerText g)) := by
    rintro t ⟨ht, hv⟩
    exact ⟨ht.congr (frame_writeSync (by simp [Slot.top]) t rfl) fun _ _ _ =>
        frame_writeSync (by simp [Slot.top]) t rfl,
      hv.congr (frame_writeSync (by simp [Slot.top]) t rfl)⟩
  refine bind (Q := fun _ t => (st.ActiveSealed t ∧ st.Verified g t) ∧
    ∃ l, t.get (.currentTemp g.get) = some (.leaf l) ∧ l.read = some (pointerText g))
    ((of_keeps htemp ?_).otherwise fun _ h => h.1) fun _ => ?_
  · intro t a t' ht hdone
    have hkeep := htemp t ht
    rw [hdone] at hkeep
    obtain ⟨-, -, rfl⟩ := writeSync_eq_done.mp hdone
    obtain ⟨l, hget, hread, -⟩ := get_put_entry (κ := ChildName)
      (.currentTemp g.get) ⟨pointerText g, true⟩ t
    exact ⟨hkeep, l, hget, hread⟩
  · have hrename : ∀ t, ((st.ActiveSealed t ∧ st.Verified g t) ∧
        ∃ l, t.get (.currentTemp g.get) = some (.leaf l) ∧ l.read = some (pointerText g)) →
        st.ActiveSealed (rename (φ .renameCurrent) (ioError "publish_current")
            (.currentTemp g.get) .current t).2 := by
      rintro t ⟨⟨ht, hv⟩, l, hget, hread⟩
      rw [rename_snd]
      split
      · have hmoved : (move (.currentTemp g.get) .current t).get .current = some (.leaf l) := by
          rw [get_move, hget]
          rfl
        refine activeSealed_of_pointer hmoved hread (hv.congr ?_)
        rw [get_move, hget]
        rfl
      · exact ht
    exact bind (of_snd hrename) fun _ =>
      keeps_iff_triple.mp (Keeps.probe _ _)

section

variable (hnodes : ¬(φ (.look .nodes)).Fails)

include hnodes

/-- Verification followed by the switch of the pointer, as in `commit_generation`
and `rollback_to`. -/
theorem rollbackTo_keeps : Io.Keeps st.ActiveSealed (st.rollbackTo φ g) := by
  refine keeps (bind (Q := fun _ t => st.ActiveSealed t ∧
    st.Verified g t) (of_keeps keeps_ensureSealedExists ?_) fun _ => writeCurrent_keeps)
  intro t u t' ht hdone
  have hsame : t' = t := Keeps.state_eq keeps_ensureSealedExists hdone
  subst hsame
  exact ⟨ht, checkSealed_of_done hnodes hdone _⟩

variable {token : SealedGeneration}

theorem commitGeneration_keeps : Io.Keeps st.ActiveSealed (st.commitGeneration φ token) :=
  .bind keeps_ensureOwned fun _ => rollbackTo_keeps hnodes

end

/-- The pointer is read before a generation is removed, and a pointer that is found but cannot
be read stops the removal. -/
theorem discardSealed_keeps (hcurrent : ¬(φ (.look .current)).Fails) :
    Io.Keeps st.ActiveSealed (st.discardSealed φ token) := by
  refine Keeps.bind keeps_ensureOwned fun _ => keeps ?_
  refine bind (Q := fun r t => st.ActiveSealed t ∧
    ∀ g, pointerValue (t.get .current) = .ok g → r = some g)
    (.of_keeps keeps_currentGeneration ?_) fun r => ?_
  · intro t r t' ht hdone
    have hlook : φ (.look .current) = .none := by
      obtain ⟨_, _, hfound, -⟩ := bind_eq_done.mp hdone
      obtain ⟨-, ⟨hlook, -⟩ | ⟨hfails, -⟩⟩ := lookup_eq_done.mp hfound
      · exact hlook
      · exact absurd hfails hcurrent
    obtain ⟨rfl, ⟨hnone, -⟩ | ⟨-, -, g, hg, rfl⟩⟩ := (currentGeneration_eq_done hlook).mp hdone
    · refine ⟨ht, fun g hg => ?_⟩
      rw [pathExists_of_pointerValue hg] at hnone
      cases hnone
    · refine ⟨ht, fun g' hg' => ?_⟩
      rw [hg] at hg'
      cases hg'
      rfl
  · refine .of_snd fun t ⟨ht, hr⟩ => ?_
    by_cases hactive : r = some token.generation
    · simp only [removeInactive, if_pos hactive, throw_apply]
      exact ht
    · refine ht.congr (frame_removeInactive (by simp [token.directory_eq]) t rfl) ?_
      intro g hg _
      have hother : g ≠ token.generation := by
        rintro rfl
        exact hactive (hr _ hg)
      refine frame_removeInactive ?_ t rfl
      simpa [token.directory_eq, GenerationId.ext_iff] using hother

/-! ## Runs -/

/-- The lookups of the pointer and of a registry do not fail. -/
@[mk_iff] structure Sighted (φ : Faults) : Prop where
  current : ¬(φ (.look .current)).Fails
  nodes : ¬(φ (.look .nodes)).Fails

theorem publishPrepared_keeps (hφ : Sighted φ) :
    Io.Keeps st.ActiveSealed (st.publishPrepared φ prepared) := by
  refine .bind (.attempt sealCandidate_keeps) fun sealing => ?_
  split
  · exact .bind (.ignore discardPrepared_keeps) fun _ => .fail _
  · refine .bind (.attempt (commitGeneration_keeps hφ.nodes)) fun committing => ?_
    split
    · exact .bind (.ignore (discardSealed_keeps hφ.current)) fun _ => .fail _
    · exact .ret _

theorem publishWithPath_keeps (hφ : Sighted φ)
    {validate : EntryName → List UInt8 → Except CoreError Unit} :
    Io.Keeps st.ActiveSealed (st.publishWithPath φ candidate validate) := by
  refine .bind prepareCandidate_keeps fun prepared => ?_
  split
  · exact .bind (.ignore discardPrepared_keeps) fun _ => .fail _
  · exact publishPrepared_keeps hφ

/-- One call of the store.  Tokens are arbitrary: whoever holds one may use it. -/
inductive Operation (sha256Hex : Content → String) where
  | prepareCandidate (candidate : Candidate sha256Hex)
  | sealCandidate (prepared : PreparedCandidate)
  | commitGeneration (token : SealedGeneration)
  | discardPrepared (prepared : PreparedCandidate)
  | discardSealed (token : SealedGeneration)
  | rollbackTo (generation : GenerationId)
  | publish (candidate : Candidate sha256Hex)
      (validate : List UInt8 → Except CoreError Unit)
  | publishWithPath (candidate : Candidate sha256Hex)
      (validate : EntryName → List UInt8 → Except CoreError Unit)

/-- The store a call leaves behind, whether it returns or is killed. -/
def exec (st : GenerationStore) (φ : Faults) (s : Store) : Operation st.sha256Hex → Store
  | .prepareCandidate candidate => (st.prepareCandidate φ candidate s).2
  | .sealCandidate prepared => (st.sealCandidate φ prepared s).2
  | .commitGeneration token => (st.commitGeneration φ token s).2
  | .discardPrepared prepared => (st.discardPrepared φ prepared s).2
  | .discardSealed token => (st.discardSealed φ token s).2
  | .rollbackTo generation => (st.rollbackTo φ generation s).2
  | .publish candidate validate => (st.publish φ candidate validate s).2
  | .publishWithPath candidate validate => (st.publishWithPath φ candidate validate s).2

/-- A call, the faults it meets and the process that makes it: after a crash the
next call comes from another process. -/
structure Call (sha256Hex : Content → String) where
  processId : Nat
  faults : Faults
  operation : Operation sha256Hex

def execAll (st : GenerationStore) (s : Store) (calls : List (Call st.sha256Hex)) : Store :=
  calls.foldl (fun t call =>
    exec { st with processId := call.processId } call.faults t call.operation) s

theorem exec_activeSealed (h : st.ActiveSealed s) (hφ : Sighted φ)
    (operation : Operation st.sha256Hex) : st.ActiveSealed (st.exec φ s operation) := by
  cases operation with
  | prepareCandidate candidate => exact prepareCandidate_keeps s h
  | sealCandidate prepared => exact sealCandidate_keeps s h
  | commitGeneration token => exact commitGeneration_keeps hφ.nodes s h
  | discardPrepared prepared => exact discardPrepared_keeps s h
  | discardSealed token => exact discardSealed_keeps hφ.current s h
  | rollbackTo generation => exact rollbackTo_keeps hφ.nodes s h
  | publish candidate validate
  | publishWithPath candidate validate => exact publishWithPath_keeps hφ s h

/-- Whatever is called on a store, with whatever other failures and crashes, a pointer
that is set names a generation that passes verification. -/
theorem execAll_activeSealed {s : Store} (h : st.ActiveSealed s)
    (calls : List (Call st.sha256Hex)) (hsighted : ∀ call ∈ calls, Sighted call.faults) :
    st.ActiveSealed (st.execAll s calls) := by
  induction calls generalizing s with
  | nil => exact h
  | cons call calls ih =>
    -- The process id plays no part in the invariant.
    have hcall : ({ st with processId := call.processId } : GenerationStore).ActiveSealed s := h
    obtain ⟨hφ, hrest⟩ := List.forall_mem_cons.mp hsighted
    exact ih (exec_activeSealed hcall hφ call.operation) hrest

/-- Generation 1 is published, then the process is killed while it seals generation
2 and another one rolls back to 1. -/
def sampleCalls : List (Call sampleStore.sha256Hex) :=
  [ ⟨7, noFaults, .publish (sampleCandidate .first) fun _ => .ok ()⟩,
    ⟨7, fun | .renameSealed => .crash 1 | _ => .none,
      .publish (sampleCandidate .second) fun _ => .ok ()⟩,
    ⟨8, noFaults, .rollbackTo .first⟩ ]

theorem execAll_sampleCalls_activeSealed : sampleStore.ActiveSealed Dir.empty ∧
      (currentGeneration noFaults (sampleStore.execAll Dir.empty sampleCalls)).1 =
        .done (some ⟨1, by decide, by decide⟩) ∧
      sampleStore.ActiveSealed (sampleStore.execAll Dir.empty sampleCalls) :=
  ⟨.inl rfl, rfl, execAll_activeSealed (.inl rfl) sampleCalls
    (by simp [sampleCalls, sighted_iff, Fault.Fails])⟩

/-- Generation 1 is published, but the last flush fails, and then the lookup of the pointer. -/
def blindCall : Call sampleStore.sha256Hex where
  processId := 7
  faults
    | .syncCurrent | .look .current => .fail 0
    | _ => .none
  operation := .publish (sampleCandidate .first) fun _ => .ok ()

/-- The pointer names the generation that was then discarded. -/
theorem blindCall_dangling : sampleStore.ActiveSealed Dir.empty ∧
    ¬ sampleStore.ActiveSealed (sampleStore.execAll Dir.empty [blindCall]) := by
  refine ⟨.inl rfl, ?_⟩
  rintro (hnone | ⟨g, hread, hverified⟩)
  · cases hnone
  · cases hread
    cases hverified

end GenerationStore

end NetHop.Generation
