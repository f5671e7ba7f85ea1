import NetHop.RuleSet.Recovery
import NetHop.Text

/-!
# Preparing a candidate pair

`prepare` works in a candidate directory of its own and leaves the rest of the
root alone.  When it returns a token the directory holds both halves.
-/

namespace NetHop.RuleSet

open FaultIo Io Tree String

/-! ## Names -/

def isPlain (c : Char) : Bool := c.isAlphanum || c == '.' || c == '-'

variable (tag : Tag)

theorem plainName_tag (stem tail : String)
    (hstem : stem.toList.all isPlain = true) (htail : tail.toList.all isPlain = true)
    (hlen : stem.length + tail.length ≤ 87) : plainName (stem ++ (tag.text ++ tail)) = true := by
  have hdigits : ∀ n : Nat, (toString n).toList.all isPlain = true := by
    intro n
    rw [List.all_eq_true]
    intro c hc
    simp [isPlain, Char.isAlphanum, Text.isDigit_of_mem_toString hc]
  have hlength : tag.text.length ≤ 41 := by
    have hprocess := Text.length_toString_le (n := tag.process)
      (Nat.lt_trans tag.process_lt (by decide))
    have hsequence := Text.length_toString_le tag.sequence_lt
    unfold Tag.text
    rw [length_append, length_append, show "-".length = 1 by decide]
    omega
  have htext : tag.text.toList.all isPlain = true := by
    unfold Tag.text
    rw [toList_append, toList_append, List.all_append, List.all_append, hdigits, hdigits]
    decide
  unfold plainName
  rw [Bool.and_eq_true]
  constructor
  · rw [decide_eq_true_eq, length_append, length_append]
    omega
  · change (stem ++ (tag.text ++ tail)).toList.all isPlain = true
    rw [toList_append, toList_append, List.all_append, List.all_append, hstem, htext, htail]
    rfl

theorem Tag.valid_journal : tag.journal.valid = true := by
  have hcandidate : plainName (".candidate-ruleset-" ++ tag.text) = true := by
    have := plainName_tag tag ".candidate-ruleset-" "" (by decide) (by decide) (by decide)
    rwa [append_empty] at this
  have hdomain := plainName_tag tag ".previous-domain-" ".srs" (by decide) (by decide) (by decide)
  have hip := plainName_tag tag ".previous-ip-" ".srs" (by decide) (by decide) (by decide)
  unfold RuleSetJournal.valid
  simp only [Tag.journal, Tag.candidate, Tag.previousDomain, Tag.previousIp, hcandidate, hdomain,
    hip]
  decide

theorem Tag.names : Names tag.journal := names_of_valid tag.valid_journal

/-! ## Outside the candidates -/

/-- The names that do not belong to a candidate. -/
def Outside (n : RuleName) : Prop := ∀ c, n ≠ .candidate c

theorem Outside.ne {n : RuleName} (h : Outside n) (tag : Tag) : n ≠ tag.candidate := h _

theorem outside_journal : Outside .journal := fun _ => by simp

theorem outside_current (s : Side) : Outside s.current := s.current_ne_candidate

theorem outside_previous (s : Side) : Outside (s.previous tag.journal) := tag.names.ne_candidate s

section SameOn

variable {t u : Store} {p : Pair}

theorem CompletePair.sameOn (h : CompletePair t p) (hsame : Tree.SameOn Outside t u) :
    CompletePair u p := fun s => (contentAt_congr (hsame _ (outside_current s))).trans (h s)

theorem Guard.sameOn {tag : Tag} (h : Guard tag.journal p t) (htidy : Tidy u)
    (hsame : Tree.SameOn Outside t u) : Guard tag.journal p u :=
  h.of_frame htidy (hsame _ outside_journal) fun s =>
    restored_congr (hsame _ (outside_current s)) (hsame _ (outside_previous tag s))

theorem Clean.sameOn (h : Clean p t) (htidy : Tidy u) (hsame : Tree.SameOn Outside t u) :
    Clean p u where
  tidy := htidy
  absent := (journalState_congr (hsame _ outside_journal)).trans h.absent
  complete := h.complete.sameOn hsame

theorem Recoverable.sameOn (h : Recoverable p t) (htidy : Tidy u)
    (hsame : Tree.SameOn Outside t u) : Recoverable p u := by
  refine ⟨htidy, ?_⟩
  have hs := h.settles
  unfold Settles at hs ⊢
  rw [journalState_congr (hsame _ outside_journal)]
  cases hj : journalState t with
  | valid j =>
    rw [hj] at hs
    obtain ⟨-, -, -, hvalid⟩ := journalState_eq_valid.mp hj
    have hn := names_of_valid hvalid
    intro s
    exact (restored_congr (hsame _ (outside_current s)) (hsame _ (hn.ne_candidate s))).trans (hs s)
  | absent | unreadable =>
    rw [hj] at hs
    exact .sameOn hs hsame

end SameOn

/-! ## Effects inside a candidate -/

variable {t : Store}

theorem Tidy.makeDir (h : Tidy t) (tag : Tag) : Tidy (Tree.makeDir tag.candidate t) := by
  intro m v hv
  rw [get_makeDir] at hv
  split at hv
  next hm =>
    cases hv
    rw [hm]
    rfl
  · exact h m v hv

theorem Tidy.putChild (h : Tidy t) (n : RuleName) (k : CandidateFile)
    (f : File RuleContent) : Tidy (Tree.put (.child n k) f t) := by
  intro m v hv
  by_cases hm : m = n
  · subst hm
    cases hn : t.get m with
    | none =>
      have hsame : put (.child m k) f t = t := by simp [put, Slot.top, hn]
      rw [hsame] at hv
      exact h m v hv
    | some node =>
      have hkind := h m node hn
      cases node with
      | leaf l =>
        have hsame : put (.child m k) f t = t := by simp [put, Slot.top, hn]
        rw [hsame] at hv
        exact h m v hv
      | dir children =>
        rw [get_put_child hn] at hv
        cases hv
        -- A directory with one child more is still a directory.
        cases m <;> exact hkind
  · rw [get_put_ne hm] at hv
    exact h m v hv

/-- `u` differs from `t` only in candidates. -/
def Beside (t u : Store) : Prop := Tidy u ∧ Tree.SameOn Outside t u

theorem Beside.refl (h : Tidy t) : Beside t t := ⟨h, SameOn.refl t⟩

variable {ε : Type}

theorem keeps_beside {α : Type} {m : Io Store ε α} (htidy : Io.Keeps Tidy m)
    (hframe : ∀ n, Outside n → ∀ v, Io.Keeps (fun u : Store => u.get n = v) m) :
    Io.Keeps (Beside t) m := fun u hu => ⟨htidy u hu.1, hu.2.trans (sameOn_of_frame hframe u)⟩

theorem keeps_beside_removeDirAll {reason : ε} {φ : Fault} (tag : Tag) :
    Io.Keeps (Beside t) (Tree.removeDirAll φ reason tag.candidate : Io Store ε Unit) :=
  keeps_beside (keeps_tidy_removeDirAll _) fun _ hn _ => frame_removeDirAll (hn.ne tag)

/-! ## Staging -/

def HalfStaged (c : RuleName) (pair : Pair) (s : Side) (t : Store) : Prop :=
  ∃ children f, t.get c = some (.dir children) ∧ children.get s.file = some (.file f) ∧
    f.content = .bytes (s.pick pair)

def Staged (c : RuleName) (pair : Pair) (t : Store) : Prop := ∀ s, HalfStaged c pair s t

def stagingSites : List Site :=
  [.createCandidate, .writeDomain, .writeIp, .writeConfig, .syncCandidate]

/-- Some call of the staging fails, or the checker rejects the candidate. -/
def StagingStops (φ : Faults) (checks : Bool) : Prop :=
  checks = true → ∃ site ∈ stagingSites, φ site ≠ .none

section Stage

variable {st : RuleSetStore} {φ : Faults} {tag : Tag} {pair : Pair} {checks : Bool} {t : Store}

theorem stageAndCheck_triple (hcreate : φ .createCandidate = .none) :
    Io.Leaves (fun u => u.get tag.candidate = some (.dir .empty) ∧ Beside t u)
      (stageAndCheck φ tag.candidate pair checks)
      (fun _ u => ¬ StagingStops φ checks ∧ Staged tag.candidate pair u ∧ Beside t u)
      (fun u => StagingStops φ checks ∧ Beside t u) := by
  have hwrite : ∀ (site : Site) (k : CandidateFile) (content : RuleContent)
      (children : Dir CandidateFile (Leaf RuleContent)), site ∈ stagingSites →
      children.get k = none →
      Leaves (fun u => u.get tag.candidate = some (.dir children) ∧ Beside t u)
        (writeNew (φ site) .stageFailed (.child tag.candidate k) content : Run Unit)
        (fun _ u => φ site = .none ∧ u.get tag.candidate =
          some (.dir (children.set k (.file ⟨content, true⟩))) ∧ Beside t u)
        (fun u => StagingStops φ checks ∧ Beside t u) := by
    intro site k content children hsite hk
    have hkeeps : Io.Keeps (Beside t)
        (writeNew (φ site) .stageFailed (.child tag.candidate k) content : Run Unit) :=
      keeps_beside (keeps_writeNew fun f _ ht => ht.putChild _ _ f)
        fun _ hn _ => frame_writeNew (hn.ne tag)
    exact (((writeNew_child_triple hk).frame hkeeps).post
      fun _ _ h => ⟨h.1.1, h.1.2, h.2⟩).otherwise fun _ h => ⟨fun _ => ⟨site, hsite, h.1⟩, h.2⟩
  refine .bind (hwrite .writeDomain .domain _ _ (by decide) (Dir.get_empty _))
    fun _ => .assuming fun hdomain => ?_
  refine .bind (hwrite .writeIp .ip _ _ (by decide) (by simp)) fun _ => .assuming fun hip => ?_
  refine .bind (hwrite .writeConfig .config _ _ (by decide) (by simp))
    fun _ => .assuming fun hconfig => ?_
  refine .bind (Q := fun _ u => φ .syncCandidate = .none ∧
    Staged tag.candidate pair u ∧ Beside t u) ?_ fun _ => .assuming fun hsync => ?_
  · have hstops : φ .syncCandidate ≠ .none → StagingStops φ checks :=
      fun h _ => ⟨.syncCandidate, by decide, h⟩
    refine .call (l := []) (fun _ _ => rfl) (fun hφ u hu => ⟨hφ, fun s => ?_, hu.2⟩)
      (fun k hk u hu => ?_) fun k hk u hu => ?_
    · cases s with
      | domain => exact ⟨_, ⟨.bytes pair.1, true⟩, hu.1, by simp [Side.file], rfl⟩
      | ip => exact ⟨_, ⟨.bytes pair.2, true⟩, hu.1, by simp [Side.file], rfl⟩
    · rw [List.take_nil]
      exact ⟨hstops (by simp [hk]), hu.2⟩
    · rw [List.take_nil]
      exact ⟨hstops (by simp [hk]), hu.2⟩
  · cases checks with
    | false => exact .fail fun u hu => ⟨by simp [StagingStops], hu.2⟩
    | true =>
      refine .ret fun u hu => ⟨fun hstops => ?_, hu⟩
      obtain ⟨site, hsite, hφ⟩ := hstops rfl
      simp only [stagingSites, List.mem_cons, List.not_mem_nil, or_false] at hsite
      rcases hsite with rfl | rfl | rfl | rfl | rfl
      · exact hφ hcreate
      · exact hφ hdomain
      · exact hφ hip
      · exact hφ hconfig
      · exact hφ hsync

theorem dropCandidate_keeps : Io.Keeps (Beside t) (dropCandidate φ tag.candidate) :=
  (keeps_beside_removeDirAll tag).ignore

theorem stagePair_triple : Io.Triple (Beside t) (stagePair st φ tag pair checks)
      (fun r u => Beside t u ∧ r = .prepared ⟨st.root, tag⟩ ∧ Staged tag.candidate pair u ∧
        ¬ StagingStops φ checks)
      (fun _ => Beside t) (fun u => Beside t u ∧ StagingStops φ checks) := by
  refine .bind (Q := fun _ u => φ .createCandidate = .none ∧
    u.get tag.candidate = some (.dir .empty) ∧ Beside t u) ?_ fun _ => .assuming fun hcreate => ?_
  · intro u hu
    have hkeep : Beside t (createDir (φ .createCandidate) RuleSetError.stageFailed
        tag.candidate u).2 :=
      keeps_beside (keeps_createDir fun _ ht => ht.makeDir tag)
        (fun _ hn _ => frame_createDir (hn.ne tag)) u hu
    rcases hrun : createDir (φ .createCandidate) RuleSetError.stageFailed tag.candidate u
      with ⟨o, u'⟩
    rw [hrun] at hkeep
    cases o with
    | done a =>
      obtain ⟨hφ, -, rfl⟩ := createDir_eq_done.mp hrun
      exact ⟨hφ, by simp, hkeep⟩
    | error e => exact hkeep
    | crashed =>
      refine ⟨hkeep, fun _ => ⟨.createCandidate, by decide, fun hφ => ?_⟩⟩
      unfold createDir step at hrun
      split at hrun <;> simp_all
  · refine .bind (Q := fun r u => Beside t u ∧
      ((r = .ok () ∧ Staged tag.candidate pair u ∧ ¬ StagingStops φ checks) ∨
        ((∃ e, r = .error e) ∧ StagingStops φ checks)))
      (.attempt ((stageAndCheck_triple hcreate).conseq (fun _ h => h)
        (fun _ _ h => ⟨h.2.2, .inl ⟨rfl, h.2.1, h.1⟩⟩)
        (fun e _ h => ⟨h.2, .inr ⟨⟨e, rfl⟩, h.1⟩⟩) fun _ h => ⟨h.2, h.1⟩)) fun r => ?_
    cases r with
    | ok a =>
      refine .ret fun u hu => ?_
      rcases hu.2 with h | h
      · exact ⟨hu.1, rfl, h.2⟩
      · obtain ⟨⟨e, he⟩, -⟩ := h
        cases he
    | error e =>
      intro u hu
      have hstops : StagingStops φ checks := by
        rcases hu.2 with h | h
        · cases h.1
        · exact h.2
      have hdrop : Triple (Beside t) (dropCandidate φ tag.candidate) (fun _ => Beside t)
          (fun _ => Beside t) (fun u => Beside t u ∧ StagingStops φ checks) :=
        (keeps_iff_triple.mp dropCandidate_keeps).stops (fun _ _ h => h) fun _ h => ⟨h, hstops⟩
      exact hdrop.bind (fun _ => .fail fun _ h => h) u hu.1

def unchanged (t : Store) (pair : Pair) : Bool :=
  sameContent t .domain pair.1 && sameContent t .ip pair.2

theorem prepare_triple (htidy : Tidy t) : Io.Triple (fun u => u = t) (prepare st φ tag pair checks)
      (fun r u => Beside t u ∧ ∀ pr, r = .prepared pr →
        pr = ⟨st.root, tag⟩ ∧ Staged tag.candidate pair u ∧ ¬ StagingStops φ checks ∧
          unchanged t pair = false) (fun _ => Beside t)
      (fun u => Beside t u ∧ StagingStops φ checks ∧ unchanged t pair = false) := by
  have hexcept : ∀ (r : Except RuleSetError Unit) (k : Run RuleSetPreparation)
      {Q : RuleSetPreparation → Store → Prop} {C : Store → Prop},
      Triple (fun u => u = t) k Q (fun _ => Beside t) C →
      Triple (fun u => u = t) (ofExcept r >>= fun _ => k) Q (fun _ => Beside t) C := by
    intro r k Q C hk
    cases r with
    | ok a => exact hk
    | error e =>
      rintro u rfl
      exact .refl htidy
  refine hexcept _ _ (hexcept _ _ ?_)
  refine .bind (Q := fun _ u => u = t) (.look fun _ h => h) fun regular => ?_
  cases regular with
  | false =>
    rintro u rfl
    exact .refl htidy
  | true =>
    refine .bind (Q := fun same u => u = t ∧ same = unchanged t pair)
      (.look fun u hu => ⟨hu, by rw [hu]; rfl⟩) fun same => ?_
    cases same with
    | true =>
      rintro u ⟨rfl, -⟩
      exact ⟨.refl htidy, nofun⟩
    | false =>
      rintro u ⟨rfl, hsame⟩
      refine (stagePair_triple.conseq (fun _ h => h) ?_ (fun _ _ h => h) ?_) u (.refl htidy)
      · rintro r u' ⟨hbeside, rfl, hstaged, hruns⟩
        refine ⟨hbeside, fun pr hpr => ?_⟩
        cases hpr
        exact ⟨rfl, hstaged, hruns, hsame.symm⟩
      · exact fun u' h => ⟨h.1, h.2, hsame.symm⟩

end Stage

end NetHop.RuleSet
