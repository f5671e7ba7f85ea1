import NetHop.Benchmark.Control

/-!
# The node an automatic selection chooses

`chooseAutoTarget` goes through the pool once and leaves the node it has for one that is faster by
more than the tolerance.  What it ends with is at most the tolerance slower than any node of the
pool, and the current node is left only for one that is faster by more than that.
-/

namespace NetHop.Benchmark

open List

/-- The outcomes of one benchmark: a node has one, and a latency is a `u32`. -/
structure OutcomeSet (outcomes : List NodeProbeOutcome) : Prop where
  nodup : (outcomes.map NodeProbeOutcome.nodeId).Nodup
  u32 : ∀ o ∈ outcomes, ∀ delay ∈ o.latencyMs, delay < 2 ^ 32

/-- The node has a successful result with this latency. -/
def Reached (outcomes : List NodeProbeOutcome) (nodeId : String) (delay : Nat) : Prop :=
  ∃ o ∈ outcomes, o.nodeId = nodeId ∧ o.succeeded = true ∧ o.latencyMs = some delay

variable {outcomes outcomes' : List NodeProbeOutcome} {nodeId : String} {tolerance : Nat}

theorem delayOf_eq_some (h : OutcomeSet outcomes) {delay : Nat} :
    delayOf outcomes nodeId = some delay ↔ Reached outcomes nodeId delay := by
  unfold delayOf Reached
  rw [Option.bind_eq_some_iff]
  constructor
  · rintro ⟨o, hfind, hdelay⟩
    have hfound := find?_some hfind
    rw [Bool.and_eq_true, beq_iff_eq] at hfound
    exact ⟨o, mem_of_find?_eq_some hfind, hfound.1, hfound.2, hdelay⟩
  · rintro ⟨o, ho, rfl, hsucceeded, hdelay⟩
    obtain ⟨found, hfind⟩ : ∃ found, outcomes.find? (fun p => p.nodeId == o.nodeId && p.succeeded) =
        some found := by
      rw [← Option.isSome_iff_exists, find?_isSome]
      exact ⟨o, ho, by rw [hsucceeded, beq_self_eq_true]; rfl⟩
    have hfound := find?_some hfind
    rw [Bool.and_eq_true, beq_iff_eq] at hfound
    have hsame : found = o := inj_on_of_nodup_map h.nodup (mem_of_find?_eq_some hfind) ho hfound.1
    exact ⟨o, hsame ▸ hfind, hdelay⟩

theorem delayOf_perm (h : OutcomeSet outcomes) (hperm : outcomes.Perm outcomes') :
    delayOf outcomes' = delayOf outcomes := by
  have h' : OutcomeSet outcomes' :=
    ⟨(hperm.map _).nodup_iff.mp h.nodup, fun o ho => h.u32 o (hperm.mem_iff.mpr ho)⟩
  ext nodeId delay
  rw [delayOf_eq_some h', delayOf_eq_some h]
  simp only [Reached, hperm.mem_iff]

/-! ## The loop -/

/-- What the loop makes of what it started with, over these nodes. -/
structure Chosen (delay : String → Option Nat) (tolerance : Nat) (nodeIds : List String)
    (start selected : Option (String × Nat)) : Prop where
  source : ∀ p ∈ selected, p ∈ start ∨ p.1 ∈ nodeIds ∧ p.2 ∈ delay p.1 ∧
    ∀ q ∈ start, p.2 + tolerance < q.2
  start : ∀ q ∈ start, ∃ p ∈ selected, p.2 ≤ q.2
  near : ∀ nodeId ∈ nodeIds, ∀ d ∈ delay nodeId, ∃ p ∈ selected, p.2 ≤ d + tolerance

variable {delay : String → Option Nat} {nodeIds : List String} {start : Option (String × Nat)}

theorem better_chosen (hstart : ∀ p ∈ start, p.2 < 2 ^ 32) :
    Chosen delay tolerance [nodeId] start (better delay tolerance start nodeId) := by
  unfold better
  cases hdelay : delay nodeId with
  | none => exact ⟨fun p hp => .inl hp, fun q hq => ⟨q, hq, Nat.le_refl _⟩, by simp [hdelay]⟩
  | some d =>
    cases start with
    | none => exact ⟨by simp [hdelay], nofun, by simp [hdelay]⟩
    | some q =>
      have hq := hstart q rfl
      dsimp only
      split
      · exact ⟨by simp [hdelay]; omega, by simp; omega, by simp [hdelay]⟩
      · exact ⟨fun p hp => .inl hp, by simp, by simp [hdelay]; omega⟩

theorem foldl_chosen (hdelay : ∀ n, ∀ d ∈ delay n, d < 2 ^ 32) (hstart : ∀ p ∈ start, p.2 < 2 ^ 32)
    (nodeIds : List String) :
    Chosen delay tolerance nodeIds start (nodeIds.foldl (better delay tolerance) start) := by
  induction nodeIds generalizing start with
  | nil => exact ⟨fun p hp => .inl hp, fun q hq => ⟨q, hq, Nat.le_refl _⟩, nofun⟩
  | cons nodeId nodeIds ih =>
    have hfirst : Chosen delay tolerance [nodeId] start (better delay tolerance start nodeId) :=
      better_chosen hstart
    have hnext : ∀ p ∈ better delay tolerance start nodeId, p.2 < 2 ^ 32 := by
      intro p hp
      rcases hfirst.source p hp with hp | ⟨-, hp, -⟩
      · exact hstart p hp
      · exact hdelay _ _ hp
    have hrest := ih hnext
    refine ⟨fun p hp => ?_, fun q hq => ?_, fun n hn d hd => ?_⟩
    · rcases hrest.source p hp with hp | ⟨hmem, hp, hlt⟩
      · rcases hfirst.source p hp with hp | ⟨hmem, hp, hlt⟩
        · exact .inl hp
        · exact .inr ⟨mem_singleton.mp hmem ▸ mem_cons_self, hp, hlt⟩
      · refine .inr ⟨mem_cons_of_mem _ hmem, hp, fun q hq => ?_⟩
        obtain ⟨r, hr, hle⟩ := hfirst.start q hq
        exact Nat.lt_of_lt_of_le (hlt r hr) hle
    · obtain ⟨r, hr, hle⟩ := hfirst.start q hq
      obtain ⟨p, hp, hle'⟩ := hrest.start r hr
      exact ⟨p, hp, Nat.le_trans hle' hle⟩
    · rcases mem_cons.mp hn with rfl | hn
      · obtain ⟨r, hr, hle⟩ := hfirst.near n mem_cons_self d hd
        obtain ⟨p, hp, hle'⟩ := hrest.start r hr
        exact ⟨p, hp, Nat.le_trans hle' hle⟩
      · exact hrest.near n hn d hd

/-! ## The decision -/

/-- The latency is at most the tolerance above that of any node of the pool. -/
def NearOptimal (pool : List String) (outcomes : List NodeProbeOutcome) (tolerance delay : Nat) :
    Prop := ∀ nodeId ∈ pool, ∀ d, Reached outcomes nodeId d → delay ≤ d + tolerance

/-- A switch is to a node of the pool that is near the best, and away from a current node without
a result or one that is slower by more than the tolerance; a current node that is kept is near the
best if any node was reached. -/
def Decides (pool : List String) (outcomes : List NodeProbeOutcome) (current : Option String)
    (tolerance : Nat) : AutoSelectionDecision → Prop
  | .switch nodeId => nodeId ∈ pool ∧ some nodeId ≠ current ∧
      ∃ delay, Reached outcomes nodeId delay ∧ NearOptimal pool outcomes tolerance delay ∧
        ∀ c ∈ current, ∀ d, Reached outcomes c d → delay + tolerance < d
  | .keep => (∃ nodeId ∈ pool, ∃ d, Reached outcomes nodeId d) →
      ∃ c ∈ current, ∃ delay, Reached outcomes c delay ∧ NearOptimal pool outcomes tolerance delay

theorem chooseAutoTarget_decides (pool : List String) (h : OutcomeSet outcomes)
    (current : Option String) (tolerance : Nat) : Decides pool outcomes current tolerance
        (chooseAutoTarget pool outcomes current tolerance) ∧ ∀ outcomes', outcomes.Perm outcomes' →
        chooseAutoTarget pool outcomes' current tolerance =
          chooseAutoTarget pool outcomes current tolerance := by
  refine ⟨?_, fun outcomes' hperm => ?_⟩
  · have hstart : ∀ p : String × Nat,
        p ∈ (current.bind fun nodeId => (delayOf outcomes nodeId).map (nodeId, ·)) ↔
          p.1 ∈ current ∧ Reached outcomes p.1 p.2 := by
      simp [Option.bind_eq_some_iff, delayOf_eq_some h]
    have hu32 {n : String} {d : Nat} : Reached outcomes n d → d < 2 ^ 32 := by
      rintro ⟨o, ho, -, -, hd⟩
      exact h.u32 o ho d hd
    obtain ⟨hsource, -, hnear⟩ : Chosen (delayOf outcomes) tolerance pool _ _ :=
      foldl_chosen (fun n d hd => hu32 ((delayOf_eq_some h).mp hd))
        (fun p hp => hu32 ((hstart p).mp hp).2) pool
    unfold chooseAutoTarget
    dsimp only
    generalize pool.foldl (better (delayOf outcomes) tolerance) _ = selected at hsource hnear ⊢
    cases selected with
    | none =>
      rintro ⟨n, hn, d, hd⟩
      obtain ⟨p, hp, -⟩ := hnear n hn d ((delayOf_eq_some h).mpr hd)
      cases hp
    | some p =>
      have hbest : NearOptimal pool outcomes tolerance p.2 := by
        intro n hn d hd
        obtain ⟨_, ⟨⟩, hle⟩ := hnear n hn d ((delayOf_eq_some h).mpr hd)
        exact hle
      dsimp only
      rcases hsource p rfl with hp | ⟨hmem, hdelay, hlt⟩
      · obtain ⟨hcurrent, hreached⟩ := (hstart p).mp hp
        rw [if_pos (Option.mem_def.mp hcurrent).symm]
        exact fun _ => ⟨p.1, hcurrent, p.2, hreached, hbest⟩
      · have hreached : Reached outcomes p.1 p.2 := (delayOf_eq_some h).mp hdelay
        split
        · next hsame => exact fun _ => ⟨p.1, hsame.symm, p.2, hreached, hbest⟩
        next hother =>
          refine ⟨hmem, hother, p.2, hreached, hbest, fun c hc d hd => ?_⟩
          exact hlt (c, d) ((hstart (c, d)).mpr ⟨hc, hd⟩)
  · unfold chooseAutoTarget
    rw [delayOf_perm h hperm]

def sampleOutcomes : List NodeProbeOutcome :=
  [⟨"a", .success, some 150, 0, 0⟩, ⟨"b", .success, some 100, 0, 0⟩, ⟨"c", .timeout, none, 0, 0⟩]

theorem sampleOutcomes_decided :
    chooseAutoTarget ["a", "b", "c"] sampleOutcomes (some "a") 49 = .switch "b" ∧
      Decides ["a", "b", "c"] sampleOutcomes (some "a") 49 (.switch "b") :=
  ⟨by decide, (chooseAutoTarget_decides ["a", "b", "c"] ⟨by decide, by decide⟩ (some "a") 49).1⟩

end NetHop.Benchmark
