import NetHop.Build.Convert

/-!
# Candidate pools

`candidate_pool.rs` and the attribution of nodes to sources.  The pool for the automatic
choice takes the nodes of the sources in turn, until it has as many as the configuration
allows.
-/

namespace NetHop.Build

open Generation List

def maxSources : Nat := 16

def maxAutoCandidates : Nat := 64

/-! ## Attribution -/

/-- The members of `SourceRegistryError` that `NodeAttribution::new` returns. -/
inductive AttributionError where
  | tooManyAttributions
  | invalidAttribution
  deriving DecidableEq

structure NodeAttribution where
  sourceIds : List String
  nodup : sourceIds.Nodup
  ne_nil : sourceIds ≠ []
  length_le : sourceIds.length ≤ maxSources
  deriving DecidableEq

def collectSources (ordered : List String) : List String → Except AttributionError (List String)
  | [] => .ok ordered
  | id :: ids => do
    let ordered := if id ∈ ordered then ordered else ordered ++ [id]
    ensure (ordered.length ≤ maxSources) .tooManyAttributions
    collectSources ordered ids

/-- What the pass has collected: each source once, and no more than are allowed. -/
structure Collected (ordered ids out : List String) : Prop where
  nodup : ordered.Nodup → out.Nodup
  length_le : ordered.length ≤ maxSources → out.length ≤ maxSources
  mem : ∀ id, id ∈ out ↔ id ∈ ordered ∨ id ∈ ids

theorem mem_keep (id x : String) (ordered : List String) :
    x ∈ (if id ∈ ordered then ordered else ordered ++ [id]) ↔ x ∈ ordered ∨ x = id := by
  split_ifs with hmem
  · refine ⟨.inl, ?_⟩
    rintro (h | rfl)
    · exact h
    · exact hmem
  · rw [mem_append, mem_singleton]

theorem nodup_keep {id : String} {ordered : List String} (h : ordered.Nodup) :
    (if id ∈ ordered then ordered else ordered ++ [id]).Nodup := by
  split_ifs with hmem
  · exact h
  · exact nodup_append.mpr ⟨h, nodup_singleton _, by
      rintro a ha b hb rfl
      exact hmem (mem_singleton.mp hb ▸ ha)⟩

variable {ids : List String}

theorem collectSources_eq_ok {ordered out : List String}
    (h : collectSources ordered ids = .ok out) : Collected ordered ids out := by
  induction ids generalizing ordered with
  | nil =>
    cases h
    exact ⟨id, id, fun x => by simp⟩
  | cons id ids ih =>
    simp only [collectSources, bind_eq_ok, ensure_eq_ok, decide_eq_true_eq] at h
    obtain ⟨-, hle, h⟩ := h
    obtain ⟨hnodup, hlength, hmem⟩ := ih h
    refine ⟨fun hordered => hnodup (nodup_keep hordered), fun _ => hlength hle, fun x => ?_⟩
    rw [hmem, mem_keep, mem_cons, or_assoc]

theorem exists_collectSources {ordered sources : List String} (hnodup : ordered.Nodup)
    (hordered : ordered ⊆ sources) (hids : ids ⊆ sources) (hle : sources.length ≤ maxSources) :
    ∃ out, collectSources ordered ids = .ok out := by
  induction ids generalizing ordered with
  | nil => exact ⟨ordered, rfl⟩
  | cons id ids ih =>
    obtain ⟨hid, hids⟩ := cons_subset.mp hids
    have hsub : (if id ∈ ordered then ordered else ordered ++ [id]) ⊆ sources := by
      intro x hx
      rcases (mem_keep id x ordered).mp hx with h | rfl
      · exact hordered h
      · exact hid
    have hlength := (subperm_of_subset (nodup_keep hnodup) hsub).length_le
    obtain ⟨out, hout⟩ := ih (nodup_keep hnodup) hsub hids
    refine ⟨out, ?_⟩
    simp only [collectSources, bind_eq_ok, ensure_eq_ok, decide_eq_true_eq]
    exact ⟨(), hlength.trans hle, hout⟩

def NodeAttribution.new (ids : List String) : Except AttributionError NodeAttribution :=
  match h : collectSources [] ids with
  | .error e => .error e
  | .ok out =>
    if hne : out = [] then .error .invalidAttribution
    else .ok
      { sourceIds := out
        nodup := (collectSources_eq_ok h).nodup nodup_nil
        ne_nil := hne
        length_le := (collectSources_eq_ok h).length_le (Nat.zero_le _) }

theorem NodeAttribution.mem_of_new {attribution : NodeAttribution}
    (h : new ids = .ok attribution) (id : String) : id ∈ attribution.sourceIds ↔ id ∈ ids := by
  unfold new at h
  split at h
  · cases h
  next out hout =>
    split_ifs at h
    cases h
    rw [(collectSources_eq_ok hout).mem]
    simp

theorem NodeAttribution.exists_new {sources : List String} (hne : ids ≠ [])
    (hids : ids ⊆ sources) (hle : sources.length ≤ maxSources) :
    ∃ attribution, new ids = .ok attribution := by
  obtain ⟨out, hout⟩ := exists_collectSources nodup_nil (nil_subset _) hids hle
  unfold new
  split
  next e he =>
    rw [hout] at he
    cases he
  next found hfound =>
    have hmem := (collectSources_eq_ok hfound).mem
    obtain ⟨id, hid⟩ := exists_mem_of_ne_nil _ hne
    rw [dif_neg (ne_nil_of_mem ((hmem id).mpr (.inr hid)))]
    exact ⟨_, rfl⟩

/-! ## The pools -/

inductive CandidatePoolError where
  | invalidActiveSources
  | invalidLimit
  | duplicateNode
  | emptyCandidates
  deriving DecidableEq

structure StableNodeId where
  value : String
  valid : validNodeId value = true
  deriving DecidableEq

/-- `StableNodeId::new`, whose only error is an invalid id. -/
def StableNodeId.new (value : String) : Option StableNodeId :=
  if h : validNodeId value = true then some ⟨value, h⟩ else none

structure CandidatePoolNode where
  id : StableNodeId
  attribution : NodeAttribution
  deriving DecidableEq

def CandidatePoolNode.belongs (node : CandidatePoolNode) (sourceId : String) : Bool :=
  node.attribution.sourceIds.contains sourceId

structure SourceContribution where
  sourceId : String
  candidates : Nat

structure CandidatePools where
  auto : List StableNodeId
  manual : List StableNodeId
  contributions : List SourceContribution

/-- The first index of a queue that has not been selected, and what is left behind it. -/
def nextOf (selected : List Nat) : List Nat → Option Nat × List Nat
  | [] => (none, [])
  | index :: queue => if index ∈ selected then nextOf selected queue else (some index, queue)

/-- The inner loop of `round_robin` over the sources.  The result is the queues that are
left, what has been selected, and which sources gave a node. -/
def takeTurns (max : Nat) : List (List Nat) → List Nat → List (List Nat) × List Nat × List Bool
  | [], selected => ([], selected, [])
  | queue :: queues, selected =>
    let (next, queue) := nextOf selected queue
    let selected := selected ++ next.toList
    if selected.length = max then
      (queue :: queues, selected, next.isSome :: queues.map fun _ => false)
    else
      let (queues, selected, gave) := takeTurns max queues selected
      (queue :: queues, selected, next.isSome :: gave)

/-- The outer loop of `round_robin`: each turn that selects nothing is the last. -/
def selectRounds (max : Nat) : Nat → List (List Nat) → List Nat → List Nat →
    List Nat × List Nat
  | 0, _, selected, counts => (selected, counts)
  | fuel + 1, queues, selected, counts =>
    if selected.length < max then
      let (queues, selected, gave) := takeTurns max queues selected
      if gave.any id then
        selectRounds max fuel queues selected
          (counts.zipWith (fun count gave => if gave then count + 1 else count) gave)
      else (selected, counts)
    else (selected, counts)

variable (mode : Wire.SubscriptionMode) (activeSourceIds : List String)
  (nodes : List CandidatePoolNode)

def roundRobin (max : Nat) : List StableNodeId × List Nat :=
  let queues := activeSourceIds.map fun sourceId =>
    (range nodes.length).filter fun index =>
      (nodes[index]?).any fun node => node.belongs sourceId
  -- every round but the last selects a node
  let (selected, counts) := selectRounds max max queues [] (activeSourceIds.map fun _ => 0)
  (selected.filterMap fun index => (nodes[index]?).map CandidatePoolNode.id, counts)

def validateInputs (maxCandidates : Nat) : Except CandidatePoolError Unit := do
  ensure (activeSourceIds ≠ [] ∧ activeSourceIds.length ≤ maxSources ∧ activeSourceIds.Nodup ∧
    (mode = .single → activeSourceIds.length = 1)) .invalidActiveSources
  ensure (1 ≤ maxCandidates ∧ maxCandidates ≤ maxAutoCandidates) .invalidLimit
  ensure (nodes.map CandidatePoolNode.id).Nodup .duplicateNode

def eligibleNodes : List CandidatePoolNode :=
  (nodes.filter fun node => activeSourceIds.any node.belongs).insertionSort
    fun a b => a.id.value ≤ b.id.value

/-- The pool for the automatic choice, and how many nodes each source gave. -/
def autoPool (eligible : List CandidatePoolNode) (maxCandidates : Nat) :
    List StableNodeId × List Nat :=
  match mode with
  | .single =>
    let selected := (eligible.take maxCandidates).map CandidatePoolNode.id
    (selected, selected.length :: (activeSourceIds.drop 1).map fun _ => 0)
  | .merge => roundRobin activeSourceIds eligible maxCandidates

def buildCandidatePools (maxCandidates : Nat) : Except CandidatePoolError CandidatePools := do
  validateInputs mode activeSourceIds nodes maxCandidates
  let eligible := eligibleNodes activeSourceIds nodes
  ensure (eligible ≠ []) .emptyCandidates
  let (auto, counts) := autoPool mode activeSourceIds eligible maxCandidates
  return { auto := auto
           manual := eligible.map CandidatePoolNode.id
           contributions := activeSourceIds.zipWith SourceContribution.mk counts }

end NetHop.Build
