import NetHop.Events.Hub

/-!
# What a subscriber has still to read

A hub numbers its records upwards and holds each of them once.  Of the records a hub holds
a subscriber has the pending ones still to read, and `nextFrame` takes the oldest.
-/

namespace NetHop.Events

open List Option EventHub

namespace EventHub

def Holds (hub : EventHub) (e : EventRecord) : Prop :=
  e ∈ hub.events ∨ hub.latestTraffic = some e ∨ hub.latestNodeActive = some e

/-- The records of a hub are numbered upwards, below the next number. -/
structure Numbered (hub : EventHub) : Prop where
  room : 0 < hub.capacity
  ordered : hub.events.Pairwise fun a b => a.sequence < b.sequence
  below : ∀ e, hub.Holds e → 0 < e.sequence ∧ e.sequence < hub.nextSequence
  unique : ∀ a b, hub.Holds a → hub.Holds b → a.sequence = b.sequence → a = b
  normal : ∀ e ∈ hub.events, e.kind.ephemeral = false
  traffic : ∀ e, hub.latestTraffic = some e → e.kind = .traffic
  nodeActive : ∀ e, hub.latestNodeActive = some e → e.kind = .nodeActive
  positive : 0 < hub.nextSequence

theorem numbered_new {snapshot : Json} {capacity : Nat} {hub : EventHub}
    (h : new snapshot capacity = .ok hub) : hub.Numbered := by
  unfold new at h
  split_ifs at h with hpolicy
  injection h with h
  subst h
  have hroom : capacity ≠ 0 := fun hzero => hpolicy (.inl hzero)
  constructor <;> simp [Holds, Nat.pos_of_ne_zero hroom]

variable {hub : EventHub} {kind : EventKind} {payload : Json} {e : EventRecord}

theorem makeRoom_sublist : hub.makeRoom.Sublist hub.events := by
  unfold makeRoom
  split_ifs
  · exact drop_sublist 1 hub.events
  · exact .refl _

theorem nextSequence_publish (hobject : payload.isObject = true)
    (hroom : hub.nextSequence < u64Max) :
    (hub.publish kind payload).nextSequence = hub.nextSequence + 1 := by
  have hnext : max (saturatingSucc hub.nextSequence) 1 = hub.nextSequence + 1 := by
    unfold saturatingSucc
    omega
  unfold publish
  split_ifs <;> exact hnext

theorem events_publish : (hub.publish kind payload).events =
      if payload.isObject = true ∧ kind.ephemeral = false then
        hub.makeRoom ++ [hub.record kind payload] else hub.events := by
  unfold publish
  cases hobject : payload.isObject with
  | false => simp
  | true => cases kind <;> simp [EventKind.ephemeral]

theorem latestTraffic_publish : (hub.publish kind payload).latestTraffic =
      if payload.isObject = true ∧ kind = .traffic then some (hub.record kind payload)
      else hub.latestTraffic := by
  unfold publish
  cases hobject : payload.isObject with
  | false => simp
  | true => cases kind <;> simp

theorem latestNodeActive_publish : (hub.publish kind payload).latestNodeActive =
      if payload.isObject = true ∧ kind = .nodeActive then some (hub.record kind payload)
      else hub.latestNodeActive := by
  unfold publish
  cases hobject : payload.isObject with
  | false => simp
  | true => cases kind <;> simp

theorem holds_publish (h : (hub.publish kind payload).Holds e) :
    hub.Holds e ∨ e = hub.record kind payload := by
  unfold Holds at h
  rw [events_publish, latestTraffic_publish, latestNodeActive_publish] at h
  rcases h with h | h | h <;> split_ifs at h
  · rcases mem_append.mp h with h | h
    · exact .inl (.inl (makeRoom_sublist.subset h))
    · exact .inr (mem_singleton.mp h)
  · exact .inl (.inl h)
  · exact .inr (some.inj h).symm
  · exact .inl (.inr (.inl h))
  · exact .inr (some.inj h).symm
  · exact .inl (.inr (.inr h))

@[simp] theorem capacity_publish : (hub.publish kind payload).capacity = hub.capacity := by
  unfold publish
  split_ifs <;> rfl

theorem Numbered.head_le (h : hub.Numbered) {oldest : EventRecord}
    (hhead : oldest ∈ hub.events.head?) (he : e ∈ hub.events) : oldest.sequence ≤ e.sequence := by
  have hordered := h.ordered
  cases hevents : hub.events with
  | nil =>
    rw [hevents] at he
    cases he
  | cons first rest =>
    rw [hevents] at he hhead hordered
    cases hhead
    rcases mem_cons.mp he with rfl | he
    · exact Nat.le_refl _
    · exact Nat.le_of_lt ((pairwise_cons.mp hordered).1 e he)

theorem Numbered.evicted (h : hub.Numbered) (he : e ∈ hub.events) (hgone : e ∉ hub.makeRoom)
    {kept : EventRecord} (hkept : kept ∈ hub.makeRoom) : e.sequence < kept.sequence := by
  unfold makeRoom at hgone hkept
  split_ifs at hgone hkept
  · have hordered := h.ordered
    cases hevents : hub.events with
    | nil =>
      rw [hevents] at he
      cases he
    | cons first rest =>
      rw [hevents] at he hgone hkept hordered
      rcases mem_cons.mp he with rfl | he
      · exact (pairwise_cons.mp hordered).1 kept hkept
      · exact absurd he hgone
  · exact absurd he hgone

theorem Numbered.publish (h : hub.Numbered) (hroom : hub.nextSequence < u64Max) :
    (hub.publish kind payload).Numbered := by
  cases hobject : payload.isObject with
  | false =>
    unfold EventHub.publish
    rw [hobject]
    exact h
  | true =>
    have hnext : (hub.publish kind payload).nextSequence = hub.nextSequence + 1 :=
      nextSequence_publish hobject hroom
    have hnew : ∀ e, hub.Holds e → e.sequence < (hub.record kind payload).sequence :=
      fun e he => (h.below e he).2
    constructor
    case room =>
      rw [capacity_publish]
      exact h.room
    case ordered =>
      rw [events_publish]
      split_ifs with hring
      · rw [pairwise_append]
        refine ⟨h.ordered.sublist makeRoom_sublist, pairwise_singleton _ _, ?_⟩
        intro a ha b hb
        rw [mem_singleton.mp hb]
        exact hnew a (.inl (makeRoom_sublist.subset ha))
      · exact h.ordered
    case below =>
      intro e he
      rw [hnext]
      rcases holds_publish he with hold | rfl
      · have hbelow := h.below e hold
        omega
      · exact ⟨h.positive, Nat.lt_succ_self _⟩
    case unique =>
      intro a b ha hb hsame
      rcases holds_publish ha with holda | rfl
      · rcases holds_publish hb with holdb | rfl
        · exact h.unique a b holda holdb hsame
        · exact absurd hsame (Nat.ne_of_lt (hnew a holda))
      · rcases holds_publish hb with holdb | rfl
        · exact absurd hsame.symm (Nat.ne_of_lt (hnew b holdb))
        · rfl
    case normal =>
      intro e he
      rw [events_publish] at he
      split_ifs at he with hring
      · rcases mem_append.mp he with hold | hnew
        · exact h.normal e (makeRoom_sublist.subset hold)
        · rw [mem_singleton.mp hnew]
          exact hring.2
      · exact h.normal e he
    case traffic =>
      intro e he
      rw [latestTraffic_publish] at he
      split_ifs at he with hkind
      · rw [← some.inj he]
        exact hkind.2
      · exact h.traffic e he
    case nodeActive =>
      intro e he
      rw [latestNodeActive_publish] at he
      split_ifs at he with hkind
      · rw [← some.inj he]
        exact hkind.2
      · exact h.nodeActive e he
    case positive => omega

end EventHub

namespace EventSubscription

variable {self : EventSubscription} {hub : EventHub} {e : EventRecord}

/-- A record the subscriber has still to be given. -/
inductive Pending (self : EventSubscription) (hub : EventHub) (e : EventRecord) : Prop where
  | normal (held : e ∈ hub.events) (unread : self.cursor ≤ e.sequence)
      (accepted : self.accepts e.kind = true)
  | traffic (enabled : self.trafficEnabled = true) (latest : hub.latestTraffic = some e)
      (unread : self.trafficCursor < e.sequence)
  | nodeActive (enabled : self.nodeActiveEnabled = true) (latest : hub.latestNodeActive = some e)
      (unread : self.nodeActiveCursor < e.sequence)

theorem Pending.holds (h : self.Pending hub e) : hub.Holds e := by
  cases h with
  | normal held _ _ => exact .inl held
  | traffic _ latest _ => exact .inr (.inl latest)
  | nodeActive _ latest _ => exact .inr (.inr latest)

theorem pending_iff : self.Pending hub e ↔
      (e ∈ hub.events ∧ self.cursor ≤ e.sequence ∧ self.accepts e.kind = true) ∨
      (self.trafficEnabled = true ∧ hub.latestTraffic = some e ∧ self.trafficCursor < e.sequence) ∨
      (self.nodeActiveEnabled = true ∧ hub.latestNodeActive = some e ∧
        self.nodeActiveCursor < e.sequence) := by
  constructor
  · rintro (⟨held, unread, accepted⟩ | ⟨enabled, latest, unread⟩ | ⟨enabled, latest, unread⟩)
    · exact .inl ⟨held, unread, accepted⟩
    · exact .inr (.inl ⟨enabled, latest, unread⟩)
    · exact .inr (.inr ⟨enabled, latest, unread⟩)
  · rintro (⟨held, unread, accepted⟩ | ⟨enabled, latest, unread⟩ | ⟨enabled, latest, unread⟩)
    · exact .normal held unread accepted
    · exact .traffic enabled latest unread
    · exact .nodeActive enabled latest unread

theorem pending_publish {kind : EventKind} {payload : Json}
    (h : self.Pending (hub.publish kind payload) e) :
    self.Pending hub e ∨ e = hub.record kind payload := by
  rw [pending_iff, events_publish, latestTraffic_publish, latestNodeActive_publish] at h
  rcases h with ⟨held, unread, accepted⟩ | ⟨enabled, latest, unread⟩ | ⟨enabled, latest, unread⟩
  · split_ifs at held
    · rcases mem_append.mp held with hold | hnew
      · exact .inl (.normal (makeRoom_sublist.subset hold) unread accepted)
      · exact .inr (mem_singleton.mp hnew)
    · exact .inl (.normal held unread accepted)
  · split_ifs at latest
    · exact .inr (some.inj latest).symm
    · exact .inl (.traffic enabled latest unread)
  · split_ifs at latest
    · exact .inr (some.inj latest).symm
    · exact .inl (.nodeActive enabled latest unread)

theorem traffic_eq_some : self.traffic hub = some e ↔
      self.trafficEnabled = true ∧ hub.latestTraffic = some e ∧
        self.trafficCursor < e.sequence := by
  unfold traffic
  cases self.trafficEnabled <;> simp [filter_eq_some_iff]

theorem nodeActive_eq_some : self.nodeActive hub = some e ↔
      self.nodeActiveEnabled = true ∧ hub.latestNodeActive = some e ∧
        self.nodeActiveCursor < e.sequence := by
  unfold nodeActive
  cases self.nodeActiveEnabled <;> simp [filter_eq_some_iff]

theorem normal_eq_some (hub_ordered : hub.Numbered) (h : self.normal hub = some e) :
    (e ∈ hub.events ∧ self.cursor ≤ e.sequence ∧ self.accepts e.kind = true) ∧
      ∀ p ∈ hub.events, self.cursor ≤ p.sequence → self.accepts p.kind = true →
        e.sequence ≤ p.sequence := by
  obtain ⟨he, older, newer, hevents, hskipped⟩ := find?_eq_some_iff_append.mp h
  simp only [Bool.and_eq_true, decide_eq_true_eq] at he
  refine ⟨⟨mem_of_find?_eq_some h, he⟩, fun p hp hunread haccepted => ?_⟩
  have hordered := hub_ordered.ordered
  rw [hevents, pairwise_append, pairwise_cons] at hordered
  rw [hevents] at hp
  rcases mem_append.mp hp with hp | hp
  · have hskip := hskipped p hp
    simp [hunread, haccepted] at hskip
  · rcases mem_cons.mp hp with rfl | hp
    · exact Nat.le_refl _
    · exact Nat.le_of_lt (hordered.2.1.1 p hp)

theorem ephemeral_eq_some {isTraffic : Bool} (h : self.ephemeral hub = some (e, isTraffic)) :
    (if isTraffic then self.traffic hub = some e else self.nodeActive hub = some e) ∧
      (∀ p, self.traffic hub = some p → e.sequence ≤ p.sequence) ∧
      (∀ p, self.nodeActive hub = some p → e.sequence ≤ p.sequence) := by
  unfold ephemeral at h
  cases htraffic : self.traffic hub with
  | none =>
    cases hactive : self.nodeActive hub with
    | none => simp [htraffic, hactive] at h
    | some n =>
      simp only [htraffic, hactive, some.injEq, Prod.mk.injEq] at h
      obtain ⟨rfl, rfl⟩ := h
      simp
  | some t =>
    cases hactive : self.nodeActive hub with
    | none =>
      simp only [htraffic, hactive, some.injEq, Prod.mk.injEq] at h
      obtain ⟨rfl, rfl⟩ := h
      simp
    | some n =>
      simp only [htraffic, hactive] at h
      split_ifs at h with hle <;> simp only [some.injEq, Prod.mk.injEq] at h <;>
        obtain ⟨rfl, rfl⟩ := h
      · simp [hle]
      · simp
        omega

theorem ephemeral_eq_none (h : self.ephemeral hub = none) :
    self.traffic hub = none ∧ self.nodeActive hub = none := by
  unfold ephemeral at h
  cases htraffic : self.traffic hub <;> cases hactive : self.nodeActive hub <;>
    simp only [htraffic, hactive] at h
  · exact ⟨rfl, rfl⟩
  · cases h
  · cases h
  · split_ifs at h

theorem overrun_eq_true : self.overrun hub = true ↔
    ∃ oldest ∈ hub.events.head?, self.cursor < oldest.sequence := by
  unfold overrun
  cases hub.events.head? <;> simp

/-- What one pass of `nextFrame` can do.  A delivered record is the oldest that is pending,
and what is pending afterwards is newer. -/
inductive Pass (self : EventSubscription) (hub : EventHub) :
    Option Item → EventSubscription → Prop where
  | snapshot (value : Json) (stored : self.initialSnapshot = some value) :
      Pass self hub (some (.snapshot value)) { self with initialSnapshot := none }.item
  | resync (live : self.initialSnapshot = none) (lost : self.overrun hub = true) :
      Pass self hub (some .resyncRequired)
        { self with cursor := hub.nextSequence, initialSnapshot := some hub.snapshot }.item
  | event (record : EventRecord) (self' : EventSubscription)
      (live : self.initialSnapshot = none) (inTime : self.overrun hub = false)
      (pending : self.Pending hub record)
      (left : ∀ p, self'.Pending hub p → self.Pending hub p ∧ record.sequence < p.sequence)
      (advanced : (record ∈ hub.events ∧ self'.cursor = record.sequence + 1) ∨
        (record ∉ hub.events ∧ self'.cursor = self.cursor))
      (oldest : ∀ p, self.Pending hub p → record.sequence ≤ p.sequence)
      (live' : self'.initialSnapshot = none) (kinds : self'.kinds = self.kinds) :
      Pass self hub (some (.event record)) self'
  | wait (live : self.initialSnapshot = none) (inTime : self.overrun hub = false)
      (idle : ∀ p, ¬ self.Pending hub p) :
      Pass self hub none { self with cursor := max self.cursor hub.nextSequence }

section

variable (hhub : hub.Numbered)

include hhub

theorem le_of_pending {k : Nat} (hnormal : ∀ n, self.normal hub = some n → k ≤ n.sequence)
    (htraffic : ∀ t, self.traffic hub = some t → k ≤ t.sequence)
    (hactive : ∀ a, self.nodeActive hub = some a → k ≤ a.sequence)
    (p : EventRecord) (hp : self.Pending hub p) : k ≤ p.sequence := by
  cases hp with
  | normal held unread accepted =>
    cases hfirst : self.normal hub with
    | none =>
      have hnone := find?_eq_none.mp hfirst p held
      simp [unread, accepted] at hnone
    | some n =>
      exact Nat.le_trans (hnormal n hfirst) ((normal_eq_some hhub hfirst).2 p held unread accepted)
  | traffic enabled latest unread =>
    exact htraffic p (traffic_eq_some.mpr ⟨enabled, latest, unread⟩)
  | nodeActive enabled latest unread =>
    exact hactive p (nodeActive_eq_some.mpr ⟨enabled, latest, unread⟩)

theorem lt_of_pending_ne {p : EventRecord} (he : self.Pending hub e)
    (hp : self.Pending hub p) (hle : e.sequence ≤ p.sequence) (hne : p ≠ e) :
    e.sequence < p.sequence := by
  refine Nat.lt_of_le_of_ne hle fun hsame => hne ?_
  exact hhub.unique p e hp.holds he.holds hsame.symm

theorem not_mem_of_traffic (h : hub.latestTraffic = some e) : e ∉ hub.events := by
  intro he
  have hnormal := hhub.normal e he
  rw [hhub.traffic e h] at hnormal
  cases hnormal

theorem not_mem_of_nodeActive (h : hub.latestNodeActive = some e) : e ∉ hub.events := by
  intro he
  have hnormal := hhub.normal e he
  rw [hhub.nodeActive e h] at hnormal
  cases hnormal

theorem traffic_ne_nodeActive {p : EventRecord}
    (h : hub.latestTraffic = some e) (hp : hub.latestNodeActive = some p) : p ≠ e := by
  rintro rfl
  have hkind := hhub.traffic p h
  rw [hhub.nodeActive p hp] at hkind
  cases hkind

end

section

variable (hhub : hub.Numbered) (live : self.initialSnapshot = none)
  (inTime : self.overrun hub = false) (holdest : ∀ p, self.Pending hub p → e.sequence ≤ p.sequence)

include hhub live inTime holdest

theorem pass_event {self' : EventSubscription} (hpending : self.Pending hub e)
    (hleft : ∀ p, self'.Pending hub p → self.Pending hub p ∧ p ≠ e)
    (hadvanced : (e ∈ hub.events ∧ self'.cursor = e.sequence + 1) ∨
      (e ∉ hub.events ∧ self'.cursor = self.cursor))
    (hsame : self'.initialSnapshot = self.initialSnapshot ∧ self'.kinds = self.kinds) :
    self.Pass hub (some (.event e)) self' := by
  refine .event e self' live inTime hpending (fun p hp => ?_) hadvanced holdest
    (hsame.1.trans live) hsame.2
  obtain ⟨hp, hne⟩ := hleft p hp
  exact ⟨hp, lt_of_pending_ne hhub hpending hp (holdest p hp) hne⟩

theorem pass_normal (hmax : hub.nextSequence ≤ u64Max) (he : self.normal hub = some e) :
    self.Pass hub (some (.event e)) { self with cursor := saturatingSucc e.sequence }.item := by
  obtain ⟨⟨held, unread, accepted⟩, -⟩ := normal_eq_some hhub he
  have hsucc : saturatingSucc e.sequence = e.sequence + 1 := by
    have hbelow := hhub.below e (.inl held)
    unfold saturatingSucc
    omega
  rw [hsucc]
  refine pass_event hhub live inTime holdest (.normal held unread accepted) (fun p hp => ?_)
    (.inl ⟨held, rfl⟩) ⟨rfl, rfl⟩
  cases hp with
  | normal held' unread' accepted' =>
    have hlt : e.sequence + 1 ≤ p.sequence := unread'
    refine ⟨.normal held' (by omega) accepted', ?_⟩
    rintro rfl
    omega
  | traffic enabled latest unread' =>
    exact ⟨.traffic enabled latest unread', fun heq => not_mem_of_traffic hhub latest (heq ▸ held)⟩
  | nodeActive enabled latest unread' =>
    exact ⟨.nodeActive enabled latest unread',
      fun heq => not_mem_of_nodeActive hhub latest (heq ▸ held)⟩

theorem pass_traffic (he : self.traffic hub = some e) :
    self.Pass hub (some (.event e)) { self with trafficCursor := e.sequence }.item := by
  obtain ⟨enabled, latest, unread⟩ := traffic_eq_some.mp he
  have hring := not_mem_of_traffic hhub latest
  refine pass_event hhub live inTime holdest (.traffic enabled latest unread) (fun p hp => ?_)
    (.inr ⟨hring, rfl⟩) ⟨rfl, rfl⟩
  cases hp with
  | normal held unread accepted =>
    exact ⟨.normal held unread accepted, fun heq => hring (heq ▸ held)⟩
  | traffic enabled' latest' unread' =>
    rw [latest] at latest'
    cases latest'
    exact absurd unread' (Nat.lt_irrefl _)
  | nodeActive enabled' latest' unread' =>
    exact ⟨.nodeActive enabled' latest' unread', traffic_ne_nodeActive hhub latest latest'⟩

theorem pass_nodeActive (he : self.nodeActive hub = some e) :
    self.Pass hub (some (.event e)) { self with nodeActiveCursor := e.sequence }.item := by
  obtain ⟨enabled, latest, unread⟩ := nodeActive_eq_some.mp he
  have hring := not_mem_of_nodeActive hhub latest
  refine pass_event hhub live inTime holdest (.nodeActive enabled latest unread) (fun p hp => ?_)
    (.inr ⟨hring, rfl⟩) ⟨rfl, rfl⟩
  cases hp with
  | normal held unread accepted =>
    exact ⟨.normal held unread accepted, fun heq => hring (heq ▸ held)⟩
  | traffic enabled' latest' unread' =>
    exact ⟨.traffic enabled' latest' unread', (traffic_ne_nodeActive hhub latest' latest).symm⟩
  | nodeActive enabled' latest' unread' =>
    rw [latest] at latest'
    cases latest'
    exact absurd unread' (Nat.lt_irrefl _)

end

variable (hhub : hub.Numbered) (hmax : hub.nextSequence ≤ u64Max)

include hhub hmax

theorem nextEvent_pass (live : self.initialSnapshot = none) :
    self.Pass hub (self.nextEvent hub).1 (self.nextEvent hub).2 := by
  unfold nextEvent
  cases inTime : self.overrun hub with
  | true => exact .resync live inTime
  | false =>
    unfold normalFirst
    cases hnormal : self.normal hub with
    | none =>
      cases hephemeral : self.ephemeral hub with
      | none =>
        obtain ⟨htraffic, hactive⟩ := ephemeral_eq_none hephemeral
        refine .wait live inTime fun p hp => ?_
        have hle := le_of_pending (k := p.sequence + 1) hhub (by simp [hnormal])
          (by simp [htraffic]) (by simp [hactive]) p hp
        omega
      | some chosen =>
        obtain ⟨e, isTraffic⟩ := chosen
        obtain ⟨hchosen, htraffic, hactive⟩ := ephemeral_eq_some hephemeral
        have holdest := le_of_pending hhub (by simp [hnormal]) htraffic hactive
        cases isTraffic with
        | true => exact pass_traffic hhub live inTime holdest hchosen
        | false => exact pass_nodeActive hhub live inTime holdest hchosen
    | some n =>
      cases hephemeral : self.ephemeral hub with
      | none =>
        obtain ⟨htraffic, hactive⟩ := ephemeral_eq_none hephemeral
        refine pass_normal hhub live inTime ?_ hmax hnormal
        exact le_of_pending hhub (by simp [hnormal]) (by simp [htraffic]) (by simp [hactive])
      | some chosen =>
        obtain ⟨e, isTraffic⟩ := chosen
        obtain ⟨hchosen, htraffic, hactive⟩ := ephemeral_eq_some hephemeral
        dsimp only
        by_cases hlt : n.sequence < e.sequence
        · rw [if_pos hlt]
          refine pass_normal hhub live inTime ?_ hmax hnormal
          refine le_of_pending hhub (by simp [hnormal]) ?_ ?_
          · exact fun t ht => Nat.le_trans (Nat.le_of_lt hlt) (htraffic t ht)
          · exact fun a ha => Nat.le_trans (Nat.le_of_lt hlt) (hactive a ha)
        · rw [if_neg hlt]
          have holdest : ∀ p, self.Pending hub p → e.sequence ≤ p.sequence := by
            refine le_of_pending hhub ?_ htraffic hactive
            intro m hm
            rw [hnormal] at hm
            cases hm
            omega
          cases isTraffic with
          | true => exact pass_traffic hhub live inTime holdest hchosen
          | false => exact pass_nodeActive hhub live inTime holdest hchosen

theorem nextFrame_pass : self.Pass hub (self.nextFrame hub).1 (self.nextFrame hub).2 := by
  unfold nextFrame
  cases live : self.initialSnapshot with
  | some value => exact .snapshot value live
  | none => exact nextEvent_pass hhub hmax live

end EventSubscription

end NetHop.Events
