import NetHop.Events.Pending
import NetHop.Runs

/-!
# Sessions of a subscriber

A subscriber's session with a hub that others publish to.  The trace of a session has an
entry for every publication and for every frame, with the hub and the subscription as they
were just before.  `Session.Sound` accounts for every event that was published, and every
step keeps it.
-/

namespace NetHop.Events

open List EventSubscription EventHub

inductive HubAction where
  | publish (kind : EventKind) (payload : Json)
  | replaceSnapshot (snapshot : Json)
  | join (kinds : List EventKind)
  | leave (trafficEnabled : Bool)

def EventHub.next (hub : EventHub) : HubAction → EventHub
  | .publish kind payload => hub.publish kind payload
  | .replaceSnapshot snapshot => hub.replaceSnapshot snapshot
  | .join kinds =>
    match hub.subscribe kinds with
    | .ok (_, hub') => hub'
    | .error _ => hub
  | .leave trafficEnabled => hub.leave trafficEnabled

inductive Act where
  | published (record : EventRecord)
  | frame (item : Item)

structure Entry where
  hub : EventHub
  self : EventSubscription
  act : Act

structure Session where
  hub : EventHub
  self : EventSubscription
  trace : List Entry := []

inductive Action where
  | hub (action : HubAction)
  | nextFrame

namespace Session

def publication (s : Session) : HubAction → List Entry
  | .publish kind payload =>
    if payload.isObject then [⟨s.hub, s.self, .published (s.hub.record kind payload)⟩] else []
  | _ => []

def next (s : Session) : Action → Session
  | .hub action =>
    { s with hub := s.hub.next action, trace := s.trace ++ s.publication action }
  | .nextFrame =>
    { s with
      self := (s.self.nextFrame s.hub).2
      trace := s.trace ++
        ((s.self.nextFrame s.hub).1.map fun item => ⟨s.hub, s.self, .frame item⟩).toList }

end Session

def EventHub.Unsaturated (hub : EventHub) : HubAction → Prop
  | .publish _ _ => hub.nextSequence < u64Max
  | _ => True

def Session.Unsaturated (s : Session) : Action → Prop
  | .hub action => s.hub.Unsaturated action
  | .nextFrame => True

def Act.event? : Act → Option EventRecord
  | .frame (.event e) => some e
  | _ => none

def delivered (trace : List Entry) : List EventRecord := trace.filterMap fun x => x.act.event?

def Published (trace : List Entry) (e : EventRecord) : Prop := ∃ x ∈ trace, x.act = .published e

def Act.isFrame : Act → Bool
  | .frame _ => true
  | .published _ => false

/-- A frame asks for a resync because the ring has moved on past the cursor, and `e` is
unread. -/
structure Entry.PassesOver (resync : Entry) (e : EventRecord) : Prop where
  act : resync.act = .frame .resyncRequired
  cause : ∃ oldest ∈ resync.hub.events.head?, resync.self.cursor < oldest.sequence
  unread : resync.self.cursor ≤ e.sequence

/-- A resync has passed `e` over, and the snapshot of that moment has been delivered as the
frame after it. -/
def PassedOver (trace : List Entry) (e : EventRecord) : Prop :=
  ∃ before resync between snapshot after,
    trace = before ++ resync :: (between ++ snapshot :: after) ∧ Published before e ∧
      resync.PassesOver e ∧ (∀ x ∈ between, x.act.isFrame = false) ∧
      snapshot.act = .frame (.snapshot resync.hub.snapshot)

/-- A resync has passed `e` over; the snapshot is the next frame. -/
def PassingOver (s : Session) (e : EventRecord) : Prop :=
  ∃ before resync between,
    s.trace = before ++ resync :: between ∧ Published before e ∧
      resync.PassesOver e ∧ (∀ x ∈ between, x.act.isFrame = false) ∧
      s.self.initialSnapshot = some resync.hub.snapshot

section trace

variable {trace more : List Entry} {e : EventRecord}

@[simp] theorem delivered_append : delivered (trace ++ more) = delivered trace ++ delivered more :=
  filterMap_append

theorem published_append : Published (trace ++ more) e ↔ Published trace e ∨ Published more e := by
  unfold Published
  simp only [mem_append]
  constructor
  · rintro ⟨x, hx | hx, hact⟩
    · exact .inl ⟨x, hx, hact⟩
    · exact .inr ⟨x, hx, hact⟩
  · rintro (⟨x, hx, hact⟩ | ⟨x, hx, hact⟩)
    · exact ⟨x, .inl hx, hact⟩
    · exact ⟨x, .inr hx, hact⟩

theorem PassedOver.append (h : PassedOver trace e) : PassedOver (trace ++ more) e := by
  obtain ⟨before, resync, between, snapshot, after, rfl, hrest⟩ := h
  exact ⟨before, resync, between, snapshot, after ++ more, by simp, hrest⟩

theorem append_singleton_eq {before after : List Entry} {x y : Entry}
    (h : trace ++ [y] = before ++ x :: after) :
    (∃ after', trace = before ++ x :: after') ∨ (trace = before ∧ y = x) := by
  rcases eq_nil_or_concat after with rfl | ⟨after', z, rfl⟩
  · obtain ⟨rfl, hlast⟩ := append_inj' h rfl
    exact .inr ⟨rfl, (cons.inj hlast).1⟩
  · rw [concat_eq_append, ← cons_append, ← append_assoc] at h
    exact .inl ⟨after', (append_inj' h rfl).1⟩

end trace

/-- The records the subscriber asked for and that the ring keeps. -/
def Session.Wanted (s : Session) (e : EventRecord) : Prop :=
  Published s.trace e ∧ e.kind.ephemeral = false ∧ s.self.accepts e.kind = true

/-- Events are accounted for whenever a later one is delivered. -/
def Accounted (self : EventSubscription) (trace : List Entry) : Prop :=
  ∀ before x after d, trace = before ++ x :: after → x.act = .frame (.event d) →
    ∀ e, Published before e → e.kind.ephemeral = false → self.accepts e.kind = true →
      e.sequence < d.sequence → e ∈ delivered before ∨ PassedOver before e

structure Session.Sound (s : Session) : Prop where
  numbered : s.hub.Numbered
  bounded : s.hub.nextSequence ≤ u64Max
  cursor : s.self.cursor ≤ s.hub.nextSequence
  /-- An event that has left the ring is older than every event in it. -/
  kept : ∀ e, Published s.trace e → e.kind.ephemeral = false →
    e ∈ s.hub.events ∨ ∃ oldest ∈ s.hub.events.head?, e.sequence < oldest.sequence
  below : ∀ e, Published s.trace e → e.sequence < s.hub.nextSequence
  read : ∀ d ∈ delivered s.trace, d.sequence < s.hub.nextSequence ∧
    (∀ p, s.self.Pending s.hub p → d.sequence < p.sequence) ∧
    ∀ e, s.Wanted e → s.self.cursor ≤ e.sequence → d.sequence < e.sequence
  increasing : (delivered s.trace).Pairwise fun a b => a.sequence < b.sequence
  settled : ∀ e, s.Wanted e →
    e ∈ delivered s.trace ∨ s.self.cursor ≤ e.sequence ∨ PassedOver s.trace e ∨ PassingOver s e
  accounted : Accounted s.self s.trace

section publish

variable {s : Session} {kind : EventKind} {payload : Json}

theorem Session.Sound.kept_publish (h : s.Sound) (hobject : payload.isObject = true)
    (e : EventRecord) (hpublished : Published s.trace e ∨ e = s.hub.record kind payload)
    (hnormal : e.kind.ephemeral = false) : e ∈ (s.hub.publish kind payload).events ∨
      ∃ oldest ∈ (s.hub.publish kind payload).events.head?, e.sequence < oldest.sequence := by
  rw [events_publish]
  by_cases hring : payload.isObject = true ∧ kind.ephemeral = false
  · rw [if_pos hring]
    rcases hpublished with hold | rfl
    · by_cases hroom : e ∈ s.hub.makeRoom
      · exact .inl (mem_append_left _ hroom)
      · refine .inr ?_
        obtain ⟨oldest, holdest⟩ : ∃ oldest,
            oldest ∈ (s.hub.makeRoom ++ [s.hub.record kind payload]).head? := by
          cases s.hub.makeRoom with
          | nil | cons first rest => exact ⟨_, rfl⟩
        refine ⟨oldest, holdest, ?_⟩
        rcases mem_append.mp (mem_of_mem_head? holdest) with hkept | hnew
        · rcases h.kept e hold hnormal with he | ⟨head, hhead, hlt⟩
          · exact h.numbered.evicted he hroom hkept
          · exact Nat.lt_of_lt_of_le hlt (h.numbered.head_le hhead (makeRoom_sublist.subset hkept))
        · rw [mem_singleton.mp hnew]
          exact h.below e hold
    · exact .inl (mem_append_right _ (mem_singleton.mpr rfl))
  · rw [if_neg hring]
    rcases hpublished with hold | rfl
    · exact h.kept e hold hnormal
    · exact absurd ⟨hobject, hnormal⟩ hring

theorem PassingOver.publish {e : EventRecord} {hub : EventHub} {x : Entry} (h : PassingOver s e)
    (hx : x.act.isFrame = false) : PassingOver ⟨hub, s.self, s.trace ++ [x]⟩ e := by
  obtain ⟨before, resync, between, htrace, hpublished, hresync, hquiet, hstored⟩ := h
  refine ⟨before, resync, between ++ [x], by simp [htrace], hpublished, hresync, ?_, hstored⟩
  intro y hy
  rcases mem_append.mp hy with hy | hy
  · exact hquiet y hy
  · rw [mem_singleton.mp hy]
    exact hx

theorem Accounted.append {self : EventSubscription} {trace : List Entry} {x : Entry}
    (h : Accounted self trace)
    (hx : ∀ d, x.act = .frame (.event d) → ∀ e, Published trace e → e.kind.ephemeral = false →
      self.accepts e.kind = true → e.sequence < d.sequence →
        e ∈ delivered trace ∨ PassedOver trace e) : Accounted self (trace ++ [x]) := by
  intro before y after d hsplit hact
  rcases append_singleton_eq hsplit with ⟨after', htrace⟩ | ⟨rfl, rfl⟩
  · exact h before y after' d htrace hact
  · exact hx d hact

theorem Session.Sound.publish (h : s.Sound) (hobject : payload.isObject = true)
    (hroom : s.hub.nextSequence < u64Max) : Session.Sound ⟨s.hub.publish kind payload, s.self,
      s.trace ++ [⟨s.hub, s.self, .published (s.hub.record kind payload)⟩]⟩ := by
  have hnext : (s.hub.publish kind payload).nextSequence = s.hub.nextSequence + 1 :=
    nextSequence_publish hobject hroom
  have hpublished : ∀ e, Published (s.trace ++
      [⟨s.hub, s.self, .published (s.hub.record kind payload)⟩]) e →
      Published s.trace e ∨ e = s.hub.record kind payload := by
    intro e he
    rcases published_append.mp he with hold | ⟨x, hx, hact⟩
    · exact .inl hold
    · rw [mem_singleton.mp hx] at hact
      cases hact
      exact .inr rfl
  constructor
  case numbered => exact h.numbered.publish hroom
  case bounded =>
    change (s.hub.publish kind payload).nextSequence ≤ u64Max
    omega
  case cursor =>
    have hcursor := h.cursor
    change s.self.cursor ≤ (s.hub.publish kind payload).nextSequence
    omega
  case kept => exact fun e he hnormal => h.kept_publish hobject e (hpublished e he) hnormal
  case below =>
    intro e he
    rw [hnext]
    rcases hpublished e he with hold | rfl
    · exact Nat.lt_succ_of_lt (h.below e hold)
    · exact Nat.lt_succ_self _
  case read =>
    intro d hd
    have hd' : d ∈ delivered s.trace := by simpa [delivered, Act.event?] using hd
    obtain ⟨hlt, hpending, hwanted⟩ := h.read d hd'
    refine ⟨?_, fun p hp => ?_, fun e he hunread => ?_⟩
    · change d.sequence < (s.hub.publish kind payload).nextSequence
      omega
    · rcases pending_publish hp with hold | rfl
      · exact hpending p hold
      · exact hlt
    · rcases hpublished e he.1 with hold | rfl
      · exact hwanted e ⟨hold, he.2⟩ hunread
      · exact hlt
  case increasing => simpa [delivered, Act.event?] using h.increasing
  case settled =>
    intro e he
    rcases hpublished e he.1 with hold | rfl
    · rcases h.settled e ⟨hold, he.2⟩ with hread | hunread | hpassed | hpassing
      · exact .inl (by simp [hread])
      · exact .inr (.inl hunread)
      · exact .inr (.inr (.inl hpassed.append))
      · exact .inr (.inr (.inr (hpassing.publish rfl)))
    · exact .inr (.inl h.cursor)
  case accounted => exact h.accounted.append fun d hact => nomatch hact

end publish

structure EventHub.SameRecords (hub hub' : EventHub) : Prop where
  capacity : hub'.capacity = hub.capacity
  nextSequence : hub'.nextSequence = hub.nextSequence
  events : hub'.events = hub.events
  latestTraffic : hub'.latestTraffic = hub.latestTraffic
  latestNodeActive : hub'.latestNodeActive = hub.latestNodeActive

theorem EventHub.Numbered.of_sameRecords {hub hub' : EventHub} (h : hub.Numbered)
    (hsame : hub.SameRecords hub') : hub'.Numbered := by
  have hholds : ∀ e, hub'.Holds e ↔ hub.Holds e := by
    intro e
    unfold EventHub.Holds
    rw [hsame.events, hsame.latestTraffic, hsame.latestNodeActive]
  constructor
  case room => exact hsame.capacity ▸ h.room
  case ordered => exact hsame.events ▸ h.ordered
  case below =>
    intro e he
    rw [hsame.nextSequence]
    exact h.below e ((hholds e).mp he)
  case unique =>
    intro a b ha hb
    exact h.unique a b ((hholds a).mp ha) ((hholds b).mp hb)
  case normal =>
    intro e he
    rw [hsame.events] at he
    exact h.normal e he
  case traffic =>
    intro e he
    rw [hsame.latestTraffic] at he
    exact h.traffic e he
  case nodeActive =>
    intro e he
    rw [hsame.latestNodeActive] at he
    exact h.nodeActive e he
  case positive => exact hsame.nextSequence ▸ h.positive

theorem Session.Sound.of_sameRecords {s : Session} {hub : EventHub} (h : s.Sound)
    (hsame : s.hub.SameRecords hub) : Session.Sound ⟨hub, s.self, s.trace⟩ := by
  have hpending : ∀ p, s.self.Pending hub p → s.self.Pending s.hub p := by
    intro p hp
    rw [pending_iff, hsame.events, hsame.latestTraffic, hsame.latestNodeActive] at hp
    exact pending_iff.mpr hp
  constructor
  case numbered => exact h.numbered.of_sameRecords hsame
  case bounded =>
    rw [hsame.nextSequence]
    exact h.bounded
  case cursor =>
    rw [hsame.nextSequence]
    exact h.cursor
  case kept =>
    intro e he hnormal
    rw [hsame.events]
    exact h.kept e he hnormal
  case below =>
    intro e he
    rw [hsame.nextSequence]
    exact h.below e he
  case read =>
    intro d hd
    obtain ⟨hlt, hunread, hwanted⟩ := h.read d hd
    refine ⟨?_, fun p hp => hunread p (hpending p hp), hwanted⟩
    rw [hsame.nextSequence]
    exact hlt
  case increasing => exact h.increasing
  case settled => exact h.settled
  case accounted => exact h.accounted

theorem HubAction.publishes_or_quiet (action : HubAction) :
    (∃ kind payload, action = .publish kind payload ∧ payload.isObject = true) ∨
      ((∀ hub : EventHub, hub.SameRecords (hub.next action)) ∧
        ∀ s : Session, s.publication action = []) := by
  cases action with
  | publish kind payload =>
    cases hobject : payload.isObject with
    | true => exact .inl ⟨kind, payload, rfl, hobject⟩
    | false =>
      refine .inr ⟨fun hub => ?_, fun s => ?_⟩
      · have hsame : hub.publish kind payload = hub := by
          unfold EventHub.publish
          rw [hobject, if_neg Bool.false_ne_true]
        change hub.SameRecords (hub.publish kind payload)
        rw [hsame]
        exact ⟨rfl, rfl, rfl, rfl, rfl⟩
      · change (if payload.isObject = true then _ else []) = []
        rw [hobject, if_neg Bool.false_ne_true]
  | replaceSnapshot snapshot =>
    refine .inr ⟨fun hub => ?_, fun s => rfl⟩
    change hub.SameRecords (hub.replaceSnapshot snapshot)
    unfold EventHub.replaceSnapshot
    split_ifs <;> exact ⟨rfl, rfl, rfl, rfl, rfl⟩
  | join kinds =>
    refine .inr ⟨fun hub => ?_, fun s => rfl⟩
    unfold EventHub.next subscribe
    by_cases hbusy : maxSubscribers ≤ hub.subscribers
    · simp only [hbusy, if_true]
      exact ⟨rfl, rfl, rfl, rfl, rfl⟩
    · simp only [hbusy, if_false]
      exact ⟨rfl, rfl, rfl, rfl, rfl⟩
  | leave trafficEnabled => exact .inr ⟨fun hub => ⟨rfl, rfl, rfl, rfl, rfl⟩, fun s => rfl⟩

theorem Session.next_hub_cases (s : Session) (action : HubAction) :
    (∃ kind payload, payload.isObject = true ∧ action = .publish kind payload ∧
      s.next (.hub action) = ⟨s.hub.publish kind payload, s.self,
        s.trace ++ [⟨s.hub, s.self, .published (s.hub.record kind payload)⟩]⟩) ∨
    ∃ hub, s.hub.SameRecords hub ∧ s.next (.hub action) = ⟨hub, s.self, s.trace⟩ := by
  rcases action.publishes_or_quiet with ⟨kind, payload, rfl, hobject⟩ | ⟨hsame, hnone⟩
  · refine .inl ⟨kind, payload, hobject, rfl, ?_⟩
    have hentry : s.publication (.publish kind payload) =
        [⟨s.hub, s.self, .published (s.hub.record kind payload)⟩] := if_pos hobject
    rw [← hentry]
    rfl
  · refine .inr ⟨s.hub.next action, hsame s.hub, ?_⟩
    change Session.mk (s.hub.next action) s.self (s.trace ++ s.publication action) = _
    rw [hnone, append_nil]

theorem Session.Sound.hub {s : Session} {action : HubAction} (h : s.Sound)
    (hroom : s.hub.Unsaturated action) : (s.next (.hub action)).Sound := by
  rcases s.next_hub_cases action with ⟨kind, payload, hobject, rfl, hnext⟩ | ⟨hub, hsame, hnext⟩
  · rw [hnext]
    exact h.publish hobject hroom
  · rw [hnext]
    exact h.of_sameRecords hsame

namespace Session.Sound

variable {s : Session} {e d : EventRecord} {self : EventSubscription}

theorem held_of_unread (h : s.Sound) (inTime : s.self.overrun s.hub = false)
    (he : s.Wanted e) (hunread : s.self.cursor ≤ e.sequence) : e ∈ s.hub.events := by
  rcases h.kept e he.1 he.2.1 with hheld | ⟨oldest, hhead, hlt⟩
  · exact hheld
  · unfold overrun at inTime
    rw [Option.mem_def.mp hhead] at inTime
    have hcursor := of_decide_eq_false inTime
    omega

theorem pending_of_unread (h : s.Sound) (inTime : s.self.overrun s.hub = false)
    (he : s.Wanted e) (hunread : s.self.cursor ≤ e.sequence) : s.self.Pending s.hub e :=
  .normal (h.held_of_unread inTime he hunread) hunread he.2.2

theorem not_passingOver (hlive : s.self.initialSnapshot = none) : ¬ PassingOver s e := by
  rintro ⟨before, resync, between, -, -, -, -, hstored⟩
  rw [hlive] at hstored
  cases hstored

theorem of_quiet_frame (h : s.Sound) {trace : List Entry}
    (hcursor : s.self.cursor ≤ self.cursor ∧ self.cursor ≤ s.hub.nextSequence)
    (hkinds : self.kinds = s.self.kinds)
    (hpending : ∀ p, self.Pending s.hub p → s.self.Pending s.hub p)
    (hpublished : ∀ e, Published trace e → Published s.trace e)
    (hdelivered : delivered trace = delivered s.trace) (haccounted : Accounted self trace)
    (hsettled : ∀ e, s.Wanted e → e ∈ delivered s.trace ∨ self.cursor ≤ e.sequence ∨
      PassedOver trace e ∨ PassingOver ⟨s.hub, self, trace⟩ e) :
    Session.Sound ⟨s.hub, self, trace⟩ := by
  have hwanted : ∀ e, Session.Wanted ⟨s.hub, self, trace⟩ e → s.Wanted e := by
    rintro e ⟨he, hnormal, haccepts⟩
    refine ⟨hpublished e he, hnormal, ?_⟩
    unfold accepts at haccepts ⊢
    rwa [← hkinds]
  constructor
  case numbered => exact h.numbered
  case bounded => exact h.bounded
  case cursor => exact hcursor.2
  case kept => exact fun e he => h.kept e (hpublished e he)
  case below => exact fun e he => h.below e (hpublished e he)
  case read =>
    intro d hd
    have hd' : d ∈ delivered trace := hd
    rw [hdelivered] at hd'
    obtain ⟨hlt, hunread, hnewer⟩ := h.read d hd'
    refine ⟨hlt, fun p hp => hunread p (hpending p hp), fun e he hle => ?_⟩
    exact hnewer e (hwanted e he) (Nat.le_trans hcursor.1 hle)
  case increasing =>
    rw [hdelivered]
    exact h.increasing
  case settled =>
    intro e he
    rw [hdelivered]
    exact hsettled e (hwanted e he)
  case accounted => exact haccounted

theorem published_frame {item : Item}
    (he : Published (s.trace ++ [⟨s.hub, s.self, .frame item⟩]) e) : Published s.trace e := by
  rcases published_append.mp he with hold | ⟨x, hx, hact⟩
  · exact hold
  · rw [mem_singleton.mp hx] at hact
    cases hact

theorem pending_of_cursor_le {p : EventRecord} (hp : self.Pending s.hub p)
    (hcursor : s.self.cursor ≤ self.cursor) (hsame : self = { s.self with
      cursor := self.cursor
      outputSequence := self.outputSequence
      initialSnapshot := self.initialSnapshot }) : s.self.Pending s.hub p := by
  rw [hsame, pending_iff] at hp
  rcases hp with ⟨held, hle, haccepts⟩ | hrest
  · exact .normal held (Nat.le_trans hcursor hle) haccepts
  · exact pending_iff.mpr (.inr hrest)

theorem after_snapshot (h : s.Sound) {value : Json} (stored : s.self.initialSnapshot = some value) :
    Session.Sound ⟨s.hub, { s.self with initialSnapshot := none }.item,
      s.trace ++ [⟨s.hub, s.self, .frame (.snapshot value)⟩]⟩ := by
  refine h.of_quiet_frame ⟨Nat.le_refl _, h.cursor⟩ rfl
    (fun p hp => pending_of_cursor_le hp (Nat.le_refl _) rfl) (fun e he => published_frame he)
    (by simp [delivered, Act.event?]) (h.accounted.append fun d hact => nomatch hact) ?_
  intro e he
  rcases h.settled e he with hread | hunread | hpassed | hpassing
  · exact .inl hread
  · exact .inr (.inl hunread)
  · exact .inr (.inr (.inl hpassed.append))
  · obtain ⟨before, resync, between, htrace, hpub, hresync, hquiet, hstored⟩ := hpassing
    have hvalue : value = resync.hub.snapshot := Option.some.inj (stored.symm.trans hstored)
    refine .inr (.inr (.inl ⟨before, resync, between,
      ⟨s.hub, s.self, .frame (.snapshot value)⟩, [], ?_, hpub, hresync, hquiet, ?_⟩))
    · simp [htrace]
    · rw [hvalue]

theorem after_resync (h : s.Sound) (live : s.self.initialSnapshot = none)
    (lost : s.self.overrun s.hub = true) : Session.Sound ⟨s.hub,
      { s.self with
        cursor := s.hub.nextSequence
        initialSnapshot := some s.hub.snapshot }.item,
      s.trace ++ [⟨s.hub, s.self, .frame .resyncRequired⟩]⟩ := by
  refine h.of_quiet_frame ⟨h.cursor, Nat.le_refl _⟩ rfl
    (fun p hp => pending_of_cursor_le hp h.cursor rfl) (fun e he => published_frame he)
    (by simp [delivered, Act.event?]) (h.accounted.append fun d hact => nomatch hact) ?_
  intro e he
  rcases h.settled e he with hread | hunread | hpassed | hpassing
  · exact .inl hread
  · -- every unread event is passed over by this frame
    exact .inr (.inr (.inr ⟨s.trace, ⟨s.hub, s.self, .frame .resyncRequired⟩, [], rfl, he.1,
      ⟨rfl, overrun_eq_true.mp lost, hunread⟩, fun x hx => (not_mem_nil hx).elim, rfl⟩))
  · exact .inr (.inr (.inl hpassed.append))
  · exact absurd hpassing (not_passingOver live)

theorem after_wait (h : s.Sound) (live : s.self.initialSnapshot = none)
    (inTime : s.self.overrun s.hub = false) (idle : ∀ p, ¬ s.self.Pending s.hub p) :
    Session.Sound ⟨s.hub, { s.self with cursor := max s.self.cursor s.hub.nextSequence },
      s.trace⟩ := by
  rw [Nat.max_eq_right h.cursor]
  refine h.of_quiet_frame ⟨h.cursor, Nat.le_refl _⟩ rfl
    (fun p hp => pending_of_cursor_le hp h.cursor rfl) (fun e he => he) rfl h.accounted ?_
  intro e he
  rcases h.settled e he with hread | hunread | hpassed | hpassing
  · exact .inl hread
  · exact absurd (h.pending_of_unread inTime he hunread) (idle e)
  · exact .inr (.inr (.inl hpassed))
  · exact absurd hpassing (not_passingOver live)

section event

variable (h : s.Sound) (live : s.self.initialSnapshot = none)
  (inTime : s.self.overrun s.hub = false) (pending : s.self.Pending s.hub d)
  (advanced : (d ∈ s.hub.events ∧ self.cursor = d.sequence + 1) ∨
    (d ∉ s.hub.events ∧ self.cursor = s.self.cursor))
  (oldest : ∀ p, s.self.Pending s.hub p → d.sequence ≤ p.sequence)

include h pending advanced

theorem cursor_advanced : s.self.cursor ≤ self.cursor ∧ self.cursor ≤ s.hub.nextSequence := by
  have hbelow := (h.numbered.below d pending.holds).2
  have hcursor := h.cursor
  rcases advanced with ⟨held, hmoved⟩ | ⟨-, hstays⟩
  · cases pending with
    | normal _ unread _ => omega
    | traffic _ latest _ =>
      exact absurd held (not_mem_of_traffic h.numbered latest)
    | nodeActive _ latest _ =>
      exact absurd held (not_mem_of_nodeActive h.numbered latest)
  · omega

include inTime oldest

theorem unread_after_event (he : s.Wanted e) (hunread : s.self.cursor ≤ e.sequence) :
    e = d ∨ (self.cursor ≤ e.sequence ∧ d.sequence < e.sequence) := by
  have hpending := h.pending_of_unread inTime he hunread
  have hle := oldest e hpending
  by_cases heq : e = d
  · exact .inl heq
  · have hlt := lt_of_pending_ne h.numbered pending hpending hle heq
    rcases advanced with ⟨-, hmoved⟩ | ⟨-, hstays⟩ <;> omega

include live

theorem after_event (kinds : self.kinds = s.self.kinds)
    (left : ∀ p, self.Pending s.hub p → s.self.Pending s.hub p ∧ d.sequence < p.sequence) :
    Session.Sound ⟨s.hub, self, s.trace ++ [⟨s.hub, s.self, .frame (.event d)⟩]⟩ := by
  obtain ⟨hforward, hnext⟩ := h.cursor_advanced pending advanced
  have hdelivered : delivered (s.trace ++ [⟨s.hub, s.self, .frame (.event d)⟩]) =
      delivered s.trace ++ [d] := by simp [delivered, Act.event?]
  have hwanted : ∀ e, Session.Wanted
      ⟨s.hub, self, s.trace ++ [⟨s.hub, s.self, .frame (.event d)⟩]⟩ e → s.Wanted e := by
    rintro e ⟨he, hnormal, haccepts⟩
    refine ⟨published_frame he, hnormal, ?_⟩
    unfold accepts at haccepts ⊢
    rwa [← kinds]
  constructor
  case numbered => exact h.numbered
  case bounded => exact h.bounded
  case cursor => exact hnext
  case kept => exact fun e he => h.kept e (published_frame he)
  case below => exact fun e he => h.below e (published_frame he)
  case read =>
    intro d' hd'
    rw [hdelivered] at hd'
    rcases mem_append.mp hd' with hold | hnew
    · obtain ⟨hlt, hunread, hnewer⟩ := h.read d' hold
      refine ⟨hlt, fun p hp => hunread p (left p hp).1, fun e he hle => ?_⟩
      exact hnewer e (hwanted e he) (Nat.le_trans hforward hle)
    · rw [mem_singleton.mp hnew]
      refine ⟨(h.numbered.below d pending.holds).2, fun p hp => (left p hp).2, fun e he hle => ?_⟩
      have hunread := Nat.le_trans hforward hle
      rcases h.unread_after_event inTime pending advanced oldest (hwanted e he) hunread with
        rfl | ⟨-, hlt⟩
      · rcases advanced with ⟨-, hmoved⟩ | ⟨hring, -⟩
        · have hcursor : self.cursor ≤ e.sequence := hle
          omega
        · exact absurd (h.held_of_unread inTime (hwanted e he) hunread) hring
      · exact hlt
  case increasing =>
    rw [hdelivered, pairwise_append]
    refine ⟨h.increasing, pairwise_singleton _ _, fun a ha b hb => ?_⟩
    rw [mem_singleton.mp hb]
    exact (h.read a ha).2.1 d pending
  case settled =>
    intro e he
    rw [hdelivered]
    rcases h.settled e (hwanted e he) with hread | hunread | hpassed | hpassing
    · exact .inl (mem_append_left _ hread)
    · rcases h.unread_after_event inTime pending advanced oldest (hwanted e he) hunread with
        rfl | ⟨hstill, -⟩
      · exact .inl (mem_append_right _ (mem_singleton.mpr rfl))
      · exact .inr (.inl hstill)
    · exact .inr (.inr (.inl hpassed.append))
    · exact absurd hpassing (not_passingOver live)
  case accounted =>
    have haccepts : ∀ kind, self.accepts kind = s.self.accepts kind := by
      intro kind
      unfold accepts
      rw [kinds]
    refine .append ?_ ?_
    · intro before x after d' hsplit hact e he hnormal haccepted
      exact h.accounted before x after d' hsplit hact e he hnormal (haccepts _ ▸ haccepted)
    · intro d' hact e he hnormal haccepted hlt
      cases hact
      have hwant : s.Wanted e := ⟨he, hnormal, haccepts _ ▸ haccepted⟩
      rcases h.settled e hwant with hread | hunread | hpassed | hpassing
      · exact .inl hread
      · have hle := oldest e (h.pending_of_unread inTime hwant hunread)
        omega
      · exact .inr hpassed
      · exact absurd hpassing (not_passingOver live)

end event

theorem nextFrame (h : s.Sound) : (s.next .nextFrame).Sound := by
  have hpass : s.self.Pass s.hub (s.self.nextFrame s.hub).1 (s.self.nextFrame s.hub).2 :=
    nextFrame_pass h.numbered h.bounded
  change Session.Sound ⟨s.hub, (s.self.nextFrame s.hub).2,
    s.trace ++ ((s.self.nextFrame s.hub).1.map fun item => ⟨s.hub, s.self, .frame item⟩).toList⟩
  generalize (s.self.nextFrame s.hub).1 = out at hpass ⊢
  generalize (s.self.nextFrame s.hub).2 = self' at hpass ⊢
  cases hpass with
  | snapshot value stored => exact h.after_snapshot stored
  | resync live lost => exact h.after_resync live lost
  | event record self' live inTime pending left advanced oldest live' kinds =>
    exact h.after_event live inTime pending advanced oldest kinds left
  | wait live inTime idle =>
    change Session.Sound ⟨s.hub, _, s.trace ++ []⟩
    rw [append_nil]
    exact h.after_wait live inTime idle

theorem next (h : s.Sound) {action : Action} (hroom : s.Unsaturated action) :
    (s.next action).Sound := by
  cases action with
  | hub action => exact h.hub hroom
  | nextFrame => exact h.nextFrame

theorem fresh {hub : EventHub} (h : hub.Numbered) (hmax : hub.nextSequence ≤ u64Max)
    (hcursor : self.cursor ≤ hub.nextSequence) : Session.Sound ⟨hub, self, []⟩ := by
  have hempty : ∀ e, ¬ Published [] e := fun e ⟨x, hx, _⟩ => not_mem_nil hx
  constructor
  case numbered => exact h
  case bounded => exact hmax
  case cursor => exact hcursor
  case kept => exact fun e he => absurd he (hempty e)
  case below => exact fun e he => absurd he (hempty e)
  case read => exact fun d hd => (not_mem_nil hd).elim
  case increasing => exact .nil
  case settled => exact fun e he => absurd he.1 (hempty e)
  case accounted =>
    intro before x after d hsplit
    exact absurd hsplit.symm (by simp)

theorem of_subscribe {hub hub' : EventHub} {kinds : List EventKind} (h : hub.Numbered)
    (hmax : hub.nextSequence ≤ u64Max) (hsub : hub.subscribe kinds = .ok (self, hub')) :
    Session.Sound ⟨hub', self, []⟩ ∧ self.cursor = hub'.nextSequence := by
  unfold subscribe at hsub
  split_ifs at hsub with hbusy
  injection hsub with hsub
  injection hsub with hself hhub
  subst hself hhub
  exact ⟨fresh (h.of_sameRecords ⟨rfl, rfl, rfl, rfl, rfl⟩) hmax (Nat.le_refl _), rfl⟩

end Session.Sound

end NetHop.Events
