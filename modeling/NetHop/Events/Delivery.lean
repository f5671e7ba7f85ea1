import NetHop.Events.Session

/-!
# No event is lost silently

Delivered events come with rising numbers.  An event that is not delivered is passed over
by a resync: the frame that asks for it and the snapshot taken then both come before any
later event.  A subscriber that keeps reading gets to the end of what there is.
-/

namespace NetHop.Events

open Runs List EventHub EventSubscription

/-- The subscriber would wait for the next publication. -/
def Session.Waiting (s : Session) : Prop := (s.self.nextFrame s.hub).1 = none

namespace Session.Sound

variable {s : Session}

theorem run (h : s.Sound) {actions : List Action}
    (hactions : Guarded Session.next Session.Unsaturated s actions) :
    (Runs.run Session.next s actions).Sound :=
  run_invariant (fun _ _ hs hroom => hs.next hroom) h hactions

theorem reads (h : s.Sound) (m : Nat) :
    (Runs.run Session.next s (replicate m .nextFrame)).Sound := by
  induction m generalizing s with
  | zero => exact h
  | succ m ih => exact ih h.nextFrame

/-- At the end of the stream every event has been delivered or passed over. -/
theorem settled_of_waiting (h : s.Sound) (hwaiting : s.Waiting) (e : EventRecord)
    (he : s.Wanted e) : e ∈ delivered s.trace ∨ PassedOver s.trace e := by
  have hpass : s.self.Pass s.hub (s.self.nextFrame s.hub).1 (s.self.nextFrame s.hub).2 :=
    nextFrame_pass h.numbered h.bounded
  rw [hwaiting] at hpass
  generalize (s.self.nextFrame s.hub).2 = self' at hpass
  cases hpass with
  | wait live inTime idle =>
    rcases h.settled e he with hread | hunread | hpassed | hpassing
    · exact .inl hread
    · exact absurd (h.pending_of_unread inTime he hunread) (idle e)
    · exact .inr hpassed
    · exact absurd hpassing (not_passingOver live)

theorem overrun_of_cursor_le {self self' : EventSubscription} {hub : EventHub}
    (hcursor : self.cursor ≤ self'.cursor) (h : self.overrun hub = false) :
    self'.overrun hub = false := by
  unfold overrun at h ⊢
  cases hhead : hub.events.head? with
  | none => rfl
  | some oldest =>
    rw [hhead] at h
    have hin : ¬ self.cursor < oldest.sequence := of_decide_eq_false h
    exact decide_eq_false (by omega)

/-- A live session reads an event, with fewer numbers left for those still pending, or it
waits. -/
theorem waiting_or_event (h : s.Sound) {k : Nat} (live : s.self.initialSnapshot = none)
    (inTime : s.self.overrun s.hub = false)
    (hpending : ∀ p, s.self.Pending s.hub p → k < p.sequence) :
    s.Waiting ∨ ∃ k', k < k' ∧ k' < s.hub.nextSequence ∧
      (s.next .nextFrame).self.initialSnapshot = none ∧
      (s.next .nextFrame).self.overrun s.hub = false ∧
      ∀ p, (s.next .nextFrame).self.Pending s.hub p → k' < p.sequence := by
  have hpass : s.self.Pass s.hub (s.self.nextFrame s.hub).1 (s.self.nextFrame s.hub).2 :=
    nextFrame_pass h.numbered h.bounded
  change (s.self.nextFrame s.hub).1 = none ∨ ∃ k', k < k' ∧ k' < s.hub.nextSequence ∧
    (s.self.nextFrame s.hub).2.initialSnapshot = none ∧
    (s.self.nextFrame s.hub).2.overrun s.hub = false ∧
    ∀ p, (s.self.nextFrame s.hub).2.Pending s.hub p → k' < p.sequence
  generalize (s.self.nextFrame s.hub).1 = out at hpass ⊢
  generalize (s.self.nextFrame s.hub).2 = self' at hpass ⊢
  cases hpass with
  | snapshot value stored =>
    rw [live] at stored
    cases stored
  | resync _ lost =>
    rw [inTime] at lost
    cases lost
  | wait _ _ idle => exact .inl rfl
  | event record _ _ _ pending left advanced oldest live' kinds =>
    have hforward := (h.cursor_advanced pending advanced).1
    exact .inr ⟨record.sequence, hpending record pending,
      (h.numbered.below record pending.holds).2, live', overrun_of_cursor_le hforward inTime,
      fun p hp => (left p hp).2⟩

theorem exists_waiting_of_live (n : Nat) {k : Nat} (h : s.Sound)
    (live : s.self.initialSnapshot = none) (inTime : s.self.overrun s.hub = false)
    (hpending : ∀ p, s.self.Pending s.hub p → k < p.sequence) (hleft : s.hub.nextSequence ≤ k + n) :
    ∃ m, (Runs.run Session.next s (replicate m .nextFrame)).Waiting := by
  induction n generalizing s k with
  | zero =>
    rcases h.waiting_or_event live inTime hpending with hwaiting | ⟨k', hk, hbelow, -⟩
    · exact ⟨0, hwaiting⟩
    · omega
  | succ n ih =>
    rcases h.waiting_or_event live inTime hpending with
      hwaiting | ⟨k', hk, hbelow, live', inTime', hpending'⟩
    · exact ⟨0, hwaiting⟩
    · have hleft' : (s.next .nextFrame).hub.nextSequence ≤ k' + n := by
        change s.hub.nextSequence ≤ k' + n
        omega
      obtain ⟨m, hm⟩ := ih h.nextFrame live' inTime' hpending' hleft'
      exact ⟨m + 1, hm⟩

theorem overrun_at_end (h : s.Sound) {self : EventSubscription}
    (hcursor : self.cursor = s.hub.nextSequence) : self.overrun s.hub = false := by
  unfold overrun
  cases hhead : s.hub.events.head? with
  | none => rfl
  | some oldest =>
    have hbelow := h.numbered.below oldest (.inl (mem_of_mem_head? hhead))
    exact decide_eq_false (by omega)

theorem exists_waiting_of_next
    (h : ∃ m, (Runs.run Session.next (s.next .nextFrame) (replicate m .nextFrame)).Waiting) :
    ∃ m, (Runs.run Session.next s (replicate m .nextFrame)).Waiting := by
  obtain ⟨m, hm⟩ := h
  exact ⟨m + 1, hm⟩

/-- A subscriber that keeps reading gets to the end of the stream. -/
theorem exists_waiting (h : s.Sound) :
    ∃ m, (Runs.run Session.next s (replicate m .nextFrame)).Waiting := by
  have hinTime : ∀ {t : Session}, t.Sound → t.self.initialSnapshot = none →
      t.self.overrun t.hub = false →
      ∃ m, (Runs.run Session.next t (replicate m .nextFrame)).Waiting := by
    intro t ht live inTime
    exact ht.exists_waiting_of_live t.hub.nextSequence (k := 0) live inTime
      (fun p hp => (ht.numbered.below p hp.holds).1) (by omega)
  have hlive : ∀ {t : Session}, t.Sound → t.self.initialSnapshot = none →
      ∃ m, (Runs.run Session.next t (replicate m .nextFrame)).Waiting := by
    intro t ht live
    cases hlost : t.self.overrun t.hub with
    | false => exact hinTime ht live hlost
    | true =>
      -- the resync and its snapshot bring the cursor to the end
      have hself : (t.next .nextFrame).self =
          { t.self with
            cursor := t.hub.nextSequence
            initialSnapshot := some t.hub.snapshot }.item := by
        simp [Session.next, EventSubscription.nextFrame, nextEvent, live, hlost]
      have hself' : ((t.next .nextFrame).next .nextFrame).self =
          { (t.next .nextFrame).self with initialSnapshot := none }.item := by
        have hstored : (t.next .nextFrame).self.initialSnapshot = some t.hub.snapshot := by
          rw [hself]
          rfl
        simp only [Session.next] at hstored ⊢
        rw [EventSubscription.nextFrame, hstored]
      refine exists_waiting_of_next (exists_waiting_of_next ?_)
      refine hinTime ht.nextFrame.nextFrame ?_ ?_
      · rw [hself']
        rfl
      · refine ht.overrun_at_end ?_
        rw [hself', hself]
        rfl
  cases hstored : s.self.initialSnapshot with
  | none => exact hlive h hstored
  | some value =>
    refine exists_waiting_of_next (hlive h.nextFrame ?_)
    simp [Session.next, EventSubscription.nextFrame, hstored, item]

end Session.Sound

theorem EventHub.Numbered.run {hub : EventHub} (h : hub.Numbered)
    (hmax : hub.nextSequence ≤ u64Max) {actions : List HubAction}
    (hactions : Guarded next EventHub.Unsaturated hub actions) :
    (Runs.run next hub actions).Numbered ∧
      (Runs.run next hub actions).nextSequence ≤ u64Max := by
  refine run_invariant (I := fun hub => hub.Numbered ∧ hub.nextSequence ≤ u64Max) ?_ ⟨h, hmax⟩
    hactions
  rintro hub action ⟨hnumbered, hbound⟩ hroom
  rcases action.publishes_or_quiet with ⟨kind, payload, rfl, hobject⟩ | ⟨hsame, -⟩
  · have hnext : (hub.publish kind payload).nextSequence = hub.nextSequence + 1 :=
      nextSequence_publish hobject hroom
    have hlt : hub.nextSequence < u64Max := hroom
    refine ⟨hnumbered.publish hroom, ?_⟩
    change (hub.publish kind payload).nextSequence ≤ u64Max
    omega
  · refine ⟨hnumbered.of_sameRecords (hsame hub), ?_⟩
    rw [(hsame hub).nextSequence]
    exact hbound

section

variable {snapshot : Json} {capacity : Nat} {hub hub' : EventHub} {earlier : List HubAction}
  {kinds : List EventKind} {self : EventSubscription} {actions : List Action}

theorem subscribed_sound (hnew : EventHub.new snapshot capacity = .ok hub)
    (hearlier : Guarded next EventHub.Unsaturated hub earlier)
    (hsub : (Runs.run next hub earlier).subscribe kinds = .ok (self, hub')) :
    Session.Sound ⟨hub', self, []⟩ ∧ self.cursor = hub'.nextSequence := by
  have hfirst : hub.nextSequence = 1 := by
    unfold EventHub.new at hnew
    split_ifs at hnew
    injection hnew with hnew
    rw [← hnew]
  have hmax : hub.nextSequence ≤ u64Max := by
    rw [hfirst]
    decide
  obtain ⟨hnumbered, hbound⟩ := (numbered_new hnew).run hmax hearlier
  exact Session.Sound.of_subscribe hnumbered hbound hsub

/-- The stream of a subscription to a hub with any history, under any further
publications: the numbers of delivered events rise, and whenever an event is delivered,
every older one that was asked for has been delivered or passed over by a resync with its
snapshot.  A subscriber that reads on has every event in one of these two ways. -/
theorem stream_delivers_or_resyncs (hnew : EventHub.new snapshot capacity = .ok hub)
    (hearlier : Guarded next EventHub.Unsaturated hub earlier)
    (hsub : (Runs.run next hub earlier).subscribe kinds = .ok (self, hub'))
    (hactions : Guarded Session.next Session.Unsaturated ⟨hub', self, []⟩ actions) :
    let s := Runs.run Session.next ⟨hub', self, []⟩ actions
    ((delivered s.trace).Pairwise fun a b => a.sequence < b.sequence) ∧
      Accounted s.self s.trace ∧
      ∃ m, let t := Runs.run Session.next s (replicate m .nextFrame)
        t.Waiting ∧ ∀ e, t.Wanted e → e ∈ delivered t.trace ∨ PassedOver t.trace e := by
  have hsound := (subscribed_sound hnew hearlier hsub).1.run hactions
  obtain ⟨m, hwaiting⟩ := hsound.exists_waiting
  exact ⟨hsound.increasing, hsound.accounted, m, hwaiting,
    (hsound.reads m).settled_of_waiting hwaiting⟩

end

/-- A hub with a ring of two events, and a subscriber that reads its first snapshot, then
nothing until three events are published. -/
def sampleHub : EventHub where
  capacity := 2
  nextSequence := 1
  subscribers := 0
  trafficSubscribers := 0
  snapshot := .object []
  events := []
  latestTraffic := none
  latestNodeActive := none

def sampleSubscription : EventSubscription where
  kinds := []
  cursor := 2
  trafficCursor := 0
  trafficEnabled := true
  nodeActiveCursor := 0
  nodeActiveEnabled := true
  outputSequence := 1
  initialSnapshot := some (.object [])

def sampleEarlier : List HubAction := [.publish .traffic (.object [])]

theorem sampleEarlier_guarded :
    Guarded next EventHub.Unsaturated sampleHub sampleEarlier := by
  have hroom : sampleHub.nextSequence < u64Max := by decide
  exact ⟨hroom, trivial⟩

def sampleSubscribed : EventHub :=
  { Runs.run next sampleHub sampleEarlier with subscribers := 1, trafficSubscribers := 1 }

def sampleActions : List Action :=
  [.nextFrame, .hub (.publish .config (.object [])), .hub (.publish .config (.object [])),
    .hub (.publish .config (.object [])), .nextFrame, .nextFrame,
    .hub (.publish .config (.object [])), .nextFrame, .nextFrame]

theorem sampleActions_guarded :
    Guarded Session.next Session.Unsaturated ⟨sampleSubscribed, sampleSubscription, []⟩
      sampleActions := by
  refine ⟨trivial, ?_, ?_, ?_, trivial, trivial, ?_, trivial, trivial, trivial⟩
  all_goals
    change (_ : Nat) < u64Max
    decide

theorem sampleStream_delivers :
    let s := Runs.run Session.next ⟨sampleSubscribed, sampleSubscription, []⟩ sampleActions
    (delivered s.trace).map EventRecord.sequence = [1, 5] ∧ Accounted s.self s.trace := by
  have hnew : EventHub.new (.object []) 2 = .ok sampleHub := rfl
  have hsub : (Runs.run next sampleHub sampleEarlier).subscribe [] =
      .ok (sampleSubscription, sampleSubscribed) := rfl
  exact ⟨rfl, (stream_delivers_or_resyncs hnew sampleEarlier_guarded hsub
    sampleActions_guarded).2.1⟩

/-- The third event is in the ring when the resync comes and is still there when the
fourth is delivered, but it is never delivered. -/
theorem resync_skips_ring :
    let s := Runs.run Session.next ⟨sampleSubscribed, sampleSubscription, []⟩ sampleActions
    ∃ e d, s.Wanted e ∧ e ∈ s.hub.events ∧ e ∉ delivered s.trace ∧ d ∈ delivered s.trace ∧
      e.sequence < d.sequence := by
  refine ⟨⟨4, .config, .object []⟩, ⟨5, .config, .object []⟩, ?_, mem_cons_self, ?_, ?_,
    by decide⟩
  · exact ⟨⟨_, mem_of_getElem? (i := 3) rfl, rfl⟩, rfl, rfl⟩
  · intro hread
    have hmem := mem_map_of_mem (f := EventRecord.sequence) hread
    revert hmem
    decide
  · exact mem_of_getElem? (i := 1) rfl

end NetHop.Events
