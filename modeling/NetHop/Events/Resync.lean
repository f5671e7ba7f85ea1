import NetHop.Events.Delivery

/-!
# What a resync means

A resync is asked for when the oldest event of the ring lies behind the cursor.  Then an
event from the cursor on has left the ring unread, or every number in between went to an
ephemeral event, which never enters the ring.  After a resync the stream goes on like a new
subscription: the snapshot first, then what is published from there on.
-/

namespace NetHop.Events

open Runs List Session EventSubscription Runs

/-- Every number from `start` on belongs to a published event, and ring events are read
from `start` on, in order. -/
structure Session.Counted (start : Nat) (s : Session) : Prop where
  sound : s.Sound
  begun : start ≤ s.self.cursor
  numbers : ∀ k, start ≤ k → k < s.hub.nextSequence → ∃ e, Published s.trace e ∧ e.sequence = k
  between : ∀ d ∈ delivered s.trace, d.kind.ephemeral = false →
    start ≤ d.sequence ∧ d.sequence < s.self.cursor

variable {actions : List Action}

namespace Session.Counted

variable {start : Nat} {s : Session}

theorem fresh (h : Session.Sound ⟨s.hub, s.self, []⟩)
    (hcursor : s.self.cursor = s.hub.nextSequence) :
    Session.Counted s.hub.nextSequence ⟨s.hub, s.self, []⟩ where
  sound := h
  begun := Nat.le_of_eq hcursor.symm
  numbers := fun _ hstart hnext => absurd hnext (Nat.not_lt.mpr hstart)
  between := fun _ hd => (not_mem_nil hd).elim

variable (h : s.Counted start)

include h

theorem publish {kind : EventKind} {payload : Json}
    (hobject : payload.isObject = true) (hroom : s.hub.nextSequence < u64Max) :
    Session.Counted start ⟨s.hub.publish kind payload, s.self,
      s.trace ++ [⟨s.hub, s.self, .published (s.hub.record kind payload)⟩]⟩ where
  sound := h.sound.publish hobject hroom
  begun := h.begun
  numbers := by
    intro k hstart hnext
    have hnext' : k < s.hub.nextSequence + 1 := by
      have hsucc : (s.hub.publish kind payload).nextSequence = s.hub.nextSequence + 1 :=
        EventHub.nextSequence_publish hobject hroom
      exact hsucc ▸ hnext
    rcases Nat.lt_succ_iff_lt_or_eq.mp hnext' with hold | rfl
    · obtain ⟨e, he, hsequence⟩ := h.numbers k hstart hold
      exact ⟨e, published_append.mpr (.inl he), hsequence⟩
    · refine ⟨s.hub.record kind payload, published_append.mpr (.inr ?_), rfl⟩
      exact ⟨_, mem_singleton.mpr rfl, rfl⟩
  between := by
    intro d hd
    exact h.between d (by simpa [delivered, Act.event?] using hd)

theorem hub {action : HubAction} (hroom : s.hub.Unsaturated action) :
    (s.next (.hub action)).Counted start := by
  rcases s.next_hub_cases action with ⟨kind, payload, hobject, rfl, hnext⟩ | ⟨hub, hsame, hnext⟩
  · rw [hnext]
    exact h.publish hobject hroom
  · rw [hnext]
    refine ⟨h.sound.of_sameRecords hsame, h.begun, fun k hstart hbelow => ?_, h.between⟩
    have hbelow' : k < hub.nextSequence := hbelow
    rw [hsame.nextSequence] at hbelow'
    exact h.numbers k hstart hbelow'

theorem of_frame {self : EventSubscription} {item : Item}
    (hsound : Session.Sound ⟨s.hub, self, s.trace ++ [⟨s.hub, s.self, .frame item⟩]⟩)
    (hcursor : s.self.cursor ≤ self.cursor)
    (hitem : ∀ d, item = .event d → d.kind.ephemeral = false →
      s.self.cursor ≤ d.sequence ∧ d.sequence < self.cursor) :
    Session.Counted start ⟨s.hub, self, s.trace ++ [⟨s.hub, s.self, .frame item⟩]⟩ := by
  refine ⟨hsound, Nat.le_trans h.begun hcursor, fun k hstart hbelow => ?_, ?_⟩
  · obtain ⟨e, he, hsequence⟩ := h.numbers k hstart hbelow
    exact ⟨e, published_append.mpr (.inl he), hsequence⟩
  · intro d hd hnormal
    rw [delivered_append] at hd
    rcases mem_append.mp hd with hold | hnew
    · obtain ⟨hstart, hread⟩ := h.between d hold hnormal
      exact ⟨hstart, Nat.lt_of_lt_of_le hread hcursor⟩
    · cases item with
      | snapshot value | resyncRequired => exact (not_mem_nil hnew).elim
      | event record =>
        have hrecord : d = record := mem_singleton.mp hnew
        subst hrecord
        obtain ⟨hunread, hread⟩ := hitem d rfl hnormal
        exact ⟨Nat.le_trans h.begun hunread, hread⟩

theorem nextFrame : (s.next .nextFrame).Counted start := by
  have hnext := h.sound.nextFrame
  have hpass : s.self.Pass s.hub (s.self.nextFrame s.hub).1 (s.self.nextFrame s.hub).2 :=
    nextFrame_pass h.sound.numbered h.sound.bounded
  change Session.Sound ⟨s.hub, (s.self.nextFrame s.hub).2, s.trace ++ ((s.self.nextFrame
    s.hub).1.map fun item => (⟨s.hub, s.self, .frame item⟩ : Entry)).toList⟩ at hnext
  change Session.Counted start ⟨s.hub, (s.self.nextFrame s.hub).2, s.trace ++ ((s.self.nextFrame
    s.hub).1.map fun item => (⟨s.hub, s.self, .frame item⟩ : Entry)).toList⟩
  generalize (s.self.nextFrame s.hub).1 = out at hpass hnext ⊢
  generalize (s.self.nextFrame s.hub).2 = self' at hpass hnext ⊢
  cases hpass with
  | snapshot value stored => exact h.of_frame hnext (Nat.le_refl _) fun d hitem => nomatch hitem
  | resync live lost => exact h.of_frame hnext h.sound.cursor fun d hitem => nomatch hitem
  | event record _ live inTime pending left advanced oldest live' kinds =>
    refine h.of_frame hnext (h.sound.cursor_advanced pending advanced).1 fun d hitem hnormal => ?_
    cases hitem
    cases pending with
    | normal held unread accepted =>
      rcases advanced with ⟨-, hmoved⟩ | ⟨hring, -⟩
      · exact ⟨unread, by omega⟩
      · exact absurd held hring
    | traffic enabled latest unread =>
      rw [h.sound.numbered.traffic _ latest] at hnormal
      cases hnormal
    | nodeActive enabled latest unread =>
      rw [h.sound.numbered.nodeActive _ latest] at hnormal
      cases hnormal
  | wait live inTime idle =>
    change Session.Sound ⟨s.hub, _, s.trace ++ []⟩ at hnext
    change Session.Counted start ⟨s.hub, _, s.trace ++ []⟩
    rw [append_nil] at hnext ⊢
    have hcursor : s.self.cursor ≤ max s.self.cursor s.hub.nextSequence := Nat.le_max_left _ _
    refine ⟨hnext, Nat.le_trans h.begun hcursor, h.numbers, fun d hd hnormal => ?_⟩
    obtain ⟨hstart, hread⟩ := h.between d hd hnormal
    exact ⟨hstart, Nat.lt_of_lt_of_le hread hcursor⟩

theorem run (hactions : Guarded next Session.Unsaturated s actions) :
    (run next s actions).Counted start := by
  refine run_invariant (fun s action hs hroom => ?_) h hactions
  cases action with
  | hub action => exact hs.hub hroom
  | nextFrame => exact hs.nextFrame

end Session.Counted

/-- The first frame of the session, if there is one, is the snapshot. -/
def Session.OpensWith (value : Json) (s : Session) : Prop :=
  ((∀ x ∈ s.trace, x.act.isFrame = false) ∧ s.self.initialSnapshot = some value) ∨
    ∃ before first after, s.trace = before ++ first :: after ∧
      (∀ x ∈ before, x.act.isFrame = false) ∧ first.act = .frame (.snapshot value)

theorem Session.OpensWith.next {value : Json} {s : Session} (h : s.OpensWith value)
    (action : Action) : (s.next action).OpensWith value := by
  rcases h with ⟨hquiet, hstored⟩ | ⟨before, first, after, htrace, hquiet, hfirst⟩
  · cases action with
    | hub action =>
      refine .inl ⟨fun x hx => ?_, hstored⟩
      rcases mem_append.mp hx with hx | hx
      · exact hquiet x hx
      · rcases action.publishes_or_quiet with ⟨kind, payload, rfl, hobject⟩ | ⟨-, hnone⟩
        · rw [publication, if_pos hobject] at hx
          rw [mem_singleton.mp hx]
          rfl
        · rw [hnone] at hx
          exact (not_mem_nil hx).elim
    | nextFrame =>
      have hframe : (s.self.nextFrame s.hub).1 = some (.snapshot value) := by
        rw [nextFrame, hstored]
      refine .inr ⟨s.trace, ⟨s.hub, s.self, .frame (.snapshot value)⟩, [], ?_, hquiet, rfl⟩
      change s.trace ++ ((s.self.nextFrame s.hub).1.map _).toList = _
      rw [hframe]
      rfl
  · cases action with
    | hub action =>
      refine .inr ⟨before, first, after ++ s.publication action, ?_, hquiet, hfirst⟩
      change s.trace ++ s.publication action = _
      rw [htrace, append_assoc, cons_append]
    | nextFrame =>
      refine .inr ⟨before, first, after ++ ((s.self.nextFrame s.hub).1.map fun item =>
        (⟨s.hub, s.self, .frame item⟩ : Entry)).toList, ?_, hquiet, hfirst⟩
      change s.trace ++ _ = _
      rw [htrace, append_assoc, cons_append]

theorem guarded_of_trace {hub : EventHub} {self : EventSubscription} {trace : List Entry}
    (more : List Entry) (h : Guarded next Session.Unsaturated ⟨hub, self, trace⟩ actions) :
    Guarded next Session.Unsaturated ⟨hub, self, more⟩ actions := by
  induction actions generalizing hub self trace more with
  | nil => trivial
  | cons action actions ih =>
    cases action with
    | hub action => exact ⟨h.1, ih _ h.2⟩
    | nextFrame => exact ⟨trivial, ih _ h.2⟩

/-- Where a resync is asked for, an event from the cursor on has left the ring unread, or
every number up to the ring went to an ephemeral event. -/
theorem Session.Counted.overrun_cause {start : Nat} {s : Session} (h : s.Counted start)
    (hlost : s.self.overrun s.hub = true) :
    ∃ oldest ∈ s.hub.events.head?, s.self.cursor < oldest.sequence ∧
      ((∀ k, s.self.cursor ≤ k → k < oldest.sequence →
        ∃ e, Published s.trace e ∧ e.sequence = k ∧ e.kind.ephemeral = true) ∨
      ∃ e, Published s.trace e ∧ e.kind.ephemeral = false ∧ s.self.cursor ≤ e.sequence ∧
        e ∉ s.hub.events ∧ e ∉ delivered s.trace) := by
  obtain ⟨oldest, hhead, hbehind⟩ := overrun_eq_true.mp hlost
  refine ⟨oldest, hhead, hbehind, ?_⟩
  by_cases hevicted : ∃ e, Published s.trace e ∧ e.kind.ephemeral = false ∧
      s.self.cursor ≤ e.sequence ∧ e.sequence < oldest.sequence
  · obtain ⟨e, he, hnormal, hunread, hlt⟩ := hevicted
    refine .inr ⟨e, he, hnormal, hunread, fun hheld => ?_, fun hread => ?_⟩
    · have hle := h.sound.numbered.head_le hhead hheld
      omega
    · have hpassed := (h.between e hread hnormal).2
      omega
  · refine .inl fun k hcursor hk => ?_
    have hbelow := (h.sound.numbered.below oldest (.inl (mem_of_mem_head? hhead))).2
    obtain ⟨e, he, hsequence⟩ := h.numbers k (Nat.le_trans h.begun hcursor) (by omega)
    refine ⟨e, he, hsequence, ?_⟩
    cases hkind : e.kind.ephemeral with
    | true => rfl
    | false => exact absurd ⟨e, he, hkind, by omega, by omega⟩ hevicted

section

variable {snapshot : Json} {capacity : Nat} {hub hub' : EventHub} {earlier : List HubAction}
  {kinds : List EventKind} {self : EventSubscription} {first rest : List Action}

/-- A frame that asks for a resync, anywhere in the stream of a subscription.  Its cause is
an event that left the ring unread, unless all numbers up to the ring were ephemeral.  From
there on the stream starts over: its first frame is the snapshot of that moment, no event
of the ring is delivered any more, and no event that is published later is skipped without
a further resync. -/
theorem resync_starts_over (hnew : EventHub.new snapshot capacity = .ok hub)
    (hearlier : Guarded EventHub.next EventHub.Unsaturated hub earlier)
    (hsub : (run EventHub.next hub earlier).subscribe kinds = .ok (self, hub'))
    (hactions : Guarded next Session.Unsaturated ⟨hub', self, []⟩
      (first ++ .nextFrame :: rest))
    (hresync : let s := run next ⟨hub', self, []⟩ first
      (s.self.nextFrame s.hub).1 = some .resyncRequired) :
    let s := run next ⟨hub', self, []⟩ first
    let t := run next ⟨s.hub, (s.self.nextFrame s.hub).2, []⟩ rest
    (∃ oldest ∈ s.hub.events.head?, s.self.cursor < oldest.sequence ∧
      ((∀ k, s.self.cursor ≤ k → k < oldest.sequence →
        ∃ e, Published s.trace e ∧ e.sequence = k ∧ e.kind.ephemeral = true) ∨
      ∃ e, Published s.trace e ∧ e.kind.ephemeral = false ∧ s.self.cursor ≤ e.sequence ∧
        e ∉ s.hub.events ∧ e ∉ delivered s.trace)) ∧
      t.OpensWith s.hub.snapshot ∧ (∀ e ∈ s.hub.events, e ∉ delivered t.trace) ∧
      Accounted t.self t.trace := by
  intro s t
  obtain ⟨hfirst, hrest⟩ := guarded_append.mp hactions
  obtain ⟨hsound, hcursor⟩ := subscribed_sound hnew hearlier hsub
  have hs : s.Counted hub'.nextSequence :=
    (Session.Counted.fresh (s := ⟨hub', self, []⟩) hsound hcursor).run hfirst
  have hpass : s.self.Pass s.hub (s.self.nextFrame s.hub).1 (s.self.nextFrame s.hub).2 :=
    nextFrame_pass hs.sound.numbered hs.sound.bounded
  have hguard : Guarded next Session.Unsaturated
      ⟨s.hub, (s.self.nextFrame s.hub).2, []⟩ rest := guarded_of_trace [] hrest.2
  have hself : s.self.overrun s.hub = true ∧
      (s.self.nextFrame s.hub).2.cursor = s.hub.nextSequence ∧
      (s.self.nextFrame s.hub).2.initialSnapshot = some s.hub.snapshot := by
    rw [hresync] at hpass
    generalize (s.self.nextFrame s.hub).2 = self' at hpass ⊢
    cases hpass with
    | resync live lost => exact ⟨lost, rfl, rfl⟩
  obtain ⟨hlost, hend, hstored⟩ := hself
  have hbegin : Session.Sound ⟨s.hub, (s.self.nextFrame s.hub).2, []⟩ :=
    .fresh hs.sound.numbered hs.sound.bounded (Nat.le_of_eq hend)
  have ht : t.Counted s.hub.nextSequence :=
    (Session.Counted.fresh (s := ⟨s.hub, (s.self.nextFrame s.hub).2, []⟩) hbegin hend).run hguard
  refine ⟨hs.overrun_cause hlost, ?_, fun e he hread => ?_, ht.sound.accounted⟩
  · refine run_invariant_of_all (fun s action hopens => hopens.next action) ?_ rest
    exact .inl ⟨fun x hx => (not_mem_nil hx).elim, hstored⟩
  · have hlate := (ht.between e hread (hs.sound.numbered.normal e he)).1
    have hbelow := (hs.sound.numbered.below e (.inl he)).2
    omega

end

theorem sampleResync_starts_over :
    let s := run next ⟨sampleSubscribed, sampleSubscription, []⟩ (sampleActions.take 4)
    let t := run next ⟨s.hub, (s.self.nextFrame s.hub).2, []⟩ (sampleActions.drop 5)
    t.OpensWith s.hub.snapshot ∧ Accounted t.self t.trace := by
  have hnew : EventHub.new (.object []) 2 = .ok sampleHub := rfl
  have hsub : (run EventHub.next sampleHub sampleEarlier).subscribe [] =
      .ok (sampleSubscription, sampleSubscribed) := rfl
  have hactions : Guarded next Session.Unsaturated
      ⟨sampleSubscribed, sampleSubscription, []⟩
      (sampleActions.take 4 ++ .nextFrame :: sampleActions.drop 5) := sampleActions_guarded
  obtain ⟨-, hopens, -, haccounted⟩ := resync_starts_over hnew sampleEarlier_guarded hsub
    hactions rfl
  exact ⟨hopens, haccounted⟩

/-- A resync whose cause is the second config event, which has left the ring unread; the two
events of the ring are skipped by it. -/
theorem sampleResync_skips :
    let s := run next ⟨sampleSubscribed, sampleSubscription, []⟩ (sampleActions.take 4)
    let t := run next s (replicate 3 .nextFrame)
    (s.self.nextFrame s.hub).1 = some .resyncRequired ∧
      (∃ e, s.Wanted e ∧ s.self.cursor ≤ e.sequence ∧ e ∉ s.hub.events) ∧
      t.Waiting ∧ ∃ e ∈ s.hub.events, s.Wanted e ∧ e ∉ delivered t.trace := by
  refine ⟨rfl, ⟨⟨2, .config, .object []⟩, ?_, by decide, ?_⟩, rfl,
    ⟨3, .config, .object []⟩, mem_cons_self, ?_, ?_⟩
  · exact ⟨⟨_, mem_of_getElem? (i := 1) rfl, rfl⟩, rfl, rfl⟩
  · intro hheld
    have hmem := mem_map_of_mem (f := EventRecord.sequence) hheld
    revert hmem
    decide
  · exact ⟨⟨_, mem_of_getElem? (i := 2) rfl, rfl⟩, rfl, rfl⟩
  · intro hread
    have hmem := mem_map_of_mem (f := EventRecord.sequence) hread
    revert hmem
    decide

end NetHop.Events
