import NetHop.Wire.Types
import Mathlib.Tactic.Ring

/-!
# The event hub

`EventHub` and `EventSubscription`: events are numbered, kept in a ring of bounded
capacity, and read by subscribers through a cursor.  Traffic and node-active events do not
enter the ring; of each of them only the latest is kept.
-/

namespace NetHop.Events

def maxCapacity : Nat := 1024

def maxSubscribers : Nat := 4

def u64Max : Nat := 2 ^ 64 - 1

/-- `n.saturating_add(1)`. -/
def saturatingSucc (n : Nat) : Nat := min (n + 1) u64Max

abbrev EventKind := Wire.EventKind

/-- The kinds that never enter the ring. -/
def EventKind.ephemeral (kind : EventKind) : Bool := kind == .traffic || kind == .nodeActive

structure EventRecord where
  sequence : Nat
  kind : EventKind
  payload : Json

inductive EventError where
  | invalidPolicy
  | busy

/-- `Shared` and the `State` behind its lock. -/
structure EventHub where
  capacity : Nat
  nextSequence : Nat
  subscribers : Nat
  trafficSubscribers : Nat
  snapshot : Json
  events : List EventRecord
  latestTraffic : Option EventRecord
  latestNodeActive : Option EventRecord

structure EventSubscription where
  kinds : List EventKind
  cursor : Nat
  trafficCursor : Nat
  trafficEnabled : Bool
  nodeActiveCursor : Nat
  nodeActiveEnabled : Bool
  outputSequence : Nat
  initialSnapshot : Option Json

inductive Item where
  | snapshot (value : Json)
  | resyncRequired
  | event (record : EventRecord)

namespace EventHub

def new (snapshot : Json) (capacity : Nat) : Except EventError EventHub :=
  if capacity = 0 ∨ maxCapacity < capacity ∨ snapshot.isObject = false then
    .error .invalidPolicy
  else
    .ok
      { capacity
        nextSequence := 1
        subscribers := 0
        trafficSubscribers := 0
        snapshot
        events := []
        latestTraffic := none
        latestNodeActive := none }

variable (hub : EventHub)

def makeRoom : List EventRecord :=
  if hub.events.length = hub.capacity then hub.events.drop 1 else hub.events

def record (kind : EventKind) (payload : Json) : EventRecord :=
  ⟨hub.nextSequence, kind, payload⟩

/-- The log file that `publish` also writes is left out: its result is dropped. -/
def publish (kind : EventKind) (payload : Json) : EventHub :=
  if payload.isObject then
    let numbered := { hub with nextSequence := max (saturatingSucc hub.nextSequence) 1 }
    if kind = .traffic then
      { numbered with latestTraffic := some (hub.record kind payload) }
    else if kind = .nodeActive then
      { numbered with latestNodeActive := some (hub.record kind payload) }
    else { numbered with events := hub.makeRoom ++ [hub.record kind payload] }
  else hub

def replaceSnapshot (snapshot : Json) : EventHub :=
  if snapshot.isObject then { hub with snapshot } else hub

def subscribe (kinds : List EventKind) : Except EventError (EventSubscription × EventHub) :=
  if maxSubscribers ≤ hub.subscribers then .error .busy
  else
    let trafficEnabled := kinds.isEmpty || kinds.contains .traffic
    .ok
      ({ kinds
         cursor := hub.nextSequence
         trafficCursor := 0
         trafficEnabled
         nodeActiveCursor := 0
         nodeActiveEnabled := kinds.isEmpty || kinds.contains .nodeActive
         outputSequence := 1
         initialSnapshot := some hub.snapshot },
       { hub with
         subscribers := hub.subscribers + 1
         trafficSubscribers :=
           if trafficEnabled then hub.trafficSubscribers + 1 else hub.trafficSubscribers })

def leave (trafficEnabled : Bool) : EventHub :=
  { hub with
    subscribers := hub.subscribers - 1
    trafficSubscribers :=
      if trafficEnabled then hub.trafficSubscribers - 1 else hub.trafficSubscribers }

end EventHub

namespace EventSubscription

variable (self : EventSubscription) (hub : EventHub)

def accepts (kind : EventKind) : Bool := self.kinds.isEmpty || self.kinds.contains kind

def item : EventSubscription :=
  { self with outputSequence := max (saturatingSucc self.outputSequence) 1 }

/-- The ring has lost events that the cursor has not passed. -/
def overrun : Bool :=
  match hub.events.head? with
  | some oldest => self.cursor < oldest.sequence
  | none => false

def normal : Option EventRecord :=
  hub.events.find? fun event => self.cursor ≤ event.sequence && self.accepts event.kind

def traffic : Option EventRecord :=
  if self.trafficEnabled then
    hub.latestTraffic.filter fun event => self.trafficCursor < event.sequence
  else none

def nodeActive : Option EventRecord :=
  if self.nodeActiveEnabled then
    hub.latestNodeActive.filter fun event => self.nodeActiveCursor < event.sequence
  else none

/-- The older of the two ephemeral events, and whether it is the traffic event. -/
def ephemeral : Option (EventRecord × Bool) :=
  match self.traffic hub, self.nodeActive hub with
  | some traffic, some nodeActive =>
    if traffic.sequence ≤ nodeActive.sequence then some (traffic, true)
    else some (nodeActive, false)
  | some traffic, none => some (traffic, true)
  | none, some nodeActive => some (nodeActive, false)
  | none, none => none

def normalFirst : Option EventRecord :=
  match self.normal hub, self.ephemeral hub with
  | some normal, some (event, _) =>
    if normal.sequence < event.sequence then some normal else none
  | some normal, none => some normal
  | none, _ => none

/-- The body of the loop in `next_frame`. -/
def nextEvent : Option Item × EventSubscription :=
  if self.overrun hub then
    (some .resyncRequired,
      { self with cursor := hub.nextSequence, initialSnapshot := some hub.snapshot }.item)
  else
    match self.normalFirst hub, self.ephemeral hub with
    | some event, _ =>
      (some (.event event), { self with cursor := saturatingSucc event.sequence }.item)
    | none, some (event, true) =>
      (some (.event event), { self with trafficCursor := event.sequence }.item)
    | none, some (event, false) =>
      (some (.event event), { self with nodeActiveCursor := event.sequence }.item)
    | none, none => (none, { self with cursor := max self.cursor hub.nextSequence })

/-- One pass of `next_frame` under the lock: a frame, or none when it waits for a change
of the hub and then tries again. -/
def nextFrame : Option Item × EventSubscription :=
  match self.initialSnapshot with
  | some snapshot => (some (.snapshot snapshot), { self with initialSnapshot := none }.item)
  | none => self.nextEvent hub

end EventSubscription

end NetHop.Events
