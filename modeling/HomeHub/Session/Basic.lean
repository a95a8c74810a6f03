import HomeHub.Dispatch
import HomeHub.Stream.Plan

/-!
# Sessions

Several buses, the streams opened on them and a clock, as one value. The session holds a reference
to each bus until it drops it. A bus lives on while a stream of handles owns it, but the session
cannot reach it any more; without any owner it is closed.
-/

namespace HomeHub

/-- A bus and what the session knows about it. -/
structure BusSlot where
  bus : Bus
  referenced : Bool
  /-- What every service call fails with while the bus refuses them. -/
  refusal : Option HubError

structure Session where
  /-- Milliseconds since the session began. -/
  clock : Nat
  slots : List BusSlot
  streams : Table Stream
  /-- The places of the buses that took a service call, in order. -/
  callOrder : List Nat

namespace Session

def ofBuses (buses : List Bus) : Session :=
  ⟨0, buses.map fun bus => ⟨bus, true, none⟩, [], []⟩

/-- The bus at a place, while the session has a reference. -/
def bus? (session : Session) (slot : Nat) : Option Bus :=
  match session.slots[slot]? with
  | some entry => if entry.referenced then some entry.bus else none
  | none => none

theorem bus?_eq_some {session : Session} {slot : Nat} {bus : Bus}
    (h : session.bus? slot = some bus) :
    ∃ entry, session.slots[slot]? = some entry ∧ entry.referenced = true ∧ entry.bus = bus := by
  unfold bus? at h
  cases hs : session.slots[slot]? with
  | none => simp [hs] at h
  | some entry =>
    simp only [hs, Option.ite_none_right_eq_some, Option.some.injEq] at h
    exact ⟨entry, rfl, h⟩

def changeSlot (session : Session) (slot : Nat) (change : BusSlot → BusSlot) : Session :=
  { session with slots := session.slots.modify slot change }

def putBus (session : Session) (slot : Nat) (bus : Bus) : Session :=
  session.changeSlot slot fun entry => { entry with bus := bus }

def owned (session : Session) (slot : Nat) : Bool :=
  session.streams.any fun (_, stream) => stream.owns slot

def closed (session : Session) (slot : Nat) : Bool :=
  match session.slots[slot]? with
  | some entry => !entry.referenced && !session.owned slot
  | none => true

def subscriberCount (session : Session) (slot : Nat) : Nat :=
  Stream.subscriptionsOfAll slot (session.streams.map (·.2))

def advance (session : Session) (milliseconds : Nat) : Session :=
  { session with clock := session.clock + milliseconds }

def dropBus (session : Session) (slot : Nat) : Session :=
  session.changeSlot slot fun entry => { entry with referenced := false }

/-- A failing bus answers service calls as a closed one does. -/
def setFailing (session : Session) (slot : Nat) (failing : Bool) : Session :=
  session.changeSlot slot fun entry =>
    { entry with refusal := if failing then some (.bus .closed) else none }

def handle? (session : Session) (slot : Nat) (entityId : String) : Option Handle :=
  (session.bus? slot).map fun bus => ⟨slot, bus.id, entityId⟩

def handles? (session : Session) (members : List (Nat × String)) : Option (List Handle) :=
  members.mapM fun (slot, entityId) => session.handle? slot entityId

def logLength (session : Session) (slot : Nat) : Nat :=
  ((session.slots[slot]?).map (·.bus.log.length)).getD 0

def deliver (session : Session) (delivery : Delivery) : Except HubError Session :=
  match session.slots[delivery.bus]? with
  | none => .error (.bus .closed)
  | some entry =>
    match entry.refusal with
    | some error => .error error
    | none =>
      let session := session.putBus delivery.bus (entry.bus.record delivery.call)
      .ok { session with callOrder := session.callOrder ++ [delivery.bus] }

/-- Hands calls to their buses in order, up to the first that fails. -/
def deliverAll (session : Session) : List Delivery → Except HubError Unit × Session
  | [] => (.ok (), session)
  | delivery :: rest =>
    match session.deliver delivery with
    | .ok session => session.deliverAll rest
    | .error error => (.error error, session)

def request (session : Session) (deliveries : Except ServiceCallError (List Delivery)) :
    Except HubError Unit × Session :=
  match deliveries with
  | .error error => (.error (.serviceCall error), session)
  | .ok deliveries => session.deliverAll deliveries

def callService (session : Session) (handle : Handle) (service : String)
    (data : Option Json.Value) : Except HubError Unit × Session :=
  session.request ((handle.delivery service data).map ([·]))

def callServiceFor (session : Session) (handles : List Handle) (service : String)
    (data : Option Json.Value) : Except HubError Unit × Session :=
  session.request (Handle.deliveries handles service data)

/-- Puts a stream under a name; a stream that had the name is dropped. -/
def putStream (session : Session) (name : String) (stream : Stream) : Session :=
  { session with streams := session.streams.insert name stream }

def subscribe? (session : Session) (name : String) (plan : Plan) : Option Session :=
  if plan.buses.all fun slot => (session.bus? slot).isSome then
    some (session.putStream name (plan.start session.logLength))
  else none

def dropStream (session : Session) (name : String) : Session :=
  { session with streams := session.streams.erase name }

def instant (session : Session) (pick : List Nat → Nat) : Instant :=
  ⟨session.clock, session.slots.map BusSlot.bus, session.closed, pick⟩

/-- Polls a stream; none if no stream has the name. -/
def poll (session : Session) (pick : List Nat → Nat) (name : String) (limit : Option Nat) :
    Option (List Item × PollStatus × Session) :=
  (session.streams.get? name).map fun stream =>
    let (items, status, stream) := stream.poll (session.instant pick) limit
    (items, status, session.putStream name stream)

end Session

end HomeHub
