import HomeHub.BusId
import HomeHub.Catalog
import HomeHub.State

/-!
# State buses

A bus caches the latest state of every entity and publishes each write. What it has published
stays in its log; a reader stands at some place of the log and is given what lies behind it, but
never more than the window of the bus. What falls out of the window is lost to the reader, who is
told how much that was.
-/

namespace HomeHub

structure Area where
  id : String
  name : String
  deriving DecidableEq

inductive CapacityError where
  | zero
  deriving DecidableEq

def CapacityError.message : CapacityError → String
  | .zero => "broadcast channel capacity cannot be zero"

structure Bus where
  id : BusId
  capacity : Nat
  states : Table EntityState
  areas : Table Area
  /-- Every service call received, in order. -/
  calls : List ServiceCall
  /-- Every change published, in order. -/
  log : List StateChange

namespace Bus

def empty (id : BusId) (capacity : Nat) : Except CapacityError Bus :=
  if capacity = 0 then .error .zero else .ok ⟨id, capacity, [], [], [], []⟩

/-- How many changes are kept for a reader: the least power of two that is no less than the
capacity. -/
def window (bus : Bus) : Nat :=
  if bus.capacity ≤ 1 then 1 else twoTo ((bus.capacity - 1).log2 + 1)

def currentState (bus : Bus) (entityId : String) : Option EntityState := bus.states.get? entityId

def areaOf (bus : Bus) (entityId : String) : Option Area := bus.areas.get? entityId

def publish (bus : Bus) (change : StateChange) : Bus :=
  { bus with log := bus.log ++ [change] }

/-- A state as it is cached. Missing times are filled in: the update is now, and the state text
changed now unless the state before has the same text, whose time is then kept. -/
def stamp (now : Timestamp) (old : Option EntityState) (state : EntityState) : EntityState :=
  let kept := old.bind fun old => if old.state = state.state then old.lastChanged else none
  { state with
    lastChanged := some ((state.lastChanged <|> kept).getD now)
    lastUpdated := some (state.lastUpdated.getD now) }

def writing (bus : Bus) (now : Timestamp) (state : EntityState) : StateChange :=
  let old := bus.currentState state.entityId
  ⟨state.entityId, old, some (stamp now old state)⟩

def store (states : Table EntityState) (change : StateChange) : Table EntityState :=
  match change.new with
  | some state => states.insert change.entityId state
  | none => states.erase change.entityId

def apply (bus : Bus) (change : StateChange) : Bus :=
  { bus with states := store bus.states change }.publish change

def setState (bus : Bus) (now : Timestamp) (state : EntityState) : StateChange × Bus :=
  let change := bus.writing now state
  (change, bus.apply change)

/-- Forgets an entity. Nothing happens to one that is not known. -/
def removeState (bus : Bus) (entityId : String) : Option StateChange × Bus :=
  match bus.currentState entityId with
  | none => (none, bus)
  | some old =>
    let change : StateChange := ⟨entityId, some old, none⟩
    (some change, bus.apply change)

def setArea (bus : Bus) (entityId : String) (area : Area) : Bus :=
  { bus with areas := bus.areas.insert entityId area }

def record (bus : Bus) (call : ServiceCall) : Bus :=
  { bus with calls := bus.calls ++ [call] }

/-- How many changes a reader at `cursor` has lost. -/
def lost (bus : Bus) (cursor : Nat) : Nat := bus.log.length - cursor - bus.window

/-- What a reader at `cursor` is given, each with the place of the reader behind it. -/
def read (bus : Bus) (cursor : Nat) : List (Except BusError StateChange × Nat) :=
  let lost := bus.lost cursor
  let changes := ((bus.log.drop (cursor + lost)).zipIdx (cursor + lost + 1)).map
    fun (change, behind) => (Except.ok change, behind)
  if lost = 0 then changes else (.error (.lagged lost), cursor + lost) :: changes

end Bus

end HomeHub
