import HomeHub.Bus
import HomeHub.Stream.Hold
import HomeHub.Stream.Merge

/-!
# Streams of changes

A stream is a feed of a bus or a list of ready items, seen through filters, holds and merges. It
does nothing until it is polled; then its run says what it gives, in an instant in which no bus
and no clock moves.
-/

namespace HomeHub

inductive Stream where
  /-- The log of a bus from `cursor` on. A feed that owns its bus keeps it alive. At the end of the
  log of a bus without owners the feed has but one item left: the bus is closed. -/
  | feed (bus : Nat) (owning : Bool) (cursor : Nat)
  /-- Items that are ready, which pause after `turns` more answers. -/
  | ready (turns : Nat) (items : List Item)
  /-- Nothing any more. -/
  | over
  | filter (keep : StateChange → Bool) (source : Stream)
  | untilError (done : Bool) (source : Stream)
  | merge (done : Bool) (branches : List Stream)
  | hold (hold : Hold) (source : Stream)

/-- What a stream can see while it is polled. -/
structure Instant where
  now : Nat
  buses : List Bus
  closed : Nat → Bool
  /-- Which branch a merge asks first. The path leads through the branches of outer merges and ends
  with the number of the question. -/
  pick : List Nat → Nat

def Instant.inside (instant : Instant) (branch : Nat) : Instant :=
  { instant with pick := fun path => instant.pick (branch :: path) }

namespace Stream

def readyRun (turns : Nat) (items : List Item) : Run Stream :=
  (Run.ready turns items).map fun (turns, items) => .ready turns items

/-- A bus that is not there is closed. -/
def feedRun (instant : Instant) (slot : Nat) (owning : Bool) (cursor : Nat) : Run Stream :=
  let read := ((instant.buses[slot]?).map (·.read cursor)).getD []
  let steps := read.map fun (item, behind) =>
    (Beat.item (item.mapError HubError.bus), Stream.feed slot owning behind)
  if instant.closed slot then
    Run.after steps ⟨[(.item (.error (.bus .closed)), .over)], .over, true⟩
  else ⟨steps, .feed slot owning ((read.getLast?.map (·.2)).getD cursor), false⟩

mutual
def run (instant : Instant) : Stream → Run Stream
  | .feed slot owning cursor => feedRun instant slot owning cursor
  | .ready turns items => readyRun turns items
  | .over => ⟨[], .over, true⟩
  | .filter keep source => ((source.run instant).filter keep).map (.filter keep)
  | .untilError done source =>
    if done then ⟨[], .untilError true source, true⟩
    else (source.run instant).untilError.map fun (done, source) => .untilError done source
  | .merge done branches =>
    if done then ⟨[], .merge true branches, true⟩
    else
      (Run.weave (fun count => instant.pick [count]) branches
        (runBranches instant 0 branches)).untilError.map fun (done, branches) => .merge done branches
  | .hold state source =>
    (Run.hold instant.now state source (source.run instant)).map fun (state, source) =>
      .hold state source
termination_by structural s => s
def runBranches (instant : Instant) (index : Nat) : List Stream → List (Run Stream)
  | [] => []
  | branch :: rest => branch.run (instant.inside index) :: runBranches instant (index + 1) rest
termination_by structural branches => branches
end

mutual
/-- How many feeds of a bus the stream holds. -/
def subscriptions (bus : Nat) : Stream → Nat
  | .feed slot _ _ => if slot = bus then 1 else 0
  | .ready _ _ => 0
  | .over => 0
  | .filter _ source => source.subscriptions bus
  | .untilError _ source => source.subscriptions bus
  | .merge _ branches => subscriptionsOfAll bus branches
  | .hold _ source => source.subscriptions bus
termination_by structural s => s
def subscriptionsOfAll (bus : Nat) : List Stream → Nat
  | [] => 0
  | branch :: rest => branch.subscriptions bus + subscriptionsOfAll bus rest
termination_by structural branches => branches
end

mutual
def owns (bus : Nat) : Stream → Bool
  | .feed slot owning _ => owning && slot == bus
  | .ready _ _ => false
  | .over => false
  | .filter _ source => source.owns bus
  | .untilError _ source => source.owns bus
  | .merge _ branches => anyOwns bus branches
  | .hold _ source => source.owns bus
termination_by structural s => s
def anyOwns (bus : Nat) : List Stream → Bool
  | [] => false
  | branch :: rest => branch.owns bus || anyOwns bus rest
termination_by structural branches => branches
end

def hold? : Stream → Option Hold
  | .hold state _ => some state
  | _ => none

def transitions (source : Stream) : Stream := .filter StateChange.isTransition source

def upToError (source : Stream) : Stream := .untilError false source

def merged (branches : List Stream) : Stream := .merge false branches

def held (predicate : Nat → Option EntityState → Bool) (duration : Nat) (source : Stream) : Stream :=
  .hold (.start predicate duration) source

def ofBus (slot length : Nat) : Stream := .feed slot false length

/-- All changes of one entity on such a bus, up to the first error. -/
def ofEntity (slot length : Nat) (entityId : String) : Stream :=
  upToError (.filter (·.entityId == entityId) (.feed slot true length))

def ofItems (items : List Item) : Stream := .ready Run.maximalTurns items

def poll (instant : Instant) (limit : Option Nat) (stream : Stream) :
    List Item × PollStatus × Stream :=
  (stream.run instant).take limit stream

end Stream

end HomeHub
