import HomeHub.Stream.Basic

/-!
# Plans of streams

What a stream is opened for: bare feeds of buses, changes of handles or ready items, and what is
done with them. A plan becomes a stream when it is opened; from then on the stream sees what is
written to the buses.
-/

namespace HomeHub

inductive Plan where
  /-- All changes of a bus. -/
  | bus (slot : Nat)
  /-- All changes of the entity of a handle. -/
  | entity (slot : Nat) (entityId : String)
  | items (ready : List Item)
  | transitions (plan : Plan)
  | untilError (plan : Plan)
  | merged (plans : List Plan)
  | held (predicate : Nat → Option EntityState → Bool) (duration : Nat) (plan : Plan)

namespace Plan

mutual
def start (lengths : Nat → Nat) : Plan → Stream
  | .bus slot => .ofBus slot (lengths slot)
  | .entity slot entityId => .ofEntity slot (lengths slot) entityId
  | .items ready => .ofItems ready
  | .transitions plan => (plan.start lengths).transitions
  | .untilError plan => (plan.start lengths).upToError
  | .merged plans => .merged (startAll lengths plans)
  | .held predicate duration plan => (plan.start lengths).held predicate duration
termination_by structural plan => plan
def startAll (lengths : Nat → Nat) : List Plan → List Stream
  | [] => []
  | plan :: rest => plan.start lengths :: startAll lengths rest
termination_by structural plans => plans
end

mutual
def buses : Plan → List Nat
  | .bus slot => [slot]
  | .entity slot _ => [slot]
  | .items _ => []
  | .transitions plan => plan.buses
  | .untilError plan => plan.buses
  | .merged plans => busesOfAll plans
  | .held _ _ plan => plan.buses
termination_by structural plan => plan
def busesOfAll : List Plan → List Nat
  | [] => []
  | plan :: rest => plan.buses ++ busesOfAll rest
termination_by structural plans => plans
end

def entities (members : List (Nat × String)) : Plan :=
  .merged (members.map fun (slot, entityId) => .entity slot entityId)

end Plan

end HomeHub
