import HomeHub.BusId
import HomeHub.EntityId
import HomeHub.Text.Quoted

/-!
# Entity handles

A handle names one entity on one bus. Handles are equal when the ids of their buses and of their
entities are, whatever they read the attributes as.
-/

namespace HomeHub

structure Handle where
  /-- The place of the bus among the buses at hand. -/
  bus : Nat
  busId : BusId
  entityId : String

namespace Handle

def same (first second : Handle) : Bool :=
  first.busId == second.busId && first.entityId == second.entityId

def countDistinct : List Handle → Nat
  | [] => 0
  | handle :: rest => (if rest.any handle.same then 0 else 1) + countDistinct rest

def domain? (handle : Handle) : Option String := EntityId.domain? handle.entityId

def text (handle : Handle) : String :=
  "Entity \x7b bus: BusId(" ++ handle.busId.text ++ "), entity_id: " ++
    Text.quoted handle.entityId ++ ", .. \x7d"

/-- The text of a handle of a named kind. -/
def textAs (kind : String) (handle : Handle) : String :=
  kind ++ "(" ++ handle.text ++ ")"

end Handle

end HomeHub
