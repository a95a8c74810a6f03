import HomeHub.Catalog
import HomeHub.Handle
import HomeHub.Text.Ascending

/-!
# Dispatching service calls

Which calls reach which buses when a service is called for one handle or for many. A service is
named with its domain or without; without, it belongs to the domain of the entity. A call for many
handles is checked as a whole before any bus is called, and then every bus is called once, in the
order of the bus ids, for all of its entities.
-/

namespace HomeHub

open Json (Value)

def resolveService (entityId service : String) : Except ServiceCallError (String × String) :=
  match EntityId.split service with
  | (domain, name) =>
    if name = "" then .error .emptyServiceName
    else
      match domain with
      | some domain => .ok (domain, name)
      | none =>
        match EntityId.domain? entityId with
        | some domain => .ok (domain, name)
        | none => .error (.missingDomain entityId name)

structure Delivery where
  bus : Nat
  call : ServiceCall

namespace Handle

def delivery (handle : Handle) (service : String) (data : Option Value) :
    Except ServiceCallError Delivery := do
  let (domain, name) ← resolveService handle.entityId service
  return ⟨handle.bus, ⟨domain, name, .entity handle.entityId, data⟩⟩

/-- Whether a service without domain means one service for all handles. -/
def checkDomains (handles : List Handle) (service : String) : Except ServiceCallError Unit := do
  let domains ← handles.mapM fun handle => (resolveService handle.entityId service).map (·.1)
  match Text.ascending domains with
  | first :: second :: rest => throw (.mixedDomains service (first :: second :: rest))
  | _ => return ()

def busIds (handles : List Handle) : List BusId :=
  BusId.ascending (handles.map Handle.busId)

/-- The call for the handles of one bus, at the place that the first of them names. -/
def deliveryTo (handles : List Handle) (domain name : String) (data : Option Value) (id : BusId) :
    Option Delivery :=
  match handles.filter (·.busId == id) with
  | [] => none
  | first :: rest =>
    some ⟨first.bus, ⟨domain, name, .entities ((first :: rest).map Handle.entityId), data⟩⟩

def deliveries (handles : List Handle) (service : String) (data : Option Value) :
    Except ServiceCallError (List Delivery) :=
  match handles with
  | [] => .ok []
  | first :: _ => do
    let (domain, name) ← resolveService first.entityId service
    if (EntityId.domain? service).isNone then checkDomains handles service
    return (busIds handles).filterMap (deliveryTo handles domain name data)

end Handle

end HomeHub
