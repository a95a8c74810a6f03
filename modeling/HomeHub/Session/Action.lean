import HomeHub.Session.Basic

/-!
# Actions of a session

Everything that can be done to a session, one action after the other, and what comes of it.
-/

namespace HomeHub

inductive Action where
  /-- Writes a state at a reading of the wall clock. -/
  | setState (bus : Nat) (now : Timestamp) (state : EntityState)
  | removeState (bus : Nat) (entityId : String)
  | setArea (bus : Nat) (entityId : String) (area : Area)
  | call (bus : Nat) (entityId service : String) (data : Option Json.Value)
  | callMany (members : List (Nat × String)) (service : String) (data : Option Json.Value)
  | setFailing (bus : Nat) (failing : Bool)
  | dropBus (bus : Nat)
  | advance (milliseconds : Nat)
  | subscribe (stream : String) (plan : Plan)
  | poll (stream : String) (limit : Option Nat)
  | dropStream (stream : String)

namespace Action

def stream? : Action → Option String
  | .subscribe name _ => some name
  | .poll name _ => some name
  | .dropStream name => some name
  | _ => none

/-- An action that neither replaces nor drops the stream under a name. -/
def Keeps (name : String) : Action → Prop
  | .subscribe other _ => other ≠ name
  | .dropStream other => other ≠ name
  | _ => True

end Action

inductive Outcome where
  | done
  /-- The change of a write, none if there was nothing to remove. -/
  | changed (change : Option StateChange)
  | called (result : Except HubError Unit)
  | polled (items : List Item) (status : PollStatus)
  /-- Whether what was dropped had been there. -/
  | dropped (present : Bool)
  | noBus
  | noStream

namespace Session

/-- Does something to a bus that the session refers to. -/
def onBus (session : Session) (slot : Nat) (act : Bus → Outcome × Session) : Outcome × Session :=
  match session.bus? slot with
  | some bus => act bus
  | none => (.noBus, session)

def perform (pick : List Nat → Nat) (session : Session) : Action → Outcome × Session
  | .setState slot now state => session.onBus slot fun bus =>
    let (change, bus) := bus.setState now state
    (.changed (some change), session.putBus slot bus)
  | .removeState slot entityId => session.onBus slot fun bus =>
    let (change, bus) := bus.removeState entityId
    (.changed change, session.putBus slot bus)
  | .setArea slot entityId area => session.onBus slot fun bus =>
    (.done, session.putBus slot (bus.setArea entityId area))
  | .call slot entityId service data => session.onBus slot fun bus =>
    let (result, session) := session.callService ⟨slot, bus.id, entityId⟩ service data
    (.called result, session)
  | .callMany members service data =>
    match session.handles? members with
    | none => (.noBus, session)
    | some handles =>
      let (result, session) := session.callServiceFor handles service data
      (.called result, session)
  | .setFailing slot failing => session.onBus slot fun _ =>
    (.done, session.setFailing slot failing)
  | .dropBus slot => (.dropped (session.bus? slot).isSome, session.dropBus slot)
  | .advance milliseconds => (.done, session.advance milliseconds)
  | .subscribe name plan =>
    match session.subscribe? name plan with
    | some session => (.done, session)
    | none => (.noBus, session)
  | .poll name limit =>
    match session.poll pick name limit with
    | some (items, status, session) => (.polled items status, session)
    | none => (.noStream, session)
  | .dropStream name => (.dropped (session.streams.contains name), session.dropStream name)

end Session

/-- An action, and how merges choose among their branches while it is performed. -/
structure Step where
  pick : List Nat → Nat
  action : Action

namespace Session

def performSteps (session : Session) : List Step → Session
  | [] => session
  | step :: rest => (session.perform step.pick step.action).2.performSteps rest

def performAll (pick : List Nat → Nat) (session : Session) (actions : List Action) : Session :=
  session.performSteps (actions.map (Step.mk pick))

def reply? (name : String) (action : Action) : Outcome → Option (List Item × PollStatus)
  | .polled items status => if action.stream? = some name then some (items, status) else none
  | _ => none

def replies (name : String) : Session → List Step → List (List Item × PollStatus)
  | _, [] => []
  | session, step :: rest =>
    (reply? name step.action (session.perform step.pick step.action).1).toList ++
      (session.perform step.pick step.action).2.replies name rest

end Session

end HomeHub
