import HomeHub.Json.Record
import HomeHub.Text.Blank

/-!
# Entity states

What is known of one entity at one moment, and how it changes. The state itself is a text; it is
read as a number only on request, and a change is one of the state when the text differs.
-/

namespace HomeHub

open Json (Value)

abbrev Timestamp := Int

structure Context where
  id : String
  parentId : Option String
  userId : Option String
  deriving DecidableEq

open Json.Decoder in
def Context.decoder : Json.Decoder Context :=
  record (.required "id" string <| .optional "parent_id" (option string) none <|
      .optional "user_id" (option string) none .nil)
    fun (id, parentId, userId, ()) => ⟨id, parentId, userId⟩

def Context.toValue (context : Context) : Value :=
  .object [
    ("id", .string context.id),
    ("parent_id", .ofOption .string context.parentId),
    ("user_id", .ofOption .string context.userId)]

/-- The finite number that a text spells between blanks. -/
def numberOfText? (text : String) : Option Binary64 :=
  ((Decimal.ofText? (Text.trim text.toList)).map Decimal.toBinary64).filter Binary64.isFinite

def lowerAscii (c : Char) : Char :=
  if 'A' ≤ c && c ≤ 'Z' then Char.ofNat (c.toNat + 32) else c

/-- Texts that differ at most in the case of ASCII letters. -/
def equalIgnoringCase (text other : String) : Bool :=
  text.toList.map lowerAscii == other.toList.map lowerAscii

structure EntityState where
  entityId : String
  state : Option String
  attributes : Value
  /-- When the state text last became what it is. -/
  lastChanged : Option Timestamp
  lastUpdated : Option Timestamp
  context : Option Context

namespace EntityState

/-- Equality in every part, where numbers of attributes compare by kind and value. -/
def same (first second : EntityState) : Bool :=
  first.entityId == second.entityId && first.state == second.state &&
    first.attributes.same second.attributes && first.lastChanged == second.lastChanged &&
    first.lastUpdated == second.lastUpdated && first.context == second.context

def number? (state : EntityState) : Option Binary64 :=
  state.state.bind numberOfText?

def isOn (state : EntityState) : Bool := state.state.any (equalIgnoringCase · "on")

def isOff (state : EntityState) : Bool := state.state.any (equalIgnoringCase · "off")

end EntityState

/-- What became of an entity: without an old side it is new, without a new side it is gone. -/
structure StateChange where
  entityId : String
  old : Option EntityState
  new : Option EntityState

namespace StateChange

def oldText (change : StateChange) : Option String := change.old.bind EntityState.state

def newText (change : StateChange) : Option String := change.new.bind EntityState.state

/-- The state texts differ; a missing side and a state without text are alike. -/
def isTransition (change : StateChange) : Bool := change.oldText != change.newText

end StateChange

end HomeHub
