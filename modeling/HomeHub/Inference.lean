import HomeHub.Json.Value

/-!
# Attribute types

The scalar type of an attribute is the one kind that all its observed values have. A null says
nothing; no observation, or two of different kinds, leave the attribute untyped.
-/

namespace HomeHub

open Json (Value)

inductive AttributeType where
  | string
  | number
  | boolean
  /-- Objects, arrays, and what the observations disagree on. -/
  | anything
  deriving DecidableEq

namespace AttributeType

def name : AttributeType → String
  | .string => "string"
  | .number => "number"
  | .boolean => "boolean"
  | .anything => "opaque"

def byName : List (String × AttributeType) :=
  [.string, .number, .boolean, .anything].map fun type => (type.name, type)

def of? : Value → Option AttributeType
  | .null => none
  | .bool _ => some .boolean
  | .number _ => some .number
  | .string _ => some .string
  | .array _ => some .anything
  | .object _ => some .anything

def «matches» (type : AttributeType) (value : Value) : Bool :=
  of? value == some type

def infer (observations : List Value) : AttributeType :=
  match observations.filterMap of? with
  | [] => .anything
  | first :: others => if others.all (· == first) then first else .anything

end AttributeType

structure Attribute where
  name : String
  type : AttributeType
  deriving DecidableEq

end HomeHub
