import HomeHub.Json.Printer
import HomeHub.Model.Basic

/-!
# Reading attribute bags

A bag is any JSON value. Read as it is, it has to be an object; read as a record, it is an object
with the fields of the record under their keys, or an array of them in order. Null is the empty
bag. A lenient field that is missing or of another kind is empty and fails nothing.
-/

namespace HomeHub

open Json (Value Members)

inductive Mismatch where
  | invalidType (found : Value) (expected : String)
  | missingField (key : String)
  | invalidLength (length : Nat) (expected : String)

namespace Mismatch

def nameOf : Value → String
  | .null => "null"
  | .bool b => "boolean `" ++ (if b then "true" else "false") ++ "`"
  | .number (.int n) => "integer `" ++ String.ofList (Json.intText n) ++ "`"
  | .number (.real x) => "floating point `" ++ String.ofList (Json.realText x) ++ "`"
  | .string s => "string " ++ Text.quoted s
  | .array _ => "sequence"
  | .object _ => "map"

def message : Mismatch → String
  | .invalidType found expected => "invalid type: " ++ nameOf found ++ ", expected " ++ expected
  | .missingField key => "missing field `" ++ key ++ "`"
  | .invalidLength length expected =>
    "invalid length " ++ String.ofList (Nat.toDigits 10 length) ++ ", expected " ++ expected

end Mismatch

def bagMembers : Value → Except Mismatch Members
  | .null => .ok []
  | .object members => .ok members
  | bag => .error (.invalidType bag "a map")

inductive FieldValue where
  | string (text : String)
  | number (value : Binary64)
  | boolean (value : Bool)
  | anything (value : Value)

namespace FieldValue

/-- A value as the content of a field of some type. Every number is a binary64 number here, and
an untyped field takes null as well. -/
def of? : AttributeType → Value → Option FieldValue
  | .string, .string text => some (.string text)
  | .number, .number n => some (.number n.toBinary64)
  | .boolean, .bool b => some (.boolean b)
  | .anything, value => some (.anything value)
  | _, _ => none

def toValue : FieldValue → Value
  | .string text => .string text
  | .number value => .number (.real value)
  | .boolean value => .bool value
  | .anything value => value

def expected : AttributeType → String
  | .string => "a string"
  | .number => "f64"
  | .boolean => "a boolean"
  | .anything => "any value"

end FieldValue

structure RecordField where
  key : String
  type : AttributeType
  /-- A value of this field has to be there and to fit. -/
  required : Bool
  deriving DecidableEq

namespace RecordField

def read (field : RecordField) (value : Value) : Except Mismatch (Option FieldValue) :=
  match FieldValue.of? field.type value with
  | some content => .ok (some content)
  | none =>
    if field.required then .error (.invalidType value (FieldValue.expected field.type))
    else .ok none

end RecordField

structure RecordShape where
  name : String
  fields : List RecordField
  deriving DecidableEq

abbrev AttributeRecord := List (String × Option FieldValue)

namespace RecordShape

def lenient (name : String) (fields : List (String × AttributeType)) : RecordShape :=
  ⟨name, fields.map fun (key, type) => ⟨key, type, false⟩⟩

def ofDefinition (definition : FieldRecord) : RecordShape :=
  lenient definition.name (definition.fields.map fun field => (field.sourceKey, field.fieldType))

def expected (shape : RecordShape) : String := "struct " ++ shape.name

def expectedLength (shape : RecordShape) : String :=
  let count := shape.fields.length
  shape.expected ++ " with " ++ String.ofList (Nat.toDigits 10 count) ++
    (if count = 1 then " element" else " elements")

def checkMembers (shape : RecordShape) (members : Members) : Except Mismatch Unit :=
  members.forM fun (key, value) =>
    match shape.fields.find? (·.key == key) with
    | some field => (field.read value).map fun _ => ()
    | none => .ok ()

def readMember (members : Members) (field : RecordField) :
    Except Mismatch (String × Option FieldValue) :=
  match members.get? field.key with
  | some value => (field.read value).map (field.key, ·)
  | none => if field.required then .error (.missingField field.key) else .ok (field.key, none)

def readMembers (shape : RecordShape) (members : Members) : Except Mismatch AttributeRecord := do
  shape.checkMembers members
  shape.fields.mapM (readMember members)

/-- Items for fields in order; `taken` counts those before. -/
def readItems (shape : RecordShape) (taken : Nat) :
    List RecordField → List Value → Except Mismatch AttributeRecord
  | [], [] => .ok []
  | [], rest => .error (.invalidLength (taken + rest.length) "fewer elements in array")
  | field :: fields, [] =>
    if field.required then .error (.invalidLength taken shape.expectedLength)
    else (shape.readItems taken fields []).map ((field.key, none) :: ·)
  | field :: fields, value :: rest => do
    let content ← field.read value
    let others ← shape.readItems (taken + 1) fields rest
    return (field.key, content) :: others

def read (shape : RecordShape) : Value → Except Mismatch AttributeRecord
  | .null => shape.readMembers []
  | .object members => shape.readMembers members
  | .array items => shape.readItems 0 shape.fields items
  | bag => .error (.invalidType bag shape.expected)

end RecordShape

structure AttributeError where
  entityId : String
  cause : Mismatch

def AttributeError.message (error : AttributeError) : String :=
  "failed to decode attributes of " ++ error.entityId

end HomeHub
