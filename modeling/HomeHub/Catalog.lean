import HomeHub.Error
import HomeHub.Inference
import HomeHub.Json.Record

/-!
# Service catalog

The services a hub declares, by domain, and the calls made to them.
-/

namespace HomeHub

open Json (Value)

structure ServiceField where
  name : String
  /-- The declared type, where the catalog gives one. -/
  typeName : Option String
  required : Bool
  description : Option String
  deriving DecidableEq

structure Service where
  name : String
  description : Option String
  fields : List ServiceField
  deriving DecidableEq

structure ServiceDomain where
  domain : String
  services : List Service
  deriving DecidableEq

namespace ServiceField

/-- The declared types that are known, by the scalar type they stand for. -/
def vocabulary : List (AttributeType × List String) := [
  (.string, ["string", "text", "entity", "select", "time", "date", "datetime", "color", "icon",
    "template"]),
  (.number, ["number", "integer", "float"]),
  (.boolean, ["boolean", "bool"]),
  (.anything, ["object", "any", "json", "list", "target", "area", "device"])]

def typeNamed? (name : String) : Option AttributeType :=
  (vocabulary.find? fun (_, names) => names.contains name).map (·.1)

/-- The type of a field of the given service; a field that declares none is untyped. -/
def resolvedType (field : ServiceField) (domain service : String) :
    Except GenerationError AttributeType :=
  match field.typeName with
  | none => .ok .anything
  | some name =>
    match typeNamed? name with
    | some type => .ok type
    | none => .error (.unknownFieldType domain service field.name name)

open Json.Decoder in
def decoder : Json.Decoder ServiceField :=
  record (.required "name" string <| .optional "type" (option string) none <|
      .optional "required" bool false <| .optional "description" (option string) none .nil)
    fun (name, typeName, required, description, ()) => ⟨name, typeName, required, description⟩

def toValue (field : ServiceField) : Value :=
  .object [
    ("name", .string field.name),
    ("type", .ofOption .string field.typeName),
    ("required", .bool field.required),
    ("description", .ofOption .string field.description)]

end ServiceField

namespace Service

open Json.Decoder in
def decoder : Json.Decoder Service :=
  record (.required "name" string <| .optional "description" (option string) none <|
      .optional "fields" (list ServiceField.decoder) [] .nil)
    fun (name, description, fields, ()) => ⟨name, description, fields⟩

def toValue (service : Service) : Value :=
  .object [
    ("name", .string service.name),
    ("description", .ofOption .string service.description),
    ("fields", .array (service.fields.map ServiceField.toValue))]

end Service

namespace ServiceDomain

open Json.Decoder in
def decoder : Json.Decoder ServiceDomain :=
  record (.required "domain" string <| .optional "services" (list Service.decoder) [] .nil)
    fun (domain, services, ()) => ⟨domain, services⟩

def toValue (entry : ServiceDomain) : Value :=
  .object [
    ("domain", .string entry.domain),
    ("services", .array (entry.services.map Service.toValue))]

end ServiceDomain

inductive ServiceTarget where
  | entity (id : String)
  | entities (ids : List String)
  deriving DecidableEq

namespace ServiceTarget

def entityIds : ServiceTarget → List String
  | .entity id => [id]
  | .entities ids => ids

def decoder : Json.Decoder ServiceTarget
  | levels, .object members ending =>
    Json.Decoder.opened levels fun levels => do
      match members with
      | [(key, document)] => do
        let key ← key.read
        let target ←
          if key = "entity" then (Json.Decoder.string levels document).map .entity
          else if key = "entities" then
            (Json.Decoder.list Json.Decoder.string levels document).map .entities
          else throw .mismatch
        ending
        return target
      | _ => throw .mismatch
  | _, document => .error document.refusal

def toValue : ServiceTarget → Value
  | .entity id => .object [("entity", .string id)]
  | .entities ids => .object [("entities", .array (ids.map .string))]

end ServiceTarget

structure ServiceCall where
  domain : String
  service : String
  target : ServiceTarget
  data : Option Value

end HomeHub
