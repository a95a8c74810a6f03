import HomeHub.Catalog
import HomeHub.Json.Printer
import HomeHub.Model.Basic

/-!
# Models as JSON

A definition is an object whose member `kind` names its kind. Optional texts of fields and methods
are left out where there are none. The dump of a model is indented and ends with a line feed.
-/

namespace HomeHub

open Json (Value Failure Document)

/-- Members that are left out where there is no text. -/
def optionalMember (name : String) (text : Option String) : List (String × Value) :=
  match text with
  | none => []
  | some text => [(name, .string text)]

def textList (texts : List String) : Value := .array (texts.map .string)

namespace AggregatorMember

def toValue (member : AggregatorMember) : Value :=
  .object [("identifier", .string member.identifier), ("domain", .string member.domain),
    ("type_name", .string member.typeName)]

open Json.Decoder in
def decoder : Json.Decoder AggregatorMember :=
  record (.required "identifier" string <| .required "domain" string <|
      .required "type_name" string .nil)
    fun (identifier, domain, typeName, ()) => ⟨identifier, domain, typeName⟩

end AggregatorMember

namespace EntityProperty

def toValue (property : EntityProperty) : Value :=
  .object [("identifier", .string property.identifier), ("entity_id", .string property.entityId),
    ("entity_type", .string property.entityType)]

open Json.Decoder in
def decoder : Json.Decoder EntityProperty :=
  record (.required "identifier" string <| .required "entity_id" string <|
      .required "entity_type" string .nil)
    fun (identifier, entityId, entityType, ()) => ⟨identifier, entityId, entityType⟩

end EntityProperty

namespace FieldDefinition

def toValue (field : FieldDefinition) : Value :=
  .object ([("identifier", .string field.identifier), ("source_key", .string field.sourceKey),
    ("field_type", .string field.fieldType.name), ("required", .bool field.required)] ++
    optionalMember "description" field.description)

open Json.Decoder in
def decoder : Json.Decoder FieldDefinition :=
  record (.required "identifier" string <| .required "source_key" string <|
      .required "field_type" (choice true AttributeType.byName) <| .required "required" bool <|
      .optional "description" (option string) none .nil)
    fun (identifier, sourceKey, fieldType, required, description, ()) =>
      ⟨identifier, sourceKey, fieldType, required, description⟩

end FieldDefinition

namespace ServiceMethod

def toValue (method : ServiceMethod) : Value :=
  .object ([("identifier", .string method.identifier), ("service", .string method.service)] ++
    optionalMember "description" method.description ++
    optionalMember "parameters" method.parameters)

open Json.Decoder in
def decoder : Json.Decoder ServiceMethod :=
  record (.required "identifier" string <| .required "service" string <|
      .optional "description" (option string) none <|
      .optional "parameters" (option string) none .nil)
    fun (identifier, service, description, parameters, ()) =>
      ⟨identifier, service, description, parameters⟩

end ServiceMethod

namespace TypeDefinition

def kind : TypeDefinition → String
  | .registration _ => "registration"
  | .rootEntities _ => "root_entities"
  | .domainEntities _ => "domain_entities"
  | .entity _ => "entity"
  | .attributeRecord _ => "attribute_record"
  | .rootServices _ => "root_services"
  | .serviceGroup _ => "service_group"
  | .serviceParameters _ => "service_parameters"
  | .entityExtensions _ => "entity_extensions"

def rootMembers (root : RootAggregator) : List (String × Value) :=
  [("name", .string root.name), ("members", .array (root.members.map AggregatorMember.toValue))]

def recordMembers (record : FieldRecord) : List (String × Value) :=
  [("name", .string record.name), ("origin", .string record.origin),
    ("fields", .array (record.fields.map FieldDefinition.toValue))]

def members : TypeDefinition → List (String × Value)
  | .registration d => [("name", .string d.name), ("injectable", textList d.injectable)]
  | .rootEntities d => rootMembers d
  | .domainEntities d => [("name", .string d.name), ("domain", .string d.domain),
      ("entities", .array (d.entities.map EntityProperty.toValue))]
  | .entity d => [("name", .string d.name), ("domain", .string d.domain),
      ("numeric", .bool d.numeric), ("attributes", .string d.attributes)]
  | .attributeRecord d => recordMembers d
  | .rootServices d => rootMembers d
  | .serviceGroup d => [("name", .string d.name), ("domain", .string d.domain),
      ("methods", .array (d.methods.map ServiceMethod.toValue))]
  | .serviceParameters d => recordMembers d
  | .entityExtensions d => [("name", .string d.name), ("domain", .string d.domain),
      ("entity_types", textList d.entityTypes),
      ("methods", .array (d.methods.map ServiceMethod.toValue))]

def toValue (definition : TypeDefinition) : Value :=
  .object (("kind", .string definition.kind) :: definition.members)

open Json.Decoder in
def rootDecoder : Json.Decoder RootAggregator :=
  record (.required "name" string <| .required "members" (list AggregatorMember.decoder) .nil)
    fun (name, members, ()) => ⟨name, members⟩

open Json.Decoder in
def recordDecoder : Json.Decoder FieldRecord :=
  record (.required "name" string <| .required "origin" string <|
      .required "fields" (list FieldDefinition.decoder) .nil)
    fun (name, origin, fields, ()) => ⟨name, origin, fields⟩

open Json.Decoder in
def decoders : List (String × Json.Decoder TypeDefinition) := [
  ("registration", map .registration <|
    record (.required "name" string <| .required "injectable" (list string) .nil)
      fun (name, injectable, ()) => ⟨name, injectable⟩),
  ("root_entities", map .rootEntities rootDecoder),
  ("domain_entities", map .domainEntities <|
    record (.required "name" string <| .required "domain" string <|
        .required "entities" (list EntityProperty.decoder) .nil)
      fun (name, domain, entities, ()) => ⟨name, domain, entities⟩),
  ("entity", map .entity <|
    record (.required "name" string <| .required "domain" string <|
        .required "numeric" bool <| .required "attributes" string .nil)
      fun (name, domain, numeric, attributes, ()) => ⟨name, domain, numeric, attributes⟩),
  ("attribute_record", map .attributeRecord recordDecoder),
  ("root_services", map .rootServices rootDecoder),
  ("service_group", map .serviceGroup <|
    record (.required "name" string <| .required "domain" string <|
        .required "methods" (list ServiceMethod.decoder) .nil)
      fun (name, domain, methods, ()) => ⟨name, domain, methods⟩),
  ("service_parameters", map .serviceParameters recordDecoder),
  ("entity_extensions", map .entityExtensions <|
    record (.required "name" string <| .required "domain" string <|
        .required "entity_types" (list string) <|
        .required "methods" (list ServiceMethod.decoder) .nil)
      fun (name, domain, entityTypes, methods, ()) => ⟨name, domain, entityTypes, methods⟩)]

/-- The kinds that the members of an object name, and its other members. -/
def splitKind :
    List (Json.Leaf String × Document) → Except Failure (List Document × List (Json.Leaf String × Document))
  | [] => .ok ([], [])
  | (key, document) :: rest => do
    let (kinds, others) ← splitKind rest
    if (← key.read) = "kind" then return (document :: kinds, others)
    else return (kinds, (key, document) :: others)

/-- A definition is read as a whole before its kind is looked at. As an array it has its kind in
front of its fields. -/
def decoder : Json.Decoder TypeDefinition
  | levels, .object members ending => do
    discard <| Json.Decoder.value levels (.object members ending)
    match ← splitKind members with
    | ([kind], others) => ofKind levels kind (.object others ending)
    | _ => throw .mismatch
  | levels, .array items ending => do
    discard <| Json.Decoder.value levels (.array items ending)
    match items with
    | kind :: fields => ofKind levels kind (.array fields ending)
    | [] => throw .mismatch
  | _, document => .error document.refusal
where
  ofKind (levels : Nat) (kind document : Document) : Except Failure TypeDefinition := do
    match decoders.lookup (← Json.Decoder.string levels kind) with
    | some decoder => decoder levels document
    | none => throw .mismatch

end TypeDefinition

namespace GeneratedModel

def toValue (model : GeneratedModel) : Value :=
  .object [("types", .array (model.types.map TypeDefinition.toValue))]

open Json.Decoder in
def decoder : Json.Decoder GeneratedModel :=
  record (.required "types" (list TypeDefinition.decoder) .nil) fun (types, ()) => ⟨types⟩

def renderJson (model : GeneratedModel) : String :=
  model.toValue.indented ++ "\n"

end GeneratedModel

end HomeHub
