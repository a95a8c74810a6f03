import HomeHub.Inference

/-!
# Generated models

A model is the ordered list of types that a renderer writes. It carries all that rendering needs:
identifiers, source keys, scalar types and entity ids.
-/

namespace HomeHub

structure Registration where
  name : String
  injectable : List String
  deriving DecidableEq

structure AggregatorMember where
  identifier : String
  domain : String
  typeName : String
  deriving DecidableEq

/-- One member a domain. -/
structure RootAggregator where
  name : String
  members : List AggregatorMember
  deriving DecidableEq

structure EntityProperty where
  identifier : String
  entityId : String
  entityType : String
  deriving DecidableEq

/-- One property an entity of the domain. -/
structure DomainAggregator where
  name : String
  domain : String
  entities : List EntityProperty
  deriving DecidableEq

structure EntityType where
  name : String
  domain : String
  numeric : Bool
  attributes : String
  deriving DecidableEq

structure FieldDefinition where
  identifier : String
  /-- The key of the field in attribute bags and call data. -/
  sourceKey : String
  fieldType : AttributeType
  required : Bool
  description : Option String
  deriving DecidableEq

structure FieldRecord where
  name : String
  /-- What the record belongs to. -/
  origin : String
  fields : List FieldDefinition
  deriving DecidableEq

structure ServiceMethod where
  identifier : String
  service : String
  description : Option String
  /-- The record of the parameters, none for a service without fields. -/
  parameters : Option String
  deriving DecidableEq

def ServiceMethod.qualifiedName (method : ServiceMethod) (domain : String) : String :=
  domain ++ "." ++ method.service

/-- One method a service of the domain. -/
structure ServiceGroup where
  name : String
  domain : String
  methods : List ServiceMethod
  deriving DecidableEq

structure EntityExtensions where
  name : String
  domain : String
  entityTypes : List String
  methods : List ServiceMethod
  deriving DecidableEq

inductive TypeDefinition where
  | registration (definition : Registration)
  | rootEntities (definition : RootAggregator)
  | domainEntities (definition : DomainAggregator)
  | entity (definition : EntityType)
  | attributeRecord (definition : FieldRecord)
  | rootServices (definition : RootAggregator)
  | serviceGroup (definition : ServiceGroup)
  | serviceParameters (definition : FieldRecord)
  | entityExtensions (definition : EntityExtensions)
  deriving DecidableEq

namespace TypeDefinition

def name : TypeDefinition → String
  | .registration d => d.name
  | .rootEntities d => d.name
  | .domainEntities d => d.name
  | .entity d => d.name
  | .attributeRecord d => d.name
  | .rootServices d => d.name
  | .serviceGroup d => d.name
  | .serviceParameters d => d.name
  | .entityExtensions d => d.name

def origin : TypeDefinition → String
  | .registration _ => "registration helper"
  | .rootEntities _ => "root entities"
  | .domainEntities d => "entities of domain " ++ d.domain
  | .entity d => "entity type of domain " ++ d.domain
  | .attributeRecord d => "attributes of " ++ d.origin
  | .rootServices _ => "root services"
  | .serviceGroup d => "services of domain " ++ d.domain
  | .serviceParameters d => "parameters of " ++ d.origin
  | .entityExtensions d => "service extensions of domain " ++ d.domain

def memberIdentifiers : TypeDefinition → List String
  | .registration _ => []
  | .rootEntities d => d.members.map AggregatorMember.identifier
  | .domainEntities d => d.entities.map EntityProperty.identifier
  | .entity _ => []
  | .attributeRecord d => d.fields.map FieldDefinition.identifier
  | .rootServices d => d.members.map AggregatorMember.identifier
  | .serviceGroup d => d.methods.map ServiceMethod.identifier
  | .serviceParameters d => d.fields.map FieldDefinition.identifier
  | .entityExtensions d => d.methods.map ServiceMethod.identifier

end TypeDefinition

structure GeneratedModel where
  types : List TypeDefinition
  deriving DecidableEq

namespace GeneratedModel

def find? (model : GeneratedModel) (name : String) : Option TypeDefinition :=
  model.types.find? (·.name == name)

def typeNames (model : GeneratedModel) : List String :=
  model.types.map TypeDefinition.name

end GeneratedModel

end HomeHub
