import HomeHub.EntityId
import HomeHub.Model.Basic
import HomeHub.Naming
import HomeHub.Schema

/-!
# The entities of a model

From schemas: an aggregator for each domain, and for each schema a handle type with its attribute
record. In a domain with numeric and other entities the numeric types say so in their names.
-/

namespace HomeHub

namespace RootAggregator

def entitiesName : String := "Entities"

def servicesName : String := "Services"

end RootAggregator

def lastWhere? {α : Type} (test : α → Bool) (items : List α) : Option α :=
  items.reverse.find? test

namespace EntitySchema

/-- A domain with schemas of both kinds. -/
def isMixed (schemas : List EntitySchema) (domain : String) : Bool :=
  [false, true].all fun flag => schemas.any fun s => s.domain == domain && s.isNumeric == flag

def baseName (schemas : List EntitySchema) (schema : EntitySchema) : String :=
  (if schema.isNumeric && isMixed schemas schema.domain then "Numeric" else "") ++
    Naming.domainName schema.domain

def entityType (schemas : List EntitySchema) (schema : EntitySchema) : EntityType where
  name := schema.baseName schemas ++ "Entity"
  domain := schema.domain
  numeric := schema.isNumeric
  attributes := schema.baseName schemas ++ "EntityAttributes"

def attributeRecord (schemas : List EntitySchema) (schema : EntitySchema) : FieldRecord where
  name := schema.baseName schemas ++ "EntityAttributes"
  origin := if schema.isNumeric then schema.domain ++ " (numeric)" else schema.domain
  fields :=
    (Naming.canonicalNames (schema.attributes.map Attribute.name) Naming.fieldMark).filterMap
      fun named =>
        (lastWhere? (·.name == named.sourceKey) schema.attributes).map fun found =>
          ⟨named.identifier, named.sourceKey, found.type, false, none⟩

end EntitySchema

namespace DomainAggregator

/-- The key that an entity is named by in its domain: the part of its id behind the dot, or all of
it where that part is empty. -/
def propertyKey (entityId : String) : String :=
  let object := EntityId.object entityId
  if object.isEmpty then entityId else object

def ofEntities (domain : String) (entities : List (String × String)) : DomainAggregator where
  name := Naming.domainName domain ++ "Entities"
  domain := domain
  entities :=
    let items := entities.map fun (id, _) =>
      Naming.Named.mk (Naming.resolve (propertyKey id) Naming.entityMark) id
    let properties := entities.zipWith
      (fun (id, entityType) identifier => EntityProperty.mk identifier id entityType)
      (Naming.dedupe items)
    Text.sortedByBoth EntityProperty.identifier EntityProperty.entityId properties

def ofSchemas (schemas : List EntitySchema) : List DomainAggregator :=
  (Text.ascending (schemas.map EntitySchema.domain)).map fun domain =>
    ofEntities domain <| (schemas.filter (·.domain == domain)).flatMap fun schema =>
      schema.entities.map fun entity => (entity.entityId, (schema.entityType schemas).name)

def rootMember (aggregator : DomainAggregator) : AggregatorMember :=
  ⟨Naming.domainName aggregator.domain, aggregator.domain, aggregator.name⟩

end DomainAggregator

end HomeHub
