import HomeHub.Model.Services

/-!
# Generating a model

The definitions of all entities and services in a fixed order: registration, root of the entities,
aggregators, entity types, attribute records, root of the services, groups, parameter records and
extensions. A model is refused when two definitions share a name or two members of one do.
-/

namespace HomeHub

namespace TypeDefinition

/-- The first definition with the name of an earlier one, behind that one. -/
def firstClash? (earlier : List TypeDefinition) :
    List TypeDefinition → Option (TypeDefinition × TypeDefinition)
  | [] => none
  | definition :: rest =>
    match earlier.find? (·.name == definition.name) with
    | some other => some (other, definition)
    | none => firstClash? (definition :: earlier) rest

end TypeDefinition

/-- The first text that stands in a list for the second time. -/
def firstRepeated? (earlier : List String) : List String → Option String
  | [] => none
  | text :: rest =>
    if earlier.contains text then some text else firstRepeated? (text :: earlier) rest

namespace GeneratedModel

def check (types : List TypeDefinition) : Except GenerationError GeneratedModel :=
  match TypeDefinition.firstClash? [] types with
  | some (first, second) => .error (.duplicateTypeName second.name first.origin second.origin)
  | none =>
    match types.findSome? fun definition =>
      (firstRepeated? [] definition.memberIdentifiers).map (definition.name, ·) with
    | some (typeName, member) => .error (.duplicateMemberName typeName member)
    | none => .ok ⟨types⟩

def registrationName : String := "Registration"

def definitions (schemas : List EntitySchema) (services : List (ServiceGroup × List FieldRecord)) :
    List TypeDefinition :=
  let aggregators := DomainAggregator.ofSchemas schemas
  let entityTypes := schemas.map (EntitySchema.entityType schemas)
  let groups := services.map (·.1)
  let injectable :=
    RootAggregator.entitiesName :: aggregators.map DomainAggregator.name ++
      RootAggregator.servicesName :: groups.map ServiceGroup.name
  [.registration ⟨registrationName, injectable⟩,
    .rootEntities ⟨RootAggregator.entitiesName, aggregators.map DomainAggregator.rootMember⟩] ++
  aggregators.map .domainEntities ++
  entityTypes.map .entity ++
  schemas.map (fun schema => .attributeRecord (schema.attributeRecord schemas)) ++
  [.rootServices ⟨RootAggregator.servicesName, groups.map ServiceGroup.rootMember⟩] ++
  groups.map .serviceGroup ++
  (services.flatMap (·.2)).map .serviceParameters ++
  (groups.filterMap (ServiceGroup.extensions? entityTypes)).map .entityExtensions

def generate (schemas : List EntitySchema) (catalog : List ServiceDomain) :
    Except GenerationError GeneratedModel := do
  let services ← ServiceDomain.groups catalog
  check (definitions schemas services)

end GeneratedModel

end HomeHub
