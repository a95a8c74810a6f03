import HomeHub.Catalog
import HomeHub.Model.Entities

/-!
# The services of a model

From the catalog: for each entry with services a group of methods, with a parameter record for
each service that has fields. Of services or fields under one name the last is described.
-/

namespace HomeHub

namespace ServiceField

def define (field : ServiceField) (domain service identifier : String) :
    Except GenerationError FieldDefinition :=
  (field.resolvedType domain service).map fun type =>
    ⟨identifier, field.name, type, field.required, field.description⟩

end ServiceField

namespace Service

def parameterRecord (service : Service) (domain identifier : String) :
    Except GenerationError FieldRecord := do
  let names := Naming.canonicalNames (service.fields.map ServiceField.name) Naming.fieldMark
  let found := names.filterMap fun named =>
    (lastWhere? (·.name == named.sourceKey) service.fields).map (named.identifier, ·)
  let fields ← found.mapM fun (identifier, field) => field.define domain service.name identifier
  return ⟨Naming.domainName domain ++ identifier ++ "Parameters", domain ++ "." ++ service.name, fields⟩

def method (service : Service) (domain identifier : String) :
    Except GenerationError (ServiceMethod × Option FieldRecord) := do
  if service.fields.isEmpty then
    return (⟨identifier, service.name, service.description, none⟩, none)
  else
    let record ← service.parameterRecord domain identifier
    return (⟨identifier, service.name, service.description, some record.name⟩, some record)

end Service

namespace ServiceDomain

def group (entry : ServiceDomain) : Except GenerationError (ServiceGroup × List FieldRecord) := do
  let services := Text.sortedBy Service.name entry.services
  let names := Naming.canonicalNames (services.map Service.name) Naming.fieldMark
  let found := names.filterMap fun named =>
    (lastWhere? (·.name == named.sourceKey) entry.services).map (named.identifier, ·)
  let methods ← found.mapM fun (identifier, service) => service.method entry.domain identifier
  return (⟨Naming.domainName entry.domain ++ "Services", entry.domain, methods.map (·.1)⟩,
    methods.filterMap (·.2))

def withServices (catalog : List ServiceDomain) : List ServiceDomain :=
  Text.sortedBy ServiceDomain.domain (catalog.filter fun entry => !entry.services.isEmpty)

def groups (catalog : List ServiceDomain) :
    Except GenerationError (List (ServiceGroup × List FieldRecord)) :=
  (withServices catalog).mapM group

end ServiceDomain

namespace ServiceGroup

def rootMember (group : ServiceGroup) : AggregatorMember :=
  ⟨Naming.domainName group.domain, group.domain, group.name⟩

def extensions? (entityTypes : List EntityType) (group : ServiceGroup) : Option EntityExtensions :=
  match (entityTypes.filter (·.domain == group.domain)).map EntityType.name with
  | [] => none
  | names =>
    some ⟨Naming.domainName group.domain ++ "EntityExtensions", group.domain, names, group.methods⟩

end ServiceGroup

end HomeHub
