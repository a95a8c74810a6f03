import HomeHub.Attributes
import HomeHub.Dispatch
import HomeHub.Source.Member

/-!
# Using a model

A generated program reaches entities and services by member names: first of a domain, then of an
entity or a service. A service is called in one of two ways. As a method of its group it is sent
as it stands; as a method of an entity it is called by its qualified name.
-/

namespace HomeHub

open Json (Value)

namespace RootAggregator

def memberNamed? (root : RootAggregator) (name : String) : Option AggregatorMember :=
  root.members.find? fun member => Source.memberName member.identifier == name

end RootAggregator

namespace ServiceMethod

def named? (methods : List ServiceMethod) (name : String) : Option ServiceMethod :=
  methods.find? fun method => Source.memberName method.identifier == name

end ServiceMethod

namespace GeneratedModel

def rootEntities? (model : GeneratedModel) : Option RootAggregator :=
  model.types.findSome? fun
    | .rootEntities definition => some definition
    | _ => none

def rootServices? (model : GeneratedModel) : Option RootAggregator :=
  model.types.findSome? fun
    | .rootServices definition => some definition
    | _ => none

def injectable (model : GeneratedModel) : List String :=
  model.types.flatMap fun
    | .registration definition => definition.injectable
    | _ => []

def entityType? (model : GeneratedModel) (name : String) : Option EntityType :=
  match model.find? name with
  | some (.entity definition) => some definition
  | _ => none

def shape? (model : GeneratedModel) (entityType : EntityType) : Option RecordShape :=
  match model.find? entityType.attributes with
  | some (.attributeRecord definition) => some (.ofDefinition definition)
  | _ => none

def property? (model : GeneratedModel) (domain name : String) : Option EntityProperty := do
  let root ← model.rootEntities?
  let member ← root.memberNamed? domain
  match model.find? member.typeName with
  | some (.domainEntities definition) =>
    definition.entities.find? fun property => Source.memberName property.identifier == name
  | _ => none

def group? (model : GeneratedModel) (domain : String) : Option ServiceGroup := do
  let root ← model.rootServices?
  let member ← root.memberNamed? domain
  match model.find? member.typeName with
  | some (.serviceGroup definition) => some definition
  | _ => none

def extensions? (model : GeneratedModel) (entityType : String) : Option EntityExtensions :=
  model.types.findSome? fun
    | .entityExtensions definition =>
      if definition.entityTypes.contains entityType then some definition else none
    | _ => none

/-- Parameters as call data, those that are given under their source keys. A method without
parameter record sends no data. -/
def callData (model : GeneratedModel) (method : ServiceMethod) (given : Table Value) :
    Option Value :=
  match method.parameters.bind model.find? with
  | some (.serviceParameters definition) =>
    some (.object (Table.ofList (definition.fields.filterMap fun field => do
      let value ← given.get? field.sourceKey
      let content ← FieldValue.of? field.fieldType value
      return (field.sourceKey, content.toValue))))
  | _ => none

def groupCall (model : GeneratedModel) (group : ServiceGroup) (method : ServiceMethod)
    (target : ServiceTarget) (given : Table Value) : ServiceCall :=
  ⟨group.domain, method.service, target, model.callData method given⟩

def entityCall (model : GeneratedModel) (handle : Handle) (extensions : EntityExtensions)
    (method : ServiceMethod) (given : Table Value) : Except ServiceCallError Delivery :=
  handle.delivery (method.qualifiedName extensions.domain) (model.callData method given)

end GeneratedModel

end HomeHub
