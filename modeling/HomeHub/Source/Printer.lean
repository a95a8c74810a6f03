import HomeHub.Model.Basic
import HomeHub.Source.Member
import HomeHub.Source.Piece

/-!
# Generated source

A model as one module of Rust source: a handle type and an attribute record for each group of
entities, the services as methods, and roots from which all of them are reached. Texts of the hub
stand in string literals and in doc comments and nowhere else.
-/

namespace HomeHub.Source

-- ---------------------------------------------------------------------------
-- The head of a file
-- ---------------------------------------------------------------------------

def hubError : Fragment := .item .domain "::error::HubError"

def stateBus : Fragment := .item .app "::ports::StateBus"

def closing (depth : Nat) : Piece := .code depth [.fixed "\x7d"]

def fileHeader : List Piece := [
  .note "@generated by hubkit-codegen. Do not edit by hand."]

/-- The function that turns parameters into call data. -/
def dataHelper : List Piece := [
  .blank,
  .code 0 [.fixed "#[allow(dead_code)]"],
  .code 0 [.fixed "fn service_data<T: ::serde::Serialize>(data: &T) -> Result<::serde_json::Value, ",
    hubError, .fixed "> \x7b"],
  .code 1 [.fixed "::serde_json::to_value(data).map_err(|err| ", hubError,
    .fixed "::Source(::std::boxed::Box::new(err)))"],
  closing 0]

def busHolder (name : String) : List Piece := [
  .code 0 [.fixed "pub struct ", .name name, .fixed "<B> \x7b"],
  .code 1 [.fixed "bus: ::std::sync::Arc<B>,"],
  closing 0,
  .blank,
  .code 0 [.fixed "impl<B> ::std::convert::From<::std::sync::Arc<B>> for ", .name name,
    .fixed "<B> \x7b"],
  .code 1 [.fixed "fn from(bus: ::std::sync::Arc<B>) -> Self \x7b"],
  .code 2 [.fixed "Self \x7b bus \x7d"],
  closing 1,
  closing 0,
  .blank]

def implOpening (name : String) : Piece :=
  .code 0 [.fixed "impl<B: ", stateBus, .fixed "> ", .name name, .fixed "<B> \x7b"]

-- ---------------------------------------------------------------------------
-- Registration and roots
-- ---------------------------------------------------------------------------

def registration (definition : Registration) : List Piece :=
  [.comment 0 "Every injectable type of this model.",
    .code 0 [.fixed "pub fn registered_types() -> ", .staticReference, .fixed "[", .staticReference,
      .fixed "str] \x7b"],
    .code 1 [.fixed "&["]] ++
  definition.injectable.map (fun name => .code 2 [.literal name, .fixed ","]) ++
  [.code 1 [.fixed "]"],
    closing 0]

def rootMember (member : AggregatorMember) : List Piece := [
  .comment 1 ("Domain `" ++ member.domain ++ "`."),
  .code 1 [.fixed "pub fn ", .name (memberName member.identifier), .fixed "(&self) -> ",
    .name member.typeName, .fixed "<B> \x7b"],
  .code 2 [.fixed "<", .name member.typeName, .fixed
    "<B> as ::std::convert::From<::std::sync::Arc<B>>>::from(::std::sync::Arc::clone(&self.bus))"],
  closing 1]

def holder (summary name : String) (methods : List (List Piece)) : List Piece :=
  .comment 0 summary :: busHolder name ++ implOpening name :: separated methods ++ [closing 0]

def root (summary : String) (definition : RootAggregator) : List Piece :=
  holder summary definition.name (definition.members.map rootMember)

-- ---------------------------------------------------------------------------
-- Entities
-- ---------------------------------------------------------------------------

def property (property : EntityProperty) : List Piece := [
  .comment 1 ("`" ++ property.entityId ++ "`"),
  .code 1 [.fixed "pub fn ", .name (memberName property.identifier), .fixed "(&self) -> ",
    .name property.entityType, .fixed "<B> \x7b"],
  .code 2 [.name property.entityType, .fixed "::new(::std::sync::Arc::clone(&self.bus), ",
    .literal property.entityId, .fixed ")"],
  closing 1]

def domainEntities (definition : DomainAggregator) : List Piece :=
  holder ("Entities of domain `" ++ definition.domain ++ "`.") definition.name
    (definition.entities.map property)

/-- The handle that an entity type wraps. -/
def wrappedHandle (definition : EntityType) : List Fragment := [
  if definition.numeric then .item .app "::entity::NumericEntity"
  else .item .app "::entity::Entity",
  .fixed "<B, ", .item .domain "::state::SerdeDecoder", .fixed "<", .name definition.attributes,
  .fixed ">>"]

def entityType (definition : EntityType) : List Piece :=
  let name := .name definition.name
  [.comment 0 ((if definition.numeric then "Numeric entity" else "Entity") ++ " of domain `" ++
      definition.domain ++ "`."),
    .code 0 ([.fixed "pub struct ", name, .fixed "<B>(pub "] ++ wrappedHandle definition ++
      [.fixed ");"]),
    .blank,
    implOpening definition.name,
    .code 1 [.fixed "pub fn new(bus: ::std::sync::Arc<B>, entity_id: &str) -> Self \x7b"],
    .code 2 [.fixed "Self(", .item .app "::entity::Entity",
      .fixed "::new(bus, entity_id).with_attributes_as::<", .name definition.attributes,
      .fixed ">()", if definition.numeric then .fixed ".as_numeric()" else .fixed "", .fixed ")"],
    closing 1,
    closing 0,
    .blank,
    .code 0 [.fixed "impl<B> ::std::clone::Clone for ", name, .fixed "<B> \x7b"],
    .code 1 [.fixed "fn clone(&self) -> Self \x7b"],
    .code 2 [.fixed "Self(self.0.clone())"],
    closing 1,
    closing 0,
    .blank,
    .code 0 [.fixed "impl<B: ", stateBus, .fixed "> ::std::fmt::Debug for ", name,
      .fixed "<B> \x7b"],
    .code 1 [.fixed "fn fmt(&self, f: &mut ::std::fmt::Formatter", .elidedLifetime,
      .fixed ") -> ::std::fmt::Result \x7b"],
    .code 2 [.fixed "f.debug_tuple(", .literal definition.name, .fixed ").field(&self.0).finish()"],
    closing 1,
    closing 0,
    .blank,
    .code 0 [.fixed "impl<B: ", stateBus, .fixed "> ::std::cmp::PartialEq for ", name,
      .fixed "<B> \x7b"],
    .code 1 [.fixed "fn eq(&self, other: &Self) -> bool \x7b"],
    .code 2 [.fixed "self.0 == other.0"],
    closing 1,
    closing 0,
    .blank,
    .code 0 [.fixed "impl<B> ::std::ops::Deref for ", name, .fixed "<B> \x7b"],
    .code 1 (.fixed "type Target = " :: wrappedHandle definition ++ [.fixed ";"]),
    .blank,
    .code 1 [.fixed "fn deref(&self) -> &Self::Target \x7b"],
    .code 2 [.fixed "&self.0"],
    closing 1,
    closing 0,
    .blank,
    .code 0 [.fixed "impl<B: ", stateBus, .fixed "> ", .item .app "::entity::EntityHandle",
      .fixed " for ", name, .fixed "<B> \x7b"],
    .code 1 [.fixed "type Bus = B;"],
    .blank,
    .code 1 [.fixed "fn bus(&self) -> &::std::sync::Arc<B> \x7b"],
    .code 2 [.item .app "::entity::EntityHandle::bus", .fixed "(&self.0)"],
    closing 1,
    .blank,
    .code 1 [.fixed "fn entity_id(&self) -> &str \x7b"],
    .code 2 [.item .app "::entity::EntityHandle::entity_id", .fixed "(&self.0)"],
    closing 1,
    closing 0]

-- ---------------------------------------------------------------------------
-- Records
-- ---------------------------------------------------------------------------

def fieldType : AttributeType → String
  | .string => "String"
  | .number => "f64"
  | .boolean => "bool"
  | .anything => "::serde_json::Value"

theorem isPlain_fieldType (type : AttributeType) : IsPlain (fieldType type) := by
  cases type <;> exact .ofList rfl

def fieldLine (field : FieldDefinition) : Piece :=
  .code 1 [.fixed "pub ", .name (memberName field.identifier), .fixed ": Option<",
    .fixed (fieldType field.fieldType) (isPlain_fieldType field.fieldType), .fixed ">,"]

/-- What stands in front of a field of an attribute record. -/
def attributeAsides (field : FieldDefinition) : List Piece := [
  .code 1 [.fixed "#[serde(rename = ", .literal field.sourceKey,
    .fixed ", default, deserialize_with = ", .function "::state::lenient_field", .fixed ")]"]]

/-- What stands in front of a field of a parameter record. -/
def parameterAsides (field : FieldDefinition) : List Piece :=
  (match field.description with
    | some description => [.comment 1 description]
    | none => []) ++
  (if field.required then [.comment 1 "Required."] else []) ++
  [.code 1 [.fixed "#[serde(rename = ", .literal field.sourceKey, .fixed ", skip_serializing_if = ",
    .literal "Option::is_none", .fixed ")]"]]

def record (summary name : String) (traits : Fragment) (asides : FieldDefinition → List Piece)
    (fields : List FieldDefinition) : List Piece :=
  [.comment 0 summary,
    .code 0 [.fixed "#[derive(Debug, Clone, Default, PartialEq, ", traits, .fixed ")]"],
    .code 0 [.fixed "pub struct ", .name name, .fixed " \x7b"]] ++
  fields.flatMap (fun field => asides field ++ [fieldLine field]) ++
  [closing 0]

def attributeRecord (definition : FieldRecord) : List Piece :=
  record ("Attributes of `" ++ definition.origin ++ "` entities.") definition.name
    (.fixed "::serde::Deserialize") attributeAsides definition.fields

def parameters (definition : FieldRecord) : List Piece :=
  record ("Parameters of `" ++ definition.origin ++ "`.") definition.name
    (.fixed "::serde::Serialize") parameterAsides definition.fields

-- ---------------------------------------------------------------------------
-- Services
-- ---------------------------------------------------------------------------

def methodComment (domain : String) (method : ServiceMethod) : Piece :=
  .comment 1 (method.description.getD ("`" ++ method.qualifiedName domain ++ "`"))

/-- The parameter that takes the record of a method. -/
def dataParameter (method : ServiceMethod) : List Fragment :=
  match method.parameters with
  | some record => [.fixed ", data: ", .name record]
  | none => []

def groupMethod (domain : String) (method : ServiceMethod) : List Piece :=
  [methodComment domain method,
    .code 1 ([.fixed "pub async fn ", .name (memberName method.identifier), .fixed "(&self, target: ",
      .item .domain "::service::ServiceTarget"] ++ dataParameter method ++
      [.fixed ") -> Result<(), ", hubError, .fixed "> \x7b"])] ++
  (if method.parameters.isSome then [.code 2 [.fixed "let data = service_data(&data)?;"]] else []) ++
  [.code 2 [.fixed "let call = ", .item .domain "::service::ServiceCall", .fixed " \x7b"],
    .code 3 [.fixed "domain: ", .literal domain, .fixed ".to_string(),"],
    .code 3 [.fixed "service: ", .literal method.service, .fixed ".to_string(),"],
    .code 3 [.fixed "target,"],
    .code 3 [.fixed "data: ",
      if method.parameters.isSome then .fixed "Some(data)" else .fixed "None", .fixed ","],
    .code 2 [.fixed "\x7d;"],
    .code 2 [stateBus, .fixed "::call_service(&*self.bus, call).await"],
    closing 1]

def serviceGroup (definition : ServiceGroup) : List Piece :=
  holder ("Services of domain `" ++ definition.domain ++ "`.") definition.name
    (definition.methods.map (groupMethod definition.domain))

def extensionSignature (method : ServiceMethod) : List Fragment :=
  [.fixed "fn ", .name (memberName method.identifier), .fixed "(&self"] ++ dataParameter method ++
  [.fixed ") -> impl ::std::future::Future<Output = Result<(), ", hubError, .fixed ">> + Send"]

def extensionDeclaration (domain : String) (method : ServiceMethod) : List Piece := [
  methodComment domain method,
  .code 1 (extensionSignature method ++ [.fixed ";"])]

def extensionMethod (domain : String) (method : ServiceMethod) : List Piece :=
  let call := [.fixed "self.0.call_service(", .literal (method.qualifiedName domain)]
  .code 1 (extensionSignature method ++ [.fixed " \x7b"]) ::
  (if method.parameters.isSome then
    [.code 2 [.fixed "async move \x7b"],
      .code 3 [.fixed "let data = service_data(&data)?;"],
      .code 3 (call ++ [.fixed ", Some(data)).await"]),
      closing 2]
  else [.code 2 (call ++ [.fixed ", None)"])]) ++
  [closing 1]

def extensionImpl (definition : EntityExtensions) (entityType : String) : List Piece :=
  .blank ::
  .code 0 [.fixed "impl<B: ", stateBus, .fixed "> ", .name definition.name, .fixed " for ",
    .name entityType, .fixed "<B> \x7b"] ::
  separated (definition.methods.map (extensionMethod definition.domain)) ++
  [closing 0]

def entityExtensions (definition : EntityExtensions) : List Piece :=
  [.comment 0 ("Services of domain `" ++ definition.domain ++ "` called on its entities."),
    .code 0 [.fixed "pub trait ", .name definition.name, .fixed " \x7b"]] ++
  separated (definition.methods.map (extensionDeclaration definition.domain)) ++
  closing 0 ::
  definition.entityTypes.flatMap (extensionImpl definition)

-- ---------------------------------------------------------------------------
-- Whole files
-- ---------------------------------------------------------------------------

def definitionPieces : TypeDefinition → List Piece
  | .registration d => registration d
  | .rootEntities d => root "Entity aggregators of every domain." d
  | .domainEntities d => domainEntities d
  | .entity d => entityType d
  | .attributeRecord d => attributeRecord d
  | .rootServices d => root "Service groups of every domain." d
  | .serviceGroup d => serviceGroup d
  | .serviceParameters d => parameters d
  | .entityExtensions d => entityExtensions d

def modelPieces (model : GeneratedModel) : List Piece :=
  fileHeader ++ dataHelper ++
    model.types.flatMap fun definition => .blank :: definitionPieces definition

end HomeHub.Source

namespace HomeHub.GeneratedModel

def renderSource (model : GeneratedModel) (crates : Source.Crates) : String :=
  Source.textOf crates (Source.modelPieces model)

end HomeHub.GeneratedModel
