import HomeHub.Inference
import HomeHub.Sample
import HomeHub.Text.Ascending

/-!
# Schemas

Samples fall into groups by domain and by whether they are numeric. A schema is one group: its
samples by entity id, and the type of each attribute that any of them has.
-/

namespace HomeHub

open Json (Value)

structure SchemaOptions where
  /-- Domains that are numeric without a unit of measurement. -/
  numericDomains : List String
  deriving DecidableEq

namespace SchemaOptions

def defaultNumericDomains : List String := ["input_number"]

def ofDomains (domains : List String) : SchemaOptions := ⟨Text.ascending domains⟩

def isNumeric (options : SchemaOptions) (sample : EntitySample) : Bool :=
  options.numericDomains.contains sample.domain || sample.hasUnit

end SchemaOptions

namespace Attribute

open Json.Decoder in
def decoder : Json.Decoder Attribute :=
  record (.required "name" string <|
      .required "resolved_type" (choice false AttributeType.byName) .nil)
    fun (name, type, ()) => ⟨name, type⟩

def toValue (descriptor : Attribute) : Value :=
  .object [("name", .string descriptor.name), ("resolved_type", .string descriptor.type.name)]

end Attribute

structure EntitySchema where
  domain : String
  isNumeric : Bool
  entities : List EntitySample
  attributes : List Attribute

namespace EntitySchema

def observations (samples : List EntitySample) (key : String) : List Value :=
  samples.filterMap fun sample => sample.attributes.get? key

def attributeKeys (samples : List EntitySample) : List String :=
  Text.ascending (samples.flatMap fun sample => sample.attributes.map (·.1))

def ofMembers (domain : String) (isNumeric : Bool) (samples : List EntitySample) : EntitySchema where
  domain := domain
  isNumeric := isNumeric
  entities := Text.sortedBy EntitySample.entityId samples
  attributes :=
    (attributeKeys samples).map fun key => ⟨key, AttributeType.infer (observations samples key)⟩

open Json.Decoder in
def decoder : Json.Decoder EntitySchema :=
  record (.required "domain" string <| .required "is_numeric" bool <|
      .required "entities" (list EntitySample.decoder) <|
      .required "attributes" (list Attribute.decoder) .nil)
    fun (domain, isNumeric, entities, attributes, ()) => ⟨domain, isNumeric, entities, attributes⟩

def toValue (schema : EntitySchema) : Value :=
  .object [
    ("domain", .string schema.domain),
    ("is_numeric", .bool schema.isNumeric),
    ("entities", .array (schema.entities.map EntitySample.toValue)),
    ("attributes", .array (schema.attributes.map Attribute.toValue))]

end EntitySchema

/-- The schemas of samples, by domain and in each domain the numeric one last. -/
def assemble (samples : List EntitySample) (options : SchemaOptions) : List EntitySchema :=
  (Text.ascending (samples.map EntitySample.domain)).flatMap fun domain =>
    [false, true].filterMap fun isNumeric =>
      match samples.filter fun s => s.domain == domain && options.isNumeric s == isNumeric with
      | [] => none
      | members => some (EntitySchema.ofMembers domain isNumeric members)

end HomeHub
