import HomeHub.EntityId
import HomeHub.Json.Record

/-!
# Entity samples

One entity as the hub reports it: an id, a state text and a bag of attributes.
-/

namespace HomeHub

open Json (Value Members)

structure EntitySample where
  entityId : String
  state : Option String
  attributes : Members

namespace EntitySample

/-- The attribute whose presence makes an entity numeric, whatever its value. -/
def unitOfMeasurement : String := "unit_of_measurement"

def withAttribute (sample : EntitySample) (key : String) (value : Value) : EntitySample :=
  { sample with attributes := sample.attributes.insert key value }

def domain (sample : EntitySample) : String := EntityId.groupingDomain sample.entityId

def hasUnit (sample : EntitySample) : Bool := sample.attributes.contains unitOfMeasurement

open Json.Decoder in
def decoder : Json.Decoder EntitySample :=
  record (.required "entity_id" string <| .optional "state" (option string) none <|
      .optional "attributes" (table value) [] .nil)
    fun (entityId, state, attributes, ()) => ⟨entityId, state, attributes⟩

def toValue (sample : EntitySample) : Value :=
  .object [
    ("entity_id", .string sample.entityId),
    ("state", .ofOption .string sample.state),
    ("attributes", .object sample.attributes)]

end EntitySample

end HomeHub
