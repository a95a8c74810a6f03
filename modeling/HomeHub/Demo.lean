import HomeHub.Metadata
import HomeHub.Snapshot

/-!
# A small home

Four entities and three services, to show a model at work.
-/

namespace HomeHub.Demo

open Json (Value)

def states : List EntitySample := [
  ⟨"light.kitchen", some "on", [("brightness", .int 180), ("friendly_name", .string "Kitchen")]⟩,
  ⟨"light.from", some "off", [("brightness", .null), ("friendly_name", .string "Hallway")]⟩,
  ⟨"sensor.outdoor_temperature", some "12.5",
    [("device_class", .string "temperature"), ("unit_of_measurement", .string "°C")]⟩,
  ⟨"switch.fan", some "off", [("friendly_name", .string "Fan")]⟩]

def turnOnFields : List (String × FieldTree) := [
  ("advanced_fields", .mk false none none [("flash", .mk false none (some ["select"]) [])]),
  ("brightness", .mk false none (some ["number"]) [])]

def services : List DomainEntry := [
  ⟨"light", [
    ("turn_off", ⟨some "Turn off one or more lights.", []⟩),
    ("turn_on", ⟨some "Turn on one or more lights.", turnOnFields⟩)]⟩,
  ⟨"switch", [("toggle", ⟨none, []⟩)]⟩]

def snapshot : Snapshot := ⟨states, services⟩

def model : Except GenerationError GeneratedModel :=
  GeneratedModel.generate
    (assemble snapshot.states (.ofDomains SchemaOptions.defaultNumericDomains))
    snapshot.serviceCatalog

end HomeHub.Demo
