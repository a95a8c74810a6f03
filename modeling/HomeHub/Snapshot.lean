import HomeHub.Catalog
import HomeHub.Sample

/-!
# Snapshot documents

A hub's own dump of its entities and services. The fields of a service form a tree: a section
groups further fields and is no field itself. The type of a field is the kind of its selector.
-/

namespace HomeHub

open Json (Failure)

inductive FieldTree where
  | mk (required : Bool) (description : Option String) (selector : Option (List String))
      (fields : List (String × FieldTree))

namespace FieldTree

/-- The selector kinds that are declared types themselves. -/
def plainKinds : List String := [
  "string", "text", "entity", "select", "time", "date", "datetime", "color", "icon", "template",
  "number", "boolean", "object", "list", "target", "area", "device"]

/-- The selector kinds that stand for a declared type under another name. -/
def namedKinds : List (String × List String) := [
  ("number", ["color_temp", "duration_seconds"]),
  ("string", ["theme", "state", "attribute", "config_entry", "conversation_agent", "country",
    "language", "addon", "backup_location"]),
  ("list", ["color_rgb"]),
  ("object", ["duration", "action", "location", "media", "constant"])]

/-- The declared type of a selector kind; a kind that is not known selects an object. -/
def declaredType (kind : String) : String :=
  if plainKinds.contains kind then kind
  else ((namedKinds.find? fun (_, kinds) => kinds.contains kind).map (·.1)).getD "object"

mutual
/-- The fields of a tree under its name. An entry without selector that has fields of its own is a
section and opened in place. The first kind of a selector counts. -/
def leaves : FieldTree → String → List ServiceField
  | .mk required description selector fields, name =>
    if selector.isNone && !fields.isEmpty then leavesOfAll fields
    else [⟨name, selector.bind fun kinds => kinds.head?.map declaredType, required, description⟩]
termination_by structural tree => tree
def leavesOf : String × FieldTree → List ServiceField
  | (name, tree) => tree.leaves name
termination_by structural entry => entry
def leavesOfAll : List (String × FieldTree) → List ServiceField
  | [] => []
  | entry :: rest => leavesOf entry ++ leavesOfAll rest
termination_by structural entries => entries
end

open Json.Decoder in
/-- The first argument bounds the nesting of sections. -/
def decoder : Nat → Json.Decoder FieldTree
  | 0 => fun _ _ => .error .malformed
  | depth + 1 =>
    record (.optional "required" bool false <| .optional "description" (option string) none <|
        .optional "selector" (option (map (·.map (·.1)) (table value))) none <|
        .optional "fields" (table (decoder depth)) [] .nil)
      fun (required, description, selector, fields, ()) => .mk required description selector fields

end FieldTree

structure ServiceEntry where
  description : Option String
  fields : List (String × FieldTree)

namespace ServiceEntry

open Json.Decoder in
def decoder : Json.Decoder ServiceEntry :=
  record (.optional "description" (option string) none <|
      .optional "fields" (table (FieldTree.decoder textLevels)) [] .nil)
    fun (description, fields, ()) => ⟨description, fields⟩

def service (entry : ServiceEntry) (name : String) : Service :=
  ⟨name, entry.description, FieldTree.leavesOfAll entry.fields⟩

end ServiceEntry

structure DomainEntry where
  domain : String
  services : List (String × ServiceEntry)

namespace DomainEntry

open Json.Decoder in
def decoder : Json.Decoder DomainEntry :=
  record (.required "domain" string <| .optional "services" (table ServiceEntry.decoder) [] .nil)
    fun (domain, services, ()) => ⟨domain, services⟩

def serviceDomain (entry : DomainEntry) : ServiceDomain :=
  ⟨entry.domain, entry.services.map fun (name, service) => service.service name⟩

end DomainEntry

structure Snapshot where
  states : List EntitySample
  services : List DomainEntry

namespace Snapshot

open Json.Decoder in
def decoder : Json.Decoder Snapshot :=
  record (.optional "states" (list EntitySample.decoder) [] <|
      .optional "services" (list DomainEntry.decoder) [] .nil)
    fun (states, services, ()) => ⟨states, services⟩

def ofSymbols (text : List Text.Symbol) : Except Failure Snapshot := decoder.run text

def ofText (text : String) : Except Failure Snapshot := ofSymbols (Text.symbols text.toList)

def ofBytes (bytes : ByteArray) : Except Failure Snapshot :=
  ofSymbols (Text.Utf8.decode bytes.toList)

def serviceCatalog (snapshot : Snapshot) : List ServiceDomain :=
  snapshot.services.map DomainEntry.serviceDomain

end Snapshot

end HomeHub
