import HomeHub.FileError
import HomeHub.Json.Document
import HomeHub.Text.Quoted

/-!
# Errors

What can go wrong, by cause, and the words it is reported in. Every operation of the library fails
with a `HubError` or with one of the causes it wraps.
-/

namespace HomeHub

/-- A problem that leaves no model: nothing is ever overwritten silently. -/
inductive GenerationError where
  | duplicateTypeName (name first second : String)
  | duplicateMemberName (typeName member : String)
  | unknownFieldType (domain service field typeName : String)
  deriving DecidableEq

def GenerationError.message : GenerationError → String
  | .duplicateTypeName name first second =>
    "type name " ++ name ++ " produced twice (by " ++ first ++ " and " ++ second ++ ")"
  | .duplicateMemberName typeName member =>
    "member " ++ member ++ " appears twice in type " ++ typeName
  | .unknownFieldType domain service field typeName =>
    "field " ++ field ++ " of service " ++ domain ++ "." ++ service ++ " has unknown type " ++
      typeName

inductive ServiceCallError where
  | emptyServiceName
  | missingDomain (entityId service : String)
  | mixedDomains (service : String) (domains : List String)
  deriving DecidableEq

def ServiceCallError.message : ServiceCallError → String
  | .emptyServiceName => "service name must not be empty"
  | .missingDomain entityId service =>
    "entity id " ++ entityId ++ " has no domain, service " ++ service ++ " needs one"
  | .mixedDomains service domains =>
    "cannot call service " ++ service ++ " for entities of different domains (" ++
      Text.quotedList domains ++ ")"

inductive BusError where
  | lagged (skipped : Nat)
  | closed
  deriving DecidableEq

def BusError.message : BusError → String
  | .lagged skipped =>
    "subscriber lagged behind, " ++ String.ofList (Nat.toDigits 10 skipped) ++ " events dropped"
  | .closed => "state bus closed"

inductive RenderError where
  | format
  | serialize
  deriving DecidableEq

def RenderError.message : RenderError → String
  | .format => "failed to write generated source"
  | .serialize => "failed to serialize generated model"

inductive SnapshotError where
  | file (path : String) (cause : FileError)
  | parse (cause : Json.Failure)
  deriving DecidableEq

def SnapshotError.message : SnapshotError → String
  | .file path _ => "failed to read snapshot " ++ path
  | .parse _ => "failed to parse snapshot"

inductive AdapterError where
  | snapshot (cause : SnapshotError)
  | render (cause : RenderError)
  | other (text : String)
  deriving DecidableEq

def AdapterError.message : AdapterError → String
  | .snapshot cause => cause.message
  | .render cause => cause.message
  | .other text => text

inductive HubError where
  | generation (cause : GenerationError)
  | serviceCall (cause : ServiceCallError)
  | bus (cause : BusError)
  | adapter (cause : AdapterError)
  deriving DecidableEq

def HubError.message : HubError → String
  | .generation _ => "model generation failed"
  | .serviceCall _ => "service call rejected"
  | .bus _ => "state bus failure"
  | .adapter _ => "adapter error"

end HomeHub
