import HomeHub.Config
import HomeHub.FileTree
import HomeHub.Metadata
import HomeHub.Model.Json
import HomeHub.Snapshot
import HomeHub.Source.Printer

/-!
# From snapshot to source

One run reads the snapshot that the configuration names, generates its model, and writes the model
in the format that the configuration asks for. Nothing is written before the text is complete.
-/

namespace HomeHub

def Snapshot.ofFile (path : String) (file : Except FileError ByteArray) :
    Except SnapshotError Snapshot := do
  let bytes ← file.mapError (.file path)
  (ofBytes bytes).mapError .parse

def MetadataSource.ofFile (path : String) (file : Except FileError ByteArray) : MetadataSource :=
  let loaded := (Snapshot.ofFile path file).mapError fun error => HubError.adapter (.snapshot error)
  ⟨loaded.map Snapshot.states, loaded.map Snapshot.serviceCatalog⟩

abbrev Renderer := GeneratedModel → Except RenderError String

def OutputFormat.renderer : OutputFormat → Renderer
  | .rust => fun model => .ok (model.renderSource .standard)
  | .json => fun model => .ok model.renderJson

structure Summary where
  types : Nat
  bytes : Nat
  output : String
  deriving DecidableEq

inductive PipelineError where
  | generate (snapshot : String) (cause : HubError)
  | render (cause : RenderError)
  | createDirectories (path : String) (cause : FileError)
  | write (path : String) (cause : FileError)

inductive Link where
  | text (message : String)
  | file (cause : FileError)
  | json (cause : Json.Failure)
  deriving DecidableEq

def Link.message : Link → String
  | .text message => message
  | .file cause => cause.message
  | .json .malformed => "malformed JSON"
  | .json .truncated => "unexpected end of JSON"
  | .json .mismatch => "JSON of another shape"

def HubError.chain (error : HubError) : List Link :=
  .text error.message ::
    match error with
    | .generation cause => [.text cause.message]
    | .serviceCall cause => [.text cause.message]
    | .bus cause => [.text cause.message]
    | .adapter cause =>
      .text cause.message ::
        match cause with
        | .snapshot (.file _ cause) => [.file cause]
        | .snapshot (.parse cause) => [.json cause]
        | _ => []

def PipelineError.chain : PipelineError → List Link
  | .generate snapshot cause => .text ("failed to generate model from " ++ snapshot) :: cause.chain
  | .render cause => (HubError.adapter (.render cause)).chain
  | .createDirectories path cause => [.text ("failed to create " ++ path), .file cause]
  | .write path cause => [.text ("failed to write " ++ path), .file cause]

namespace Pipeline

def prepare (tree : FileTree) (output : String) : Except PipelineError Unit × FileTree :=
  match Path.parent? output with
  | none => (.ok (), tree)
  | some parent =>
    if parent = "" then (.ok (), tree)
    else
      let (result, prepared) := tree.createDirectories parent
      (result.mapError (.createDirectories parent), prepared)

/-- The model of the snapshot file of a configuration, and its text. -/
def produce (render : Renderer) (config : Config) (file : Except FileError ByteArray) :
    Except PipelineError (GeneratedModel × String) := do
  let source := MetadataSource.ofFile config.snapshot file
  let model ← (GeneratedModel.ofSource source config.schemaOptions).mapError
    (.generate config.snapshot)
  let text ← (render model).mapError .render
  return (model, text)

def runWith (render : Renderer) (config : Config) (tree : FileTree) :
    Except PipelineError Summary × FileTree :=
  match produce render config (tree.read config.snapshot) with
  | .error error => (.error error, tree)
  | .ok (model, text) =>
    match prepare tree config.output with
    | (.error error, prepared) => (.error error, prepared)
    | (.ok (), prepared) =>
      match prepared.write config.output text.toUTF8 with
      | .error cause => (.error (.write config.output cause), prepared)
      | .ok written => (.ok ⟨model.types.length, text.utf8ByteSize, config.output⟩, written)

def run (config : Config) (tree : FileTree) : Except PipelineError Summary × FileTree :=
  runWith config.format.renderer config tree

end Pipeline

end HomeHub
