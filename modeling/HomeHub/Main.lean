import HomeHub.Pipeline

/-!
# Command line

Reads the configuration and the snapshot from files, and writes the generated model to a file.
-/

namespace HomeHub.CommandLine

def causeOf : IO.Error → FileError
  | .noFileOrDirectory .. => .notFound
  | .alreadyExists .. => .alreadyExists
  | .inappropriateType .. => .isADirectory
  | .permissionDenied .. => .permissionDenied
  | _ => .other

def attempt {α : Type} (path : String) (action : IO α) : IO (Except FileError α) := do
  match Path.problem? path with
  | some cause => return .error cause
  | none =>
    try
      return .ok (← action)
    catch error =>
      return .error (causeOf error)

def read (path : String) : IO (Except FileError ByteArray) :=
  attempt path (IO.FS.readBinFile path)

def readText (path : String) : IO (Except FileError String) := do
  match ← read path with
  | .error cause => return .error cause
  | .ok bytes =>
    match String.fromUTF8? bytes with
    | some text => return .ok text
    | none => return .error .invalidData

def readEnvironment (names : List String) : IO Environment := do
  let values ← names.mapM fun name => return (name, ← IO.getEnv name)
  return fun name => (values.lookup name).join

def createParent (output : String) : IO (Except PipelineError Unit) := do
  match Path.parent? output with
  | none => return .ok ()
  | some parent =>
    if parent = "" then return .ok ()
    else
      return (← attempt parent (IO.FS.createDirAll parent)).mapError (.createDirectories parent)

def write (output text : String) : IO (Except PipelineError Unit) := do
  match ← createParent output with
  | .error error => return .error error
  | .ok () => return (← attempt output (IO.FS.writeBinFile output text.toUTF8)).mapError (.write output)

def report (messages : List String) : IO UInt32 := do
  IO.eprintln ("Error: " ++ ": ".intercalate messages)
  return 1

end HomeHub.CommandLine

open HomeHub HomeHub.CommandLine in
def main : IO UInt32 := do
  let environment ← readEnvironment Config.variableNames
  match Config.load (← readText Config.fileName) environment with
  | .error error => report [error.message]
  | .ok config =>
    let file ← read config.snapshot
    match Pipeline.produce config.format.renderer config file with
    | .error error => report (error.chain.map Link.message)
    | .ok (_, text) =>
      match ← write config.output text with
      | .error error => report (error.chain.map Link.message)
      | .ok () => return 0
