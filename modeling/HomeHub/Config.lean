import HomeHub.FileError
import HomeHub.Schema
import HomeHub.Text.Blank
import HomeHub.Text.Quoted
import HomeHub.Toml.Document

/-!
# Configuration

Every setting has a default. A configuration file may set some, and the environment has the last
word. A file that is not there sets nothing; one that cannot be read or understood fails before
the environment is looked at. What comes out is checked as a whole.
-/

namespace HomeHub

inductive OutputFormat where
  | rust
  | json
  deriving DecidableEq

namespace OutputFormat

def byName : List (String × OutputFormat) := [("rust", .rust), ("json", .json)]

end OutputFormat

structure Config where
  /-- Where the snapshot of the hub is. -/
  snapshot : String
  /-- Where the model is written to. -/
  output : String
  format : OutputFormat
  numericDomains : List String
  /-- What is logged. -/
  filter : String
  deriving DecidableEq

inductive ConfigProblem where
  | unknownFormat (name : String)
  | emptySnapshot
  | emptyOutput
  | invalidDomain (domain : String)
  deriving DecidableEq

def ConfigProblem.message : ConfigProblem → String
  | .unknownFormat name =>
    "unknown output format " ++ Text.quoted name ++ ", expected \"rust\" or \"json\""
  | .emptySnapshot => "source.snapshot must not be empty"
  | .emptyOutput => "output.path must not be empty"
  | .invalidDomain domain => "invalid numeric domain " ++ Text.quoted domain

inductive ConfigError where
  | parse
  | file (cause : FileError)
  | validation (problem : ConfigProblem)
  deriving DecidableEq

def ConfigError.message : ConfigError → String
  | .parse => "failed to parse config file"
  | .file _ => "failed to read config file"
  | .validation problem => "invalid configuration: " ++ problem.message

abbrev Environment := String → Option String

namespace Config

def fileName : String := "hubkit.toml"

def variableNames : List String :=
  ["HUBKIT_SNAPSHOT", "HUBKIT_OUTPUT", "HUBKIT_FORMAT", "HUBKIT_LOG", "RUST_LOG"]

def default : Config where
  snapshot := "snapshot.json"
  output := "hubkit_model.rs"
  format := .rust
  numericDomains := SchemaOptions.defaultNumericDomains
  filter := "hubkit=info"

section
open Toml (Value)

/-- The settings of a section: the entries of a table, or the items of an array under the names in
order. A date or time sets nothing. -/
def sectionEntries (names : List String) : Value → Option (List (String × Value))
  | .table entries => some entries
  | .array items => some (names.zip items)
  | .moment _ => some []
  | _ => none

def text? : Value → Option String
  | .string text => some text
  | _ => none

def texts? : Value → Option (List String)
  | .array items => items.mapM text?
  | _ => none

/-- A format by its name, or by a table of which its name is the only key and leads to nothing. -/
def format? : Value → Option OutputFormat
  | .string name => OutputFormat.byName.lookup name
  | .table [(name, .table [])] => OutputFormat.byName.lookup name
  | .table [(name, .array [])] => OutputFormat.byName.lookup name
  | _ => none

def setting {α : Type} (read : Value → Option α) (key : String) (default : α)
    (entries : List (String × Value)) : Option α :=
  match entries.lookup key with
  | some value => read value
  | none => some default

def entriesOf (key : String) (names : List String) (entries : List (String × Value)) :
    Option (List (String × Value)) :=
  match entries.lookup key with
  | some value => sectionEntries names value
  | none => some []

/-- The settings of a file over the defaults. Other keys and sections do not matter. -/
def ofEntries? (entries : List (String × Value)) : Option Config := do
  let source ← entriesOf "source" ["snapshot"] entries
  let output ← entriesOf "output" ["path", "format"] entries
  let schema ← entriesOf "schema" ["numeric_domains"] entries
  let logging ← entriesOf "logging" ["filter"] entries
  return {
    snapshot := ← setting text? "snapshot" default.snapshot source
    output := ← setting text? "path" default.output output
    format := ← setting format? "format" default.format output
    numericDomains := ← setting texts? "numeric_domains" default.numericDomains schema
    filter := ← setting text? "filter" default.filter logging }

end

def ofFile (file : Except FileError String) : Except ConfigError Config :=
  match file with
  | .error .notFound => .ok default
  | .error cause => .error (.file cause)
  | .ok text =>
    match (Toml.entriesOf? text).bind ofEntries? with
    | some config => .ok config
    | none => .error .parse

/-- A format as the environment spells it: in any case, with blanks around it. -/
def formatOfText (text : String) : Except ConfigError OutputFormat :=
  let name := (String.ofList (Text.trim text.toList)).map Char.toLower
  match OutputFormat.byName.lookup name with
  | some format => .ok format
  | none => .error (.validation (.unknownFormat name))

def override (config : Config) (environment : Environment) : Except ConfigError Config := do
  let format ←
    match environment "HUBKIT_FORMAT" with
    | some text => formatOfText text
    | none => pure config.format
  return { config with
    snapshot := (environment "HUBKIT_SNAPSHOT").getD config.snapshot
    output := (environment "HUBKIT_OUTPUT").getD config.output
    format := format
    filter := (environment "RUST_LOG" <|> environment "HUBKIT_LOG").getD config.filter }

def isDomain (domain : String) : Bool := domain ≠ "" && !domain.toList.contains '.'

def problem? (config : Config) : Option ConfigProblem :=
  if config.snapshot = "" then some .emptySnapshot
  else if config.output = "" then some .emptyOutput
  else (config.numericDomains.find? (!isDomain ·)).map .invalidDomain

def validate (config : Config) : Except ConfigError Config :=
  match config.problem? with
  | some problem => .error (.validation problem)
  | none => .ok config

def load (file : Except FileError String) (environment : Environment) :
    Except ConfigError Config := do
  let config ← ofFile file
  let config ← config.override environment
  config.validate

def schemaOptions (config : Config) : SchemaOptions := .ofDomains config.numericDomains

end Config

end HomeHub
