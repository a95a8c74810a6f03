import HomeHub.Text.Blank
import HomeHub.Text.Lines
import HomeHub.Text.Quoted

/-!
# Pieces of generated source

Source is put together from lines of code and comments. A line of code is made of fragments that tell
where its text comes from: code that is the same in every source, names, items of the two crates, and
texts in string literals. Free text goes into literals and comments only.
-/

namespace HomeHub.Source

inductive Crate where
  | app
  | domain
  deriving DecidableEq

structure Crates where
  app : String
  domain : String
  deriving DecidableEq

def Crates.standard : Crates := ⟨"hubkit_app", "hubkit_domain"⟩

def Crates.path (crates : Crates) : Crate → String
  | .app => crates.app
  | .domain => crates.domain

/-- A text without quotes, slashes, backslashes and line ends. -/
def IsPlain (text : String) : Prop :=
  ∀ c ∈ text.toList, c ∉ ['"', '\'', '/', '\\', '\n', '\r']

theorem IsPlain.ofList {chars : List Char}
    (h : chars.all (· ∉ ['"', '\'', '/', '\\', '\n', '\r']) = true) :
    IsPlain (String.ofList chars) := by
  simpa [IsPlain, String.toList_ofList] using h

/-- A part of a line of code. -/
inductive Fragment where
  /-- Code that is the same in every source. -/
  | fixed (text : String) (plain : IsPlain text := by exact .ofList rfl)
  /-- A reference to what lives as long as the program. -/
  | staticReference
  /-- A lifetime that is left out. -/
  | elidedLifetime
  /-- The name of a type or a member. -/
  | name (text : String)
  | item (crate : Crate) (path : String) (plain : IsPlain path := by exact .ofList rfl)
  /-- A text in a string literal. -/
  | literal (text : String)
  /-- A function of the domain crate, named in a string literal. -/
  | function (path : String) (plain : IsPlain path := by exact .ofList rfl)
  deriving DecidableEq

def Fragment.text (crates : Crates) : Fragment → String
  | .fixed text _ => text
  | .staticReference => "&'static "
  | .elidedLifetime => "<'_>"
  | .name text => text
  | .item crate path _ => crates.path crate ++ path
  | .literal text => Text.quoted text
  | .function path _ => "\"" ++ crates.domain ++ path ++ "\""

def indent (depth : Nat) : String := String.ofList (List.replicate (4 * depth) ' ')

/-- A line of code, or a comment. -/
inductive Piece where
  | code (depth : Nat) (fragments : List Fragment)
  /-- A comment that documents nothing. -/
  | note (text : String) (plain : IsPlain text := by exact .ofList rfl)
  | comment (depth : Nat) (text : String)
  deriving DecidableEq

def commentLine (depth : Nat) (text : String) : String :=
  indent depth ++ (if text.isEmpty then "///" else "/// " ++ text)

/-- A comment has one line for each line of its text, without the blanks at its end. -/
def Piece.lines (crates : Crates) : Piece → List String
  | .code depth fragments => [indent depth ++ String.join (fragments.map (Fragment.text crates))]
  | .note text _ => ["// " ++ text]
  | .comment depth text =>
    (Text.lines text.toList).map fun line => commentLine depth (String.ofList (Text.trimEnd line))

def Piece.blank : Piece := .code 0 []

def separated : List (List Piece) → List Piece
  | [] => []
  | [block] => block
  | block :: rest => block ++ Piece.blank :: separated rest

def textOf (crates : Crates) (pieces : List Piece) : String :=
  String.join ((pieces.flatMap (Piece.lines crates)).map (· ++ "\n"))

end HomeHub.Source
