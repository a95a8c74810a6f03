import HomeHub.Toml.Statement

/-!
# TOML documents

The table that the statements of a text build. A pair belongs to the table of the last header.
-/

namespace HomeHub.Toml

/-- A document under construction: its entries and the path of the last header. -/
structure Draft where
  entries : Entries
  current : List String

namespace Draft

def start : Draft := ⟨[], []⟩

def atHeader? (change : String → Entries → Option Entries) (draft : Draft) (path : List String) :
    Option Draft := do
  let key ← path.getLast?
  return ⟨← Entries.at? (change key) path.dropLast draft.entries, path⟩

def add? (draft : Draft) : Statement → Option Draft
  | .table path => draft.atHeader? Entries.open? path
  | .element path => draft.atHeader? Entries.append? path
  | .pair path value => do
    let entries ← Entries.at? (Entries.insert? value true path) draft.current draft.entries
    return { draft with entries := entries }

end Draft

def entriesOf? (text : String) : Option (List (String × Value)) := do
  let statements ← Statement.ofText? text.toList
  let draft ← statements.foldlM Draft.add? .start
  return Node.valuesOf draft.entries

end HomeHub.Toml
