import HomeHub.Toml.Value

/-!
# Tables under construction

While a text is read its tables stay open for more, but only for such keys as their origin allows.
A table with a header of its own gets no second header and nothing through dotted keys. A table
that only stands in the path of a header may still get a header, and a table made by a dotted key
may get more through dotted keys. A value is closed, and so is an inline table.
-/

namespace HomeHub.Toml

/-- What a table was made by. -/
inductive Origin where
  /-- The path of a header that leads further. -/
  | path
  | header
  | dottedKey
  deriving DecidableEq

inductive Node where
  | value (value : Value)
  | table (origin : Origin) (entries : List (String × Node))
  /-- An array of tables, of which the last is open. -/
  | tables (elements : List (List (String × Node)))

abbrev Entries := List (String × Node)

namespace Node

mutual
def toValue : Node → Value
  | .value v => v
  | .table _ entries => .table (valuesOf entries)
  | .tables elements => .array (elementsOf elements)
termination_by structural node => node
def valueOf : String × Node → String × Value
  | (key, node) => (key, node.toValue)
termination_by structural entry => entry
def valuesOf : List (String × Node) → List (String × Value)
  | [] => []
  | entry :: rest => valueOf entry :: valuesOf rest
termination_by structural entries => entries
def elementsOf : List (List (String × Node)) → List Value
  | [] => []
  | entries :: rest => .table (valuesOf entries) :: elementsOf rest
termination_by structural elements => elements
end

/-- The entries that a path enters through a node, and the node with other entries there. -/
def inside? : Node → Option (Entries × (Entries → Node))
  | .value _ => none
  | .table origin entries => some (entries, .table origin)
  | .tables elements =>
    elements.getLast?.map fun last =>
      (last, fun entries => .tables (elements.dropLast ++ [entries]))

end Node

namespace Entries

def put (entries : Entries) (key : String) (node : Node) : Entries :=
  match entries with
  | [] => [(key, node)]
  | (other, old) :: rest =>
    if other = key then (key, node) :: rest else (other, old) :: put rest key node

/-- Changes the table that a path of a header leads to; tables that are missing on the way are
made. -/
def at? (change : Entries → Option Entries) : List String → Entries → Option Entries
  | [], entries => change entries
  | key :: path, entries =>
    match entries.lookup key with
    | none => (at? change path []).map fun inner => put entries key (.table .path inner)
    | some node => do
      let (inner, rebuild) ← node.inside?
      return put entries key (rebuild (← at? change path inner))

def open? (key : String) (entries : Entries) : Option Entries :=
  match entries.lookup key with
  | none => some (put entries key (.table .header []))
  | some (.table .path inner) => some (put entries key (.table .header inner))
  | some _ => none

def append? (key : String) (entries : Entries) : Option Entries :=
  match entries.lookup key with
  | none => some (put entries key (.tables [[]]))
  | some (.tables elements) => some (put entries key (.tables (elements ++ [[]])))
  | some _ => none

/-- Puts a value under a dotted key. `direct` says whether a single key may be put right here. -/
def insert? (value : Value) (direct : Bool) : List String → Entries → Option Entries
  | [], _ => none
  | [key], entries =>
    if direct && (entries.lookup key).isNone then some (put entries key (.value value)) else none
  | key :: path, entries =>
    match entries.lookup key with
    | none => (insert? value true path []).map fun inner => put entries key (.table .dottedKey inner)
    | some (.table .header _) => none
    | some (.table origin inner) =>
      (insert? value (origin == .dottedKey) path inner).map fun inner =>
        put entries key (.table origin inner)
    | some node => do
      let (inner, rebuild) ← node.inside?
      return put entries key (rebuild (← insert? value false path inner))

def ofPairs? (pairs : List (List String × Value)) : Option Entries :=
  pairs.foldlM (fun entries (path, value) => insert? value true path entries) []

end Entries

end HomeHub.Toml
