import HomeHub.Json.Parser

/-!
# Reading documents

A decoder reads a document as a value of some type, in the order of the text, and stops at the
first problem. Its first argument says how many arrays and objects may still be opened inside one
another; parts that are skipped are not counted.
-/

namespace HomeHub.Json

abbrev Decoder (α : Type) := Nat → Document → Except Failure α

namespace Decoder

variable {α β : Type}

def map (f : α → β) (decoder : Decoder α) : Decoder β :=
  fun levels document => (decoder levels document).map f

def opened (levels : Nat) (body : Nat → Except Failure α) : Except Failure α :=
  match levels with
  | 0 => .error .malformed
  | levels + 1 => body levels

def string : Decoder String
  | _, .string text => text.read
  | _, document => .error document.refusal

def bool : Decoder Bool
  | _, .bool b => .ok b
  | _, document => .error document.refusal

def option (decoder : Decoder α) : Decoder (Option α)
  | _, .null => .ok none
  | levels, document => (decoder levels document).map some

def list (decoder : Decoder α) : Decoder (List α)
  | levels, .array items ending =>
    opened levels fun levels => do
      let values ← items.mapM (decoder levels)
      ending
      return values
  | _, document => .error document.refusal

def collect (decoder : Document → Except Failure α) :
    List (Leaf String × Document) → Table α → Except Failure (Table α)
  | [], table => .ok table
  | (key, document) :: rest, table => do
    let key ← key.read
    let value ← decoder document
    collect decoder rest (table.insert key value)

def table (decoder : Decoder α) : Decoder (Table α)
  | levels, .object members ending =>
    opened levels fun levels => do
      let result ← collect (decoder levels) members []
      ending
      return result
  | _, document => .error document.refusal

mutual
/-- Reads any value. Of members under one name the last counts. -/
def valueOf : Nat → Document → Except Failure Value
  | _, .null => .ok .null
  | _, .bool b => .ok (.bool b)
  | _, .number n => n.read.map .number
  | _, .string s => s.read.map .string
  | 0, .array _ _ => .error .malformed
  | levels + 1, .array items ending => do
    let values ← valuesOf levels items
    ending
    return .array values
  | 0, .object _ _ => .error .malformed
  | levels + 1, .object members ending => do
    let result ← membersOf levels members []
    ending
    return .object result
  | _, .fault failure => .error failure
termination_by structural _ d => d
def valuesOf (levels : Nat) : List Document → Except Failure (List Value)
  | [] => .ok []
  | d :: ds => do
    let v ← valueOf levels d
    let vs ← valuesOf levels ds
    return v :: vs
termination_by structural ds => ds
def memberOf (levels : Nat) : Leaf String × Document → Except Failure (String × Value)
  | (key, d) => do
    let key ← key.read
    let v ← valueOf levels d
    return (key, v)
termination_by structural m => m
def membersOf (levels : Nat) : List (Leaf String × Document) → Members → Except Failure Members
  | [], table => .ok table
  | m :: ms, table => do
    let (key, v) ← memberOf levels m
    membersOf levels ms (table.insert key v)
termination_by structural ms => ms
end

def value : Decoder Value := valueOf

/-- How deep the containers of a text may be nested where they are read. -/
def textLevels : Nat := 127

def run (decoder : Decoder α) (text : List Text.Symbol) : Except Failure α := do
  let (document, rest) := Document.ofText text
  let result ← decoder textLevels document
  if (skipSpace rest).isEmpty then .ok result else .error .malformed

def runValue (decoder : Decoder α) (value : Value) : Except Failure α :=
  decoder (value.depth + 1) (Document.ofValue value)

end Decoder

def Value.ofText (text : List Text.Symbol) : Except Failure Value :=
  Decoder.value.run text

end HomeHub.Json
