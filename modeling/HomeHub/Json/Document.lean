import HomeHub.Json.Value
import HomeHub.Text.Utf8

/-!
# JSON documents

The tree of a JSON text in the order of the text, with its faults. A text may be at fault at any
place; the place becomes a leaf of the tree, and nothing follows it. Whoever reads the tree in
order meets the first problem first, be it a fault of the text or a value of the wrong shape.

A reader that has no use for a part may skip it. Skipping asks less of a leaf than reading: a
number may lie out of range, and a text may hold stray bytes or half a surrogate pair.
-/

namespace HomeHub.Json

inductive Failure where
  /-- The text is no JSON, or is nested too deep. -/
  | malformed
  /-- The text stops inside a value. -/
  | truncated
  /-- The text is JSON for something else. -/
  | mismatch
  deriving DecidableEq

/-- What reading gives at one place of the text, and what skipping gives. -/
structure Leaf (α : Type) where
  read : Except Failure α
  skip : Except Failure Unit

def Leaf.ok {α : Type} (a : α) : Leaf α := ⟨.ok a, .ok ()⟩

def Leaf.fault {α : Type} (read skip : Failure) : Leaf α := ⟨.error read, .error skip⟩

inductive Document where
  | null
  | bool (value : Bool)
  | number (value : Leaf Number)
  | string (text : Leaf String)
  /-- The items up to the closing bracket, or up to where neither it nor a comma stands. -/
  | array (items : List Document) (ending : Except Failure Unit)
  /-- The members up to the closing brace, or up to where no member and no end stands. -/
  | object (members : List (Leaf String × Document)) (ending : Except Failure Unit)
  | fault (failure : Failure)

namespace Document

mutual
def skip : Document → Except Failure Unit
  | .null => .ok ()
  | .bool _ => .ok ()
  | .number value => value.skip
  | .string text => text.skip
  | .array items ending => do
    skipItems items
    ending
  | .object members ending => do
    skipMembers members
    ending
  | .fault failure => .error failure
termination_by structural d => d
def skipItems : List Document → Except Failure Unit
  | [] => .ok ()
  | d :: ds => do
    d.skip
    skipItems ds
termination_by structural ds => ds
def skipMember : Leaf String × Document → Except Failure Unit
  | (key, d) => do
    key.skip
    d.skip
termination_by structural m => m
def skipMembers : List (Leaf String × Document) → Except Failure Unit
  | [] => .ok ()
  | m :: ms => do
    skipMember m
    skipMembers ms
termination_by structural ms => ms
end

/-- The failure of a reader that asks for another kind of value. A leaf is read before it is
refused; an array or object is refused at its opening bracket. -/
def refusal : Document → Failure
  | .number ⟨.error failure, _⟩ => failure
  | .string ⟨.error failure, _⟩ => failure
  | .fault failure => failure
  | _ => .mismatch

mutual
def ofValue : Value → Document
  | .null => .null
  | .bool b => .bool b
  | .number n => .number (.ok n)
  | .string s => .string (.ok s)
  | .array items => .array (ofItems items) (.ok ())
  | .object members => .object (ofMembers members) (.ok ())
termination_by structural v => v
def ofItems : List Value → List Document
  | [] => []
  | v :: vs => ofValue v :: ofItems vs
termination_by structural vs => vs
def ofMember : String × Value → Leaf String × Document
  | (k, v) => (.ok k, ofValue v)
termination_by structural m => m
def ofMembers : List (String × Value) → List (Leaf String × Document)
  | [] => []
  | m :: ms => ofMember m :: ofMembers ms
termination_by structural ms => ms
end

end Document

end HomeHub.Json
