import HomeHub.Json.Decoder

/-!
# Reading records

A record has named fields in a fixed order, some with a default. It is written as an object, where
other members are skipped and no field stands twice, or as an array of its first fields in order.
A field without a default has to be there.
-/

namespace HomeHub.Json

inductive Layout : List Type → Type 1
  | nil : Layout []
  | required {α : Type} {ts : List Type} (name : String) (decoder : Decoder α)
      (rest : Layout ts) : Layout (α :: ts)
  | optional {α : Type} {ts : List Type} (name : String) (decoder : Decoder α) (default : α)
      (rest : Layout ts) : Layout (α :: ts)

def Draft : List Type → Type
  | [] => Unit
  | α :: ts => Option α × Draft ts

def Fields : List Type → Type
  | [] => Unit
  | α :: ts => α × Fields ts

namespace Layout

variable {ts : List Type}

def blank : {ts : List Type} → Layout ts → Draft ts
  | _, .nil => ()
  | _, .required _ _ rest => (none, rest.blank)
  | _, .optional _ _ _ rest => (none, rest.blank)

def accept? (levels : Nat) (key : String) (document : Document) :
    {ts : List Type} → Layout ts → Draft ts → Option (Except Failure (Draft ts))
  | _, .nil, _ => none
  | _, .required name decoder rest, (value, others) =>
    if name = key then
      some (if value.isSome then .error .mismatch
        else (decoder levels document).map fun value => (some value, others))
    else (rest.accept? levels key document others).map (·.map (value, ·))
  | _, .optional name decoder _ rest, (value, others) =>
    if name = key then
      some (if value.isSome then .error .mismatch
        else (decoder levels document).map fun value => (some value, others))
    else (rest.accept? levels key document others).map (·.map (value, ·))

def acceptMembers (layout : Layout ts) (levels : Nat) :
    List (Leaf String × Document) → Draft ts → Except Failure (Draft ts)
  | [], draft => .ok draft
  | (key, document) :: rest, draft => do
    let key ← key.read
    let draft ←
      match layout.accept? levels key document draft with
      | some result => result
      | none => document.skip.map fun _ => draft
    layout.acceptMembers levels rest draft

/-- Items for the fields in order. More items than fields are refused. -/
def acceptItems (levels : Nat) (ending : Except Failure Unit) :
    {ts : List Type} → Layout ts → List Document → Except Failure (Draft ts)
  | _, .nil, _ :: _ => .error .malformed
  | _, layout, [] => ending.map fun _ => layout.blank
  | _, .required _ decoder rest, item :: items => do
    let value ← decoder levels item
    let others ← rest.acceptItems levels ending items
    return (some value, others)
  | _, .optional _ decoder _ rest, item :: items => do
    let value ← decoder levels item
    let others ← rest.acceptItems levels ending items
    return (some value, others)

def complete : {ts : List Type} → Layout ts → Draft ts → Except Failure (Fields ts)
  | _, .nil, _ => .ok ()
  | _, .required _ _ rest, (value, others) =>
    match value with
    | none => .error .mismatch
    | some value => (rest.complete others).map (value, ·)
  | _, .optional _ _ default rest, (value, others) =>
    (rest.complete others).map (value.getD default, ·)

end Layout

/-- Reads a record with the fields of a layout. -/
def Decoder.record {α : Type} {ts : List Type} (layout : Layout ts) (build : Fields ts → α) :
    Decoder α
  | levels, .object members ending =>
    opened levels fun levels => do
      let draft ← layout.acceptMembers levels members layout.blank
      ending
      return build (← layout.complete draft)
  | levels, .array items ending =>
    opened levels fun levels => do
      let draft ← layout.acceptItems levels ending items
      return build (← layout.complete draft)
  | _, document => .error document.refusal

/-- A name out of a list, each for one value: the text of the name, or an object whose only member
has that name. That member is null, or an empty object where `emptyObject` allows one. -/
def Decoder.choice {α : Type} (emptyObject : Bool) (names : List (String × α)) : Decoder α
  | _, .string text => do
    match names.lookup (← text.read) with
    | some a => return a
    | none => throw .mismatch
  | levels, .object members ending =>
    opened levels fun _ => do
      match members with
      | [(key, document)] => do
        let key ← key.read
        match names.lookup key with
        | none => throw .mismatch
        | some a =>
          match document with
          | .null => ending
          | .object [] (.ok ()) => if emptyObject then ending else throw .mismatch
          | _ => throw document.refusal
          return a
      | _ => throw .mismatch
  | _, document => .error document.refusal

end HomeHub.Json
