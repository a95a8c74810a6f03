import HomeHub.Toml.Literal
import HomeHub.Toml.Tree

/-!
# TOML statements

A text is a sequence of headers and of pairs of a key and a value, each on a line of its own.
Arrays may run over several lines; inline tables may not.
-/

namespace HomeHub.Toml

/-- How many arrays, inline tables or parts of one key may be inside one another. -/
def maximalDepth : Nat := 79

def isKeyChar (c : Char) : Bool := c.isAlphanum || c = '_' || c = '-'

def simpleKey? (text : List Char) : Option (String × List Char) :=
  match text with
  | [] => none
  | c :: _ =>
    if c = '"' || c = '\'' then shortString? text
    else
      let word := text.takeWhile isKeyChar
      if word.isEmpty then none else some (String.ofList word, text.dropWhile isKeyChar)

def keyParts? : Nat → Reader (List String)
  | 0, _ => none
  | fuel + 1, text => do
    let (part, rest) ← simpleKey? (skipBlanks text)
    match skipBlanks rest with
    | '.' :: rest =>
      let (parts, rest) ← keyParts? fuel rest
      return (part :: parts, rest)
    | rest => return ([part], rest)

def key? (text : List Char) : Option (List String × List Char) := keyParts? maximalDepth text

def skipLines? : Nat → List Char → Option (List Char)
  | 0, text => some text
  | fuel + 1, text =>
    let text := skipBlanks text
    match text with
    | '#' :: _ => (newline? (skipComment text)).bind (skipLines? fuel)
    | '\n' :: rest => skipLines? fuel rest
    | '\r' :: '\n' :: rest => skipLines? fuel rest
    | '\r' :: _ => none
    | _ => some text

mutual
/-- A value. The first argument bounds the steps, the second the containers that may be opened. -/
def value? : Nat → Nat → Reader Value
  | 0, _, _ => none
  | fuel + 1, depth, text =>
    match text with
    | '[' :: rest =>
      match depth with
      | 0 => none
      | depth + 1 => do
        let (items, rest) ← items? fuel depth rest
        return (.array items, rest)
    | '\x7b' :: rest =>
      match depth with
      | 0 => none
      | depth + 1 =>
        match skipBlanks rest with
        | '\x7d' :: rest => some (.table [], rest)
        | rest => do
          let (pairs, rest) ← pairs? fuel depth rest
          let entries ← Entries.ofPairs? pairs
          return ((Node.table .header entries).toValue, rest)
    | text => literal? text
/-- The items of an array and its end; a comma may stand in front of the end. -/
def items? : Nat → Nat → Reader (List Value)
  | 0, _, _ => none
  | fuel + 1, depth, text => do
    match ← skipLines? text.length text with
    | ']' :: rest => return ([], rest)
    | text =>
      let (item, rest) ← value? fuel depth text
      match ← skipLines? rest.length rest with
      | ',' :: rest =>
        let (items, rest) ← items? fuel depth rest
        return (item :: items, rest)
      | ']' :: rest => return ([item], rest)
      | _ => none
def pairs? : Nat → Nat → Reader (List (List String × Value))
  | 0, _, _ => none
  | fuel + 1, depth, text => do
    let (path, rest) ← key? text
    let (value, rest) ← value? fuel depth (skipBlanks (← mark? '=' rest))
    match skipBlanks rest with
    | ',' :: rest =>
      let (pairs, rest) ← pairs? fuel depth rest
      return ((path, value) :: pairs, rest)
    | '\x7d' :: rest => return ([(path, value)], rest)
    | _ => none
end

inductive Statement where
  /-- `[path]` -/
  | table (path : List String)
  /-- `[[path]]` -/
  | element (path : List String)
  | pair (path : List String) (value : Value)

namespace Statement

def lineEnd? (text : List Char) : Option (List Char) :=
  match skipComment (skipBlanks text) with
  | [] => some []
  | rest => newline? rest

def split? (text : List Char) : Option (Statement × List Char) := do
  match text with
  | '[' :: '[' :: rest =>
    let (path, rest) ← key? rest
    return (.element path, ← lineEnd? (← mark? ']' (← mark? ']' rest)))
  | '[' :: rest =>
    let (path, rest) ← key? rest
    return (.table path, ← lineEnd? (← mark? ']' rest))
  | text =>
    let (path, rest) ← key? text
    let rest := skipBlanks (← mark? '=' rest)
    let (value, rest) ← value? (2 * rest.length + 1) maximalDepth rest
    return (.pair path value, ← lineEnd? rest)

def all? : Nat → List Char → Option (List Statement)
  | 0, _ => some []
  | fuel + 1, text =>
    match skipBlanks text with
    | [] => some []
    | '#' :: rest => (lineEnd? ('#' :: rest)).bind (all? fuel)
    | c :: rest =>
      match newline? (c :: rest) with
      | some rest => all? fuel rest
      | none => do
        let (statement, rest) ← split? (c :: rest)
        return statement :: (← all? fuel rest)

def ofText? (text : List Char) : Option (List Statement) :=
  let text := if text.head? == some '\uFEFF' then text.drop 1 else text
  all? (text.length + 1) text

end Statement

end HomeHub.Toml
