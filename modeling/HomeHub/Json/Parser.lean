import HomeHub.Json.Literal
import HomeHub.Json.Numeral

/-!
# From text to JSON documents

Every text has a document: where the grammar of JSON fails, the document holds the fault. Behind a
fault the rest of the text counts as read.
-/

namespace HomeHub.Json

open Text (Symbol)

def isSpace (c : Char) : Bool := c = ' ' || c = '\n' || c = '\t' || c = '\r'

def skipSpace : List Symbol → List Symbol
  | .char c :: rest => if isSpace c then skipSpace rest else .char c :: rest
  | rest => rest

def splitWord : List Char → List Symbol → Except Failure (List Symbol)
  | [], rest => .ok rest
  | _ :: _, [] => .error .truncated
  | c :: word, s :: rest => if s = .char c then splitWord word rest else .error .malformed

def wordDocument (document : Document) (word : List Char) (rest : List Symbol) :
    Document × List Symbol :=
  match splitWord word rest with
  | .ok rest => (document, rest)
  | .error failure => (.fault failure, [])

/-- The end of a container where `close` does not stand. -/
def unclosed : List Symbol → Except Failure Unit
  | [] => .error .truncated
  | _ => .error .malformed

namespace Document

mutual
/-- The first value of a text. The first argument bounds the steps; every value takes at most two
a symbol. -/
def split : Nat → List Symbol → Document × List Symbol
  | 0, _ => (.fault .malformed, [])
  | fuel + 1, text =>
    match skipSpace text with
    | [] => (.fault .truncated, [])
    | .stray _ :: _ => (.fault .malformed, [])
    | .char c :: rest =>
      if c = 'n' then wordDocument .null ['u', 'l', 'l'] rest
      else if c = 't' then wordDocument (.bool true) ['r', 'u', 'e'] rest
      else if c = 'f' then wordDocument (.bool false) ['a', 'l', 's', 'e'] rest
      else if c = '"' then
        let (leaf, rest) := splitLiteral rest
        (.string leaf, rest)
      else if c = '-' then
        let (leaf, rest) := splitNumeral true rest
        (.number leaf, rest)
      else if Decimal.isDigit c then
        let (leaf, rest) := splitNumeral false (.char c :: rest)
        (.number leaf, rest)
      else if c = '[' then
        match skipSpace rest with
        | [] => (.array [] (.error .truncated), [])
        | .char ']' :: rest => (.array [] (.ok ()), rest)
        | rest =>
          let (items, ending, rest) := splitItems fuel rest
          (.array items ending, rest)
      else if c = '\x7b' then
        match skipSpace rest with
        | [] => (.object [] (.error .truncated), [])
        | .char '\x7d' :: rest => (.object [] (.ok ()), rest)
        | rest =>
          let (members, ending, rest) := splitMembers fuel rest
          (.object members ending, rest)
      else (.fault .malformed, [])
def splitItems : Nat → List Symbol → List Document × Except Failure Unit × List Symbol
  | 0, _ => ([], .error .malformed, [])
  | fuel + 1, text =>
    let (item, rest) := split fuel text
    match skipSpace rest with
    | .char ',' :: rest =>
      let (items, ending) := splitItems fuel rest
      (item :: items, ending)
    | .char ']' :: rest => ([item], .ok (), rest)
    | rest => ([item], unclosed rest, [])
def splitMembers :
    Nat → List Symbol → List (Leaf String × Document) × Except Failure Unit × List Symbol
  | 0, _ => ([], .error .malformed, [])
  | fuel + 1, text =>
    match skipSpace text with
    | .char '"' :: rest =>
      let (key, rest) := splitLiteral rest
      match skipSpace rest with
      | .char ':' :: rest =>
        let (value, rest) := split fuel rest
        match skipSpace rest with
        | .char ',' :: rest =>
          let (members, ending) := splitMembers fuel rest
          ((key, value) :: members, ending)
        | .char '\x7d' :: rest => ([(key, value)], .ok (), rest)
        | rest => ([(key, value)], unclosed rest, [])
      | [] => ([(key, .fault .truncated)], .ok (), [])
      | _ => ([(key, .fault .malformed)], .ok (), [])
    | rest => ([], unclosed rest, [])
end

def ofText (text : List Symbol) : Document × List Symbol :=
  split (2 * text.length + 2) text

end Document

end HomeHub.Json
