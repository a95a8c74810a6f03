import HomeHub.Json.Document
import HomeHub.Numeric.Decimal

/-!
# JSON string literals

The part of a text behind an opening quote, up to the closing one. A number escape names a UTF-16
unit: a high surrogate needs a low one directly behind it, and the two are one character.
-/

namespace HomeHub.Json

open Text (Symbol)

/-- A symbol of the text, or a UTF-16 unit that an escape names. -/
inductive Piece where
  | symbol (s : Symbol)
  | unit (n : Nat)

def hexValue? (c : Char) : Option Nat :=
  if '0' ≤ c && c ≤ '9' then some (c.toNat - '0'.toNat)
  else if 'a' ≤ c && c ≤ 'f' then some (c.toNat - 'a'.toNat + 10)
  else if 'A' ≤ c && c ≤ 'F' then some (c.toNat - 'A'.toNat + 10)
  else none

def unit? : Symbol → Symbol → Symbol → Symbol → Option Nat
  | .char a, .char b, .char c, .char d => do
    let a ← hexValue? a
    let b ← hexValue? b
    let c ← hexValue? c
    let d ← hexValue? d
    return ((a * 16 + b) * 16 + c) * 16 + d
  | _, _, _, _ => none

def letterEscape? (c : Char) : Option Char :=
  if c = '"' then some '"'
  else if c = '\\' then some '\\'
  else if c = '/' then some '/'
  else if c = 'b' then some '\x08'
  else if c = 'f' then some '\x0c'
  else if c = 'n' then some '\n'
  else if c = 'r' then some '\r'
  else if c = 't' then some '\t'
  else none

/-- The pieces up to the closing quote, how the literal ends, and the text behind it. A number
escape in a text too short for four bytes is truncated whatever it holds. -/
def splitPieces : List Symbol → List Piece × Except Failure Unit × List Symbol
  | [] => ([], .error .truncated, [])
  | .stray byte :: rest =>
    let (pieces, ending) := splitPieces rest
    (.symbol (.stray byte) :: pieces, ending)
  | .char c :: rest =>
    if c = '"' then ([], .ok (), rest)
    else if c = '\\' then
      match rest with
      | [] => ([], .error .truncated, [])
      | .char 'u' :: a :: b :: c :: d :: rest =>
        match unit? a b c d with
        | some n =>
          let (pieces, ending) := splitPieces rest
          (.unit n :: pieces, ending)
        | none => ([], .error .malformed, [])
      | .char 'u' :: rest =>
        ([], .error (if Symbol.totalSize rest < 4 then .truncated else .malformed), [])
      | .char letter :: rest =>
        match letterEscape? letter with
        | some c =>
          let (pieces, ending) := splitPieces rest
          (.symbol (.char c) :: pieces, ending)
        | none => ([], .error .malformed, [])
      | .stray _ :: _ => ([], .error .malformed, [])
    else if c.toNat < 0x20 then ([], .error .malformed, [])
    else
      let (pieces, ending) := splitPieces rest
      (.symbol (.char c) :: pieces, ending)

def isHighSurrogate (n : Nat) : Bool := 0xd800 ≤ n && n ≤ 0xdbff

def isLowSurrogate (n : Nat) : Bool := 0xdc00 ≤ n && n ≤ 0xdfff

def joinPieces (ending : Except Failure Unit) : List Piece → Except Failure (List Symbol)
  | [] => ending.map fun _ => []
  | .symbol s :: rest => (joinPieces ending rest).map (s :: ·)
  | .unit n :: rest =>
    if isLowSurrogate n then .error .malformed
    else if isHighSurrogate n then
      match rest with
      | [] => ending.bind fun _ => .error .malformed
      | .unit low :: rest =>
        if isLowSurrogate low then
          (joinPieces ending rest).map
            (.char (Char.ofNat (0x10000 + (n - 0xd800) * 0x400 + (low - 0xdc00))) :: ·)
        else .error .malformed
      | .symbol _ :: _ => .error .malformed
    else (joinPieces ending rest).map (.char (Char.ofNat n) :: ·)

def splitLiteral (text : List Symbol) : Leaf String × List Symbol :=
  let (pieces, ending, rest) := splitPieces text
  let read := (joinPieces ending pieces).bind fun symbols =>
    match Symbol.toText? symbols with
    | some chars => .ok (String.ofList chars)
    | none => .error .malformed
  (⟨read, ending⟩, rest)

end HomeHub.Json
