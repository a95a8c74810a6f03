import HomeHub.Json.Document
import HomeHub.Numeric.Decimal

/-!
# JSON numerals

A numeral without point and exponent is an integer while it fits 64 bits, with or without sign.
Every other numeral is a binary64 number in two roundings: of the leading digits that fit an
unsigned 64-bit significand, and of that number times or over a power of ten. Digits that do not
fit count only by their place. The result is not always the binary64 number nearest to the
numeral. A numeral beyond the largest binary64 number is refused.
-/

namespace HomeHub.Json

open Text (Symbol)

structure Numeral where
  negative : Bool
  whole : List Char
  places : Option (List Char)
  exponent : Option (Bool × List Char)

namespace Numeral

/-- Digits are taken up while the number fits 64 bits; the second result counts those that were
not. -/
def takeFitting (n : Nat) : List Char → Nat × Nat
  | [] => (n, 0)
  | c :: rest =>
    let next := 10 * n + Decimal.digitValue c
    if next < twoTo 64 then takeFitting next rest else (n, rest.length + 1)

def powerOfTen (n : Nat) : Binary64 := .ofNat (tenTo n)

/-- `significand * 10 ^ exponent`, if that is finite. Powers over `10 ^ 308` are applied in two
steps; a third would start from zero. -/
def scale (significand : Nat) (exponent : Int) : Except Failure Binary64 :=
  let start := Binary64.ofNat significand
  if 0 ≤ exponent then
    if exponent ≤ 308 then
      let result := start.mul (powerOfTen exponent.toNat)
      if result.isFinite then .ok result else .error .malformed
    else if significand = 0 then .ok .zero
    else .error .malformed
  else
    let down := (-exponent).toNat
    if down ≤ 308 then .ok (start.div (powerOfTen down))
    else if down ≤ 616 then .ok ((start.div (powerOfTen 308)).div (powerOfTen (down - 308)))
    else .ok .zero

def signed (negative : Bool) (x : Binary64) : Binary64 :=
  if negative then x.neg else x

/-- An exponent that does not fit 31 bits moves every number but zero out of range, up or down. -/
def real (negative : Bool) (significand : Nat) (shift : Int) (exponent : Bool × List Char) :
    Except Failure Number :=
  let size := Decimal.digitsValue 0 exponent.2
  if twoTo 31 ≤ size then
    if significand ≠ 0 && !exponent.1 then .error .malformed
    else .ok (.real (signed negative .zero))
  else
    let total : Int := if exponent.1 then shift - size else shift + size
    (scale significand total).map fun x => .real (signed negative x)

def value (numeral : Numeral) : Except Failure Number :=
  let (whole, dropped) := takeFitting 0 numeral.whole
  match numeral.places, numeral.exponent with
  | none, none =>
    if dropped = 0 then
      if !numeral.negative then .ok (.int whole)
      else if 0 < whole && whole ≤ twoTo 63 then .ok (.int (-whole))
      else .ok (.real (Binary64.ofNat whole).neg)
    else real numeral.negative whole dropped (false, [])
  | places, exponent =>
    let places := places.getD []
    let (significand, unfit) := takeFitting whole places
    real numeral.negative significand (dropped - (places.length - unfit : Nat))
      (exponent.getD (false, []))

end Numeral

def splitDigits : List Symbol → List Char × List Symbol
  | .char c :: rest =>
    if Decimal.isDigit c then
      let (digits, rest) := splitDigits rest
      (c :: digits, rest)
    else ([], .char c :: rest)
  | rest => ([], rest)

def digitFault {α : Type} : List Symbol → Leaf α
  | [] => .fault .truncated .malformed
  | _ => .fault .malformed .malformed

def splitExponent (text : List Symbol) : Except (Leaf Number) (Option (Bool × List Char)) × List Symbol :=
  match text with
  | .char c :: rest =>
    if c = 'e' || c = 'E' then
      let (negative, rest) :=
        match rest with
        | .char '-' :: rest => (true, rest)
        | .char '+' :: rest => (false, rest)
        | rest => (false, rest)
      let (digits, rest) := splitDigits rest
      if digits.isEmpty then (.error (digitFault rest), []) else (.ok (some (negative, digits)), rest)
    else (.ok none, text)
  | _ => (.ok none, text)

def splitPlaces (text : List Symbol) : Except (Leaf Number) (Option (List Char)) × List Symbol :=
  match text with
  | .char '.' :: rest =>
    let (digits, rest) := splitDigits rest
    if digits.isEmpty then (.error (digitFault rest), []) else (.ok (some digits), rest)
  | _ => (.ok none, text)

/-- A numeral behind its sign. A zero is followed by no digit. -/
def splitNumeral (negative : Bool) (text : List Symbol) : Leaf Number × List Symbol :=
  let (whole, rest) := splitDigits text
  match whole with
  | [] => (digitFault rest, [])
  | first :: others =>
    if first = '0' && !others.isEmpty then (.fault .malformed .malformed, [])
    else
      match splitPlaces rest with
      | (.error leaf, _) => (leaf, [])
      | (.ok places, rest) =>
        match splitExponent rest with
        | (.error leaf, _) => (leaf, [])
        | (.ok exponent, rest) =>
          (⟨Numeral.value ⟨negative, whole, places, exponent⟩, .ok ()⟩, rest)

end HomeHub.Json
