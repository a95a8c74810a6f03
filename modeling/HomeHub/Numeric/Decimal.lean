import HomeHub.Numeric.Binary64

/-!
# Decimal numerals

A numeral has a sign, digits around at most one point, at least one of them, and a decimal
exponent, of which all but a digit may be missing. It stands for the binary64 number nearest to
its exact value.
-/

namespace HomeHub

structure Decimal where
  negative : Bool
  digits : Nat
  exponent : Int
  deriving DecidableEq

namespace Decimal

def isDigit (c : Char) : Bool := '0' ≤ c && c ≤ '9'

def digitValue (c : Char) : Nat := c.toNat - '0'.toNat

def digitsValue (start : Nat) (digits : List Char) : Nat :=
  digits.foldl (fun n c => 10 * n + digitValue c) start

def splitDigits (text : List Char) : List Char × List Char :=
  (text.takeWhile isDigit, text.dropWhile isDigit)

def splitSign : List Char → Bool × List Char
  | '-' :: rest => (true, rest)
  | '+' :: rest => (false, rest)
  | text => (false, text)

/-- The exponent behind the digits: the whole of a text that is empty or starts with `e`. -/
def exponent? : List Char → Option Int
  | [] => some 0
  | c :: rest =>
    if c = 'e' || c = 'E' then
      let (negative, rest) := splitSign rest
      let (digits, rest) := splitDigits rest
      if digits.isEmpty || !rest.isEmpty then none
      else
        let value : Int := digitsValue 0 digits
        some (if negative then -value else value)
    else none

def ofText? (text : List Char) : Option Decimal :=
  let (negative, text) := splitSign text
  let (whole, text) := splitDigits text
  let (places, text) :=
    match text with
    | '.' :: rest => splitDigits rest
    | _ => ([], text)
  if whole.isEmpty && places.isEmpty then none
  else do
    let exponent ← exponent? text
    return ⟨negative, digitsValue (digitsValue 0 whole) places, exponent - places.length⟩

/-- Exponents beyond these bounds are decided without the exact value: every nonzero number from
`10 ^ 400` on is infinite, and every number below `10 ^ (-400)` rounds to zero. -/
def toBinary64 (x : Decimal) : Binary64 :=
  if x.digits = 0 then .ofMagnitude x.negative 0
  else if 400 < x.exponent then .ofMagnitude x.negative Binary64.infinityBits
  else if x.exponent + x.digits.log2 + 1 < -400 then .ofMagnitude x.negative 0
  else if 0 ≤ x.exponent then .ofFraction x.negative (x.digits * tenTo x.exponent.toNat) 1
  else .ofFraction x.negative x.digits (tenTo (-x.exponent).toNat)

end Decimal

end HomeHub
