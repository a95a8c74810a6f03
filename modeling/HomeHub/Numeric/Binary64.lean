import HomeHub.Numeric.Power

/-!
# Binary64 numbers

IEEE 754 double-precision numbers by their bits. A finite number is a whole significand times a
power of two, and each operation gives the number nearest to the exact result, a tie going to the
even significand. No machine arithmetic is involved.
-/

namespace HomeHub

structure Binary64 where
  bits : UInt64
  deriving DecidableEq

namespace Binary64

/-- The bits of infinity; every finite number has a smaller magnitude. -/
def infinityBits : Nat := 0x7ff * twoTo 52

def ofMagnitude (negative : Bool) (magnitude : Nat) : Binary64 :=
  ⟨UInt64.ofNat (if negative then twoTo 63 + magnitude else magnitude)⟩

def isNegative (x : Binary64) : Bool := twoTo 63 ≤ x.bits.toNat

def magnitude (x : Binary64) : Nat := x.bits.toNat % twoTo 63

def isFinite (x : Binary64) : Bool := x.magnitude < infinityBits

def isNaN (x : Binary64) : Bool := infinityBits < x.magnitude

def zero : Binary64 := ⟨0⟩

def neg (x : Binary64) : Binary64 := ofMagnitude (!x.isNegative) x.magnitude

/-- `(m, e)` when the magnitude of a finite number is `m * 2 ^ e`. -/
def scaled (x : Binary64) : Nat × Int :=
  let field : Nat := x.magnitude / twoTo 52
  if field = 0 then (x.magnitude, -1074)
  else (twoTo 52 + x.magnitude % twoTo 52, (field : Int) - 1075)

def fraction (m : Nat) (e : Int) : Nat × Nat :=
  if 0 ≤ e then (m * twoTo e.toNat, 1) else (m, twoTo (-e).toNat)

def ratio (x : Binary64) : Nat × Nat :=
  fraction x.scaled.1 x.scaled.2

def roundQuotient (num den : Nat) : Nat :=
  let quotient := num / den
  let twice := 2 * (num % den)
  if den < twice || (twice == den && quotient % 2 == 1) then quotient + 1 else quotient

/-- An exponent `e` of a last binary place: `num / den` is less than `2 ^ 53` times `2 ^ e`, and
at least half of that unless `e` is the least exponent. -/
def lastPlace (num den : Nat) : Int :=
  let guess : Int := max ((num.log2 : Int) - (den.log2 : Int) - 53) (-1074)
  let (n, d) := fraction 1 guess
  if twoTo 53 * (n * den) ≤ num * d then guess + 1 else guess

/-- The magnitude nearest to `num / den`. A significand `m` of the last place `e` has the bits
`(e + 1074) * 2 ^ 52 + m`, also where rounding carried into the next power of two. -/
def nearestMagnitude (num den : Nat) : Nat :=
  if num = 0 then 0
  else
    let e := lastPlace num den
    let (n, d) := fraction 1 e
    min infinityBits ((e + 1074).toNat * twoTo 52 + roundQuotient (num * d) (den * n))

def ofFraction (negative : Bool) (num den : Nat) : Binary64 :=
  ofMagnitude negative (nearestMagnitude num den)

def ofNat (n : Nat) : Binary64 := ofFraction false n 1

def ofInt (n : Int) : Binary64 := ofFraction (n < 0) n.natAbs 1

def mul (x y : Binary64) : Binary64 :=
  ofFraction (x.isNegative != y.isNegative) (x.ratio.1 * y.ratio.1) (x.ratio.2 * y.ratio.2)

def div (x y : Binary64) : Binary64 :=
  ofFraction (x.isNegative != y.isNegative) (x.ratio.1 * y.ratio.2) (x.ratio.2 * y.ratio.1)

/-- A whole number in the order of the numbers; both zeros have the same. -/
def rank (x : Binary64) : Int :=
  if x.isNegative then -x.magnitude else x.magnitude

def same (x y : Binary64) : Bool :=
  !x.isNaN && !y.isNaN && x.rank == y.rank

def less (x y : Binary64) : Bool :=
  !x.isNaN && !y.isNaN && x.rank < y.rank

end Binary64

end HomeHub
