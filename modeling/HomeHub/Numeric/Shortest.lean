import HomeHub.Numeric.Binary64

/-!
# Shortest decimal digits

The fewest decimal digits whose number still rounds to a given binary64 number, and of those the
ones nearest to it. If any number of a decimal grid rounds to it, one of its two neighbours on
that grid does, so for each count of digits only these two are tried.
-/

namespace HomeHub.Binary64

/-- The half-open decade of a positive fraction: the least `k` with `num / den < 10 ^ k`, for a
fraction between `10 ^ (-400)` and `10 ^ 400`. -/
def decade (num den : Nat) : Int :=
  if den ≤ num then (Nat.toDigits 10 (num / den)).length
  else 1 - ((List.range 400).find? fun k => den ≤ num * tenTo k).getD 0

/-- The numbers that round to `x`, in quarters of the last place of `x`: the two ends, and
whether they belong. -/
def interval (x : Binary64) : Nat × Nat × Bool :=
  let (m, e) := x.scaled
  let low := if m = twoTo 52 && -1074 < e then 4 * m - 1 else 4 * m - 2
  (low, 4 * m + 2, m % 2 == 0)

/-- `some d` if `d * 10 ^ place` rounds to `x` for one of the two neighbours `d`, the nearer one
if both do. -/
def digitsAt? (x : Binary64) (place : Int) : Option Nat :=
  let (low, high, closed) := x.interval
  let (n, d) := fraction 1 (x.scaled.2 - 2)
  let (up, down) : Nat × Nat :=
    if 0 ≤ place then (tenTo place.toNat, 1) else (1, tenTo (-place).toNat)
  -- a digit count `k` stands for `k * up * d` where a quarter of a last place is `n * down`
  let unit := up * d
  let quarter := n * down
  let value := 4 * x.scaled.1 * quarter
  let below := value / unit
  let inside (k : Nat) : Bool :=
    let point := k * unit
    if closed then low * quarter ≤ point && point ≤ high * quarter
    else low * quarter < point && point < high * quarter
  let above := below + 1
  match inside below, inside above with
  | true, true =>
    let left := value - below * unit
    let right := above * unit - value
    if left < right || (left == right && below % 2 == 0) then some below else some above
  | true, false => some below
  | false, true => some above
  | false, false => none

def stripZeros : Nat → Nat × Int → Nat × Int
  | 0, digits => digits
  | fuel + 1, (d, place) =>
    if d % 10 = 0 && d ≠ 0 then stripZeros fuel (d / 10, place + 1) else (d, place)

/-- `(d, p)` when the shortest digits of a finite positive magnitude spell `d * 10 ^ p`. -/
def shortest (x : Binary64) : Nat × Int :=
  let (num, den) := x.ratio
  let top := decade num den
  let found := (List.range 17).findSome? fun (count : Nat) =>
    let place : Int := top - (count + 1)
    (x.digitsAt? place).map fun d => (d, place)
  stripZeros 20 (found.getD (0, 0))

end HomeHub.Binary64
