import HttpSuite.Decimal.Binary64

/-!
# The shortest decimal of a double

Of all decimals that round to a given double, the one with the fewest digits,
and of several such the nearest to the double. The decimals that round to a
double are those between the midpoints to its two neighbours, the midpoints
among them when the significand is even. On the grid of decimals with a given
number of digits, a point of that interval exists exactly if one of the two grid
points next to the double lies in it, so two candidates per length suffice, and
seventeen digits always do.
-/

namespace HttpSuite

/-- The decimal `digits * 10 ^ exponent`. -/
structure Decimal where
  /-- All significant digits, as one number. -/
  digits : Nat
  /-- The power of ten of the last digit. -/
  exponent : Int
  deriving DecidableEq, Repr, Inhabited

namespace Shortest

/-- A positive double and the bounds of what rounds to it, all scaled to
integers by a common factor: `low / unit`, `value / unit` and `high / unit`. -/
structure Interval where
  /-- The lower midpoint. -/
  low : Nat
  /-- The double. -/
  value : Nat
  /-- The upper midpoint. -/
  high : Nat
  /-- The common denominator. -/
  unit : Nat
  /-- Whether the midpoints themselves round to the double. -/
  closed : Bool

/-- The interval of a double other than zero. The gap below a power of two is
half as wide as the gap above it. -/
def interval (x : Binary64) : Interval :=
  let m := x.significand
  let tight := m == Nat.pow 2 52 && x.exponent > Binary64.minExponent
  let e := x.exponent - 2
  let scale := if e ≥ 0 then Nat.pow 2 e.toNat else 1
  { low := (if tight then 4 * m - 1 else 4 * m - 2) * scale
    value := 4 * m * scale
    high := (4 * m + 2) * scale
    unit := if e ≥ 0 then 1 else Nat.pow 2 (-e).toNat
    closed := m % 2 == 0 }

/-- Whether `d * 10 ^ k` lies in the interval. -/
def Interval.holds (i : Interval) (d : Nat) (k : Int) : Bool :=
  let (point, factor) :=
    if k ≥ 0 then (d * Nat.pow 10 k.toNat * i.unit, 1) else (d * i.unit, Nat.pow 10 (-k).toNat)
  let low := i.low * factor
  let high := i.high * factor
  if i.closed then low ≤ point && point ≤ high else low < point && point < high

/-- The exponent `k` with `10 ^ k ≤ num / den < 10 ^ (k + 1)`, looked for near
what the binary exponent suggests. -/
def floorLog10 (num den : Nat) : Int :=
  let guess := Binary64.floorLog2 num den * 30103 / 100000 - 1
  let reaches (k : Int) : Bool :=
    if k ≥ 0 then den * Nat.pow 10 k.toNat ≤ num else den ≤ num * Nat.pow 10 (-k).toNat
  if reaches (guess + 2) then guess + 2
  else if reaches (guess + 1) then guess + 1
  else guess

/-- The best candidate on the grid of multiples of `10 ^ k`, if one rounds to
the double. -/
def onGrid? (i : Interval) (k : Int) : Option Decimal :=
  let (num, den) :=
    if k ≥ 0 then (i.value, i.unit * Nat.pow 10 k.toNat)
    else (i.value * Nat.pow 10 (-k).toNat, i.unit)
  let below := num / den
  let twice := 2 * (num % den)
  let nearest := if twice > den || (twice == den && below % 2 == 1) then below + 1 else below
  let other := if nearest == below then below + 1 else below
  if i.holds nearest k && nearest > 0 then some ⟨nearest, k⟩
  else if i.holds other k && other > 0 then some ⟨other, k⟩
  else none

/-- The first grid, from coarse to fine, with a candidate. -/
def firstGrid (i : Interval) (leading : Int) : (digitsLeft : Nat) → (k : Int) → Decimal
  | 0, k => ⟨i.value * (if k ≥ 0 then 1 else Nat.pow 10 (-k).toNat) / i.unit, k⟩
  | n + 1, k =>
    match onGrid? i k with
    | some d => d
    | none => firstGrid i leading n (k - 1)

/-- Moves trailing zeros of the digits into the exponent. The first argument
bounds how many there can be. -/
def dropZeros : Nat → Decimal → Decimal
  | 0, d => d
  | n + 1, d =>
    if d.digits > 0 && d.digits % 10 == 0 then dropZeros n ⟨d.digits / 10, d.exponent + 1⟩ else d

/-- The shortest decimal that rounds to the absolute value of `x`. -/
def ofBinary64 (x : Binary64) : Decimal :=
  if x.isZero then ⟨0, 0⟩
  else
    let i := interval x
    let leading := floorLog10 i.value i.unit
    dropZeros 18 (firstGrid i leading 18 (leading + 1))

end Shortest

end HttpSuite
