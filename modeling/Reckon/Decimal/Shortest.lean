import Reckon.Decimal.Binary64
/-!
# The shortest decimal that reads back

A decimal reads back as a binary number when that number is the nearest one to
it. The decimals that do lie in an interval around the number, whose ends belong
to it when the significand is even. `shortest` looks for one on finer and finer
decimal grids: the first grid with a point in the interval gives the fewest
digits, and of two points the one nearer to the number is taken, the larger one
when both are as near. All arithmetic is on natural numbers.
-/

namespace Reckon

/-- The number `digits * 10 ^ exponent`. -/
structure Decimal where
  digits : Nat
  exponent : Int
deriving DecidableEq

namespace Decimal

/-- A positive number and the bounds around it, as fractions over one denominator. -/
structure Interval where
  low : Nat
  value : Nat
  high : Nat
  denominator : Nat
  closed : Bool
deriving DecidableEq

namespace Interval

/-- The interval that reads back as `significand * 2 ^ exponent`, counted in
quarters of `2 ^ exponent`. Below a power of two the next number is only half as
far away as above it. -/
def around (significand : Nat) (exponent : Int) : Interval :=
  let quarter := 1 <<< (exponent - 2).toNat
  let below := if significand = Binary64.hidden ∧ -1074 < exponent then 1 else 2
  { low := (4 * significand - below) * quarter
    value := 4 * significand * quarter
    high := (4 * significand + 2) * quarter
    denominator := 1 <<< (2 - exponent).toNat
    closed := significand % 2 == 0 }

/-- The interval times `10 ^ k`. -/
def scale (i : Interval) (k : Int) : Interval :=
  let up := Nat.pow 10 k.toNat
  { i with
    low := i.low * up
    value := i.value * up
    high := i.high * up
    denominator := i.denominator * Nat.pow 10 (-k).toNat }

/-- Does the natural number `n` lie in the interval? -/
def holds (i : Interval) (n : Nat) : Bool :=
  let x := n * i.denominator
  if i.closed then i.low ≤ x && x ≤ i.high else i.low < x && x < i.high

/-- The natural number nearest to the value, the larger one of two. -/
def nearest (i : Interval) : Nat := (2 * i.value + i.denominator) / (2 * i.denominator)

/-- A neighbour of the value among the natural numbers that lies in the interval, the nearer one of two. -/
def whole? (i : Interval) : Option Nat :=
  let n := i.value / i.denominator
  match i.holds n, i.holds (n + 1) with
  | true, true => some i.nearest
  | true, false => some n
  | false, true => some (n + 1)
  | false, false => none

/-- How many decimal digits a natural number has. -/
def digitCount (n : Nat) : Nat := (Nat.toDigits 10 n).length

/-- The place of the first digit: the value lies in `10 ^ (k - 1)` to `10 ^ k`, the latter excluded. -/
def magnitude (i : Interval) : Int :=
  if i.denominator ≤ i.value then digitCount (i.value / i.denominator)
  else 1 - digitCount ((i.denominator - 1) / i.value)

/-- The shortest decimal in the interval. A grid of 17 digits is always fine enough. -/
def shortest (i : Interval) : Decimal :=
  let k := i.magnitude
  let ofGrid (n : Nat) : Option Decimal := (i.scale (n - k)).whole?.map (⟨·, k - n⟩)
  ((List.range 16).findSome? fun n => ofGrid (n + 1)).getD ⟨(i.scale (17 - k)).nearest, k - 17⟩

end Interval

end Decimal

end Reckon
