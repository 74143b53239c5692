/-!
# The parts of a binary64 number

A finite number is a sign, a whole significand and a power of two. The parts are
read off the 64 bits: one for the sign, eleven for the exponent, 52 for the
fraction.
-/

namespace Reckon.Decimal

/-- What the bits of a binary64 number stand for. -/
inductive Binary64 where
  | nan
  | infinite (negative : Bool)
  /-- The number `significand * 2 ^ exponent`, with its sign. -/
  | finite (negative : Bool) (significand : Nat) (exponent : Int)
deriving DecidableEq

namespace Binary64

/-- The leading bit of a significand, which is not stored: `2 ^ 52`. -/
def hidden : Nat := 1 <<< 52

/-- The parts that 64 bits stand for. -/
def ofBits (bits : Nat) : Binary64 :=
  let negative := (bits >>> 63) % 2 == 1
  let biased := (bits >>> 52) % 2048
  let fraction := bits % hidden
  if biased = 2047 then if fraction = 0 then infinite negative else nan
  else if biased = 0 then finite negative fraction (-1074)
  else finite negative (hidden + fraction) (Int.ofNat biased - 1075)

/-- The parts of a number. -/
def ofFloat (x : Float) : Binary64 := ofBits x.toBits.toNat

end Binary64

end Reckon.Decimal
