import Reckon.Decimal.Shortest
import Reckon.Text.Basic
/-!
# Layouts of decimals

How the shortest decimal of a binary64 number is written: in positional form,
with a fraction always, or in scientific form, with neither a plus sign nor an
empty fraction.
-/

namespace Reckon.Decimal

/-- The choices of a layout. -/
structure Layout where
  /-- Numbers from `10 ^ least` on are written in positional form. -/
  least : Int
  /-- Numbers from `10 ^ limit` on are written in scientific form. -/
  limit : Int
  infinity : Text
  nan : Text

namespace Layout

/-- Digits with the point after the first `point` of them. -/
def positional (digits : Text) (point : Int) : Text :=
  if point ≤ 0 then '0' :: '.' :: (List.replicate (-point).toNat '0' ++ digits)
  else
    let whole := digits.take point.toNat ++ List.replicate (point.toNat - digits.length) '0'
    let fraction := digits.drop point.toNat
    whole ++ '.' :: (if fraction.isEmpty then ['0'] else fraction)

/-- A whole number with its sign where it is negative. -/
def signed (n : Int) : Text := if n < 0 then '-' :: Nat.toDigits 10 n.natAbs else Nat.toDigits 10 n.natAbs

/-- Digits with the point after the first of them, and a power of ten. -/
def scientific (digits : Text) (point : Int) : Text :=
  let fraction := digits.drop 1
  digits.take 1 ++ (if fraction.isEmpty then [] else '.' :: fraction) ++ 'e' :: signed (point - 1)

/-- The text of a positive decimal. -/
def decimal (layout : Layout) (d : Decimal) : Text :=
  let digits := Nat.toDigits 10 d.digits
  let point := digits.length + d.exponent
  let digits := (digits.reverse.dropWhile (· == '0')).reverse
  if layout.least < point ∧ point ≤ layout.limit then positional digits point else scientific digits point

/-- The text of a number. -/
def number (layout : Layout) (x : Float) : Text :=
  let sign (negative : Bool) (t : Text) : Text := if negative then '-' :: t else t
  match Binary64.ofFloat x with
  | .nan => layout.nan
  | .infinite negative => sign negative layout.infinity
  | .finite negative 0 _ => sign negative (positional ['0'] 1)
  | .finite negative m q => sign negative (layout.decimal (Interval.around m q).shortest)

end Layout

end Reckon.Decimal
