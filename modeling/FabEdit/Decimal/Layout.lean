import FabEdit.Decimal.Shortest

/-!
# Writing decimals

The text of a floating-point number in a message. Numbers from `0.0001` to below `10 ^ 16` are
written with a decimal point in its place and at least one digit on either side of it; all others in
scientific form, with a sign and at least two digits in the exponent.
-/

namespace FabEdit

namespace Decimal

/-- The position of the decimal point, counted from the first digit. -/
def point (d : Decimal) : Int := (Nat.toDigits 10 d.digits).length + d.exponent

/-- Whether a number with the point at this position is written without an exponent. -/
def isPositional (point : Int) : Bool := decide (-4 < point) && decide (point ≤ 16)

/-- Digits with the decimal point at a position, padded with zeros. -/
def positional (digits : List Char) (point : Int) : List Char :=
  if point ≤ 0 then
    ['0', '.'] ++ List.replicate (-point).toNat '0' ++ digits
  else if digits.length ≤ point.toNat then
    digits ++ List.replicate (point.toNat - digits.length) '0' ++ ['.', '0']
  else
    digits.take point.toNat ++ '.' :: digits.drop point.toNat

/-- Digits in scientific form, the point after the first digit. -/
def scientific (digits : List Char) (point : Int) : List Char :=
  let power := point - 1
  let written := Nat.toDigits 10 power.natAbs
  digits.take 1
    ++ (if digits.length = 1 then [] else '.' :: digits.drop 1)
    ++ ['e', if power < 0 then '-' else '+']
    ++ List.replicate (2 - written.length) '0' ++ written

/-- The text of a positive decimal. -/
def render (d : Decimal) : List Char :=
  let digits := Nat.toDigits 10 d.digits
  if isPositional d.point then positional digits d.point else scientific digits d.point

end Decimal

/-- The text of a floating-point number. -/
def Binary64.render (x : Binary64) : List Char :=
  if x.isFinite then
    let magnitude := if x.isZero then "0.0".toList else (x.shortest?.map Decimal.render).getD []
    if x.isNegative then '-' :: magnitude else magnitude
  else if x.fraction = 0 then
    if x.isNegative then "-inf".toList else "inf".toList
  else "nan".toList

end FabEdit
