/-!
# Shortest decimals

A binary floating-point number of 64 bits is shown by the fewest decimal digits that read back as
the same number, and of those by the nearest.

Shape of the search: a number stands for the interval of reals that round to it, whose ends belong
to it exactly when its significand is even. `Binary64.shortest?` goes through the decimal grids from
the coarsest to the finest; on each it tests the two grid points next to the number, and the first
hit wins. A coarser grid means fewer digits, and if any point of a grid lies in the interval, then
one of these two does.

All arithmetic is exact: magnitudes are natural numbers of units of size `2 ^ (-1076)`, fine enough
for the ends of every interval.
-/

namespace FabEdit

/-- A binary floating-point number, by its 64 bits. -/
structure Binary64 where
  bits : UInt64
  deriving DecidableEq, Repr

/-- The positive decimal `digits * 10 ^ exponent`. -/
structure Decimal where
  digits : Nat
  exponent : Int
  deriving DecidableEq, Repr

namespace Binary64

/-- The value of the lowest bit above the fraction. -/
def hiddenBit : Nat := 0x10000000000000

/-- The number of units in one. -/
def unitsInOne : Nat := Nat.pow 2 1076

/-- The sign bit. -/
def isNegative (x : Binary64) : Bool := x.bits.toNat.testBit 63

/-- The eleven bits of the exponent. -/
def exponentField (x : Binary64) : Nat := x.bits.toNat / hiddenBit % 2048

/-- The 52 bits of the fraction. -/
def fraction (x : Binary64) : Nat := x.bits.toNat % hiddenBit

/-- The significand: a hidden bit, except in subnormal numbers, and the fraction. -/
def significand (x : Binary64) : Nat :=
  if x.exponentField = 0 then x.fraction else hiddenBit + x.fraction

/-- A quarter of the distance to the next number, in units. -/
def quarterGap (x : Binary64) : Nat := Nat.pow 2 (x.exponentField - 1)

/-- The magnitude in units. -/
def magnitude (x : Binary64) : Nat := 4 * x.significand * x.quarterGap

/-- The least magnitude that may still round to the number. Just above a power of two the numbers
below lie twice as dense. -/
def lowest (x : Binary64) : Nat :=
  x.magnitude - (if x.fraction = 0 ∧ 1 < x.exponentField then x.quarterGap else 2 * x.quarterGap)

/-- The greatest magnitude that may still round to the number. -/
def highest (x : Binary64) : Nat := x.magnitude + 2 * x.quarterGap

/-- Neither infinite nor undefined. -/
def isFinite (x : Binary64) : Bool := decide (x.exponentField < 2047)

/-- Positive or negative zero. -/
def isZero (x : Binary64) : Bool := decide (x.significand = 0)

/-- A decimal and a magnitude brought to a common denominator. -/
def align (d : Decimal) (magnitude : Nat) : Nat × Nat :=
  if 0 ≤ d.exponent then (d.digits * Nat.pow 10 d.exponent.toNat * unitsInOne, magnitude)
  else (d.digits * unitsInOne, magnitude * Nat.pow 10 (-d.exponent).toNat)

/-- Whether a decimal rounds to the number. -/
def readsAs (x : Binary64) (d : Decimal) : Bool :=
  let (low, lowest) := align d x.lowest
  let (high, highest) := align d x.highest
  if x.significand % 2 = 0 then decide (lowest ≤ low) && decide (high ≤ highest)
  else decide (lowest < low) && decide (high < highest)

/-- The distance of a decimal from the number, comparable among decimals of one exponent. -/
def distance (x : Binary64) (d : Decimal) : Nat :=
  let (a, b) := align d x.magnitude
  (a - b) + (b - a)

/-- The point at or below the number on the grid of multiples of `10 ^ exponent`. -/
def below (x : Binary64) (exponent : Int) : Decimal :=
  if 0 ≤ exponent then ⟨x.magnitude / (Nat.pow 10 exponent.toNat * unitsInOne), exponent⟩
  else ⟨x.magnitude * Nat.pow 10 (-exponent).toNat / unitsInOne, exponent⟩

/-- The best decimal on a grid: of two that read back the nearer one, and on a tie the even one. -/
def onGrid? (x : Binary64) (exponent : Int) : Option Decimal :=
  let lower := x.below exponent
  let upper : Decimal := ⟨lower.digits + 1, exponent⟩
  match x.readsAs lower, x.readsAs upper with
  | false, false => none
  | true, false => some lower
  | false, true => some upper
  | true, true =>
    if x.distance lower < x.distance upper then some lower
    else if x.distance upper < x.distance lower then some upper
    else if lower.digits % 2 = 0 then some lower
    else some upper

/-- The shortest decimal of a finite number other than zero. The grids reach from the greatest
numbers, below `10 ^ 309`, to beyond the least, above `10 ^ (-324)`. -/
def shortest? (x : Binary64) : Option Decimal :=
  (List.range 660).findSome? fun (k : Nat) => x.onGrid? (309 - k)

end Binary64

end FabEdit
