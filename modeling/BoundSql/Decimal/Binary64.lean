/-!
Decimal numbers and the binary numbers of 64 bits nearest to them.  All arithmetic is exact, on
natural numbers.
-/

namespace BoundSql

/-- The number `coefficient * 10 ^ exponent`, with a sign. -/
structure Decimal where
  negative : Bool
  coefficient : Nat
  exponent : Int
  deriving DecidableEq

/-- The magnitude `significand * 2 ^ exponent` of a binary number of 64 bits: the significand is
below `2 ^ 53`, and it is at least `2 ^ 52` unless the exponent is the least one, -1074. -/
structure Binary64 where
  significand : Nat
  exponent : Int
  deriving DecidableEq

/-- The ratio `base ^ exponent` as a numerator and a denominator. -/
def powerRatio (base : Nat) (exponent : Int) : Nat × Nat :=
  if exponent < 0 then (1, Nat.pow base (-exponent).toNat)
  else (Nat.pow base exponent.toNat, 1)

/-- The quotient rounded to the nearest integer, from the middle to the even one. -/
def roundDiv (numerator denominator : Nat) : Nat :=
  let quotient := numerator / denominator
  let twice := 2 * (numerator % denominator)
  if twice < denominator || (twice == denominator && quotient % 2 == 0) then quotient
  else quotient + 1

namespace Binary64

def minExponent : Int := -1074

def maxExponent : Int := 971

def zero : Binary64 := ⟨0, minExponent⟩

/-- The number nearest to a ratio, from the middle to the one with an even significand; there is
none for a ratio that rounds beyond the greatest number. -/
def nearest? (numerator denominator : Nat) : Option Binary64 :=
  if numerator = 0 then some zero
  else
    let guess := max minExponent ((numerator.log2 : Int) - (denominator.log2 : Int) - 53)
    let scaled (q : Int) : Nat × Nat :=
      let (up, down) := powerRatio 2 q
      (numerator * down, denominator * up)
    let exponent := if (scaled guess).1 / (scaled guess).2 < Nat.pow 2 53 then guess else guess + 1
    let significand := roundDiv (scaled exponent).1 (scaled exponent).2
    let rounded : Binary64 :=
      if significand = Nat.pow 2 53 then ⟨Nat.pow 2 52, exponent + 1⟩ else ⟨significand, exponent⟩
    if rounded.exponent ≤ maxExponent then some rounded else none

end Binary64

/-- The magnitude of the binary number nearest to a decimal number.  A decimal number whose first
digit stands far beyond both ends of the range is settled without computing its power of ten. -/
def Decimal.nearest? (d : Decimal) : Option Binary64 :=
  let order : Int := d.exponent + ((Nat.toDigits 10 d.coefficient).length : Int)
  if d.coefficient = 0 then some Binary64.zero
  else if 310 < order then none
  else if order < -330 then some Binary64.zero
  else
    let (up, down) := powerRatio 10 d.exponent
    Binary64.nearest? (d.coefficient * up) down

end BoundSql
