import BoundSql.Decimal.Binary64

/-!
The shortest decimal text of a binary number: the fewest digits that read back as the number, and
among those the nearest to it, written without an exponent.
-/

namespace BoundSql

namespace Binary64

/-- The bounds of the numbers that round to `b`, and `b` itself between them, in quarters of the
unit of `b`.  The lower neighbour is nearer where the exponent changes. -/
def quarters (b : Binary64) : Nat × Nat × Nat :=
  let mid := 4 * b.significand
  let low := if b.significand = Nat.pow 2 52 && minExponent < b.exponent then mid - 1 else mid - 2
  (low, mid, mid + 2)

/-- Whether a number of quarters of the unit of `b`, given as a ratio, rounds to `b`.  The bounds
do so when the significand is even. -/
def contains (b : Binary64) (numerator denominator : Nat) : Bool :=
  let (low, _, high) := b.quarters
  if b.significand % 2 = 0 then
    low * denominator ≤ numerator && numerator ≤ high * denominator
  else
    low * denominator < numerator && numerator < high * denominator

/-- The multiple of `10 ^ p` that rounds to `b` and is nearest to it; from the middle of two the
greater one. -/
def onGrid? (b : Binary64) (p : Int) : Option Nat :=
  let (tenUp, tenDown) := powerRatio 10 p
  let (unitUp, unitDown) := powerRatio 2 (b.exponent - 2)
  let step := tenUp * unitDown
  let unit := unitUp * tenDown
  let (_, mid, _) := b.quarters
  let below := mid * unit / step
  let above := below + 1
  let fits (c : Nat) : Bool := c ≠ 0 && b.contains (c * step) unit
  if fits below && (!fits above || 2 * (mid * unit) < (below + above) * step) then some below
  else if fits above then some above
  else none

/-- Looks for a decimal number that rounds to `b` on ever finer grids. -/
def search (b : Binary64) : Nat → Int → Nat × Int
  | 0, p => (0, p)
  | fuel + 1, p =>
    match b.onGrid? p with
    | some c => (c, p)
    | none => search b fuel (p - 1)

/-- The digits `c` and the power `p` of the shortest decimal number `c * 10 ^ p` that rounds
to `b`.  The first grid is coarser than `b`, and the grid with 17 digits has a hit. -/
def shortest (b : Binary64) : Nat × Int :=
  if b.significand = 0 then (0, 0)
  else
    let order : Int := b.exponent + (b.significand.log2 : Int) + 1
    b.search 22 (order * 30103 / 100000 + 1)

end Binary64

/-- The text of `c * 10 ^ p` without an exponent and with at least one digit on both sides of the
point. -/
def positional (c : Nat) (p : Int) : String :=
  let digits := Nat.toDigits 10 c
  if 0 ≤ p then String.ofList (digits ++ List.replicate p.toNat '0' ++ ['.', '0'])
  else
    let places := (-p).toNat
    let padded := List.replicate (places + 1 - digits.length) '0' ++ digits
    let whole := padded.length - places
    String.ofList (padded.take whole ++ '.' :: padded.drop whole)

def Binary64.text (negative : Bool) (b : Binary64) : String :=
  let (c, p) := b.shortest
  (if negative then "-" else "") ++ positional c p

end BoundSql
