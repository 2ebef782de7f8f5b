/-!
Decimal numerals in ASCII digits, read whole and against a bound: a value beyond the bound is no
numeral of that size, never a smaller number.
-/

namespace BoundSql.Text

/-- The value of a digit, for the digits of any base up to 36; other characters count as 0. -/
def digitValue (c : Char) : Nat :=
  if c.isDigit then c.toNat - 48
  else if c.isLower then c.toNat - 87
  else if c.isUpper then c.toNat - 55
  else 0

/-- The value of a string of digits in a base, the first digit counting most. -/
def ofDigits (base : Nat) (cs : List Char) : Nat :=
  cs.foldl (fun n c => n * base + digitValue c) 0

/-- The value of a text that consists of one or more ASCII digits. -/
def digitsOnly? (cs : List Char) : Option Nat :=
  if cs.isEmpty || !cs.all Char.isDigit then none else some (ofDigits 10 cs)

/-- The value when it is at most `high`. -/
def upTo (high : Nat) (n : Nat) : Option Nat := if n ≤ high then some n else none

/-- The number up to `high` that a text writes: an optional `+`, then digits. -/
def unsigned? (high : Nat) (cs : List Char) : Option Nat :=
  match cs with
  | '+' :: digits => (digitsOnly? digits).bind (upTo high)
  | digits => (digitsOnly? digits).bind (upTo high)

/-- The integer from `-(high + 1)` to `high` that a text writes: an optional sign, then digits. -/
def signed? (high : Nat) (cs : List Char) : Option Int :=
  match cs with
  | '-' :: digits => ((digitsOnly? digits).bind (upTo (high + 1))).map fun n => -(n : Int)
  | digits => (unsigned? high digits).map fun n => (n : Int)

def maxWord64 : Nat := Nat.pow 2 64 - 1

end BoundSql.Text
