import BoundSql.Text.Numeral
import BoundSql.Toml.Quoted
import BoundSql.Toml.Value

/-!
Values of a TOML document that stand without quotes and brackets: numbers, truth values, dates
and times.  Such a value is cut out of the text first and then has to fit one of the forms as a
whole, or at least the outline of an integer.
-/

namespace BoundSql.Toml

/-- The digits of a numeral, in which single underscores may stand between two digits. -/
def digits? (isDigit : Char → Bool) : List Char → Option (List Char)
  | [] => none
  | [c] => if isDigit c then some [c] else none
  | c :: '_' :: cs => if isDigit c then (digits? isDigit cs).map (c :: ·) else none
  | c :: cs => if isDigit c then (digits? isDigit cs).map (c :: ·) else none

/-- The digits of a decimal numeral, which has no leading zero. -/
def decimalDigits? (cs : List Char) : Option (List Char) :=
  match digits? Char.isDigit cs with
  | some ('0' :: _ :: _) => none
  | digits => digits

/-- Whether a text starts with a minus, and the text after its sign, if it has one. -/
def cutSign : List Char → Bool × List Char
  | '-' :: cs => (true, cs)
  | '+' :: cs => (false, cs)
  | cs => (false, cs)

def signed (negative : Bool) (n : Nat) : Int := if negative then -(n : Int) else n

/-- The integer that a text writes: in decimal with an optional sign, or in base 16, 8 or 2 after
`0x`, `0o` or `0b`. -/
def integer? (cs : List Char) : Option Int :=
  match cs with
  | '0' :: 'x' :: cs => (digits? isHexDigit cs).map fun ds => (Text.ofDigits 16 ds : Int)
  | '0' :: 'o' :: cs =>
    (digits? (fun c => '0' ≤ c && c ≤ '7') cs).map fun ds => (Text.ofDigits 8 ds : Int)
  | '0' :: 'b' :: cs =>
    (digits? (fun c => c = '0' || c = '1') cs).map fun ds => (Text.ofDigits 2 ds : Int)
  | cs =>
    let (negative, cs) := cutSign cs
    (decimalDigits? cs).map fun ds => signed negative (Text.ofDigits 10 ds)

/-- Whether every underscore of a text stands between two hexadecimal digits; `afterDigit` says
that the text stands after one. -/
def areJoints (afterDigit : Bool) : List Char → Bool
  | [] => true
  | '_' :: c :: cs => afterDigit && isHexDigit c && areJoints true cs
  | ['_'] => false
  | c :: cs => areJoints (isHexDigit c) cs

/-- Whether a text has the outline of an integer, though it need not write one.  It is the prefix
of a base by itself; or a sign, if there is one, decimal digits without a leading zero, an
underscore and whatever comes after it, as long as every underscore stands between two hexadecimal
digits and there is no blank, point or `e`. -/
def isIntegerOutline (cs : List Char) : Bool :=
  match cs with
  | ['0', 'x'] | ['0', 'o'] | ['0', 'b'] => true
  | cs =>
    let (_, cs) := cutSign cs
    cs.head? ≠ some '0'
      && (cs.dropWhile Char.isDigit).head? = some '_'
      && areJoints false cs
      && cs.all fun c => !(c = ' ' || c = '.' || c = 'e' || c = 'E')

/-- The exponent that a text writes: nothing, or `e` in either case and an integer that may have
leading zeros. -/
def exponent? : List Char → Option Int
  | [] => some 0
  | c :: cs =>
    if c = 'e' || c = 'E' then
      let (negative, cs) := cutSign cs
      (digits? Char.isDigit cs).map fun ds => signed negative (Text.ofDigits 10 ds)
    else none

/-- The digits after a point, if there is one, and the text after them. -/
def fraction? : List Char → Option (List Char × List Char)
  | '.' :: cs =>
    let (digits, rest) := cs.span fun c => c.isDigit || c = '_'
    (digits? Char.isDigit digits).map fun ds => (ds, rest)
  | cs => some ([], cs)

/-- The number with a fraction or an exponent that a text writes. -/
def decimal? (negative : Bool) (cs : List Char) : Option Decimal := do
  let (whole, rest) := cs.span fun c => c.isDigit || c = '_'
  guard (!rest.isEmpty)
  let whole ← decimalDigits? whole
  let (fraction, rest) ← fraction? rest
  let exponent ← exponent? rest
  return ⟨negative, Text.ofDigits 10 (whole ++ fraction), exponent - (fraction.length : Int)⟩

/-- The floating-point value that a text writes. -/
def float? (cs : List Char) : Option FloatValue :=
  match cutSign cs with
  | (negative, ['i', 'n', 'f']) => some (.infinity negative)
  | (_, ['n', 'a', 'n']) => some .nan
  | (negative, cs) => (decimal? negative cs).map .finite

/-- The number of two digits that a text consists of, at most `high`. -/
def twoDigits? (high : Nat) (cs : List Char) : Option Nat :=
  if cs.length = 2 then (Text.digitsOnly? cs).bind (Text.upTo high) else none

def daysIn (year month : Nat) : Nat :=
  if month = 2 then
    if year % 4 = 0 && (year % 100 ≠ 0 || year % 400 = 0) then 29 else 28
  else if month = 4 || month = 6 || month = 9 || month = 11 then 30
  else 31

/-- Whether a text is a date, `YYYY-MM-DD`, of the calendar. -/
def isDate (cs : List Char) : Bool :=
  match cs with
  | [y1, y2, y3, y4, '-', m1, m2, '-', d1, d2] =>
    match Text.digitsOnly? [y1, y2, y3, y4], twoDigits? 12 [m1, m2], twoDigits? 31 [d1, d2] with
    | some year, some month, some day => 1 ≤ month && 1 ≤ day && day ≤ daysIn year month
    | _, _, _ => false
  | _ => false

/-- Whether a text is the end of a time after its minutes: seconds, which may be left out, and
their fraction. -/
def isSeconds : List Char → Bool
  | [] => true
  | [':', s1, s2] => (twoDigits? 60 [s1, s2]).isSome
  | ':' :: s1 :: s2 :: '.' :: cs =>
    (twoDigits? 60 [s1, s2]).isSome && (Text.digitsOnly? cs).isSome
  | _ => false

/-- Whether a text is a time of day, `hh:mm`, with or without seconds. -/
def isTime (cs : List Char) : Bool :=
  match cs with
  | h1 :: h2 :: ':' :: m1 :: m2 :: seconds =>
    (twoDigits? 23 [h1, h2]).isSome && (twoDigits? 59 [m1, m2]).isSome && isSeconds seconds
  | _ => false

/-- Whether a text is a time of day with or without an offset: `Z`, or `+hh:mm` or `-hh:mm`. -/
def isOffsetTime (cs : List Char) : Bool :=
  match cs.reverse with
  | c :: time =>
    if c = 'Z' || c = 'z' then isTime time.reverse
    else
      match cs.reverse with
      | m2 :: m1 :: ':' :: h2 :: h1 :: sign :: time =>
        if sign = '+' || sign = '-' then
          (twoDigits? 23 [h1, h2]).isSome && (twoDigits? 59 [m1, m2]).isSome
            && isTime time.reverse
        else isTime cs
      | _ => isTime cs
  | [] => false

/-- Whether a text is a date, a time of day, or both. -/
def isMoment (cs : List Char) : Bool :=
  isTime cs || (isDate (cs.take 10) &&
    match cs.drop 10 with
    | [] => true
    | c :: time => (c = 'T' || c = 't' || c = ' ') && isOffsetTime time)

def scalar? (cs : List Char) : Option Value :=
  if cs = ['t', 'r', 'u', 'e'] then some (.boolean true)
  else if cs = ['f', 'a', 'l', 's', 'e'] then some (.boolean false)
  else
    match integer? cs, float? cs with
    | some n, _ => some (.integer n)
    | none, some x => some (.float x)
    | none, none =>
      if isMoment cs then some .moment
      else if isIntegerOutline cs then some .malformed
      else none

def isDelimiter (c : Char) : Bool :=
  ['=', ',', '[', ']', '\x7b', '\x7d', '#', ' ', '\t', '\r', '\n'].contains c

/-- Cuts off a text without quotes and brackets.  Blanks belong to it where it goes on after
them. -/
def bareText (cs : List Char) : List Char × List Char :=
  match cs with
  | [] => ([], [])
  | c :: cs =>
    if isGapBlank c then
      match skipBlanks cs with
      | [] => ([], c :: cs)
      | d :: _ =>
        if isDelimiter d || d = '"' || d = '\'' then ([], c :: cs)
        else
          let (text, rest) := bareText cs
          (c :: text, rest)
    else if isDelimiter c then ([], c :: cs)
    else
      let (text, rest) := bareText cs
      (c :: text, rest)

/-- Reads a value without quotes and brackets. -/
def scalar (cs : List Char) : Option (Value × List Char) :=
  let (text, rest) := bareText cs
  (scalar? text).map fun v => (v, rest)

end BoundSql.Toml
