import BoundSql.Text.Numeral

/-!
Internet addresses in numbers.  Version 4 has four decimal bytes without leading zeros; version 6
has eight groups of up to four hexadecimal digits, of which a run may be left out at one place and
the last two may be written as an address of version 4.
-/

namespace BoundSql.Address

/-- The parts of a text between the occurrences of a separator. -/
def splitAt (separator : Char) : List Char → List (List Char)
  | [] => [[]]
  | c :: cs =>
    if c = separator then [] :: splitAt separator cs
    else
      match splitAt separator cs with
      | [] => [[c]]
      | part :: rest => (c :: part) :: rest

/-- Whether a text is a decimal byte of an address. -/
def isByte (cs : List Char) : Bool :=
  cs.length ≤ 3 && !(cs.length > 1 && cs.head? == some '0')
    && ((Text.digitsOnly? cs).bind (Text.upTo 255)).isSome

def isVersion4 (cs : List Char) : Bool :=
  let parts := splitAt '.' cs
  parts.length = 4 && parts.all isByte

/-- Whether a text is a group of an address of version 6. -/
def isGroup (cs : List Char) : Bool :=
  !cs.isEmpty && cs.length ≤ 4
    && cs.all fun c => c.isDigit || ('a' ≤ c && c ≤ 'f') || ('A' ≤ c && c ≤ 'F')

/-- How many groups a sequence of parts stands for; the last part may be an address of version 4
and then stands for two. -/
def groups? : List (List Char) → Option Nat
  | [] => some 0
  | [last] => if isGroup last then some 1 else if isVersion4 last then some 2 else none
  | part :: rest => if isGroup part then (groups? rest).map (· + 1) else none

/-- How many groups stand before `::`, given the parts before it; a single empty part stands for
none. -/
def groupsBefore? (parts : List (List Char)) : Option Nat :=
  if parts = [[]] then some 0 else if parts.all isGroup then some parts.length else none

/-- How many groups stand after `::`, given the parts after it; a single empty part stands for
none. -/
def groupsAfter? (parts : List (List Char)) : Option Nat :=
  if parts = [] then none else if parts = [[]] then some 0 else groups? parts

/-- Whether parts make an address of version 6 with `::` at the empty part `i`. -/
def isCutAt (parts : List (List Char)) (i : Nat) : Bool :=
  i ≠ 0 && parts[i]? == some [] &&
    match groupsBefore? (parts.take i), groupsAfter? (parts.drop (i + 1)) with
    | some before, some after => before + after < 8
    | _, _ => false

/-- Whether a text is an address of version 6. -/
def isVersion6 (cs : List Char) : Bool :=
  let parts := splitAt ':' cs
  groups? parts = some 8 || (List.range parts.length).any (isCutAt parts)

def isAddress (cs : List Char) : Bool := isVersion4 cs || isVersion6 cs

end BoundSql.Address
