import BoundSql.Text.Numeral
import BoundSql.Text.Utf8
import BoundSql.Toml.Scan

/-!
Strings of a TOML document.  Basic strings, in double quotes, know escapes; literal strings, in
single quotes, stand as they are; each has a form in three quotes that may span lines.
-/

namespace BoundSql.Toml

def isHexDigit (c : Char) : Bool :=
  c.isDigit || ('a' ≤ c && c ≤ 'f') || ('A' ≤ c && c ≤ 'F')

/-- The character whose code point stands in the first `count` characters of a text. -/
def codePoint? (count : Nat) (cs : List Char) : Option (Char × Nat) :=
  let digits := cs.take count
  if digits.length = count ∧ digits.all isHexDigit then
    (Text.scalar? 0 0x10FFFF (Text.ofDigits 16 digits)).map fun c => (c, count)
  else none

/-- The character of an escape, given the letter after the backslash and the text after it, and
how many characters of that text belong to the escape. -/
def escape? (letter : Char) (cs : List Char) : Option (Char × Nat) :=
  match letter with
  | 'b' => some ('\x08', 0)
  | 't' => some ('\t', 0)
  | 'n' => some ('\n', 0)
  | 'f' => some ('\x0c', 0)
  | 'r' => some ('\r', 0)
  | 'e' => some ('\x1b', 0)
  | '"' => some ('"', 0)
  | '\\' => some ('\\', 0)
  | 'x' => codePoint? 2 cs
  | 'u' => codePoint? 4 cs
  | 'U' => codePoint? 8 cs
  | _ => none

def before (c : Char) (read : Option (List Char × List Char)) : Option (List Char × List Char) :=
  read.map fun (cs, rest) => (c :: cs, rest)

/-- Reads a basic string after its opening quote. -/
def basicBody (cs : List Char) : Option (List Char × List Char) :=
  match cs with
  | [] => none
  | '"' :: rest => some ([], rest)
  | '\\' :: letter :: rest =>
    match escape? letter rest with
    | none => none
    | some (c, count) => before c (basicBody (rest.drop count))
  | c :: rest => if isControl c || c = '\\' then none else before c (basicBody rest)
termination_by cs.length
decreasing_by
  · simp only [List.length_cons, List.length_drop]
    omega
  · simp

/-- Reads a literal string after its opening quote. -/
def literalBody : List Char → Option (List Char × List Char)
  | [] => none
  | '\'' :: rest => some ([], rest)
  | c :: rest => if isControl c then none else before c (literalBody rest)

/-- The end of a string in three quotes, after these: up to two more quotes belong to it. -/
def closing (quote : Char) (cs : List Char) : List Char × List Char :=
  let extra := (cs.take 2).takeWhile (· = quote)
  (extra, cs.drop extra.length)

/-- Reads a basic string in three quotes after these.  A backslash at the end of a line takes
the blanks and line breaks after it away. -/
def longBasicBody (cs : List Char) : Option (List Char × List Char) :=
  match cs with
  | [] => none
  | '"' :: '"' :: '"' :: rest => some (closing '"' rest)
  | '\\' :: rest =>
    if (lineBreak? (skipBlanks rest)).isSome then
      longBasicBody (skipFold rest)
    else
      match rest with
      | [] => none
      | letter :: rest =>
        match escape? letter rest with
        | none => none
        | some (c, count) => before c (longBasicBody (rest.drop count))
  | '\r' :: '\n' :: rest => before '\r' (before '\n' (longBasicBody rest))
  | c :: rest => if isControl c && c ≠ '\n' then none else before c (longBasicBody rest)
termination_by cs.length
decreasing_by
  · exact Nat.lt_succ_of_le (length_skipFold_le rest)
  · simp only [List.length_cons, List.length_drop]
    omega
  · simp only [List.length_cons]
    omega
  · simp

/-- Reads a literal string in three quotes after these. -/
def longLiteralBody : List Char → Option (List Char × List Char)
  | [] => none
  | '\'' :: '\'' :: '\'' :: rest => some (closing '\'' rest)
  | '\r' :: '\n' :: rest => before '\r' (before '\n' (longLiteralBody rest))
  | c :: rest => if isControl c && c ≠ '\n' then none else before c (longLiteralBody rest)

/-- The text after a line break that directly follows three opening quotes. -/
def afterOpening (cs : List Char) : List Char := (lineBreak? cs).getD cs

def lineString : Reader String
  | '"' :: rest => (basicBody rest).map fun (cs, rest) => (String.ofList cs, rest)
  | '\'' :: rest => (literalBody rest).map fun (cs, rest) => (String.ofList cs, rest)
  | _ => none

def anyString : Reader String
  | '"' :: '"' :: '"' :: rest =>
    (longBasicBody (afterOpening rest)).map fun (cs, rest) => (String.ofList cs, rest)
  | '\'' :: '\'' :: '\'' :: rest =>
    (longLiteralBody (afterOpening rest)).map fun (cs, rest) => (String.ofList cs, rest)
  | cs => lineString cs

end BoundSql.Toml
