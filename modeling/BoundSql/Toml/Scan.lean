/-!
Reading a TOML text from the left.  A reader takes what it reads from the start of the text and
leaves the rest; there is no result where the text does not start with what it reads.
-/

namespace BoundSql.Toml

variable {β : Type}

/-- Reads something from the start of a text and leaves the rest. -/
abbrev Reader (β : Type) := List Char → Option (β × List Char)

def isGapBlank (c : Char) : Bool := c = ' ' || c = '\t'

/-- Whether a character is a control that may not stand in a text or comment; line breaks are
among them. -/
def isControl (c : Char) : Bool := (c.toNat < 0x20 && c ≠ '\t') || c = '\x7f'

def skipBlanks (cs : List Char) : List Char := cs.dropWhile isGapBlank

/-- The rest of a text after blanks, comments and line breaks; `inComment` says that it starts in
a comment.  It stops at a control that a comment may not hold. -/
def skipGap (inComment : Bool) : List Char → List Char
  | [] => []
  | '\n' :: cs => skipGap false cs
  | '\r' :: '\n' :: cs => skipGap false cs
  | c :: cs =>
    if inComment then if isControl c then c :: cs else skipGap true cs
    else if c = '#' then skipGap true cs
    else if isGapBlank c then skipGap false cs
    else c :: cs

/-- The rest of a text after blanks and line breaks. -/
def skipFold : List Char → List Char
  | [] => []
  | '\n' :: cs => skipFold cs
  | '\r' :: '\n' :: cs => skipFold cs
  | c :: cs => if isGapBlank c then skipFold cs else c :: cs

theorem length_skipFold_le (cs : List Char) : (skipFold cs).length ≤ cs.length := by
  fun_induction skipFold cs <;> simp_all <;> omega

def lineBreak? : List Char → Option (List Char)
  | '\n' :: cs => some cs
  | '\r' :: '\n' :: cs => some cs
  | _ => none

/-- The rest of a text after the end of a line: blanks and a comment, then a line break or the
end of the text. -/
def endOfLine? (cs : List Char) : Option (List Char) :=
  let rest := match skipBlanks cs with
    | '#' :: rest => rest.dropWhile fun c => !isControl c
    | rest => rest
  if rest.isEmpty then some [] else lineBreak? rest

/-- Reads items with commas between them up to a closing character.  Blanks, comments and line
breaks may stand around an item, and a comma may follow the last one. -/
def commaItems (close : Char) (item : Reader β) (cs : List Char) : Option (List β × List Char) :=
  match skipGap false cs with
  | [] => none
  | c :: rest =>
    if c = close then some ([], rest)
    else
      match item (c :: rest) with
      | none => none
      | some (x, after) =>
        match skipGap false after with
        | [] => none
        | d :: more =>
          if d = close then some ([x], more)
          else if _ : d = ',' ∧ more.length < cs.length then
            (commaItems close item more).map fun (xs, rest) => (x :: xs, rest)
          else none
termination_by cs.length
decreasing_by
  rename_i h
  exact h.2

end BoundSql.Toml
