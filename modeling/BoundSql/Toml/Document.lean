import BoundSql.Toml.Scalar
import BoundSql.Toml.Table

/-!
TOML documents.  A document is read as a sequence of lines, and the lines are put together as one
table.  A value may be nested `maxDepth` deep, and a dotted key may have `maxDepth` parts.
-/

namespace BoundSql.Toml

/-- A line of a document that is not blank. -/
inductive Line where
  | pair (path : KeyPath) (v : Value)
  | header (path : KeyPath)
  | arrayHeader (path : KeyPath)

/-- How deep arrays and inline tables may be nested, and how many parts a dotted key may have. -/
def maxDepth : Nat := 80

/-- Whether a character can stand in a key without quotes. -/
def isKeyChar (c : Char) : Bool := c.isAlphanum || c = '_' || c = '-'

def key (cs : List Char) : Option (String × List Char) :=
  match lineString cs with
  | some read => some read
  | none =>
    let (name, rest) := cs.span isKeyChar
    if name.isEmpty then none else some (String.ofList name, rest)

/-- Reads the keys after a first one, each after a point. -/
def moreKeys (cs : List Char) : Option (List String × List Char) :=
  match skipBlanks cs with
  | '.' :: rest =>
    match key (skipBlanks rest) with
    | none => none
    | some (name, after) =>
      if after.length < cs.length then
        (moreKeys after).map fun (names, rest) => (name :: names, rest)
      else none
  | _ => some ([], cs)
termination_by cs.length

/-- Reads a dotted key. -/
def keyPath (cs : List Char) : Option (KeyPath × List Char) := do
  let (first, rest) ← key cs
  let (more, rest) ← moreKeys rest
  guard (more.length < maxDepth)
  return (KeyPath.ofKeys first more, rest)

/-- Reads a key and its value, with what `skip` passes over on both sides of the `=`. -/
def pair (skip : List Char → List Char) (value : Reader Value) (cs : List Char) :
    Option ((KeyPath × Value) × List Char) := do
  let (path, rest) ← keyPath cs
  match skip rest with
  | '=' :: rest =>
    let (v, rest) ← value (skip rest)
    return ((path, v), rest)
  | _ => none

/-- Reads a value that is nested at most `depth` deep.  An inline table may have comments and line
breaks anywhere between its keys, values and signs. -/
def value (depth : Nat) (cs : List Char) : Option (Value × List Char) :=
  match cs, depth with
  | '[' :: rest, depth + 1 =>
    (commaItems ']' (value depth) rest).map fun (items, rest) => (.array items, rest)
  | '\x7b' :: rest, depth + 1 => do
    let (pairs, rest) ← commaItems '\x7d' (pair (skipGap false) (value depth)) rest
    let entries ← Entries.ofPairs pairs
    return (.table entries, rest)
  | '"' :: _, _ => (anyString cs).map fun (s, rest) => (.string s, rest)
  | '\'' :: _, _ => (anyString cs).map fun (s, rest) => (.string s, rest)
  | _, _ => scalar cs

def line (cs : List Char) : Option (Line × List Char) :=
  match cs with
  | '[' :: '[' :: rest => do
    let (path, rest) ← keyPath (skipBlanks rest)
    match skipBlanks rest with
    | ']' :: ']' :: rest => return (.arrayHeader path, rest)
    | _ => none
  | '[' :: rest => do
    let (path, rest) ← keyPath (skipBlanks rest)
    match skipBlanks rest with
    | ']' :: rest => return (.header path, rest)
    | _ => none
  | cs => do
    let ((path, v), rest) ← pair skipBlanks (value maxDepth) cs
    return (.pair path v, rest)

def lines? (cs : List Char) : Option (List Line) :=
  match skipGap false cs with
  | [] => some []
  | c :: rest => do
    let (first, rest) ← line (c :: rest)
    let rest ← endOfLine? rest
    if rest.length < cs.length then
      return first :: (← lines? rest)
    else none
termination_by cs.length

/-- A document under construction: its entries, and the keys of the table that pairs go to. -/
structure Draft where
  entries : Entries := []
  current : List String := []

/-- Adds a line to a document. -/
def Draft.add (draft : Draft) : Line → Option Draft
  | .pair path v =>
    (Entries.changeAt false (Entries.assignAt path v) draft.current .header draft.entries).map
      fun entries => { draft with entries }
  | .header path =>
    (Entries.changeAt false (Entries.define path.last) path.parents .header draft.entries).map
      fun entries => ⟨entries, path.toList⟩
  | .arrayHeader path =>
    (Entries.changeAt false (Entries.defineNext path.last) path.parents .header
      draft.entries).map fun entries => ⟨entries, path.toList⟩

/-- A text without the byte order mark that may stand at its start. -/
def dropMark : List Char → List Char
  | '\ufeff' :: cs => cs
  | cs => cs

/-- The table that a text writes, if it is a TOML document. -/
def parse? (text : String) : Option (List (String × Value)) := do
  let lines ← lines? (dropMark text.toList)
  let draft ← lines.foldlM Draft.add {}
  return Entries.values draft.entries

end BoundSql.Toml
