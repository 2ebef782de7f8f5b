import BoundSql.Toml.Value

/-!
Tables under construction.  A table remembers how it came into being, because that decides what
may still be added to it: a header defines a table once, dotted keys extend only what dotted keys
made, and a value, inline tables and arrays included, is closed.
-/

namespace BoundSql.Toml

/-- How a table came into being. -/
inductive Origin where
  /-- By a header of its own, or as an inline table or the document. -/
  | header
  /-- As a part of a longer header. -/
  | implied
  /-- As a part of a dotted key. -/
  | dotted
  deriving DecidableEq

/-- What a key stands for. -/
inductive Node where
  | value (v : Value)
  | table (origin : Origin) (entries : List (String × Node))
  /-- An array of tables made by headers; the last one can be extended. -/
  | tables (earlier : List (List (String × Node))) (current : List (String × Node))

/-- Keys with what they stand for, in the order in which they came. -/
abbrev Entries := List (String × Node)

/-- The keys that lead to a place, the last one apart. -/
structure KeyPath where
  parents : List String
  last : String
  deriving DecidableEq

/-- The path of a sequence of keys. -/
def KeyPath.ofKeys (first : String) : List String → KeyPath
  | [] => ⟨[], first⟩
  | second :: rest =>
    let path := KeyPath.ofKeys second rest
    ⟨first :: path.parents, path.last⟩

def KeyPath.toList (path : KeyPath) : List String := path.parents ++ [path.last]

namespace Entries

def put (key : String) (node : Node) : Entries → Entries
  | [] => []
  | (k, n) :: rest => if k = key then (k, node) :: rest else (k, n) :: put key node rest

/-- Changes the table at the end of a sequence of keys, which starts at a table with the given
origin and entries.  Missing tables are made on the way; `dotted` says whether the keys are those
of a dotted key or of a header. -/
def changeAt (dotted : Bool) (change : Origin → Entries → Option Entries) :
    List String → Origin → Entries → Option Entries
  | [], origin, entries => change origin entries
  | key :: keys, _, entries =>
    match entries.lookup key with
    | none =>
      let origin := if dotted then Origin.dotted else Origin.implied
      (changeAt dotted change keys origin []).map fun inner =>
        entries ++ [(key, .table origin inner)]
    | some (.table origin inner) =>
      if dotted && origin == .header then none
      else (changeAt dotted change keys origin inner).map fun inner =>
        put key (.table origin inner) entries
    | some (.tables earlier current) =>
      (changeAt dotted change keys .header current).map fun current =>
        put key (.tables earlier current) entries
    | some (.value _) => none

/-- Gives a key of a table its value.  Dotted keys end in a table that dotted keys made, and a
plain key does not. -/
def assign (key : String) (isDotted : Bool) (v : Value) (origin : Origin) (entries : Entries) :
    Option Entries :=
  if isDotted == (origin == .dotted) && (entries.lookup key).isNone then
    some (entries ++ [(key, .value v)])
  else none

/-- Gives the end of a path, from a table with the given origin, its value. -/
def assignAt (path : KeyPath) (v : Value) (origin : Origin) (entries : Entries) :
    Option Entries :=
  changeAt true (assign path.last (!path.parents.isEmpty) v) path.parents origin entries

/-- Defines the table of a header. -/
def define (key : String) (_ : Origin) (entries : Entries) : Option Entries :=
  match entries.lookup key with
  | none => some (entries ++ [(key, .table .header [])])
  | some (.table .implied inner) => some (put key (.table .header inner) entries)
  | some _ => none

/-- Adds a table to the array of a header. -/
def defineNext (key : String) (_ : Origin) (entries : Entries) : Option Entries :=
  match entries.lookup key with
  | none => some (entries ++ [(key, .tables [] [])])
  | some (.tables earlier current) => some (put key (.tables (earlier ++ [current]) []) entries)
  | some _ => none

mutual

def nodeValue : Node → Value
  | .value v => v
  | .table _ entries => .table (values entries)
  | .tables earlier current => .array (tableValues earlier ++ [.table (values current)])

def values : List (String × Node) → List (String × Value)
  | [] => []
  | (key, node) :: rest => (key, nodeValue node) :: values rest

def tableValues : List (List (String × Node)) → List Value
  | [] => []
  | entries :: rest => .table (values entries) :: tableValues rest

end

def ofPairs (pairs : List (KeyPath × Value)) : Option (List (String × Value)) :=
  (pairs.foldlM (fun entries (path, v) => assignAt path v .header entries) []).map values

end Entries

end BoundSql.Toml
