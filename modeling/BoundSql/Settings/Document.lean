import BoundSql.Settings.Basic
import BoundSql.Settings.Decode
import BoundSql.Text.Utf8
import BoundSql.Toml.Document

/-!
Settings written as a TOML document, in a text or in a file.
-/

namespace BoundSql

open Toml

namespace Settings

def recyclingOfName (name : String) : Except DocumentFault Recycling :=
  match name with
  | "fast" => .ok .fast
  | "verified" => .ok .verified
  | name => .error (.unknownVariant name)

/-- Whether a value holds nothing: an empty table or array. -/
def isVoid : Value → Bool
  | .table [] => true
  | .array [] => true
  | _ => false

/-- Decodes a way of recycling: its name, or a table with the name as its only key and nothing
under it. -/
def asRecycling : Value → Except DocumentFault Recycling
  | .string name => recyclingOfName name
  | .table [(name, v)] => do
    let recycling ← recyclingOfName name
    if isVoid v then return recycling else .error .other
  | _ => .error .other

/-- What the table `pool` holds. -/
structure PoolSection where
  maxSize : Option Nat := none
  recycling : Option Recycling := none

def urlOfEntries (found : Option String) : List (String × Value) → Except DocumentFault String
  | [] =>
    match found with
    | some url => .ok url
    | none => .error (.missingField "url")
  | (key, v) :: rest =>
    if key = "url" then do urlOfEntries (some (← asString v)) rest
    else do
      ignore v
      urlOfEntries found rest

/-- Decodes what stands under `database`. -/
def asDatabase : Value → Except DocumentFault String
  | .table entries => urlOfEntries none (byKey entries)
  | .moment => .error (.missingField "url")
  | .array [] => .error .other
  | .array (v :: _) => asString v
  | v => .error (.mismatch "struct DatabaseConfig" v)

def poolOfEntries (found : PoolSection) : List (String × Value) → Except DocumentFault PoolSection
  | [] => .ok found
  | (key, v) :: rest =>
    if key = "max_size" then do
      poolOfEntries { found with maxSize := some (← asSize v) } rest
    else if key = "recycling" then do
      poolOfEntries { found with recycling := some (← asRecycling v) } rest
    else do
      ignore v
      poolOfEntries found rest

def asPool : Value → Except DocumentFault PoolSection
  | .table entries => poolOfEntries {} (byKey entries)
  | .moment => .ok {}
  | .array [] => .ok {}
  | .array [size] => return { maxSize := some (← asSize size) }
  | .array (size :: recycling :: _) => do
    let maxSize ← asSize size
    return { maxSize := some maxSize, recycling := some (← asRecycling recycling) }
  | v => .error (.mismatch "struct PoolConfig" v)

/-- Decodes the entries of a document. -/
def ofEntries (url : Option String) (pool : PoolSection) :
    List (String × Value) → Except DocumentFault Settings
  | [] =>
    match url with
    | none => .error (.missingField "database")
    | some url =>
      let defaults : Settings := { url }
      .ok {
        url
        maxSize := pool.maxSize.getD defaults.maxSize
        recycling := pool.recycling.getD defaults.recycling }
  | (key, v) :: rest =>
    if key = "database" then do ofEntries (some (← asDatabase v)) pool rest
    else if key = "pool" then do ofEntries url (← asPool v) rest
    else do
      ignore v
      ofEntries url pool rest

/-- The settings that a text describes. -/
def ofToml (text : String) : Except SettingsFault Settings :=
  match Toml.parse? text with
  | none => .error (.document .other)
  | some entries =>
    match ofEntries none {} (byKey entries) with
    | .error fault => .error (.document fault)
    | .ok settings => settings.validate

/-- The settings that a file describes, given its bytes, or none when there is no such file. -/
def ofFile (name : String) (content : Option (List UInt8)) : Except SettingsFault Settings :=
  match content with
  | none => .error (.fileMissing name)
  | some bytes =>
    match Text.decode? bytes with
    | none => .error (.fileNotText name)
    | some text => (ofToml text).mapError (.inFile name)

end Settings

end BoundSql
