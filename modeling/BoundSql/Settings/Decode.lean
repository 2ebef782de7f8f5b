import BoundSql.Decimal.Shortest
import BoundSql.Settings.Fault
import BoundSql.Text.Quoted
import BoundSql.Toml.Value

/-!
Decoding the values of a document.  The entries of a table are looked at in the order of their
keys, the first fault is reported, and only then a field that is missing.  Fields also may stand
in an array, by position.  Entries that are not asked for are ignored, but their numbers have to
be representable.
-/

namespace BoundSql

open Toml

namespace DocumentFault

/-- The text of a floating-point value, if it is within the range of binary numbers. -/
def floatText? : FloatValue → Option String
  | .finite d => d.nearest?.map (Binary64.text d.negative)
  | .infinity negative => some (if negative then "-inf" else "inf")
  | .nan => some "NaN"

/-- The least integer of 64 bits. -/
def minSize : Int := -(Nat.pow 2 63)

/-- The fault of a value where another type was expected. -/
def mismatch (expected : String) : Value → DocumentFault
  | .string s => .wrongType ("string " ++ Text.quoted s) expected
  | .integer n =>
    let text := "integer `" ++ toString n ++ "`"
    if minSize ≤ n ∧ n < Nat.pow 2 64 then .wrongType text expected
    else if -(Nat.pow 2 127) ≤ n ∧ n < Nat.pow 2 127 then .wrongType (text ++ " as i128") expected
    else if 0 ≤ n ∧ n < Nat.pow 2 128 then .wrongType (text ++ " as u128") expected
    else .other
  | .malformed => .other
  | .float x =>
    match floatText? x with
    | some text => .wrongType ("floating point `" ++ text ++ "`") expected
    | none => .other
  | .boolean b => .wrongType ("boolean `" ++ (if b then "true" else "false") ++ "`") expected
  | .array _ => .wrongType "sequence" expected
  | .moment => .wrongType "map" expected
  | .table _ => .wrongType "map" expected

end DocumentFault

namespace Toml

mutual

/-- Whether every number in a value is representable: well-formed integers in 128 bits, and
floating-point values in the range of binary numbers. -/
def Value.isRepresentable : Value → Bool
  | .integer n => decide (-(Nat.pow 2 127) ≤ n) && decide (n < Nat.pow 2 128)
  | .malformed => false
  | .float x => (DocumentFault.floatText? x).isSome
  | .array items => allRepresentable items
  | .table entries => entriesRepresentable entries
  | .string _ => true
  | .boolean _ => true
  | .moment => true

def allRepresentable : List Value → Bool
  | [] => true
  | v :: rest => v.isRepresentable && allRepresentable rest

def entriesRepresentable : List (String × Value) → Bool
  | [] => true
  | (_, v) :: rest => v.isRepresentable && entriesRepresentable rest

end

/-- Entries in the order of their keys, by code points. -/
def byKey (entries : List (String × Value)) : List (String × Value) :=
  entries.mergeSort fun a b => decide (a.1 ≤ b.1)

/-- Passes over an entry that is not asked for. -/
def ignore (v : Value) : Except DocumentFault Unit :=
  if v.isRepresentable then .ok () else .error .other

def asString : Value → Except DocumentFault String
  | .string s => .ok s
  | v => .error (.mismatch "a string" v)

/-- Decodes a size of 64 bits. -/
def asSize : Value → Except DocumentFault Nat
  | .integer n =>
    if 0 ≤ n ∧ n < Nat.pow 2 64 then .ok n.toNat
    else if DocumentFault.minSize ≤ n ∧ n < 0 then .error (.negativeSize n)
    else .error (.mismatch "usize" (.integer n))
  | v => .error (.mismatch "usize" v)

end Toml

end BoundSql
