import BoundSql.Decimal.Binary64

/-!
The values of a TOML document.
-/

namespace BoundSql.Toml

/-- A floating-point value as it is written. -/
inductive FloatValue where
  | finite (d : Decimal)
  | infinity (negative : Bool)
  | nan
  deriving DecidableEq

/-- A value.  The fields of a date or a time do not matter here. -/
inductive Value where
  | string (s : String)
  | integer (n : Int)
  /-- A text in the outline of an integer that writes none.  It may stand in a document, and the
  fault shows only where the value is asked for. -/
  | malformed
  | float (x : FloatValue)
  | boolean (b : Bool)
  | moment
  | array (items : List Value)
  | table (entries : List (String × Value))

end BoundSql.Toml
