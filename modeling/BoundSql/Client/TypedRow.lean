import BoundSql.Client.Row
import BoundSql.Value

/-!
Rows with declared types.  A cell can be read as a type when the declared type of its column fits;
only then does the value count, where a NULL needs a type that admits it.
-/

namespace BoundSql

variable {β γ : Type}

/-- The types of columns and of statement parameters. -/
inductive ColumnType where
  | int8
  | int4
  | bool
  | text
  | varchar
  | unknown
  /-- A type that no value but NULL fits and that nothing reads. -/
  | other (name : String)
  deriving DecidableEq

def ColumnType.ofName : String → ColumnType
  | "int8" => .int8
  | "int4" => .int4
  | "bool" => .bool
  | "text" => .text
  | "varchar" => .varchar
  | "unknown" => .unknown
  | name => .other name

structure Column where
  name : String
  type : ColumnType
  deriving DecidableEq

/-- A row with a cell for each column. -/
structure TypedRow where
  columns : List Column
  cells : List Value
  deriving DecidableEq

/-- How the value of a cell is taken. -/
structure CellReading (β : Type) where
  /-- Whether cells of a declared type can be read. -/
  accepts : ColumnType → Bool
  value? : Value → Option β

namespace CellReading

/-- Reads words of 64 bits. -/
def int8 : CellReading Int64 where
  accepts type := type == .int8
  value?
    | .int8 n => some n
    | _ => none

/-- Reads words of 32 bits. -/
def int4 : CellReading Int32 where
  accepts type := type == .int4
  value?
    | .int4 n => some n
    | _ => none

def text : CellReading String where
  accepts type := type == .text || type == .varchar || type == .unknown
  value?
    | .text s => some s
    | _ => none

def bool : CellReading Bool where
  accepts type := type == .bool
  value?
    | .bool b => some b
    | _ => none

/-- Reads NULL too. -/
def nullable (r : CellReading β) : CellReading (Option β) where
  accepts := r.accepts
  value?
    | .null => some none
    | v => (r.value? v).map some

/-- What a cell of a declared type reads as. -/
def read? (r : CellReading β) (type : ColumnType) (cell : Value) : Option β :=
  if r.accepts type then r.value? cell else none

end CellReading

/-- The error of a name or a position that no column has. -/
def DriverError.noColumn (name : String) : DriverError := ⟨"invalid column `" ++ name ++ "`", []⟩

/-- The error of reading a cell that does not fit.  What caused it reaches no caller. -/
def DriverError.unreadable (position : Nat) : DriverError :=
  ⟨"error deserializing column " ++ toString position, []⟩

namespace TypedRow

/-- The position of a column: of the first with the very name, or else of the first whose name
differs in the case of ASCII letters only. -/
def position? (row : TypedRow) (name : String) : Option Nat :=
  let names := row.columns.map Column.name
  (names.findIdx? fun n => n = name).or
    (names.findIdx? fun n => n.toList.map Char.toLower = name.toList.map Char.toLower)

/-- Reads the cell at a position, which was asked for by a name. -/
def readAt (row : TypedRow) (r : CellReading β) (name : String) (position : Nat) :
    Except DriverError β :=
  match row.columns[position]?, row.cells[position]? with
  | some column, some cell =>
    match r.read? column.type cell with
    | some x => .ok x
    | none => .error (.unreadable position)
  | _, _ => .error (.noColumn name)

end TypedRow

/-- Reads the cells of rows with declared types. -/
def CellReading.reading (r : CellReading β) : Reading TypedRow β where
  get row position := row.readAt r (toString position) position
  getNamed row name :=
    match row.position? name with
    | some position => row.readAt r name position
    | none => .error (.noColumn name)

instance : DriverRow TypedRow where
  int8 := CellReading.int8.reading
  bool := CellReading.bool.reading

end BoundSql
