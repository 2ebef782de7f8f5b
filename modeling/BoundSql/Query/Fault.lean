import BoundSql.Error
import BoundSql.Predicate

/-!
The causes for which a query cannot become a statement: a step that made no sense (`StepFault`),
a query whose parts do not fit the statement asked for (`ShapeFault`), a part that is not there when
the statement is written (`RenderFault`), and a number of values that differs from the number of
slots.
-/

namespace BoundSql

/-- The statements that a query can be compiled into. -/
inductive StatementKind where
  | select
  | insert
  /-- An INSERT that overwrites the rows it collides with. -/
  | replace
  | update
  | delete
  /-- An INSERT with assignments for the rows it collides with. -/
  | upsert
  deriving DecidableEq

def StatementKind.name : StatementKind → String
  | .select => "select"
  | .insert => "insert"
  | .replace => "replace"
  | .update => "update"
  | .delete => "delete"
  | .upsert => "upsert"

/-- Whether a statement puts new rows into a table. -/
def StatementKind.inserts : StatementKind → Bool
  | .insert | .replace | .upsert => true
  | .select | .update | .delete => false

/-- What a query carries for a statement that changes rows. -/
inductive PayloadKind where
  | empty
  | rows
  | assignments
  | upsert
  deriving DecidableEq

/-- What a query has to carry for a statement. -/
def StatementKind.payload : StatementKind → PayloadKind
  | .select | .delete => .empty
  | .insert | .replace => .rows
  | .update => .assignments
  | .upsert => .upsert

def PayloadKind.describe : PayloadKind → String
  | .empty => "no payload"
  | .rows => "insert rows"
  | .assignments => "update assignments"
  | .upsert => "upsert values"

/-- Why a step was refused. -/
inductive StepFault where
  | unsupportedOperator (text column : String)
  | payloadAttached (kind : PayloadKind)
  | noRecord
  | noColumns
  /-- A record, counted from 1, has a column that the first record lacks. -/
  | strayColumn (record : Nat) (column : String)
  | noAssignments
  | noUpsertColumns
  deriving DecidableEq

def StepFault.message : StepFault → String
  | .unsupportedOperator text column =>
    "unsupported comparison operator '" ++ text ++ "' for column '" ++ column ++ "'"
  | .payloadAttached kind => kind.describe ++ " already attached"
  | .noRecord => "at least one record is required"
  | .noColumns => "the first record has no columns"
  | .strayColumn record column =>
    "record " ++ toString record ++ " has column '" ++ column ++ "' that the first record lacks"
  | .noAssignments => "update requires at least one column"
  | .noUpsertColumns => "upsert requires insert and update columns"

/-- The comparison that an operator text spells, or the error that a caller sees. -/
def Comparison.ofText (text : String) : Except Error Comparison :=
  match Comparison.ofText? text with
  | some op => .ok op
  | none => .error (.validation ("unsupported comparison operator '" ++ text ++ "'"))

/-- Why the parts of a query do not fit a statement. -/
inductive ShapeFault where
  | noTable
  | tableCount (kind : StatementKind) (count : Nat)
  | members (kind : StatementKind)
  | predicates (kind : StatementKind)
  | joins
  | payload (kind : StatementKind) (carried : PayloadKind)
  | noTarget (kind : StatementKind)
  | deletesAll
  deriving DecidableEq

def ShapeFault.message : ShapeFault → String
  | .noTable => "select requires at least one table"
  | .tableCount kind count =>
    kind.name ++ " requires exactly one table, got " ++ toString count
  | .members kind => kind.name ++ " does not accept unions"
  | .predicates kind => kind.name ++ " does not accept WHERE predicates"
  | .joins => "update does not accept joins"
  | .payload kind carried => kind.name ++ " cannot be compiled with " ++ carried.describe
  | .noTarget kind => kind.name ++ " requires an on_conflict target"
  | .deletesAll =>
    "delete requires at least one WHERE predicate; use where_raw(\"TRUE\") to delete every row"

/-- What is not there when a statement is written.  The shape of a query is checked before its
statement is written, and leaves none of these. -/
inductive RenderFault where
  | noRows
  | noRecord
  | noUpsertValues
  | noAssignments
  /-- The first table is read by its index, and an index beyond the end ends the program. -/
  | noTable
  deriving DecidableEq

def RenderFault.message : RenderFault → String
  | .noRows => "insert requires rows"
  | .noRecord => "insert requires at least one record"
  | .noUpsertValues => "upsert requires insert and update values"
  | .noAssignments => "update requires assignments"
  | .noTable => "index out of bounds: the len is 0 but the index is 0"

/-- Why a query has no statement. -/
inductive CompileError where
  | step (fault : StepFault)
  | shape (fault : ShapeFault)
  | render (fault : RenderFault)
  | mismatch (slots args : Nat)
  deriving DecidableEq

/-- The error that a caller sees. -/
def CompileError.toError : CompileError → Error
  | .step fault => .validation fault.message
  | .shape fault => .validation fault.message
  | .render fault => .validation fault.message
  | .mismatch slots args => .argumentMismatch slots args

end BoundSql
