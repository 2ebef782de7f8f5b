/-!
Errors that reach a caller, and their text.  An error of a statement that was sent carries its
SQL in an `execution` wrapper; the predicates look through all wrappers.  Behind a wrapper there is
the error inside it, and behind an error of the driver there is what caused it.
-/

namespace BoundSql

/-- What shows of an error of the driver. -/
structure DriverError where
  message : String
  /-- The texts of what caused it, the nearest cause first. -/
  causes : List String := []
  deriving DecidableEq

/-- An error of building, sending or reading a statement, or of the settings and the pool. -/
inductive Error where
  | connection (message : String)
  /-- An error that the driver reports and that is none of the violations below. -/
  | query (e : DriverError)
  | notFound (message : String)
  | uniqueViolation (message : String)
  | foreignKeyViolation (message : String)
  | checkViolation (message : String)
  | decode (column message : String)
  | validation (message : String)
  | argumentMismatch (placeholders args : Nat)
  /-- An error of a statement, with the SQL that was sent. -/
  | execution (sql : String) (source : Error)
  | config (message : String)
  | pool (message : String)
  deriving DecidableEq

/-- What stands behind an error. -/
inductive Cause where
  | error (e : Error)
  /-- A cause of an error of the driver, with its text. -/
  | driver (text : String)
  deriving DecidableEq

namespace Error

def message : Error → String
  | .connection m => "Connection error: " ++ m
  | .query e => "Query error: " ++ e.message
  | .notFound m => "Not found: " ++ m
  | .uniqueViolation m => "Unique constraint violation: " ++ m
  | .foreignKeyViolation m => "Foreign key violation: " ++ m
  | .checkViolation m => "Check constraint violation: " ++ m
  | .decode column m => "Decode error on column '" ++ column ++ "': " ++ m
  | .validation m => "Validation error: " ++ m
  | .argumentMismatch placeholders args =>
    "Argument mismatch: " ++ toString placeholders ++ " placeholders but " ++ toString args
      ++ " arguments"
  | .execution sql source => source.message ++ " [sql: " ++ sql ++ "]"
  | .config m => "Configuration error: " ++ m
  | .pool m => "Pool error: " ++ m

/-- Attaches the SQL of the statement that failed.  An error that carries SQL already keeps its
own. -/
def withSql (sql : String) : Error → Error
  | .execution inner source => .execution inner source
  | e => .execution sql e

def sql? : Error → Option String
  | .execution sql _ => some sql
  | _ => none

/-- The error inside all wrappers. -/
def root : Error → Error
  | .execution _ source => source.root
  | e => e

/-- The chain of what stands behind an error, the nearest first. -/
def sources : Error → List Cause
  | .execution _ source => .error source :: source.sources
  | .query e => (e.message :: e.causes).map .driver
  | _ => []

def isUniqueViolation (e : Error) : Bool :=
  match e.root with
  | .uniqueViolation _ => true
  | _ => false

def isNotFound (e : Error) : Bool :=
  match e.root with
  | .notFound _ => true
  | _ => false

/-- Whether the query itself was invalid. -/
def isValidation (e : Error) : Bool :=
  match e.root with
  | .validation _ => true
  | _ => false

end Error

def Cause.message : Cause → String
  | .error e => e.message
  | .driver text => text

end BoundSql
