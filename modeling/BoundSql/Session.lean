import BoundSql.Client.Basic
import BoundSql.Query.Step
import BoundSql.Text.Utf8

/-!
Running queries against a client.  Every operation compiles its query, logs the statement, sends
it once and logs a failure.  A query without a statement is neither logged nor sent, and an error
of the client comes back with the SQL that was sent.
-/

namespace BoundSql

variable {σ α β γ ρ : Type}

/-- The operations that run a query, as they are named in the log. -/
inductive Operation where
  | getRows
  | getRow
  | fetchOpt
  | count
  | exists
  | insert
  | insertGetId
  | replace
  | update
  | insertUpdate
  | delete
  deriving DecidableEq

def Operation.name : Operation → String
  | .getRows => "get_rows"
  | .getRow => "get_row"
  | .fetchOpt => "fetch_opt"
  | .count => "count"
  | .exists => "exists"
  | .insert => "insert"
  | .insertGetId => "insert_get_id"
  | .replace => "replace"
  | .update => "update"
  | .insertUpdate => "insert_update"
  | .delete => "delete"

def loggedBytes : Nat := 200

/-- The beginning of a statement that the log shows. -/
def loggedSql (sql : String) : String := Text.withinBytes loggedBytes sql

/-- An entry of the log. -/
inductive LogEvent where
  /-- A statement about to be sent. -/
  | statement (operation : Operation) (paramCount : Nat) (sql : String)
  /-- A statement that failed, with the text of the error. -/
  | failure (operation : Operation) (sql error : String)
  deriving DecidableEq

/-- What an operation does that shows outside. -/
inductive Event where
  | log (entry : LogEvent)
  /-- A statement goes to the client. -/
  | send
  deriving DecidableEq

/-- What an operation leaves behind: its result, the client's state and what it did, in order. -/
structure Outcome (σ β : Type) where
  result : Except Error β
  client : σ
  events : List Event

namespace Outcome

def log (o : Outcome σ β) : List LogEvent :=
  o.events.filterMap fun
    | .log entry => some entry
    | .send => none

/-- Goes on with the result of an operation, without the client. -/
def andThen (o : Outcome σ β) (f : β → Except Error γ) : Outcome σ γ :=
  ⟨o.result.bind f, o.client, o.events⟩

end Outcome

/-- A run against a client, from a state of the client on. -/
def Run (σ β : Type) := σ → Outcome σ β

namespace Run

def give (result : Except Error β) : Run σ β := fun state => ⟨result, state, []⟩

def log (entry : LogEvent) : Run σ Unit := fun state => ⟨.ok (), state, [.log entry]⟩

/-- Hands a statement to the client. -/
def send (exchange : Statement α → σ → Except Error β × σ) (statement : Statement α) : Run σ β :=
  fun state =>
    let (answer, state) := exchange statement state
    ⟨answer, state, [.send]⟩

/-- Goes on with the result of a run, unless the run failed. -/
def andThen (run : Run σ β) (next : β → Run σ γ) : Run σ γ := fun state =>
  let o := run state
  match o.result with
  | .error e => ⟨.error e, o.client, o.events⟩
  | .ok x =>
    let o' := next x o.client
    ⟨o'.result, o'.client, o.events ++ o'.events⟩

/-- Goes on with the error of a run, if the run failed. -/
def orElse (run : Run σ β) (next : Error → Run σ β) : Run σ β := fun state =>
  let o := run state
  match o.result with
  | .ok x => ⟨.ok x, o.client, o.events⟩
  | .error e =>
    let o' := next e o.client
    ⟨o'.result, o'.client, o.events ++ o'.events⟩

instance : Monad (Run σ) where
  pure x := give (.ok x)
  bind := andThen

instance : MonadExceptOf Error (Run σ) where
  throw e := give (.error e)
  tryCatch := orElse

end Run

/-- Sends a statement, if there is one. -/
def issue (operation : Operation) (compiled : Except CompileError (Statement α))
    (exchange : Statement α → σ → Except Error β × σ) : Run σ β := do
  let statement ← Run.give (compiled.mapError CompileError.toError)
  Run.log (.statement operation statement.args.length (loggedSql statement.sql))
  try Run.send exchange statement
  catch e =>
    Run.log (.failure operation (loggedSql statement.sql) e.message)
    throw (e.withSql statement.sql)

/-- Reads every row, up to the first that cannot be read. -/
def readAll (read : ρ → Except Error β) : List ρ → Except Error (List β)
  | [] => .ok []
  | row :: rest =>
    match read row with
    | .error e => .error e
    | .ok x =>
      match readAll read rest with
      | .error e => .error e
      | .ok xs => .ok (x :: xs)

theorem readAll_eq_mapM (read : ρ → Except Error β) (rows : List ρ) :
    readAll read rows = rows.mapM read := by
  induction rows with
  | nil => rfl
  | cons row rest ih =>
    rw [readAll, ih, List.mapM_cons]
    cases read row with
    | error e => rfl
    | ok x => cases rest.mapM read <;> rfl

namespace Query

variable [HasNull α]

/-- The query capped at one row: as a whole when it has members, else its block. -/
def firstRowOnly (q : Query α) : Query α :=
  if q.members.isEmpty then q.apply (.limit 1) else q.apply (.outerLimit 1)

/-- All rows of a query. -/
def getRows (q : Query α) (client : Client σ α ρ) (state : σ) : Outcome σ (List ρ) :=
  issue .getRows (q.compile .select) client.query state

def getRow (q : Query α) (client : Client σ α ρ) (state : σ) : Outcome σ ρ :=
  issue .getRow (q.firstRowOnly.compile .select) client.queryOne state

/-- All rows of a query, each as it is to be read. -/
def fetchAll (q : Query α) (client : Client σ α ρ) (read : ρ → Except Error β) (state : σ) :
    Outcome σ (List β) :=
  (q.getRows client state).andThen (readAll read)

/-- The first row of a query as it is to be read. -/
def fetchOne (q : Query α) (client : Client σ α ρ) (read : ρ → Except Error β) (state : σ) :
    Outcome σ β :=
  (q.getRow client state).andThen read

/-- The first row of a query as it is to be read, if there is a row. -/
def fetchOpt (q : Query α) (client : Client σ α ρ) (read : ρ → Except Error β) (state : σ) :
    Outcome σ (Option β) :=
  (issue .fetchOpt (q.firstRowOnly.compile .select) client.queryOpt state).andThen fun
    | none => .ok none
    | some row => (read row).map some

/-- The number of rows of a query. -/
def count [DriverRow ρ] (q : Query α) (client : Client σ α ρ) (state : σ) : Outcome σ Int64 :=
  (issue .count q.compileCount client.queryOne state).andThen (DriverRow.int8.index · 0)

def hasRow [DriverRow ρ] (q : Query α) (client : Client σ α ρ) (state : σ) : Outcome σ Bool :=
  (issue .exists q.compileExists client.queryOne state).andThen (DriverRow.bool.index · 0)

/-- Inserts records and gives the number of rows that were inserted. -/
def insert (q : Query α) (client : Client σ α ρ) (records : List (Record α)) (state : σ) :
    Outcome σ Nat :=
  issue .insert ((q.apply (.rows records)).compile .insert) client.execute state

/-- Inserts a record and gives the value that a column has afterwards. -/
def insertGetId [DriverRow ρ] (q : Query α) (client : Client σ α ρ) (record : Record α)
    (idColumn : String) (state : σ) : Outcome σ Int64 :=
  (issue .insertGetId ((q.build [.returning [idColumn], .rows [record]]).compile .insert)
    client.queryOne state).andThen (DriverRow.int8.column · idColumn)

/-- Inserts records over the rows they collide with and gives the number of changed rows. -/
def replace (q : Query α) (client : Client σ α ρ) (records : List (Record α)) (state : σ) :
    Outcome σ Nat :=
  issue .replace ((q.apply (.rows records)).compile .replace) client.execute state

def update (q : Query α) (client : Client σ α ρ) (record : Record α) (state : σ) : Outcome σ Nat :=
  issue .update ((q.apply (.assignments record)).compile .update) client.execute state

/-- Inserts a record, or updates the row it collides with, and gives the number of changed rows. -/
def insertUpdate (q : Query α) (client : Client σ α ρ) (insert update : Record α) (state : σ) :
    Outcome σ Nat :=
  issue .insertUpdate ((q.apply (.upsert insert update)).compile .upsert) client.execute state

def delete (q : Query α) (client : Client σ α ρ) (state : σ) : Outcome σ Nat :=
  issue .delete (q.compile .delete) client.execute state

end Query

end BoundSql
