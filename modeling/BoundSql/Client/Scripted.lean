import BoundSql.Client.Basic
import BoundSql.Client.TypedRow
import BoundSql.Text.Numeral
import BoundSql.Text.Utf8

/-!
A client of a server that plays a script.  The server prepares each statement that it gets, takes
its values in binary form and answers with the next reply of the script.
-/

namespace BoundSql

variable {α : Type}

/-- An error that the server reports. -/
structure ServerError where
  code : String
  message : String
  constraint : Option String := none
  severity : String := "ERROR"
  deriving DecidableEq

/-- The error that a caller sees.  Violated constraints are told apart by their code. -/
def ServerError.toError (e : ServerError) : Error :=
  let told := e.constraint.getD "unknown" ++ ": " ++ e.message
  match e.code with
  | "23505" => .uniqueViolation told
  | "23503" => .foreignKeyViolation told
  | "23514" => .checkViolation told
  | _ => .query ⟨"db error", [e.severity ++ ": " ++ e.message]⟩

/-- What the server does with one statement. -/
structure Reply where
  /-- The types that the statement's parameters have. -/
  params : List ColumnType := []
  columns : List Column := []
  rows : List (List Value) := []
  /-- The text that ends a completed statement. -/
  tag : String := "OK 0"
  prepareError : Option ServerError := none
  executeError : Option ServerError := none

/-- What the server receives. -/
inductive WireEvent where
  | prepare (sql : String)
  /-- The bytes of each value, none for NULL. -/
  | bind (values : List (Option (List UInt8)))
  deriving DecidableEq

/-- A server with the replies it has left and the events it has seen. -/
structure ScriptedServer where
  replies : List Reply
  events : List WireEvent := []

/-- Whether a value can be sent for a parameter of a type. -/
def Value.fits : Value → ColumnType → Bool
  | .int8 _, .int8 => true
  | .int4 _, .int4 => true
  | .bool _, .bool => true
  | .text _, .text => true
  | .text _, .varchar => true
  | .text _, .unknown => true
  | .null, _ => true
  | _, _ => false

/-- The bytes of a word, the highest first. -/
def wordBytes : Nat → Nat → List UInt8
  | 0, _ => []
  | count + 1, n => UInt8.ofNat (n / Nat.pow 256 count) :: wordBytes count n

/-- The binary form of a value, none for NULL. -/
def Value.bytes? : Value → Option (List UInt8)
  | .int8 n => some (wordBytes 8 n.toUInt64.toNat)
  | .int4 n => some (wordBytes 4 n.toUInt32.toNat)
  | .text s => some (Text.encode s)
  | .bool b => some [if b then 1 else 0]
  | .null => none

/-- The position of the first value that does not fit its parameter. -/
def misfit? (args : List Value) (params : List ColumnType) : Option Nat :=
  (args.zip params).findIdx? fun (v, type) => !v.fits type

/-- The number of changed rows that a completion text reports: its last word, separated by
single spaces, or 0 when that is not a number of 64 bits. -/
def affectedRows (tag : String) : Nat :=
  let last := (tag.toList.reverse.takeWhile (· ≠ ' ')).reverse
  (Text.unsigned? Text.maxWord64 last).getD 0

/-- Whether the text of a statement can be sent.  A NUL ends a text on its way to the server, so
that there is none in it. -/
def Statement.isSendable (statement : Statement α) : Bool := !statement.sql.toList.contains '\x00'

namespace ScriptedServer

/-- Plays the next reply for a statement: prepares it, checks and takes its values, and runs it. -/
def play (statement : Statement Value) (server : ScriptedServer) :
    Except Error Reply × ScriptedServer :=
  let reply := server.replies.headD {}
  let prepared : ScriptedServer :=
    ⟨server.replies.tail, server.events ++ [.prepare statement.sql]⟩
  match reply.prepareError with
  | some e => (.error e.toError, prepared)
  | none =>
    if statement.args.length ≠ reply.params.length then
      (.error (.query ⟨"expected " ++ toString reply.params.length ++ " parameters but got "
        ++ toString statement.args.length, []⟩), prepared)
    else match misfit? statement.args reply.params with
      | some i => (.error (.query ⟨"error serializing parameter " ++ toString i, []⟩), prepared)
      | none =>
        let bound : ScriptedServer :=
          ⟨prepared.replies, prepared.events ++ [.bind (statement.args.map Value.bytes?)]⟩
        match reply.executeError with
        | some e => (.error e.toError, bound)
        | none => (.ok reply, bound)

/-- Sends a statement and plays the next reply for it.  A statement that cannot be sent leaves the
server as it was. -/
def exchange (statement : Statement Value) (server : ScriptedServer) :
    Except Error Reply × ScriptedServer :=
  if statement.isSendable then server.play statement
  else (.error (.query ⟨"error encoding message to server", []⟩), server)

end ScriptedServer

def Client.scripted : Client ScriptedServer Value TypedRow where
  query statement server :=
    let (answer, server) := server.exchange statement
    (answer.map fun reply => reply.rows.map fun cells => ⟨reply.columns, cells⟩, server)
  execute statement server :=
    let (answer, server) := server.exchange statement
    (answer.map fun reply => affectedRows reply.tag, server)

end BoundSql
