import BoundSql.Client.Row
import BoundSql.Query.Compile

/-!
Clients: what statements are sent to.  A client answers a statement with rows or with the number
of rows it changed, and may change its own state in doing so.
-/

namespace BoundSql

variable {σ α ρ : Type}

/-- A client with states `σ` for statements with values `α`, which answers with rows `ρ`. -/
structure Client (σ α ρ : Type) where
  /-- Sends a statement and takes all its rows. -/
  query : Statement α → σ → Except Error (List ρ) × σ
  /-- Sends a statement and takes the number of rows that it changed. -/
  execute : Statement α → σ → Except Error Nat × σ

/-- The error of a statement that should have had a row. -/
def Error.noRow : Error := .notFound "Expected one row, got none"

def firstRow : List ρ → Except Error ρ
  | [] => .error .noRow
  | row :: _ => .ok row

namespace Client

/-- Sends a statement and takes the first row, which has to be there. -/
def queryOne (client : Client σ α ρ) (statement : Statement α) (state : σ) :
    Except Error ρ × σ :=
  let (answer, state) := client.query statement state
  (answer.bind firstRow, state)

/-- Sends a statement and takes the first row, if there is one. -/
def queryOpt (client : Client σ α ρ) (statement : Statement α) (state : σ) :
    Except Error (Option ρ) × σ :=
  let (answer, state) := client.query statement state
  (answer.map List.head?, state)

end Client

end BoundSql
