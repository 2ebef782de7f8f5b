import BoundSql.Client.Basic

/-!
A client that keeps a record of the statements it gets and answers all of them alike.
-/

namespace BoundSql

variable {α ρ : Type}

/-- How a statement was sent. -/
inductive SendMethod where
  | query
  | execute
  deriving DecidableEq

/-- A client that answers queries with no rows and changes with a fixed number, or everything
with a fixed error.  Its state holds what was sent so far. -/
def Client.recording (affected : Nat) (failure : Option Error) :
    Client (List (SendMethod × Statement α)) α ρ where
  query statement sent :=
    (match failure with
      | some e => .error e
      | none => .ok [], sent ++ [(.query, statement)])
  execute statement sent :=
    (match failure with
      | some e => .error e
      | none => .ok affected, sent ++ [(.execute, statement)])

end BoundSql
