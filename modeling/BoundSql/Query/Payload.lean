import BoundSql.Query.Fault
import BoundSql.Record

/-!
Payloads: the records of a statement that changes rows.  The first of several rows fixes the
columns; a later row may lack a column, and then NULL is bound, but it may not bring a new one.
-/

namespace BoundSql

variable {α β : Type}

/-- The records for a statement that changes rows. -/
inductive Payload (α : Type) where
  | empty
  | rows (records : List (Record α))
  | assignments (record : Record α)
  | upsert (insert update : Record α)

/-- The columns of rows, which are those of the first of them. -/
def rowColumns : List (Record α) → List String
  | [] => []
  | first :: _ => first.columns

/-- The first column of a later record that the first record lacks, with the number of its
record, which is `number` for the first of the later records. -/
def strayColumn? (first : Record α) (number : Nat) : List (Record α) → Option (Nat × String)
  | [] => none
  | r :: rest =>
    match r.columns.find? fun c => !first.contains c with
    | some c => some (number, c)
    | none => strayColumn? first (number + 1) rest

namespace Payload

def kind : Payload α → PayloadKind
  | .empty => .empty
  | .rows .. => .rows
  | .assignments _ => .assignments
  | .upsert .. => .upsert

/-- The payload of an INSERT of several rows. -/
def ofRows : List (Record α) → Except StepFault (Payload α)
  | [] => .error .noRecord
  | first :: rest =>
    if first.isEmpty then .error .noColumns
    else match strayColumn? first 2 rest with
      | some (number, column) => .error (.strayColumn number column)
      | none => .ok (.rows (first :: rest))

def ofAssignments (record : Record α) : Except StepFault (Payload α) :=
  if record.isEmpty then .error .noAssignments else .ok (.assignments record)

/-- The payload of an INSERT with assignments for colliding rows. -/
def ofUpsert (insert update : Record α) : Except StepFault (Payload α) :=
  if insert.isEmpty || update.isEmpty then .error .noUpsertColumns
  else .ok (.upsert insert update)

/-- The values that a payload binds, in the order of its slots: rows one after the other, each in
the order of the first row's columns. -/
def values [HasNull α] : Payload α → List α
  | .empty => []
  | .rows records => records.flatMap fun r => r.cells (rowColumns records)
  | .assignments record => record.values
  | .upsert insert update => insert.values ++ update.values

def map (f : α → β) : Payload α → Payload β
  | .empty => .empty
  | .rows records => .rows (records.map (Record.map f))
  | .assignments record => .assignments (record.map f)
  | .upsert insert update => .upsert (insert.map f) (update.map f)

end Payload

end BoundSql
