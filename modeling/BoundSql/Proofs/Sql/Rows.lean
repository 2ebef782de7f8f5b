import BoundSql.Sql.Command
import Mathlib.Data.List.Perm.Basic

/-! The rows that commands yield.  A `Database` says what the texts of a command stand for: the rows
of tables and joins, the rows of which predicates hold, what columns make of one row or of many, and
the order in which rows come.  `Database.rows` is the list of rows of a SELECT over it, and
`Database.counts` what a command answers that counts rows. -/

namespace BoundSql

variable {α ι ρ : Type}

/-- What the texts of commands with values `α` stand for, with rows `ι` inside a block and rows `ρ`
that come out of it. -/
structure Database (α ι ρ : Type) where
  joined : List String → List Join → List ι
  holds : List (Predicate α) → ι → Bool
  holds_nil : ∀ row, holds [] row
  /-- Whether a column takes all rows together. -/
  isAggregate : String → Bool
  /-- The columns of one row; no columns stand for all. -/
  project : List String → ι → ρ
  /-- The columns of rows taken together. -/
  summarize : List String → List ι → ρ
  /-- The order of the rows of a block, or of combined rows.  A block can be ordered by what its
  columns do not show. -/
  sort : Option (Body α) → List SortKey → List ρ → List ρ
  sort_perm : ∀ body keys rows, (sort body keys rows).Perm rows

/-- What OFFSET and LIMIT leave of rows. -/
def Tail.cut (t : Tail) (rows : List ρ) : List ρ :=
  let rest := rows.drop t.offset
  if t.limit = 0 then rest else rest.take t.limit

def SetOp.combine [DecidableEq ρ] : SetOp → List ρ → List ρ → List ρ
  | .union, left, right => (left ++ right).eraseDups
  | .unionAll, left, right => left ++ right

namespace Database

variable (db : Database α ι ρ)

/-- The rows of FROM, JOIN and WHERE. -/
def source (b : Body α) : List ι := (db.joined b.tables b.joins).filter (db.holds b.predicates)

variable [DecidableEq ρ]

/-- The rows with equal values in the expressions of GROUP BY, one list for each group. -/
def groups (b : Body α) : List (List ι) :=
  let key := db.project b.groups
  ((db.source b).map key).eraseDups.map fun k => (db.source b).filter fun row => key row = k

/-- The rows of a block before they are ordered and cut. -/
def blockRows (b : Body α) : List ρ :=
  let rows :=
    if b.groups ≠ [] then (db.groups b).map (db.summarize b.columns)
    else if b.columns.any db.isAggregate then [db.summarize b.columns (db.source b)]
    else (db.source b).map (db.project b.columns)
  if b.distinct then rows.eraseDups else rows

mutual

/-- The rows of a SELECT. -/
def rows : Select α → List ρ
  | .block body tail => tail.cut (db.sort body tail.order (db.blockRows body))
  | .combined lead leadTail members tail =>
    let first := leadTail.cut (db.sort lead leadTail.order (db.blockRows lead))
    tail.cut (db.sort none tail.order (combined first members))

/-- Rows combined with those of members from left to right. -/
def combined (left : List ρ) : List (SetOp × Select α) → List ρ
  | [] => left
  | (op, s) :: rest => combined (op.combine left (rows s)) rest

end

/-- What a command answers that counts rows: one number for the rows of a SELECT, and for those of
a block one number, or one for each group. -/
def counts : Command α → List Nat
  | .countBlock body =>
    if body.groups ≠ [] then (db.groups body).map List.length else [(db.source body).length]
  | .countRows s => [(db.rows s).length]
  | _ => []

/-- Without clauses that cut rows, a block has its rows in some order. -/
theorem length_rows_block {body : Body α} {tail : Tail} (hlimit : tail.limit = 0)
    (hoffset : tail.offset = 0) :
    (db.rows (.block body tail)).length = (db.blockRows body).length := by
  rw [rows, Tail.cut, hlimit, hoffset]
  exact (db.sort_perm _ _ _).length_eq

end Database

end BoundSql
