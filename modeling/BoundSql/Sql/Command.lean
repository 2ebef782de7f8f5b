import BoundSql.Predicate

/-!
The commands that are sent to a database, as trees.  `Select` is a tree of set operations over
blocks, and `Command` adds the statements that change rows.  All trees are polymorphic in what
stands in their slots.
-/

namespace BoundSql

variable {σ τ : Type}

inductive Direction where
  | asc
  | desc
  deriving DecidableEq

namespace Direction

def sql : Direction → String
  | .asc => "ASC"
  | .desc => "DESC"

instance : Inhabited Direction := ⟨.asc⟩

/-- The direction that a text asks for: `desc` in any case of its ASCII letters and with blanks
around it is descending, and every other text is ascending. -/
def ofText (text : String) : Direction :=
  if (Text.trimChars text.toList).map Char.toLower = ['d', 'e', 's', 'c'] then .desc else .asc

end Direction

structure SortKey where
  column : String
  direction : Direction
  deriving DecidableEq

/-- The clauses that trail a SELECT: ORDER BY, LIMIT and OFFSET.  The number 0 leaves out LIMIT
or OFFSET. -/
structure Tail where
  order : List SortKey := []
  limit : Nat := 0
  offset : Nat := 0
  deriving DecidableEq

/-- Whether no clause trails. -/
def Tail.isEmpty (t : Tail) : Bool := t.order.isEmpty && t.limit == 0 && t.offset == 0

inductive JoinKind where
  | inner
  | left
  | right
  deriving DecidableEq

def JoinKind.sql : JoinKind → String
  | .inner => "INNER JOIN"
  | .left => "LEFT JOIN"
  | .right => "RIGHT JOIN"

structure Join where
  kind : JoinKind
  table : String
  on : String
  deriving DecidableEq

/-- The operations that combine the rows of two SELECTs. -/
inductive SetOp where
  | union
  | unionAll
  deriving DecidableEq

def SetOp.sql : SetOp → String
  | .union => "UNION"
  | .unionAll => "UNION ALL"

/-- The body of a SELECT block, which is all of it but the trailing clauses.  No columns stand for
all columns. -/
structure Body (σ : Type) where
  distinct : Bool := false
  columns : List String := []
  tables : List String := []
  joins : List Join := []
  predicates : List (Predicate σ) := []
  groups : List String := []
  deriving DecidableEq

def Body.map (f : σ → τ) (b : Body σ) : Body τ where
  distinct := b.distinct
  columns := b.columns
  tables := b.tables
  joins := b.joins
  predicates := b.predicates.map (Predicate.map f)
  groups := b.groups

/-- A SELECT: one block, or a leading block combined with members from left to right, and then
ordered and cut as a whole. -/
inductive Select (σ : Type) where
  | block (body : Body σ) (tail : Tail)
  | combined (lead : Body σ) (leadTail : Tail) (members : List (SetOp × Select σ)) (tail : Tail)

mutual

def Select.map (f : σ → τ) : Select σ → Select τ
  | .block body tail => .block (body.map f) tail
  | .combined lead leadTail members tail =>
    .combined (lead.map f) leadTail (Select.mapMembers f members) tail

def Select.mapMembers (f : σ → τ) : List (SetOp × Select σ) → List (SetOp × Select τ)
  | [] => []
  | (op, s) :: rest => (op, s.map f) :: Select.mapMembers f rest

end

/-- What an INSERT does with a row that collides with a stored one. -/
inductive ConflictAction (σ : Type) where
  | nothing
  /-- The columns take the values of the row that was to be inserted. -/
  | overwrite (columns : List String)
  | assign (assignments : List (String × σ))
  deriving DecidableEq

/-- The ON CONFLICT clause of an INSERT. -/
structure Conflict (σ : Type) where
  target : List String
  action : ConflictAction σ
  deriving DecidableEq

/-- A command for a database. -/
inductive Command (σ : Type) where
  | select (s : Select σ)
  /-- The number of rows that the body of a block yields. -/
  | countBlock (body : Body σ)
  /-- The number of rows that a SELECT yields. -/
  | countRows (s : Select σ)
  /-- Whether a SELECT yields a row. -/
  | anyRow (s : Select σ)
  | insert (table : String) (columns : List String) (rows : List (List σ))
      (conflict : Option (Conflict σ)) (returning : List String)
  | update (table : String) (assignments : List (String × σ)) (predicates : List (Predicate σ))
      (returning : List String)
  | delete (table : String) (joins : List Join) (predicates : List (Predicate σ))
      (returning : List String)

end BoundSql
