import BoundSql.Sql.Command
import BoundSql.Sql.Fragment

/-!
The text of commands.  Every tree has one fragment; a SELECT that is an operand of a set
operation stands in parentheses unless it is a bare block, so its trailing clauses and its own
set operations stay its own.
-/

namespace BoundSql

open Sql Sql.Fragment

variable {σ : Type}

/-- The fragment of a condition.  Membership in an empty list is the constant false, and its
negation the constant true. -/
def Condition.fragment : Condition σ → Fragment σ
  | .raw expression => text expression
  | .compare column op x => text (column ++ " " ++ op.sql ++ " ") ++ slot x
  | .between column negated low high =>
    text (column ++ if negated then " NOT BETWEEN " else " BETWEEN ") ++ slot low ++ text " AND "
      ++ slot high
  | .membership _ negated [] => text (if negated then "1=1" else "1=0")
  | .membership column negated (x :: xs) =>
    text (column ++ if negated then " NOT IN (" else " IN (") ++ slotList (x :: xs) ++ text ")"
  | .nullness column negated =>
    text (column ++ if negated then " IS NOT NULL" else " IS NULL")

/-- The fragment of a predicate that follows another one. -/
def Predicate.continuation (p : Predicate σ) : Fragment σ :=
  text (" " ++ p.connective.sql ++ " ") ++ p.condition.fragment

/-- The WHERE clause of a chain of predicates.  The connective of the first one is not written. -/
def whereClause : List (Predicate σ) → Fragment σ
  | [] => empty
  | p :: rest =>
    text " WHERE " ++ p.condition.fragment ++ concat (rest.map Predicate.continuation)

def joinClauses (joins : List Join) : Fragment σ :=
  concat (joins.map fun j =>
    text (" " ++ j.kind.sql ++ " " ++ j.table ++ " ON " ++ j.on))

/-- A keyword and a list of names, left out when the list is empty. -/
def listClause (keyword : String) (items : List String) : Fragment σ :=
  if items.isEmpty then empty else text keyword ++ names items

/-- A keyword and a number, left out when the number is 0. -/
def countClause (keyword : String) (n : Nat) : Fragment σ :=
  if n = 0 then empty else text (keyword ++ toString n)

def Tail.fragment (t : Tail) : Fragment σ :=
  listClause " ORDER BY " (t.order.map fun k => k.column ++ " " ++ k.direction.sql)
    ++ countClause " LIMIT " t.limit ++ countClause " OFFSET " t.offset

/-- What a block selects: its columns, or `*` when it names none. -/
def Body.projection (b : Body σ) : Fragment σ :=
  text (if b.distinct then "DISTINCT " else "")
    ++ if b.columns.isEmpty then text "*" else names b.columns

/-- The body of a block with a projection of its own or another one. -/
def Body.fragmentOver (b : Body σ) (projection : Fragment σ) : Fragment σ :=
  text "SELECT " ++ projection ++ text " FROM " ++ names b.tables ++ joinClauses b.joins
    ++ whereClause b.predicates ++ listClause " GROUP BY " b.groups

def Body.fragment (b : Body σ) : Fragment σ := b.fragmentOver b.projection

/-- Whether a SELECT is a block without trailing clauses, which needs no parentheses as an
operand. -/
def Select.isBare : Select σ → Bool
  | .block _ tail => tail.isEmpty
  | .combined .. => false

/-- The fragment of an operand of a set operation. -/
def operand (bare : Bool) (a : Fragment σ) : Fragment σ := if bare then a else a.parenthesized

mutual

def Select.fragment : Select σ → Fragment σ
  | .block body tail => body.fragment ++ tail.fragment
  | .combined lead leadTail members tail =>
    operand leadTail.isEmpty (lead.fragment ++ leadTail.fragment)
      ++ Select.memberFragments members ++ tail.fragment

/-- The set operations of a SELECT with their operands. -/
def Select.memberFragments : List (SetOp × Select σ) → Fragment σ
  | [] => empty
  | (op, s) :: rest =>
    text (" " ++ op.sql ++ " ") ++ operand s.isBare s.fragment ++ Select.memberFragments rest

end

def assignmentList (assignments : List (String × σ)) : Fragment σ :=
  commaList (assignments.map fun (column, x) => text (column ++ " = ") ++ slot x)

/-- The ON CONFLICT clause of an INSERT. -/
def Conflict.fragment (c : Conflict σ) : Fragment σ :=
  text " ON CONFLICT (" ++ names c.target ++ text ")" ++
    match c.action with
    | .nothing => text " DO NOTHING"
    | .overwrite columns =>
      text " DO UPDATE SET " ++ names (columns.map fun c => c ++ " = EXCLUDED." ++ c)
    | .assign assignments => text " DO UPDATE SET " ++ assignmentList assignments

def Command.fragment : Command σ → Fragment σ
  | .select s => s.fragment
  | .countBlock body => body.fragmentOver (text "COUNT(*)")
  | .countRows s => text "SELECT COUNT(*) FROM (" ++ s.fragment ++ text ") AS _count"
  | .anyRow s => text "SELECT EXISTS(" ++ s.fragment ++ text ")"
  | .insert table columns rows conflict returning =>
    text ("INSERT INTO " ++ table ++ " (") ++ names columns ++ text ") VALUES "
      ++ commaList (rows.map fun row => (slotList row).parenthesized)
      ++ (conflict.elim empty Conflict.fragment) ++ listClause " RETURNING " returning
  | .update table assignments predicates returning =>
    text ("UPDATE " ++ table ++ " SET ") ++ assignmentList assignments ++ whereClause predicates
      ++ listClause " RETURNING " returning
  | .delete table joins predicates returning =>
    text ("DELETE FROM " ++ table) ++ joinClauses joins ++ whereClause predicates
      ++ listClause " RETURNING " returning

end BoundSql
