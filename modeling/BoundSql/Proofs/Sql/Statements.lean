import BoundSql.Proofs.Sql.Where
import BoundSql.Query.Fault
import Mathlib.Computability.Language
import Mathlib.Order.CompletePartialOrder

/-! The statements of PostgreSQL that queries are compiled to, as languages of lexemes.  What texts
of the caller may be is left to a vocabulary, which has a language for each place that such a text
can take; all else is laid down here.  No list is empty. -/

namespace BoundSql

open Sql
open scoped Computability

/-- What a text of the caller is in a statement. -/
inductive Place where
  /-- A table whose rows are read. -/
  | source
  /-- A table whose rows are changed. -/
  | target
  /-- A column of what a statement yields. -/
  | item
  | expression
  /-- An expression with a truth value. -/
  | condition
  /-- The name of a column. -/
  | name
  deriving DecidableEq

/-- The lexemes that can stand in each place. -/
abbrev Vocabulary := Place → Language Lexeme

/-- Whether the lexemes of a text are in a language. -/
def Spells (s : String) (P : Language Lexeme) : Prop := ∃ ts ∈ P, scan s.toList = some ts

namespace Syntax

/-- The lexemes of a fixed text. -/
def phrase (s : String) : Language Lexeme := {ts | scan s.toList = some ts}

instance (s : String) (ts : List Lexeme) : Decidable (ts ∈ phrase s) :=
  inferInstanceAs (Decidable (scan s.toList = some ts))

def optional (P : Language Lexeme) : Language Lexeme := 1 + P

/-- `n + 1` parts with separators between them. -/
def separated (separator P : Language Lexeme) : Nat → Language Lexeme
  | 0 => P
  | n + 1 => P * (separator * separated separator P n)

/-- One part or more, with commas. -/
def listOf (P : Language Lexeme) : Language Lexeme := ⨆ n, separated (phrase ",") P n

def inParentheses (P : Language Lexeme) : Language Lexeme := phrase "(" * (P * phrase ")")

def placeholder : Language Lexeme := {ts | ∃ n, ts = [.mark .dollar (n + 1)]}

def numeral : Language Lexeme := {ts | ∃ n, ts = [.number n]}

/-! ### Conditions -/

def operator : Language Lexeme :=
  {ts | ∃ s ∈ ["=", "!=", "<>", ">", ">=", "<", "<=", "LIKE", "NOT LIKE", "ILIKE", "NOT ILIKE"],
    ts ∈ phrase s}

variable (L : Vocabulary)

/-- A test of an expression. -/
def test : Language Lexeme :=
  operator * placeholder
    + optional (phrase "NOT") * (phrase "BETWEEN" * (placeholder * (phrase "AND" * placeholder)))
    + optional (phrase "NOT") * (phrase "IN" * inParentheses (listOf placeholder))
    + phrase "IS" * (optional (phrase "NOT") * phrase "NULL")

def term : Language Lexeme :=
  L .condition + L .expression * test + numeral * (phrase "=" * numeral)

/-- Terms with AND and OR between them. -/
def conditions : Language Lexeme := ⨆ n, separated (phrase "AND" + phrase "OR") (term L) n

def filtering : Language Lexeme := optional (phrase "WHERE" * conditions L)

/-! ### SELECT -/

def join : Language Lexeme :=
  (phrase "INNER JOIN" + phrase "LEFT JOIN" + phrase "RIGHT JOIN")
    * (L .source * (phrase "ON" * L .condition))

def block : Language Lexeme :=
  phrase "SELECT" * (optional (phrase "DISTINCT") * ((phrase "*" + listOf (L .item))
    * (phrase "FROM" * (listOf (L .source) * ((join L)∗ * (filtering L
      * optional (phrase "GROUP BY" * listOf (L .expression))))))))

/-- The clauses that trail a SELECT. -/
def trailing : Language Lexeme :=
  optional (phrase "ORDER BY" * listOf (L .expression * (phrase "ASC" + phrase "DESC")))
    * (optional (phrase "LIMIT" * numeral) * optional (phrase "OFFSET" * numeral))

inductive SelectPart where
  | operand
  /-- Operands with set operations between them. -/
  | operands
  | query

/-- The syntax of SELECT.  An operand with trailing clauses, or with operands of its own, stands in
parentheses. -/
inductive Selects : SelectPart → List Lexeme → Prop
  | block {ts : List Lexeme} (h : ts ∈ block L) : Selects .operand ts
  | parenthesized {ts : List Lexeme} (h : Selects .query ts) :
    Selects .operand (.sign '(' :: (ts ++ [.sign ')']))
  | single {ts : List Lexeme} (h : Selects .operand ts) : Selects .operands ts
  | combined {ts us op : List Lexeme} (h : Selects .operands ts)
    (hop : op ∈ phrase "UNION" * optional (phrase "ALL")) (hus : Selects .operand us) :
    Selects .operands (ts ++ (op ++ us))
  | query {ts us : List Lexeme} (h : Selects .operands ts) (hus : us ∈ trailing L) :
    Selects .query (ts ++ us)

def part (p : SelectPart) : Language Lexeme := {ts | Selects L p ts}

/-! ### Statements that change rows -/

def returning : Language Lexeme := optional (phrase "RETURNING" * listOf (L .item))

/-- A column with the value that it takes. -/
def assignment (P : Language Lexeme) : Language Lexeme := L .name * (phrase "=" * P)

/-- What becomes of a stored row that another one collides with. -/
def resolution : Language Lexeme :=
  phrase "DO NOTHING" + phrase "DO UPDATE SET"
    * listOf (assignment L (placeholder + phrase "EXCLUDED." * L .name))

def collision : Language Lexeme :=
  phrase "ON CONFLICT" * (inParentheses (listOf (L .name)) * resolution L)

/-- Every row is as long as the list of columns. -/
def insertion : Language Lexeme :=
  ⨆ n, phrase "INSERT INTO" * (L .target * (inParentheses (separated (phrase ",") (L .name) n)
    * (phrase "VALUES" * (listOf (inParentheses (separated (phrase ",") placeholder n))
      * (optional (collision L) * returning L)))))

def modification : Language Lexeme :=
  phrase "UPDATE" * (L .target * (phrase "SET" * (listOf (assignment L placeholder)
    * (filtering L * returning L))))

def deletion : Language Lexeme :=
  phrase "DELETE FROM" * (L .target * (optional (phrase "USING" * listOf (L .source))
    * (filtering L * returning L)))

end Syntax

/-- The sentences of PostgreSQL for a kind of statement. -/
def sentences (L : Vocabulary) : StatementKind → Language Lexeme
  | .select => Syntax.part L .query
  | .insert | .replace | .upsert => Syntax.insertion L
  | .update => Syntax.modification L
  | .delete => Syntax.deletion L

end BoundSql
