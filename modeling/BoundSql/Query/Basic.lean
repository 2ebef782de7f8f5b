import BoundSql.Query.Payload
import BoundSql.Sql.Command
import BoundSql.Sql.Fragment

/-!
Queries and the steps that build them.  A query records clauses and, apart from them, the values
they bind, in the order in which the slots of a statement will ask for them: first the payload's,
then those of the predicates, then those of the members of set operations.  A step that makes no
sense changes nothing but `fault`, which keeps the first such step.
-/

namespace BoundSql

variable {α : Type}

/-- The clauses of a block as a query records them. -/
structure Block where
  distinct : Bool := false
  columns : List String := []
  tables : List String := []
  joins : List Join := []
  filters : List Filter := []
  groups : List String := []
  deriving DecidableEq

/-- The body that a block is written as. -/
def Block.body (b : Block) : Body Hole where
  distinct := b.distinct
  columns := b.columns
  tables := b.tables
  joins := b.joins
  predicates := b.filters.map Filter.predicate
  groups := b.groups

/-- A query under construction. -/
structure Query (α : Type) where
  /-- The clauses of the query's own block; a statement that changes rows takes its table, joins
  and predicates from here. -/
  block : Block := {}
  /-- The clauses that trail the query's own block. -/
  tail : Tail := {}
  /-- The queries combined with the block, as they were when they were attached. -/
  members : List (SetOp × Query α) := []
  /-- The clauses that trail the combined rows; they have no effect without members. -/
  outer : Tail := {}
  /-- The columns whose collision a REPLACE or upsert handles. -/
  conflictTarget : List String := []
  returning : List String := []
  payload : Payload α := .empty
  args : Args α := []
  /-- How many values at the end of `args` belong to members. -/
  memberArgs : Nat := 0
  style : Sql.PlaceholderStyle := .dollar
  /-- The first step that was refused. -/
  fault : Option StepFault := none

namespace Query

def blank : Query α := {}

def ofTable (table : String) : Query α := { block := { tables := [table] } }

def body (q : Query α) : Body Hole := q.block.body

/-- Binds a value of a predicate, in front of the values of members. -/
def bind (q : Query α) (a : α) : Query α :=
  { q with args := q.args.insertBeforeLast q.memberArgs a }

/-- Records a refused step, unless one was refused before. -/
def refuse (q : Query α) (fault : StepFault) : Query α :=
  { q with fault := q.fault.or (some fault) }

/-! ### Conditions -/

/-- Records a condition, whose values are bound apart. -/
def pushFilter (q : Query α) (f : Filter) : Query α :=
  { q with block := { q.block with filters := q.block.filters ++ [f] } }

def rawPredicate (q : Query α) (text : String) (connective : Connective) : Query α :=
  q.pushFilter ⟨text, .raw, 0, connective⟩

def compare (q : Query α) (column : String) (op : Comparison) (a : α) (connective : Connective) :
    Query α :=
  (q.pushFilter ⟨column, .compare op, 1, connective⟩).bind a

/-- Adds a comparison whose operator is given as text; a text that spells no operator is
refused. -/
def filterText (q : Query α) (connective : Connective) (column operator : String) (a : α) :
    Query α :=
  match Comparison.ofText? operator with
  | some op => q.compare column op a connective
  | none => q.refuse (.unsupportedOperator operator column)

def range (q : Query α) (column : String) (low high : α) (negated : Bool)
    (connective : Connective) : Query α :=
  let operator : Operator := if negated then .notBetween else .between
  ((q.pushFilter ⟨column, operator, 2, connective⟩).bind low).bind high

/-- Binds the values of a list one by one.  The condition is recorded after them, with the number of
values by which the arguments have grown. -/
def membership (q : Query α) (column : String) (values : List α) (negated : Bool)
    (connective : Connective) : Query α :=
  let operator : Operator := if negated then .notIn else .isIn
  let bound := values.foldl bind q
  bound.pushFilter ⟨column, operator, bound.args.length - q.args.length, connective⟩

def nullCheck (q : Query α) (column : String) (negated : Bool) (connective : Connective) :
    Query α :=
  q.pushFilter ⟨column, if negated then .isNotNull else .isNull, 0, connective⟩

/-- Adds a condition and binds the values in its slots. -/
def filter (q : Query α) (p : Predicate α) : Query α :=
  match p.condition with
  | .raw text => q.rawPredicate text p.connective
  | .compare column op a => q.compare column op a p.connective
  | .between column negated low high => q.range column low high negated p.connective
  | .membership column negated values => q.membership column values negated p.connective
  | .nullness column negated => q.nullCheck column negated p.connective

/-! ### Members and payloads -/

/-- Attaches one member of a set operation and binds its values at the end. -/
def attach (q : Query α) (op : SetOp) (member : Query α) : Query α :=
  { q with
    members := q.members ++ [(op, member)]
    args := q.args.extend member.args
    memberArgs := q.memberArgs + member.args.length }

/-- Combines the query with others. -/
def combine (q : Query α) (op : SetOp) (members : List (Query α)) : Query α :=
  members.foldl (fun q member => q.attach op member) q

/-- Attaches a payload and binds its values in front of all others.  A query takes one payload
only. -/
def carry [HasNull α] (q : Query α) (payload : Except StepFault (Payload α)) : Query α :=
  match q.payload.kind, payload with
  | .empty, .ok payload => { q with payload, args := q.args.prepend payload.values }
  | .empty, .error fault => q.refuse fault
  | kind, _ => q.refuse (.payloadAttached kind)

end Query

end BoundSql
