import BoundSql.Query.Basic
import BoundSql.Sql.Render

/-!
From queries to statements.  A query is first searched for a refused step, then its parts are
checked against the statement asked for and put together as a command, and last the text of the
command is rendered.  A statement is returned only if its text has as many slots as the query
has values.
-/

namespace BoundSql

variable {α : Type}

/-- A statement that can be sent: its text, and its values in the order of its placeholders. -/
structure Statement (α : Type) where
  sql : String
  args : List α
  deriving DecidableEq

namespace Query

mutual

/-- The first refused step in a query or its members, the query before its members. -/
def firstFault? : Query α → Option StepFault
  | { fault, members, .. } => fault.or (firstFaultIn? members)

/-- The first refused step in members. -/
def firstFaultIn? : List (SetOp × Query α) → Option StepFault
  | [] => none
  | (_, q) :: rest => q.firstFault?.or (firstFaultIn? rest)

end

theorem firstFault?_eq (q : Query α) : q.firstFault? = q.fault.or (firstFaultIn? q.members) := by
  cases q
  rfl

mutual

/-- The SELECT that a query stands for. -/
def tree : Query α → Select Hole
  | { block, tail, members := [], .. } => .block block.body tail
  | { block, tail, members := m :: rest, outer, .. } =>
    .combined block.body tail (memberTrees (m :: rest)) outer

/-- The SELECTs that members stand for. -/
def memberTrees : List (SetOp × Query α) → List (SetOp × Select Hole)
  | [] => []
  | (op, q) :: rest => (op, q.tree) :: memberTrees rest

end

theorem tree_eq (q : Query α) :
    q.tree = match q.members with
      | [] => .block q.body q.tail
      | m :: rest => .combined q.body q.tail (memberTrees (m :: rest)) q.outer := by
  obtain ⟨_, _, members, _⟩ := q
  cases members <;> rfl

/-! ### The shape of a query -/

/-- A fault under a condition. -/
def refuseIf (bad : Bool) (fault : ShapeFault) : Except ShapeFault Unit :=
  if bad then .error fault else .ok ()

/-- A SELECT takes one or more tables, any other statement exactly one. -/
def checkTables (q : Query α) (kind : StatementKind) : Except ShapeFault Unit :=
  if kind = .select then refuseIf q.body.tables.isEmpty .noTable
  else refuseIf (q.body.tables.length != 1) (.tableCount kind q.body.tables.length)

/-- Checks the parts of a query, its members apart, against a kind of statement. -/
def checkOwn (q : Query α) (kind : StatementKind) : Except ShapeFault Unit := do
  q.checkTables kind
  refuseIf (kind != .select && !q.members.isEmpty) (.members kind)
  refuseIf (kind.inserts && !q.body.predicates.isEmpty) (.predicates kind)
  refuseIf (kind == .update && !q.body.joins.isEmpty) .joins
  refuseIf (q.payload.kind != kind.payload) (.payload kind q.payload.kind)
  refuseIf ((kind == .replace || kind == .upsert) && q.conflictTarget.isEmpty) (.noTarget kind)
  refuseIf (kind == .delete && q.body.predicates.isEmpty) .deletesAll

mutual

/-- Checks a query against a kind of statement, then each member as a SELECT. -/
def checkShape : Query α → StatementKind → Except ShapeFault Unit
  | q@{ members, .. }, kind => do
    q.checkOwn kind
    checkMembers members

def checkMembers : List (SetOp × Query α) → Except ShapeFault Unit
  | [] => .ok ()
  | (_, q) :: rest => do
    q.checkShape .select
    checkMembers rest

end

theorem checkShape_eq (q : Query α) (kind : StatementKind) :
    q.checkShape kind = q.checkOwn kind >>= fun _ => checkMembers q.members := by
  cases q
  rfl

/-! ### Commands -/

/-- The table of a statement that changes rows. -/
def firstTable (q : Query α) : Except RenderFault String :=
  match q.body.tables[0]? with
  | some table => .ok table
  | none => .error .noTable

/-- The slots of assignments. -/
def assignmentHoles (record : Record α) : List (String × Hole) :=
  record.columns.map fun c => (c, ())

/-- One row of slots for every record. -/
def rowHoles (columns : List String) (records : List (Record α)) : List (List Hole) :=
  records.map fun _ => columns.map fun _ => ()

/-- What a REPLACE does with a colliding row: it overwrites the columns outside the conflict
target. -/
def overwriteAction (target columns : List String) : ConflictAction Hole :=
  match columns.filter fun c => !target.contains c with
  | [] => .nothing
  | c :: rest => .overwrite (c :: rest)

/-- The command of an INSERT or REPLACE. -/
def insertCommand (q : Query α) (kind : StatementKind) : Except RenderFault (Command Hole) :=
  match q.payload with
  | .rows [] => .error .noRecord
  | .rows (first :: rest) => do
    let columns := first.columns
    let conflict : Option (Conflict Hole) :=
      if kind = .replace then some ⟨q.conflictTarget, overwriteAction q.conflictTarget columns⟩
      else none
    return .insert (← q.firstTable) columns (rowHoles columns (first :: rest)) conflict q.returning
  | _ => .error .noRows

def upsertCommand (q : Query α) : Except RenderFault (Command Hole) :=
  match q.payload with
  | .upsert insert update =>
    return .insert (← q.firstTable) insert.columns (rowHoles insert.columns [insert])
      (some ⟨q.conflictTarget, .assign (assignmentHoles update)⟩) q.returning
  | _ => .error .noUpsertValues

def updateCommand (q : Query α) : Except RenderFault (Command Hole) :=
  match q.payload with
  | .assignments record =>
    return .update (← q.firstTable) (assignmentHoles record) q.body.predicates q.returning
  | _ => .error .noAssignments

def deleteCommand (q : Query α) : Except RenderFault (Command Hole) :=
  return .delete (← q.firstTable) q.body.joins q.body.predicates q.returning

/-- The command of a kind of statement, whatever the shape of the query. -/
def assemble (q : Query α) : StatementKind → Except RenderFault (Command Hole)
  | .select => .ok (.select q.tree)
  | .insert => q.insertCommand .insert
  | .replace => q.insertCommand .replace
  | .upsert => q.upsertCommand
  | .update => q.updateCommand
  | .delete => q.deleteCommand

/-- The command of a kind of statement, or the first reason why there is none. -/
def command (q : Query α) (kind : StatementKind) : Except CompileError (Command Hole) := do
  (q.checkShape kind).mapError .shape
  (q.assemble kind).mapError .render

/-- The command that counts the rows of a query.  A block whose rows are the rows of its WHERE
clause is counted in place, any other SELECT from outside. -/
def countCommand (q : Query α) : Except CompileError (Command Hole) := do
  (q.checkShape .select).mapError .shape
  if q.body.groups.isEmpty && !q.body.distinct && q.members.isEmpty && q.tail.limit == 0
      && q.tail.offset == 0 then
    return .countBlock q.body
  else
    return .countRows q.tree

/-- The command that asks whether a query has a row. -/
def existsCommand (q : Query α) : Except CompileError (Command Hole) := do
  (q.checkShape .select).mapError .shape
  return .anyRow q.tree

/-- The statement of a command, with the values of a query. -/
def finish (q : Query α) (command : Command Hole) : Except CompileError (Statement α) :=
  let fragment := command.fragment
  if fragment.slotCount = q.args.length then .ok ⟨fragment.render q.style, q.args⟩
  else .error (.mismatch fragment.slotCount q.args.length)

/-- The statement of the command that a query gives, or the first reason why there is none. -/
def compileWith (give : Query α → Except CompileError (Command Hole)) (q : Query α) :
    Except CompileError (Statement α) :=
  match q.firstFault? with
  | some fault => .error (.step fault)
  | none =>
    match give q with
    | .error e => .error e
    | .ok command => q.finish command

/-- The statement of a given kind. -/
def compile (q : Query α) (kind : StatementKind) : Except CompileError (Statement α) :=
  q.compileWith fun q => q.command kind

/-- The statement that counts the rows of a query. -/
def compileCount (q : Query α) : Except CompileError (Statement α) := q.compileWith countCommand

/-- The statement that asks whether a query has a row. -/
def compileExists (q : Query α) : Except CompileError (Statement α) := q.compileWith existsCommand

end Query

end BoundSql
