import BoundSql.Proofs.Query.Command
import BoundSql.Proofs.Query.Recipe
import BoundSql.Proofs.Sql.Commands
import Mathlib.Data.List.Basic

/-! The values of a statement and the slots they stand in.  `Recipe.inline` is the command of the
query of a recipe with every value where the caller put it: in a predicate, in a cell of a row, in
an assignment, or inside a member.  Whichever statement is asked for, the values that go with its
text are the values of the inline command, slot by slot (`Recipe.fill?_args`). -/

namespace BoundSql

open Sql

variable {σ τ α : Type}

inductive EntryPoint where
  | statement (kind : StatementKind)
  | count
  | exists

namespace Query

/-- The command of a query, or the first reason why there is none. -/
def commandAt (q : Query α) : EntryPoint → Except CompileError (Command Hole)
  | .statement kind => q.command kind
  | .count => q.countCommand
  | .exists => q.existsCommand

/-- The statement of a query, or the first reason why there is none. -/
def compileAt (q : Query α) : EntryPoint → Except CompileError (Statement α)
  | .statement kind => q.compile kind
  | .count => q.compileCount
  | .exists => q.compileExists

theorem compileAt_eq (q : Query α) (entry : EntryPoint) :
    q.compileAt entry = q.compileWith fun q => q.commandAt entry := by
  cases entry <;> rfl

theorem selectFaultIn?_eq_none_iff {members : List (SetOp × Query α)} :
    selectFaultIn? members = none ↔ ∀ m ∈ members, m.2.selectFault? = none := by
  induction members with
  | nil => simp [selectFaultIn?_nil]
  | cons m rest ih => simp [selectFaultIn?_cons, ih]

theorem selectFault?_eq_none_iff {q : Query α} :
    q.selectFault? = none ↔
      q.body.tables ≠ [] ∧ q.payload.kind = .empty ∧ ∀ m ∈ q.members, m.2.selectFault? = none := by
  rw [selectFault?_eq, ← selectFaultIn?_eq_none_iff]
  by_cases htables : q.body.tables = []
  · simp [htables]
  · by_cases hpayload : q.payload.kind = .empty <;> simp [htables, hpayload]

end Query

/-! ### SELECT -/

def Body.withPredicates (b : Body σ) (predicates : List (Predicate τ)) : Body τ where
  distinct := b.distinct
  columns := b.columns
  tables := b.tables
  joins := b.joins
  predicates := predicates
  groups := b.groups

theorem Body.withPredicates_map {b : Body Hole} {predicates : List (Predicate α)}
    (h : b.predicates = predicates.map Predicate.withHoles) :
    (b.withPredicates predicates).map (fun _ => ()) = b := by
  obtain ⟨_, _, _, _, _, _⟩ := b
  subst h
  rfl

/-- A block, or the block combined with members when there are any. -/
def Select.ofMembers (body : Body σ) (tail : Tail) (outer : Tail) :
    List (SetOp × Select σ) → Select σ
  | [] => .block body tail
  | m :: rest => .combined body tail (m :: rest) outer

theorem Select.mapMembers_eq (f : σ → τ) (members : List (SetOp × Select σ)) :
    mapMembers f members = members.map fun m => (m.1, m.2.map f) := by
  induction members with
  | nil => rfl
  | cons m rest ih => rw [mapMembers, ih, List.map_cons]

theorem Select.memberSlots_eq (members : List (SetOp × Select σ)) :
    memberSlots members = members.flatMap fun m => m.2.slots := by
  induction members with
  | nil => rfl
  | cons m rest ih => rw [memberSlots, ih, List.flatMap_cons]

theorem Select.ofMembers_map (f : σ → τ) (body : Body σ) (tail outer : Tail)
    (members : List (SetOp × Select σ)) :
    (ofMembers body tail outer members).map f =
      ofMembers (body.map f) tail outer (members.map fun m => (m.1, m.2.map f)) := by
  cases members with
  | nil => rfl
  | cons m rest => rw [ofMembers, Select.map, mapMembers_eq, List.map_cons, ofMembers]

theorem Select.slots_ofMembers (body : Body σ) (tail outer : Tail)
    (members : List (SetOp × Select σ)) :
    (ofMembers body tail outer members).slots =
      body.slots ++ members.flatMap fun m => m.2.slots := by
  cases members with
  | nil => simp [ofMembers, Select.slots]
  | cons m rest => rw [ofMembers, Select.slots, memberSlots_eq]

theorem Query.memberTrees_eq (members : List (SetOp × Query α)) :
    memberTrees members = members.map fun m => (m.1, m.2.tree) := by
  induction members with
  | nil => rfl
  | cons m rest ih => rw [memberTrees, ih, List.map_cons]

theorem Query.tree_eq_ofMembers (q : Query α) :
    q.tree = .ofMembers q.body q.tail q.outer (q.members.map fun m => (m.1, m.2.tree)) := by
  rw [tree_eq, ← memberTrees_eq]
  cases q.members <;> rfl

namespace Recipe

variable [HasNull α]

mutual

def memberTrees : Recipe α → List (SetOp × Select α)
  | start _ => []
  | step before _ _ => before.memberTrees
  | combine before op members => before.memberTrees ++ (trees members).map fun s => (op, s)

def trees : List (Recipe α) → List (Select α)
  | [] => []
  | r :: rest =>
    .ofMembers (r.query.body.withPredicates r.predicates) r.query.tail r.query.outer r.memberTrees
      :: trees rest

end

/-- The SELECT that a recipe stands for, with the caller's values. -/
def tree (r : Recipe α) : Select α :=
  .ofMembers (r.query.body.withPredicates r.predicates) r.query.tail r.query.outer r.memberTrees

theorem trees_eq_map (rs : List (Recipe α)) : trees rs = rs.map tree := by
  induction rs with
  | nil => rfl
  | cons r rest ih => rw [trees, ih, List.map_cons, tree]

theorem memberTrees_eq (r : Recipe α) : r.memberTrees = r.members.map fun m => (m.1, m.2.tree) := by
  induction r using rec_members with
  | hstart table => rfl
  | hstep before s alone ih => rw [memberTrees, ih, members]
  | hcombine before op members ih =>
    rw [memberTrees, ih, Recipe.members, trees_eq_map, List.map_append, List.map_map, List.map_map]
    rfl

/-- Without its values, the SELECT of a recipe is the SELECT of its query. -/
theorem tree_map (r : Recipe α) : r.tree.map (fun _ => ()) = r.query.tree := by
  induction r using members_induction with
  | h r ih =>
    rw [tree, Select.ofMembers_map, Body.withPredicates_map r.predicates_query,
      Query.tree_eq_ofMembers, memberTrees_eq, members_query, List.map_map, List.map_map]
    congr 1
    exact List.map_congr_left fun m hm => congrArg (m.1, ·) (ih m hm)

/-- A query without a payload has its arguments in the order of the slots of its SELECT. -/
theorem slots_tree (r : Recipe α) (h : r.query.selectFault? = none) :
    r.tree.slots = r.query.args := by
  induction r using members_induction with
  | h r ih =>
    obtain ⟨_, hpayload, hmembers⟩ := Query.selectFault?_eq_none_iff.mp h
    have hvalues : r.query.payload.values = [] := by
      rw [Payload.kind_eq_empty.mp hpayload, Payload.values]
    have hslots : ∀ m ∈ r.members, m.2.tree.slots = m.2.query.args := fun m hm =>
      ih m hm (hmembers (m.1, m.2.query) (by
        rw [members_query]
        exact List.mem_map_of_mem hm))
    rw [tree, Select.slots_ofMembers, memberTrees_eq, List.flatMap_map, r.recorded.args, hvalues,
      List.nil_append, attachedArgs_query]
    congr 1
    exact List.flatMap_congr hslots

end Recipe

/-! ### Statements that change rows -/

/-- The columns under which a payload inserts its rows: those of the first of them. -/
def Payload.insertedColumns : Payload α → List String
  | .rows (first :: _) => first.columns
  | .upsert insert _ => insert.columns
  | .empty | .rows [] | .assignments _ => []

/-- The rows that a payload inserts, cell by cell under the columns of the first of them, with NULL
in the cell of a column that a row lacks. -/
def Payload.inserted [HasNull α] : Payload α → List (List α)
  | .rows (first :: rest) =>
    (first :: rest).map fun r => first.columns.map fun c => (r.get? c).getD HasNull.null
  | .upsert insert _ => [insert.fields.map Prod.snd]
  | .empty | .rows [] | .assignments _ => []

/-- The assignments of a payload, to the rows of a table or to colliding rows. -/
def Payload.assigned : Payload α → List (String × α)
  | .assignments record => record.fields
  | .upsert _ update => update.fields
  | .empty | .rows _ => []

def ConflictAction.withAssignments (action : ConflictAction σ) (assignments : List (String × τ)) :
    ConflictAction τ :=
  match action with
  | .nothing => .nothing
  | .overwrite columns => .overwrite columns
  | .assign _ => .assign assignments

theorem Query.rowHoles_eq_map [HasNull α] (columns : List String) (records : List (Record α)) :
    rowHoles columns records =
      (records.map fun r => columns.map fun c => (r.get? c).getD HasNull.null).map
        (List.map fun _ => ()) := by
  simp [rowHoles, Function.comp_def]

theorem Query.assignmentHoles_eq_map (record : Record α) :
    assignmentHoles record = record.fields.map fun a => (a.1, ()) := by
  simp [assignmentHoles, Record.columns, Function.comp_def]

theorem Query.map_fst_assignmentHoles (record : Record α) :
    (assignmentHoles record).map Prod.fst = record.columns := by
  simp [assignmentHoles, Function.comp_def]

theorem Record.map_snd_fields (r : Record α) :
    ((r.fields.map Prod.snd).map fun _ => ()) = r.columns.map fun _ => () := by
  simp [columns, Function.comp_def]

theorem Predicate.map_map_hole (predicates : List (Predicate α)) :
    predicates.map (Predicate.map fun _ => ()) = predicates.map Predicate.withHoles := rfl

namespace Recipe

variable [HasNull α]

/-- A command of the query of a recipe with every value where the caller put it. -/
def inline (r : Recipe α) : Command Hole → Command α
  | .select _ => .select r.tree
  | .countBlock body => .countBlock (body.withPredicates r.predicates)
  | .countRows _ => .countRows r.tree
  | .anyRow _ => .anyRow r.tree
  | .insert table _ _ conflict returning =>
    .insert table r.payload.insertedColumns r.payload.inserted
      (conflict.map fun c => ⟨c.target, c.action.withAssignments r.payload.assigned⟩) returning
  | .update table _ _ returning => .update table r.payload.assigned r.predicates returning
  | .delete table joins _ returning => .delete table joins r.predicates returning

/-- A command of the query of a recipe is the inline command without its values, and these are
the arguments of the query. -/
structure Binds (r : Recipe α) (c : Command Hole) : Prop where
  map : (r.inline c).map (fun _ => ()) = c
  slots : (r.inline c).slots = r.query.args

/-- The arguments of a query without members are those of its payload and its predicates. -/
theorem args_of_members {r : Recipe α} (h : r.query.members = []) :
    r.query.args = r.payload.asked ++ r.predicates.flatMap Predicate.slots := by
  have hattached : (r.members.flatMap fun m => m.2.query.args) = [] := by
    rw [← attachedArgs_query, Query.attachedArgs, h, List.flatMap_nil]
  rw [r.segments.args, hattached, List.append_nil]

theorem args_of_payload {r : Recipe α} (hmembers : r.query.members = [])
    (hpayload : r.query.payload.kind = .empty) :
    r.query.args = r.predicates.flatMap Predicate.slots := by
  rw [args_of_members hmembers, ← payload_query, Payload.kind_eq_empty.mp hpayload]
  rfl

theorem args_of_predicates {r : Recipe α} (hmembers : r.query.members = [])
    (hpredicates : r.query.body.predicates = []) : r.query.args = r.payload.asked := by
  rw [predicates_query, List.map_eq_nil_iff] at hpredicates
  rw [args_of_members hmembers, hpredicates]
  simp

theorem binds_select {r : Recipe α} (h : r.query.selectFault? = none) :
    r.Binds (.select r.query.tree) :=
  ⟨congrArg Command.select r.tree_map, r.slots_tree h⟩

theorem binds_count {r : Recipe α} {c : Command Hole} (h : r.query.countCommand = .ok c) :
    r.Binds c := by
  obtain ⟨hfault, rfl | ⟨hmembers, rfl⟩⟩ := Query.countCommand_ok h
  · exact ⟨congrArg Command.countRows r.tree_map, r.slots_tree hfault⟩
  · obtain ⟨_, hpayload, _⟩ := Query.selectFault?_eq_none_iff.mp hfault
    exact ⟨congrArg Command.countBlock (Body.withPredicates_map r.predicates_query),
      (args_of_payload hmembers hpayload).symm⟩

theorem binds_exists {r : Recipe α} {c : Command Hole} (h : r.query.existsCommand = .ok c) :
    r.Binds c := by
  obtain ⟨hfault, rfl⟩ := Query.existsCommand_ok h
  exact ⟨congrArg Command.anyRow r.tree_map, r.slots_tree hfault⟩

/-- Rows, whatever happens on a collision as long as it assigns no values. -/
theorem binds_rows {r : Recipe α} {table : String} {first : Record α} {rest : List (Record α)}
    {conflict : Option (Conflict Hole)} {returning : List String}
    (hmembers : r.query.members = []) (hpredicates : r.query.body.predicates = [])
    (hpayload : r.query.payload = .rows (first :: rest))
    (hconflict : ∀ c ∈ conflict, c.action = .nothing ∨ ∃ columns, c.action = .overwrite columns) :
    r.Binds (.insert table first.columns (Query.rowHoles first.columns (first :: rest)) conflict
      returning) := by
  have hargs := args_of_predicates hmembers hpredicates
  rw [payload_query] at hpayload
  rw [hpayload, Payload.asked] at hargs
  constructor
  · rw [inline, Command.map, hpayload, Payload.inserted, Query.rowHoles_eq_map]
    congr 1
    cases conflict with
    | none => rfl
    | some c =>
      obtain ⟨target, action⟩ := c
      obtain rfl | ⟨columns, rfl⟩ := hconflict _ rfl <;> rfl
  · rw [hargs, inline, Command.slots, hpayload, Payload.inserted, List.flatMap_def]
    cases conflict with
    | none => simp
    | some c =>
      obtain ⟨target, action⟩ := c
      obtain rfl | ⟨columns, rfl⟩ := hconflict _ rfl <;>
        simp [ConflictAction.withAssignments, ConflictAction.slots]

theorem overwriteAction_cases (target columns : List String) :
    Query.overwriteAction target columns = .nothing ∨
      ∃ overwritten, Query.overwriteAction target columns = .overwrite overwritten := by
  unfold Query.overwriteAction
  split
  · exact .inl rfl
  · exact .inr ⟨_, rfl⟩

theorem binds_upsert {r : Recipe α} {c : Command Hole} (h : r.query.command .upsert = .ok c) :
    r.Binds c := by
  obtain ⟨table, insert, update, _, hmembers, hpredicates, hpayload, _, rfl⟩ :=
    Query.command_upsert_ok h
  have hargs := args_of_predicates hmembers hpredicates
  rw [payload_query] at hpayload
  rw [hpayload] at hargs
  constructor
  · simp only [inline, hpayload, Payload.inserted, Payload.assigned, Command.map, Option.map_some,
      Conflict.map, ConflictAction.withAssignments, ConflictAction.map, List.map_cons, List.map_nil,
      Record.map_snd_fields, Query.assignmentHoles_eq_map]
    rfl
  · rw [hargs]
    simp [inline, hpayload, Payload.inserted, Payload.assigned, Command.slots, Payload.asked,
      ConflictAction.withAssignments, ConflictAction.slots]

theorem binds_update {r : Recipe α} {c : Command Hole} (h : r.query.command .update = .ok c) :
    r.Binds c := by
  obtain ⟨table, record, _, hmembers, _, hpayload, rfl⟩ := Query.command_update_ok h
  have hargs := args_of_members hmembers
  rw [payload_query] at hpayload
  rw [hpayload] at hargs
  constructor
  · rw [inline, hpayload, Payload.assigned, Command.map, Predicate.map_map_hole,
      ← predicates_query, Query.assignmentHoles_eq_map]
  · rw [hargs, inline, hpayload]
    rfl

theorem binds_delete {r : Recipe α} {c : Command Hole} (h : r.query.command .delete = .ok c) :
    r.Binds c := by
  obtain ⟨table, _, hmembers, hpayload, _, rfl⟩ := Query.command_delete_ok h
  constructor
  · rw [inline, Command.map, Predicate.map_map_hole, ← predicates_query]
  · rw [args_of_payload hmembers hpayload]
    rfl

/-- Every command of the query of a recipe. -/
theorem binds {r : Recipe α} {entry : EntryPoint} {c : Command Hole}
    (h : r.query.commandAt entry = .ok c) : r.Binds c := by
  rcases entry with kind | _ | _
  · cases kind with
    | select =>
      obtain ⟨hfault, rfl⟩ := Query.command_select_ok h
      exact binds_select hfault
    | insert =>
      obtain ⟨table, first, rest, _, hmembers, hpredicates, hpayload, rfl⟩ :=
        Query.command_insert_ok h
      exact binds_rows hmembers hpredicates hpayload nofun
    | replace =>
      obtain ⟨table, first, rest, _, hmembers, hpredicates, hpayload, _, rfl⟩ :=
        Query.command_replace_ok h
      refine binds_rows hmembers hpredicates hpayload fun c hc => ?_
      cases hc
      exact overwriteAction_cases _ _
    | upsert => exact binds_upsert h
    | update => exact binds_update h
    | delete => exact binds_delete h
  · exact binds_count h
  · exact binds_exists h

/-- The text of a command of the query of a recipe has as many slots as the query has
arguments. -/
theorem slotCount_of_commandAt {r : Recipe α} {entry : EntryPoint} {c : Command Hole}
    (h : r.query.commandAt entry = .ok c) : c.fragment.slotCount = r.query.args.length := by
  have hbinds := binds h
  have hslots : c.fragment.slots = r.query.args.map fun _ => () := by
    rw [← hbinds.map, Command.fragment_map, Fragment.slots_map, Command.slots_fragment,
      hbinds.slots]
  rw [Fragment.slotCount, hslots, List.length_map]

/-- Whichever statement is asked for, putting its values into the slots of its text from left to
right gives every slot the value that the caller gave for it. -/
theorem fill?_args {r : Recipe α} {entry : EntryPoint} {s : Statement α}
    (h : r.query.compileAt entry = .ok s) :
    ∃ c, r.query.commandAt entry = .ok c ∧ c.fragment.render r.query.style = s.sql ∧
      (r.inline c).map (fun _ => ()) = c ∧
      c.fragment.fill? s.args = some (r.inline c).fragment.pieces := by
  rw [Query.compileAt_eq, Query.compileWith_ok_iff] at h
  obtain ⟨_, c, hc, hfinish⟩ := h
  obtain ⟨_, rfl⟩ := Query.finish_ok_iff.mp hfinish
  have hbinds := binds hc
  refine ⟨c, hc, rfl, hbinds.map, ?_⟩
  have hfill := Fragment.fill?_map (fun _ => ()) (r.inline c).fragment
  rwa [← Command.fragment_map, hbinds.map, Command.slots_fragment, hbinds.slots] at hfill

/-- Two rows, of which the second has its columns in another order and lacks one. -/
def unevenRows : Recipe Value :=
  .step (.start (some "users"))
    (.rows [.ofList [("id", .int8 1), ("name", .text "a"), ("age", .int8 2)],
      .ofList [("name", .text "b"), ("id", .int8 3)]]) rfl

/-- A predicate before a union and one after it, with a member that has a member of its own. -/
def aroundUnion : Recipe Value :=
  let filtered (r : Recipe Value) (p : Predicate Value) : Recipe Value := .step r (.filter p) rfl
  let c := filtered (.start (some "c")) ⟨.and, .compare "z" .lt (.int8 4)⟩
  let b := filtered (.start (some "b")) ⟨.and, .between "y" false (.int8 2) (.int8 3)⟩
  let a := filtered (.start (some "a")) ⟨.and, .compare "x" .eq (.int8 0)⟩
  filtered (.combine a .union [.combine b .unionAll [c]]) ⟨.or, .compare "x" .gt (.int8 1)⟩

theorem fill?_aroundUnion :
    (∃ s c, aroundUnion.query.compileAt (.statement .select) = .ok s ∧
      s.args = [.int8 0, .int8 1, .int8 2, .int8 3, .int8 4] ∧
      aroundUnion.query.commandAt (.statement .select) = .ok c ∧
      c.fragment.render aroundUnion.query.style = s.sql ∧
      (aroundUnion.inline c).map (fun _ => ()) = c ∧
      c.fragment.fill? s.args = some (aroundUnion.inline c).fragment.pieces) ∧
    ∃ s c, unevenRows.query.compileAt (.statement .insert) = .ok s ∧
      s.args = [.int8 1, .text "a", .int8 2, .int8 3, .text "b", .null] ∧
      unevenRows.inline c = .insert "users" ["id", "name", "age"]
        [[.int8 1, .text "a", .int8 2], [.int8 3, .text "b", .null]] none [] ∧
      c.fragment.fill? s.args = some (unevenRows.inline c).fragment.pieces := by
  have h : aroundUnion.query.compileAt (.statement .select) = .ok
      ⟨"SELECT * FROM a WHERE x = $1 OR x > $2 UNION (SELECT * FROM b WHERE y BETWEEN $3 AND $4 "
          ++ "UNION ALL SELECT * FROM c WHERE z < $5)",
        [.int8 0, .int8 1, .int8 2, .int8 3, .int8 4]⟩ := by
    decide +kernel
  have hrows : unevenRows.query.compileAt (.statement .insert) = .ok
      ⟨"INSERT INTO users (id, name, age) VALUES ($1, $2, $3), ($4, $5, $6)",
        [.int8 1, .text "a", .int8 2, .int8 3, .text "b", .null]⟩ := by
    decide +kernel
  obtain ⟨c, hc⟩ := fill?_args h
  obtain ⟨d, hd, _, _, hfill⟩ := fill?_args hrows
  refine ⟨⟨_, c, h, rfl, hc⟩, _, d, hrows, rfl, ?_, hfill⟩
  cases hd
  rfl

end Recipe

end BoundSql
