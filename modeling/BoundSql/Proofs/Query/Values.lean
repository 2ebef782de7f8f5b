import BoundSql.Proofs.Query.Acceptance
import Mathlib.Data.List.InsertIdx

/-! Other values in the same steps.  `Recipe.map` replaces every value that a caller passes, in a
recipe and in the recipes of its members.  A query built with other values is the query with its
values replaced (`Recipe.query_map`), and the statement compiled from it is the statement with its
values replaced (`Query.compileAt_map`), as long as NULL is left alone, which also stands in the
cells that a record lacks. -/

namespace BoundSql

variable {α β γ : Type}

namespace Record

variable (f : α → β)

@[simp]
theorem columns_map (r : Record α) : (r.map f).columns = r.columns := by
  simp [map, columns, Function.comp_def]

@[simp]
theorem values_map (r : Record α) : (r.map f).values = r.values.map f := by
  simp [map, values, Function.comp_def]

@[simp]
theorem isEmpty_map (r : Record α) : (r.map f).isEmpty = r.isEmpty := by
  simp [map, isEmpty]

@[simp]
theorem get?_map (r : Record α) (column : String) :
    (r.map f).get? column = (r.get? column).map f := by
  show (r.fields.map fun p => (p.1, f p.2)).lookup column = (r.fields.lookup column).map f
  induction r.fields with
  | nil => rfl
  | cons field rest ih =>
    obtain ⟨c, v⟩ := field
    rw [List.map_cons, List.lookup_cons, List.lookup_cons, ih]
    cases column == c <;> rfl

@[simp]
theorem contains_map (r : Record α) (column : String) :
    (r.map f).contains column = r.contains column := by
  simp [contains]

theorem map_map (g : β → γ) (r : Record α) : (r.map f).map g = r.map (g ∘ f) := by
  simp [map]

theorem map_id (r : Record α) : r.map id = r := by
  simp [map]

theorem map_set (r : Record α) (column : String) (a : α) :
    (r.set column a).map f = (r.map f).set column (f a) := by
  have h : ∀ fields : List (String × α),
      (assignField column a fields).map (fun p => (p.1, f p.2)) =
        assignField column (f a) (fields.map fun p => (p.1, f p.2)) := by
    intro fields
    induction fields with
    | nil => rfl
    | cons field rest ih =>
      obtain ⟨c, v⟩ := field
      by_cases hc : c = column <;> simp [assignField, hc, ih]
  simpa only [map, set, mk.injEq] using h r.fields

/-- A record of other values is set column by column as the record itself. -/
theorem map_ofList (pairs : List (String × α)) :
    (ofList pairs).map f = ofList (pairs.map fun p => (p.1, f p.2)) := by
  induction pairs using List.reverseRecOn with
  | nil => rfl
  | append_singleton pairs p ih =>
    simp only [ofList, List.foldl_append, List.map_append, List.foldl_cons, List.foldl_nil,
      List.map_cons, List.map_nil] at ih ⊢
    rw [map_set, ih]

theorem cells_map [HasNull α] [HasNull β] {g : α → β} (hg : g HasNull.null = HasNull.null)
    (r : Record α) (columns : List String) :
    (r.map g).cells columns = (r.cells columns).map g := by
  rw [cells, cells, List.map_map]
  refine List.map_congr_left fun c _ => ?_
  -- The cell of a missing column is NULL on the left, and the image of NULL on the right.
  rw [get?_map, Function.comp_apply, ← hg, Option.getD_map]

end Record

namespace Payload

variable (f : α → β)

@[simp]
theorem kind_map (payload : Payload α) : (payload.map f).kind = payload.kind := by
  cases payload <;> rfl

theorem map_map (g : β → γ) (payload : Payload α) :
    (payload.map f).map g = payload.map (g ∘ f) := by
  cases payload <;> simp [map, Record.map_map, Function.comp_def]

theorem map_id (payload : Payload α) : payload.map id = payload := by
  have hrows : ∀ records : List (Record α), records.map (Record.map id) = records := by
    intro records
    rw [funext Record.map_id, List.map_id']
  cases payload <;> simp only [map, Record.map_id, hrows]

theorem strayColumn?_map (first : Record α) (number : Nat) (rest : List (Record α)) :
    strayColumn? (first.map f) number (rest.map (Record.map f)) =
      strayColumn? first number rest := by
  induction rest generalizing number with
  | nil => rfl
  | cons r rest ih =>
    rw [List.map_cons, strayColumn?, strayColumn?, Record.columns_map]
    simp only [Record.contains_map, ih]

theorem ofRows_map (records : List (Record α)) :
    ofRows (records.map (Record.map f)) = (ofRows records).map (Payload.map f) := by
  cases records with
  | nil => rfl
  | cons first rest =>
    rw [List.map_cons, ofRows, ofRows, Record.isEmpty_map, strayColumn?_map]
    split
    · rfl
    · split <;> rfl

theorem ofAssignments_map (record : Record α) :
    ofAssignments (record.map f) = (ofAssignments record).map (Payload.map f) := by
  rw [ofAssignments, ofAssignments, Record.isEmpty_map]
  split <;> rfl

theorem ofUpsert_map (insert update : Record α) :
    ofUpsert (insert.map f) (update.map f) = (ofUpsert insert update).map (Payload.map f) := by
  rw [ofUpsert, ofUpsert, Record.isEmpty_map, Record.isEmpty_map]
  split <;> rfl

theorem rowColumns_map (records : List (Record α)) :
    rowColumns (records.map (Record.map f)) = rowColumns records := by
  cases records with
  | nil => rfl
  | cons first rest => exact first.columns_map f

theorem values_map [HasNull α] [HasNull β] {g : α → β} (hg : g HasNull.null = HasNull.null)
    (payload : Payload α) : (payload.map g).values = payload.values.map g := by
  cases payload with
  | empty => rfl
  | rows records =>
    simp [map, values, rowColumns_map, Record.cells_map hg, List.flatMap_map, List.map_flatMap]
  | assignments record => simp [map, values]
  | upsert insert update => simp [map, values]

end Payload

namespace Predicate

theorem slots_map (f : α → β) (p : Predicate α) : (p.map f).slots = p.slots.map f :=
  p.condition.slots_map f

theorem recorded_map (f : α → β) (p : Predicate α) : (p.map f).recorded = p.recorded := by
  obtain ⟨connective, condition⟩ := p
  cases condition <;> simp [recorded, width, map, Condition.map, Condition.column, Condition.operator]

theorem map_map (f : α → β) (g : β → γ) (p : Predicate α) : (p.map f).map g = p.map (g ∘ f) := by
  obtain ⟨connective, condition⟩ := p
  cases condition <;> simp [map, Condition.map]

theorem map_id (p : Predicate α) : p.map id = p := by
  obtain ⟨connective, condition⟩ := p
  cases condition <;> simp [map, Condition.map]

end Predicate

/-! ### Queries -/

mutual

/-- A query with its values replaced. -/
def Query.map (f : α → β) : Query α → Query β
  | { block, tail, members, outer, conflictTarget, returning, payload, args, memberArgs, style,
      fault } =>
    { block, tail, members := Query.mapMembers f members, outer, conflictTarget, returning,
      payload := payload.map f, args := args.map f, memberArgs, style, fault }

def Query.mapMembers (f : α → β) : List (SetOp × Query α) → List (SetOp × Query β)
  | [] => []
  | (op, q) :: rest => (op, q.map f) :: Query.mapMembers f rest

end

namespace Query

variable (f : α → β)

theorem mapMembers_eq (members : List (SetOp × Query α)) :
    mapMembers f members = members.map fun m => (m.1, m.2.map f) := by
  induction members with
  | nil => rfl
  | cons m rest ih => rw [mapMembers, ih, List.map_cons]

theorem map_eq (q : Query α) :
    q.map f =
      { block := q.block, tail := q.tail, members := q.members.map fun m => (m.1, m.2.map f),
        outer := q.outer, conflictTarget := q.conflictTarget, returning := q.returning,
        payload := q.payload.map f, args := q.args.map f, memberArgs := q.memberArgs,
        style := q.style, fault := q.fault } := by
  rw [← mapMembers_eq]
  cases q
  rfl

@[simp]
theorem block_map (q : Query α) : (q.map f).block = q.block := by rw [map_eq]

@[simp]
theorem body_map (q : Query α) : (q.map f).body = q.body := congrArg Block.body (q.block_map f)

@[simp]
theorem tail_map (q : Query α) : (q.map f).tail = q.tail := by rw [map_eq]

@[simp]
theorem members_map (q : Query α) :
    (q.map f).members = q.members.map fun m => (m.1, m.2.map f) := by
  rw [map_eq]

@[simp]
theorem outer_map (q : Query α) : (q.map f).outer = q.outer := by rw [map_eq]

@[simp]
theorem conflictTarget_map (q : Query α) : (q.map f).conflictTarget = q.conflictTarget := by
  rw [map_eq]

@[simp]
theorem returning_map (q : Query α) : (q.map f).returning = q.returning := by rw [map_eq]

@[simp]
theorem payload_map (q : Query α) : (q.map f).payload = q.payload.map f := by rw [map_eq]

@[simp]
theorem args_map (q : Query α) : (q.map f).args = q.args.map f := by rw [map_eq]

@[simp]
theorem style_map (q : Query α) : (q.map f).style = q.style := by rw [map_eq]

@[simp]
theorem fault_map (q : Query α) : (q.map f).fault = q.fault := by rw [map_eq]

theorem map_map (g : β → γ) (q : Query α) : (q.map f).map g = q.map (g ∘ f) := by
  induction q using members_induction with
  | h q ih =>
    have hmembers : ((q.map f).members.map fun m => (m.1, m.2.map g)) =
        q.members.map fun m => (m.1, m.2.map (g ∘ f)) := by
      rw [members_map, List.map_map]
      exact List.map_congr_left fun m hm => congrArg (m.1, ·) (ih m hm)
    rw [map_eq g, map_eq (g ∘ f), hmembers, payload_map, Payload.map_map, args_map, List.map_map]
    rw [map_eq]

theorem map_id (q : Query α) : q.map id = q := by
  induction q using members_induction with
  | h q ih =>
    have hmembers : (q.members.map fun m => (m.1, m.2.map id)) = q.members := by
      refine (List.map_congr_left fun m hm => ?_).trans (List.map_id' q.members)
      rw [ih m hm]
    rw [map_eq, hmembers, Payload.map_id, List.map_id]
    cases q
    rfl

theorem bind_map (q : Query α) (a : α) : (q.bind a).map f = (q.map f).bind (f a) := by
  rw [map_eq, map_eq f q, bind, bind, Args.insertBeforeLast, Args.insertBeforeLast,
    List.map_insertIdx, List.length_map]

theorem foldl_bind_map (q : Query α) (values : List α) :
    (values.foldl bind q).map f = (values.map f).foldl bind (q.map f) := by
  induction values generalizing q with
  | nil => rfl
  | cons a values ih => rw [List.foldl_cons, ih, bind_map, List.map_cons, List.foldl_cons]

theorem filter_map (q : Query α) (p : Predicate α) :
    (q.filter p).map f = (q.map f).filter (p.map f) := by
  rw [filter_eq_foldl_bind, filter_eq_foldl_bind, foldl_bind_map, Predicate.slots_map,
    Predicate.recorded_map, pushFilter, pushFilter, map_eq, map_eq f q]

theorem refuse_map (q : Query α) (fault : StepFault) :
    (q.refuse fault).map f = (q.map f).refuse fault := by
  rw [refuse, refuse, map_eq, map_eq f q]

theorem combine_map (q : Query α) (op : SetOp) (members : List (Query α)) :
    (q.combine op members).map f = (q.map f).combine op (members.map (map f)) := by
  rw [combine_eq, combine_eq, map_eq, map_eq f q]
  simp [Function.comp_def, List.flatMap_map, List.map_flatMap]

theorem carry_map [HasNull α] [HasNull β] {g : α → β} (hg : g HasNull.null = HasNull.null)
    (q : Query α) (offered : Except StepFault (Payload α)) :
    (q.carry offered).map g = (q.map g).carry (offered.map (Payload.map g)) := by
  have hpayload : (q.map g).payload.kind = q.payload.kind := by
    rw [payload_map, Payload.kind_map]
  by_cases hkind : q.payload.kind = .empty
  · cases offered with
    | error fault =>
      rw [carry_error hkind, refuse_map]
      exact (carry_error (hpayload.trans hkind) fault).symm
    | ok payload =>
      rw [carry_ok hkind]
      refine Eq.trans ?_ (carry_ok (hpayload.trans hkind) (payload.map g)).symm
      rw [map_eq, map_eq g q, Args.prepend, Args.prepend, List.map_append, Payload.values_map hg]
  · rw [carry_again hkind, refuse_map, carry_again (hpayload.symm ▸ hkind), hpayload]

end Query

/-- A step with its values replaced. -/
def Step.map (f : α → β) : Step α → Step β
  | .tables names => .tables names
  | .select columns => .select columns
  | .distinct => .distinct
  | .groupBy groups => .groupBy groups
  | .orderBy key => .orderBy key
  | .limit n => .limit n
  | .offset n => .offset n
  | .outerOrderBy key => .outerOrderBy key
  | .outerLimit n => .outerLimit n
  | .outerOffset n => .outerOffset n
  | .onConflict columns => .onConflict columns
  | .returning columns => .returning columns
  | .placeholder style => .placeholder style
  | .join j => .join j
  | .combine op members => .combine op (members.map (Query.map f))
  | .filter p => .filter (p.map f)
  | .filterText connective column operator a => .filterText connective column operator (f a)
  | .rows records => .rows (records.map (Record.map f))
  | .assignments record => .assignments (record.map f)
  | .upsert insert update => .upsert (insert.map f) (update.map f)

theorem Query.apply_map [HasNull α] [HasNull β] {g : α → β} (hg : g HasNull.null = HasNull.null)
    (q : Query α) (s : Step α) : (q.apply s).map g = (q.map g).apply (s.map g) := by
  cases s with
  | combine op members => exact combine_map g q op members
  | filter p => exact filter_map g q p
  | filterText connective column operator a =>
    simp only [apply, Step.map, filterText_eq]
    split
    · rw [filter_map]
      rfl
    · exact refuse_map g q _
  | rows records =>
    rw [apply, carry_map hg, ← Payload.ofRows_map]
    rfl
  | assignments record =>
    rw [apply, carry_map hg, ← Payload.ofAssignments_map]
    rfl
  | upsert insert update =>
    rw [apply, carry_map hg, ← Payload.ofUpsert_map]
    rfl
  | _ => rw [apply, Step.map, apply, map_eq, map_eq g q]

/-! ### Statements -/

/-- A statement with its values replaced. -/
def Statement.map (f : α → β) (s : Statement α) : Statement β := ⟨s.sql, s.args.map f⟩

namespace Query

variable (f : α → β)

theorem nodes_map (q : Query α) : (q.map f).nodes = q.nodes.map (map f) := by
  induction q using members_induction with
  | h q ih =>
    have hmembers : (q.members.flatMap fun m => (m.2.map f).nodes) =
        q.members.flatMap fun m => m.2.nodes.map (map f) := List.flatMap_congr ih
    rw [nodes_eq, nodes_eq, nodesIn_eq, nodesIn_eq, members_map, List.flatMap_map, hmembers,
      List.map_cons, List.map_flatMap]

theorem firstFault?_map (q : Query α) : (q.map f).firstFault? = q.firstFault? := by
  rw [firstFault?_eq_findSome?, firstFault?_eq_findSome?, nodes_map, List.findSome?_map]
  simp only [Function.comp_def, fault_map]

theorem ownViolations_map (q : Query α) (kind : StatementKind) :
    (q.map f).ownViolations kind = q.ownViolations kind := by
  simp [ownViolations]

theorem violations_map (q : Query α) (kind : StatementKind) :
    (q.map f).violations kind = q.violations kind := by
  have hnodes := nodes_map f q
  rw [nodes_eq, nodes_eq, List.map_cons] at hnodes
  rw [violations, violations, (List.cons.inj hnodes).2, List.flatMap_map]
  simp only [ownViolations_map]

theorem selectFault?_map (q : Query α) : (q.map f).selectFault? = q.selectFault? := by
  rw [selectFault?, selectFault?, violations_map]

theorem tree_map (q : Query α) : (q.map f).tree = q.tree := by
  induction q using members_induction with
  | h q ih =>
    have hmembers : (q.map f).members.map (fun m => (m.1, m.2.tree)) =
        q.members.map fun m => (m.1, m.2.tree) := by
      rw [members_map, List.map_map]
      exact List.map_congr_left fun m hm => congrArg (m.1, ·) (ih m hm)
    rw [tree_eq_ofMembers, tree_eq_ofMembers, hmembers, body_map, tail_map, outer_map]

theorem assignmentHoles_map (record : Record α) :
    assignmentHoles (record.map f) = assignmentHoles record := by
  rw [assignmentHoles, assignmentHoles, Record.columns_map]

theorem rowHoles_eq (columns : List String) (records : List (Record α)) :
    rowHoles columns records = List.replicate records.length (columns.map fun _ => ()) := by
  simp [rowHoles]

theorem firstTable_map (q : Query α) : (q.map f).firstTable = q.firstTable := by
  rw [firstTable, firstTable, body_map]

theorem insertCommand_map (q : Query α) (kind : StatementKind) :
    (q.map f).insertCommand kind = q.insertCommand kind := by
  rw [insertCommand, insertCommand, payload_map]
  cases q.payload with
  | rows records =>
    cases records with
    | nil => rfl
    | cons first rest =>
      simp only [Payload.map, List.map_cons, firstTable_map, conflictTarget_map, returning_map,
        Record.columns_map, rowHoles_eq, List.length_cons, List.length_map]
  | _ => rfl

theorem assemble_map (q : Query α) (kind : StatementKind) :
    (q.map f).assemble kind = q.assemble kind := by
  cases kind with
  | select => rw [assemble, assemble, tree_map]
  | insert | replace => exact insertCommand_map f q _
  | upsert =>
    rw [assemble, assemble, upsertCommand, upsertCommand, payload_map]
    cases q.payload with
    | upsert insert update =>
      simp only [Payload.map, firstTable_map, conflictTarget_map, returning_map, Record.columns_map,
        assignmentHoles_map, rowHoles_eq, List.length_cons, List.length_nil]
    | _ => rfl
  | update =>
    rw [assemble, assemble, updateCommand, updateCommand, payload_map]
    cases q.payload with
    | assignments record =>
      simp only [Payload.map, firstTable_map, body_map, returning_map, assignmentHoles_map]
    | _ => rfl
  | delete =>
    simp only [assemble, deleteCommand, firstTable_map, body_map, returning_map]

theorem command_map (q : Query α) (kind : StatementKind) :
    (q.map f).command kind = q.command kind := by
  rw [command_eq, command_eq, violations_map, assemble_map]

theorem counting_map (q : Query α) : (q.map f).counting = q.counting := by
  have hplace : (q.map f).CountedInPlace ↔ q.CountedInPlace := by
    simp only [CountedInPlace, body_map, members_map, List.map_eq_nil_iff, tail_map]
  rw [counting, counting, body_map, tree_map]
  exact if_congr hplace rfl rfl

/-- Which command a query gives does not depend on its values. -/
theorem commandAt_map (q : Query α) (entry : EntryPoint) :
    (q.map f).commandAt entry = q.commandAt entry := by
  cases entry with
  | statement kind => exact command_map f q kind
  | count =>
    rw [commandAt, commandAt, countCommand_eq, countCommand_eq, selectFault?_map, counting_map]
  | «exists» =>
    rw [commandAt, commandAt, existsCommand_eq, existsCommand_eq, selectFault?_map, tree_map]

theorem finish_map (q : Query α) (command : Command Hole) :
    (q.map f).finish command = (q.finish command).map (Statement.map f) := by
  simp only [finish, args_map, style_map, List.length_map]
  split <;> rfl

/-- The statement of a query with other values has the same text, and its values are replaced. -/
theorem compileAt_map (q : Query α) (entry : EntryPoint) :
    (q.map f).compileAt entry = (q.compileAt entry).map (Statement.map f) := by
  rw [compileAt_eq, compileAt_eq, compileWith, compileWith, firstFault?_map, commandAt_map]
  cases q.firstFault? with
  | some fault => rfl
  | none =>
    cases q.commandAt entry with
    | error fault => rfl
    | ok command => exact finish_map f q command

end Query

/-! ### Recipes -/

theorem Step.attached_map (f : α → β) (s : Step α) :
    (s.map f).attached = s.attached.map fun m => (m.1, m.2.map f) := by
  cases s with
  | combine op members => simp [map, attached, Function.comp_def]
  | _ => rfl

theorem Step.predicates_map (f : α → β) (s : Step α) :
    (s.map f).predicates = s.predicates.map (Predicate.map f) := by
  cases s with
  | filterText connective column operator a =>
    rw [map, predicates, predicates]
    cases Comparison.ofText? operator <;> rfl
  | _ => rfl

theorem Step.payload?_map (f : α → β) (s : Step α) :
    (s.map f).payload? = s.payload?.map (Payload.map f) := by
  have hoffered : (s.map f).offered? = s.offered?.map (Except.map (Payload.map f)) := by
    cases s with
    | rows records => exact congrArg some (Payload.ofRows_map f records)
    | assignments record => exact congrArg some (Payload.ofAssignments_map f record)
    | upsert insert update => exact congrArg some (Payload.ofUpsert_map f insert update)
    | _ => rfl
  rw [payload?, payload?, hoffered]
  rcases s.offered? with _ | _ | _ <;> rfl

theorem Step.map_map (f : α → β) (g : β → γ) (s : Step α) : (s.map f).map g = s.map (g ∘ f) := by
  cases s with
  | combine op members =>
    rw [map, map, map, List.map_map]
    exact congrArg (combine op) (List.map_congr_left fun q _ => q.map_map f g)
  | filter p => exact congrArg filter (p.map_map f g)
  | rows records =>
    rw [map, map, map, List.map_map]
    exact congrArg rows (List.map_congr_left fun r _ => r.map_map f g)
  | assignments record => exact congrArg assignments (record.map_map f g)
  | upsert insert update =>
    exact congrArg₂ upsert (insert.map_map f g) (update.map_map f g)
  | _ => rfl

theorem Step.map_id (s : Step α) : s.map id = s := by
  cases s with
  | combine op members => rw [map, funext Query.map_id, List.map_id']
  | filter p => exact congrArg filter p.map_id
  | rows records => rw [map, funext Record.map_id, List.map_id']
  | assignments record => exact congrArg assignments record.map_id
  | upsert insert update => exact congrArg₂ upsert insert.map_id update.map_id
  | _ => rfl

namespace Recipe

mutual

/-- A recipe with other values, also for its members. -/
def map (f : α → β) : Recipe α → Recipe β
  | start table => start table
  | step before s alone =>
    step (before.map f) (s.map f) (by rw [Step.attached_map, alone, List.map_nil])
  | combine before op members => combine (before.map f) op (mapAll f members)

def mapAll (f : α → β) : List (Recipe α) → List (Recipe β)
  | [] => []
  | r :: rest => r.map f :: mapAll f rest

end

theorem mapAll_eq (f : α → β) (rs : List (Recipe α)) : mapAll f rs = rs.map (map f) := by
  induction rs with
  | nil => rfl
  | cons r rest ih => rw [mapAll, ih, List.map_cons]

theorem map_map (f : α → β) (g : β → γ) (r : Recipe α) : (r.map f).map g = r.map (g ∘ f) := by
  induction r using rec_members with
  | hstart table => rfl
  | hstep before s alone ih => simp only [map, ih, Step.map_map]
  | hcombine before op members ih ihm =>
    simp only [map, ih, mapAll_eq, List.map_map]
    exact congrArg (combine _ op) (List.map_congr_left ihm)

theorem map_id (r : Recipe α) : r.map id = r := by
  induction r using rec_members with
  | hstart table => rfl
  | hstep before s alone ih => simp only [map, ih, Step.map_id]
  | hcombine before op members ih ihm =>
    simp only [map, ih, mapAll_eq]
    exact congrArg (combine _ op) ((List.map_congr_left ihm).trans (List.map_id' members))

theorem members_map (f : α → β) (r : Recipe α) :
    (r.map f).members = r.members.map fun m => (m.1, m.2.map f) := by
  induction r using rec_members with
  | hstart table => rfl
  | hstep before s alone ih => exact ih
  | hcombine before op members ih _ =>
    rw [map, Recipe.members, Recipe.members, ih, mapAll_eq, List.map_append, List.map_map,
      List.map_map]
    rfl

theorem payload_map [HasNull α] [HasNull β] (f : α → β) (r : Recipe α) :
    (r.map f).payload = r.payload.map f := by
  -- Whether a further step brings its payload depends on the kind of the payload before it.
  have hconcat : ∀ {before : Recipe α} (s : Step α) (s' : Step β),
      (before.map f).payload = before.payload.map f →
      s'.payload? = s.payload?.map (Payload.map f) →
      Payload.ofSteps ((before.map f).steps ++ [s']) =
        (Payload.ofSteps (before.steps ++ [s])).map f := by
    intro before s s' hbefore hs
    rw [payload, payload] at hbefore
    rw [Payload.ofSteps_concat, Payload.ofSteps_concat, hbefore, hs, Payload.kind_map]
    split
    · cases s.payload? <;> rfl
    · rfl
  induction r using rec_members with
  | hstart table => rfl
  | hstep before s alone ih => exact hconcat s (s.map f) ih (s.payload?_map f)
  | hcombine before op members ih _ => exact hconcat _ _ ih rfl

theorem predicates_map [HasNull α] [HasNull β] (f : α → β) (r : Recipe α) :
    (r.map f).predicates = r.predicates.map (Predicate.map f) := by
  induction r using rec_members with
  | hstart table => rfl
  | hstep before s alone ih =>
    rw [predicates, predicates] at ih
    rw [predicates, predicates, map, steps, steps, Predicate.ofSteps_concat,
      Predicate.ofSteps_concat, ih, List.map_append, Step.predicates_map]
  | hcombine before op members ih _ =>
    rw [predicates, predicates] at ih
    rw [predicates, predicates, map, steps, steps, Predicate.ofSteps_concat,
      Predicate.ofSteps_concat, ih, List.map_append]
    rfl

theorem query_map [HasNull α] [HasNull β] {g : α → β} (hg : g HasNull.null = HasNull.null)
    (r : Recipe α) : (r.map g).query = r.query.map g := by
  induction r using rec_members with
  | hstart table => cases table <;> rfl
  | hstep before s alone ih => rw [map, query, ih, query, Query.apply_map hg]
  | hcombine before op members ih ihm =>
    have hmembers : queries (mapAll g members) = (queries members).map (Query.map g) := by
      rw [queries_eq_map, queries_eq_map, mapAll_eq, List.map_map, List.map_map]
      exact List.map_congr_left ihm
    rw [map, query, ih, query, Query.apply_map hg, hmembers]
    rfl

end Recipe

end BoundSql
