import BoundSql.Query.Compile

/-! The checks between a query and its command.  `Query.violations` lists the parts of a query that
do not fit a kind of statement, in the order in which they are looked at, and the shape check stops
at the first of them (`checkShape_eq_verdict`).  `Query.Fits` says the same without an order.  What
the writers of statements look for is there in a query that fits, but for the first of its rows
(`assemble_of_fits`), and what a query that has a command looks like is said kind by kind
(`command_insert_ok` and the lemmas after it). -/

namespace BoundSql

variable {α β γ ε : Type}

theorem Except.bind_ok_iff {x : Except ε β} {f : β → Except ε γ} {c : γ} :
    x >>= f = .ok c ↔ ∃ b, x = .ok b ∧ f b = .ok c := by
  cases x <;> simp [bind, Except.bind]

theorem Except.bind_error_iff {x : Except ε β} {f : β → Except ε γ} {e : ε} :
    x >>= f = .error e ↔ x = .error e ∨ ∃ b, x = .ok b ∧ f b = .error e := by
  cases x <;> simp [bind, Except.bind]

theorem Except.mapError_ok (f : ε → γ) (b : β) : (Except.ok b).mapError f = .ok b := rfl

theorem Except.mapError_error (f : ε → γ) (e : ε) :
    (Except.error e : Except ε β).mapError f = .error (f e) := rfl

/-- A fault under a condition. -/
def faultIf (bad : Prop) [Decidable bad] (fault : ShapeFault) : List ShapeFault :=
  if bad then [fault] else []

namespace Query

mutual

/-- A query, then its members and what is inside them, one member after the other. -/
def nodes : Query α → List (Query α)
  | q@{ members, .. } => q :: nodesIn members

/-- The members and what is inside them, one member after the other. -/
def nodesIn : List (SetOp × Query α) → List (Query α)
  | [] => []
  | (_, q) :: rest => q.nodes ++ nodesIn rest

end

theorem nodes_eq (q : Query α) : q.nodes = q :: nodesIn q.members := by
  cases q
  rfl

/-- Induction over the members of a query and the members inside them. -/
@[elab_as_elim]
theorem members_induction {motive : Query α → Prop}
    (h : ∀ q, (∀ m ∈ q.members, motive m.2) → motive q) : ∀ q, motive q
  | ⟨_, _, _, _, _, _, _, _, _, _, _⟩ => h _ fun m _ => members_induction h m.2
termination_by q => sizeOf q
decreasing_by
  rename_i hm
  have hlt := List.sizeOf_lt_of_mem hm
  obtain ⟨op, q⟩ := m
  simp only [Query.mk.sizeOf_spec, Prod.mk.sizeOf_spec] at hlt ⊢
  omega

theorem nodesIn_eq (members : List (SetOp × Query α)) :
    nodesIn members = members.flatMap fun m => m.2.nodes := by
  induction members with
  | nil => rfl
  | cons m rest ih => rw [nodesIn, ih, List.flatMap_cons]

/-- The parts of a query, its members apart, that do not fit a kind of statement. -/
def ownViolations (q : Query α) (kind : StatementKind) : List ShapeFault :=
  (if kind = .select then faultIf (q.body.tables = []) .noTable
    else faultIf (q.body.tables.length ≠ 1) (.tableCount kind q.body.tables.length))
  ++ faultIf (kind ≠ .select ∧ q.members ≠ []) (.members kind)
  ++ faultIf (kind.inserts ∧ q.body.predicates ≠ []) (.predicates kind)
  ++ faultIf (kind = .update ∧ q.body.joins ≠ []) .joins
  ++ faultIf (q.payload.kind ≠ kind.payload) (.payload kind q.payload.kind)
  ++ faultIf ((kind = .replace ∨ kind = .upsert) ∧ q.conflictTarget = []) (.noTarget kind)
  ++ faultIf (kind = .delete ∧ q.body.predicates = []) .deletesAll

/-- The parts of a query that do not fit a kind of statement, then those of all queries inside it
that do not fit a SELECT. -/
def violations (q : Query α) (kind : StatementKind) : List ShapeFault :=
  q.ownViolations kind ++ (nodesIn q.members).flatMap fun m => m.ownViolations .select

theorem violations_select (q : Query α) :
    q.violations .select = q.nodes.flatMap (ownViolations · .select) := by
  rw [nodes_eq, List.flatMap_cons, violations]

/-! ### The shape check -/

/-- The first of the faults. -/
def verdict : List ShapeFault → Except ShapeFault Unit
  | [] => .ok ()
  | fault :: _ => .error fault

theorem verdict_append (xs ys : List ShapeFault) :
    verdict (xs ++ ys) = verdict xs >>= fun _ => verdict ys := by
  cases xs <;> rfl

theorem refuseIf_eq {b : Bool} {p : Prop} [Decidable p] (h : b ↔ p) (fault : ShapeFault) :
    refuseIf b fault = verdict (faultIf p fault) := by
  unfold refuseIf faultIf
  by_cases hp : p
  · rw [if_pos (h.mpr hp), if_pos hp, verdict]
  · rw [if_neg (mt h.mp hp), if_neg hp, verdict]

theorem checkTables_eq (q : Query α) (kind : StatementKind) :
    q.checkTables kind =
      verdict (if kind = .select then faultIf (q.body.tables = []) .noTable
        else faultIf (q.body.tables.length ≠ 1) (.tableCount kind q.body.tables.length)) := by
  unfold checkTables
  split
  · exact refuseIf_eq List.isEmpty_iff _
  · exact refuseIf_eq bne_iff_ne _

theorem checkOwn_eq_verdict (q : Query α) (kind : StatementKind) :
    q.checkOwn kind = verdict (q.ownViolations kind) := by
  have hmembers := refuseIf_eq (b := kind != .select && !q.members.isEmpty)
    (p := kind ≠ .select ∧ q.members ≠ []) (by simp) (.members kind)
  have hpredicates := refuseIf_eq (b := kind.inserts && !q.body.predicates.isEmpty)
    (p := kind.inserts ∧ q.body.predicates ≠ []) (by simp) (.predicates kind)
  have hjoins := refuseIf_eq (b := kind == .update && !q.body.joins.isEmpty)
    (p := kind = .update ∧ q.body.joins ≠ []) (by simp) .joins
  have hpayload := refuseIf_eq (b := q.payload.kind != kind.payload)
    (p := q.payload.kind ≠ kind.payload) bne_iff_ne (.payload kind q.payload.kind)
  have htarget := refuseIf_eq
    (b := (kind == .replace || kind == .upsert) && q.conflictTarget.isEmpty)
    (p := (kind = .replace ∨ kind = .upsert) ∧ q.conflictTarget = []) (by simp) (.noTarget kind)
  have hall := refuseIf_eq (b := kind == .delete && q.body.predicates.isEmpty)
    (p := kind = .delete ∧ q.body.predicates = []) (by simp) .deletesAll
  simp only [checkOwn, ownViolations, List.append_assoc, verdict_append, checkTables_eq, hmembers,
    hpredicates, hjoins, hpayload, htarget, hall]

mutual

theorem checkShape_eq_verdict : (q : Query α) → (kind : StatementKind) →
    q.checkShape kind = verdict (q.violations kind)
  | ⟨_, _, members, _, _, _, _, _, _, _, _⟩, kind => by
    rw [checkShape_eq, checkOwn_eq_verdict, checkMembers_eq_verdict members, violations,
      verdict_append]

theorem checkMembers_eq_verdict : (members : List (SetOp × Query α)) →
    checkMembers members = verdict ((nodesIn members).flatMap (ownViolations · .select))
  | [] => rfl
  | (_, q) :: rest => by
    rw [checkMembers, checkShape_eq_verdict q, checkMembers_eq_verdict rest, nodesIn,
      List.flatMap_append, verdict_append, violations_select]

end

/-- The first reason why a query or one of its members is no SELECT, the query before its
members. -/
def selectFault? (q : Query α) : Option ShapeFault := (q.violations .select).head?

/-- The first reason why a member is no SELECT. -/
def selectFaultIn? (members : List (SetOp × Query α)) : Option ShapeFault :=
  ((nodesIn members).flatMap (ownViolations · .select)).head?

theorem selectFaultIn?_nil : selectFaultIn? ([] : List (SetOp × Query α)) = none := rfl

theorem selectFaultIn?_cons (m : SetOp × Query α) (rest : List (SetOp × Query α)) :
    selectFaultIn? (m :: rest) = m.2.selectFault?.or (selectFaultIn? rest) := by
  rw [selectFaultIn?, nodesIn, List.flatMap_append, List.head?_append, ← violations_select]
  rfl

/-- The parts of a query come before those of its members. -/
theorem head?_violations (q : Query α) (kind : StatementKind) :
    (q.violations kind).head? = (q.ownViolations kind).head?.or (selectFaultIn? q.members) :=
  List.head?_append

theorem head?_faultIf_append (bad : Prop) [Decidable bad] (fault : ShapeFault)
    (rest : List ShapeFault) :
    (faultIf bad fault ++ rest).head? = if bad then some fault else rest.head? := by
  unfold faultIf
  split <;> rfl

theorem head?_ownViolations_select_append (q : Query α) (rest : List ShapeFault) :
    (q.ownViolations .select ++ rest).head? =
      if q.body.tables = [] then some .noTable
      else if q.payload.kind ≠ .empty then some (.payload .select q.payload.kind)
      else rest.head? := by
  simp only [ownViolations, List.append_assoc, if_true, head?_faultIf_append]
  simp [StatementKind.inserts, StatementKind.payload]

theorem selectFault?_eq (q : Query α) :
    q.selectFault? =
      if q.body.tables = [] then some .noTable
      else if q.payload.kind ≠ .empty then some (.payload .select q.payload.kind)
      else selectFaultIn? q.members :=
  q.head?_ownViolations_select_append _

/-! ### Queries that fit -/

/-- What a kind of statement asks of a query. -/
def Fits (q : Query α) : StatementKind → Prop
  | .select => ∀ n ∈ q.nodes, n.body.tables ≠ [] ∧ n.payload.kind = .empty
  | .insert =>
    q.body.tables.length = 1 ∧ q.members = [] ∧ q.body.predicates = [] ∧ q.payload.kind = .rows
  | .replace =>
    q.body.tables.length = 1 ∧ q.members = [] ∧ q.body.predicates = [] ∧ q.payload.kind = .rows ∧
      q.conflictTarget ≠ []
  | .upsert =>
    q.body.tables.length = 1 ∧ q.members = [] ∧ q.body.predicates = [] ∧
      q.payload.kind = .upsert ∧ q.conflictTarget ≠ []
  | .update =>
    q.body.tables.length = 1 ∧ q.members = [] ∧ q.body.joins = [] ∧ q.payload.kind = .assignments
  | .delete =>
    q.body.tables.length = 1 ∧ q.members = [] ∧ q.payload.kind = .empty ∧ q.body.predicates ≠ []

theorem faultIf_eq_nil_iff {bad : Prop} [Decidable bad] {fault : ShapeFault} :
    faultIf bad fault = [] ↔ ¬ bad := by
  unfold faultIf
  split <;> simp_all

theorem ownViolations_select_eq_nil_iff {q : Query α} :
    q.ownViolations .select = [] ↔ q.body.tables ≠ [] ∧ q.payload.kind = .empty := by
  simp only [ownViolations, List.append_eq_nil_iff, faultIf_eq_nil_iff, if_true]
  simp [StatementKind.inserts, StatementKind.payload]

/-- A query fits a kind of statement when it has no part that does not. -/
theorem fits_iff {q : Query α} {kind : StatementKind} : q.Fits kind ↔ q.violations kind = [] := by
  cases kind with
  | select =>
    rw [Fits, violations_select, List.flatMap_eq_nil_iff]
    exact forall₂_congr fun n _ => ownViolations_select_eq_nil_iff.symm
  | _ =>
    rw [violations, ownViolations, if_neg (by decide)]
    simp only [List.append_eq_nil_iff, faultIf_eq_nil_iff]
    by_cases hmembers : q.members = [] <;>
      simp [Fits, hmembers, nodesIn, StatementKind.inserts, StatementKind.payload, and_assoc]

theorem verdict_ok_iff {faults : List ShapeFault} {u : Unit} :
    verdict faults = .ok u ↔ faults = [] := by
  cases faults <;> simp [verdict]

theorem verdict_error_iff {faults : List ShapeFault} {fault : ShapeFault} :
    verdict faults = .error fault ↔ faults.head? = some fault := by
  cases faults <;> simp [verdict]

theorem checkShape_ok_iff {q : Query α} {kind : StatementKind} {u : Unit} :
    q.checkShape kind = .ok u ↔ q.Fits kind := by
  rw [checkShape_eq_verdict, verdict_ok_iff, fits_iff]

theorem checkShape_error_iff {q : Query α} {kind : StatementKind} {fault : ShapeFault} :
    q.checkShape kind = .error fault ↔ (q.violations kind).head? = some fault := by
  rw [checkShape_eq_verdict, verdict_error_iff]

/-! ### Queries that have a statement or a command -/

theorem finish_ok_iff {q : Query α} {c : Command Hole} {s : Statement α} :
    q.finish c = .ok s ↔
      c.fragment.slotCount = q.args.length ∧ ⟨c.fragment.render q.style, q.args⟩ = s := by
  simp only [finish]
  split
  · rename_i h
    simp [h]
  · rename_i h
    simp [h]

theorem compileWith_ok_iff {q : Query α} {give : Query α → Except CompileError (Command Hole)}
    {s : Statement α} :
    q.compileWith give = .ok s ↔
      q.firstFault? = none ∧ ∃ c, give q = .ok c ∧ q.finish c = .ok s := by
  unfold compileWith
  cases q.firstFault? with
  | some fault => simp
  | none => cases give q <;> simp

/-- Whatever follows the shape check, a query that does not fit is refused for the first part that
does not. -/
theorem checkShape_bind (q : Query α) (kind : StatementKind) {β : Type}
    (f : Unit → Except CompileError β) :
    (q.checkShape kind).mapError .shape >>= f =
      match (q.violations kind).head? with
      | some fault => .error (.shape fault)
      | none => f () := by
  rw [checkShape_eq_verdict]
  cases q.violations kind <;> rfl

theorem command_eq (q : Query α) (kind : StatementKind) :
    q.command kind =
      match (q.violations kind).head? with
      | some fault => .error (.shape fault)
      | none => (q.assemble kind).mapError .render :=
  q.checkShape_bind kind _

theorem command_ok_iff {q : Query α} {kind : StatementKind} {c : Command Hole} :
    q.command kind = .ok c ↔ q.Fits kind ∧ q.assemble kind = .ok c := by
  rw [command_eq, fits_iff]
  cases q.violations kind with
  | cons => simp
  | nil => cases q.assemble kind <;> simp [Except.mapError_ok, Except.mapError_error]

theorem firstTable_ok_iff {q : Query α} {table : String} :
    q.firstTable = .ok table ↔ q.body.tables.head? = some table := by
  rw [firstTable, List.head?_eq_getElem?]
  cases q.body.tables[0]? <;> simp

/-- The table of a query that has one. -/
theorem exists_firstTable {q : Query α} (h : q.body.tables.length = 1) :
    ∃ table, q.body.tables = [table] ∧ q.firstTable = .ok table := by
  obtain ⟨table, htables⟩ := List.length_eq_one_iff.mp h
  exact ⟨table, htables, firstTable_ok_iff.mpr (by rw [htables, List.head?_cons])⟩

/-- Whether the rows of a query are those of its block, which no clause groups or cuts. -/
def CountedInPlace (q : Query α) : Prop :=
  q.body.groups = [] ∧ q.body.distinct = false ∧ q.members = [] ∧ q.tail.limit = 0 ∧
    q.tail.offset = 0

instance (q : Query α) : Decidable q.CountedInPlace :=
  inferInstanceAs (Decidable (_ ∧ _ ∧ _ ∧ _ ∧ _))

/-- The command that counts the rows of a SELECT. -/
def counting (q : Query α) : Command Hole :=
  if q.CountedInPlace then .countBlock q.body else .countRows q.tree

theorem countCommand_eq (q : Query α) :
    q.countCommand =
      match q.selectFault? with
      | some fault => .error (.shape fault)
      | none => .ok q.counting := by
  refine (q.checkShape_bind .select _).trans ?_
  rw [selectFault?]
  cases (q.violations .select).head? with
  | some fault => rfl
  | none =>
    by_cases hplace : q.CountedInPlace
    · rw [counting, if_pos hplace]
      exact if_pos (by simpa [CountedInPlace, and_assoc] using hplace)
    · rw [counting, if_neg hplace]
      exact if_neg (by simpa [CountedInPlace, and_assoc] using hplace)

theorem existsCommand_eq (q : Query α) :
    q.existsCommand =
      match q.selectFault? with
      | some fault => .error (.shape fault)
      | none => .ok (.anyRow q.tree) :=
  q.checkShape_bind .select _

theorem command_select_eq (q : Query α) :
    q.command .select =
      match q.selectFault? with
      | some fault => .error (.shape fault)
      | none => .ok (.select q.tree) :=
  q.command_eq .select

theorem command_select_ok {q : Query α} {c : Command Hole} (h : q.command .select = .ok c) :
    q.selectFault? = none ∧ c = .select q.tree := by
  rw [command_select_eq] at h
  split at h
  · cases h
  · rename_i hfault
    cases h
    exact ⟨hfault, rfl⟩

theorem countCommand_ok {q : Query α} {c : Command Hole} (h : q.countCommand = .ok c) :
    q.selectFault? = none ∧ (c = .countRows q.tree ∨ q.members = [] ∧ c = .countBlock q.body) := by
  rw [countCommand_eq] at h
  split at h
  · cases h
  · rename_i hfault
    cases h
    rw [counting]
    split
    · rename_i hplace
      exact ⟨hfault, .inr ⟨hplace.2.2.1, rfl⟩⟩
    · exact ⟨hfault, .inl rfl⟩

theorem existsCommand_ok {q : Query α} {c : Command Hole} (h : q.existsCommand = .ok c) :
    q.selectFault? = none ∧ c = .anyRow q.tree := by
  rw [existsCommand_eq] at h
  split at h
  · cases h
  · rename_i hfault
    cases h
    exact ⟨hfault, rfl⟩

/-- The command of rows in a query that fits. -/
theorem insertCommand_ok {q : Query α} {kind : StatementKind} {c : Command Hole}
    (hlength : q.body.tables.length = 1) (h : q.insertCommand kind = .ok c) :
    ∃ table first rest, q.body.tables = [table] ∧ q.payload = .rows (first :: rest) ∧
      c = .insert table first.columns (rowHoles first.columns (first :: rest))
        (if kind = .replace then
          some ⟨q.conflictTarget, overwriteAction q.conflictTarget first.columns⟩
        else none) q.returning := by
  obtain ⟨table, htables, htable⟩ := exists_firstTable hlength
  unfold insertCommand at h
  split at h
  · cases h
  · rename_i first rest hpayload
    rw [htable] at h
    cases h
    exact ⟨table, first, rest, htables, hpayload, rfl⟩
  · cases h

theorem command_insert_ok {q : Query α} {c : Command Hole} (h : q.command .insert = .ok c) :
    ∃ table first rest, q.body.tables = [table] ∧ q.members = [] ∧ q.body.predicates = [] ∧
      q.payload = .rows (first :: rest) ∧
      c = .insert table first.columns (rowHoles first.columns (first :: rest)) none
        q.returning := by
  obtain ⟨⟨hlength, hmembers, hpredicates, _⟩, hwritten⟩ := command_ok_iff.mp h
  obtain ⟨table, first, rest, htables, hpayload, rfl⟩ := insertCommand_ok hlength hwritten
  exact ⟨table, first, rest, htables, hmembers, hpredicates, hpayload, rfl⟩

theorem command_replace_ok {q : Query α} {c : Command Hole} (h : q.command .replace = .ok c) :
    ∃ table first rest, q.body.tables = [table] ∧ q.members = [] ∧ q.body.predicates = [] ∧
      q.payload = .rows (first :: rest) ∧ q.conflictTarget ≠ [] ∧
      c = .insert table first.columns (rowHoles first.columns (first :: rest))
        (some ⟨q.conflictTarget, overwriteAction q.conflictTarget first.columns⟩) q.returning := by
  obtain ⟨⟨hlength, hmembers, hpredicates, _, htarget⟩, hwritten⟩ := command_ok_iff.mp h
  obtain ⟨table, first, rest, htables, hpayload, rfl⟩ := insertCommand_ok hlength hwritten
  exact ⟨table, first, rest, htables, hmembers, hpredicates, hpayload, htarget, rfl⟩

theorem command_upsert_ok {q : Query α} {c : Command Hole} (h : q.command .upsert = .ok c) :
    ∃ table insert update, q.body.tables = [table] ∧ q.members = [] ∧ q.body.predicates = [] ∧
      q.payload = .upsert insert update ∧ q.conflictTarget ≠ [] ∧
      c = .insert table insert.columns (rowHoles insert.columns [insert])
        (some ⟨q.conflictTarget, .assign (assignmentHoles update)⟩) q.returning := by
  obtain ⟨⟨hlength, hmembers, hpredicates, hkind, htarget⟩, hwritten⟩ := command_ok_iff.mp h
  obtain ⟨table, htables, htable⟩ := exists_firstTable hlength
  cases hpayload : q.payload with
  | upsert insert update =>
    simp only [assemble, upsertCommand, hpayload, htable] at hwritten
    cases hwritten
    exact ⟨table, insert, update, htables, hmembers, hpredicates, rfl, htarget, rfl⟩
  | _ => simp [hpayload, Payload.kind] at hkind

theorem command_update_ok {q : Query α} {c : Command Hole} (h : q.command .update = .ok c) :
    ∃ table record, q.body.tables = [table] ∧ q.members = [] ∧ q.body.joins = [] ∧
      q.payload = .assignments record ∧
      c = .update table (assignmentHoles record) q.body.predicates q.returning := by
  obtain ⟨⟨hlength, hmembers, hjoins, hkind⟩, hwritten⟩ := command_ok_iff.mp h
  obtain ⟨table, htables, htable⟩ := exists_firstTable hlength
  cases hpayload : q.payload with
  | assignments record =>
    simp only [assemble, updateCommand, hpayload, htable] at hwritten
    cases hwritten
    exact ⟨table, record, htables, hmembers, hjoins, rfl, rfl⟩
  | _ => simp [hpayload, Payload.kind] at hkind

theorem command_delete_ok {q : Query α} {c : Command Hole} (h : q.command .delete = .ok c) :
    ∃ table, q.body.tables = [table] ∧ q.members = [] ∧ q.payload.kind = .empty ∧
      q.body.predicates ≠ [] ∧ c = .delete table q.body.joins q.body.predicates q.returning := by
  obtain ⟨⟨hlength, hmembers, hkind, hpredicates⟩, hwritten⟩ := command_ok_iff.mp h
  obtain ⟨table, htables, htable⟩ := exists_firstTable hlength
  simp only [assemble, deleteCommand, htable] at hwritten
  cases hwritten
  exact ⟨table, htables, hmembers, hkind, hpredicates, rfl⟩

end Query

end BoundSql
