import BoundSql.Proofs.Query.Interleaving

/-! The parts of a query that a statement reads.  `Query.SameBut` says that two queries agree but in
the parts that the steps of some groups write, and that their members count for the same.  The same
steps keep it (`SameBut.build`), and a statement does not tell two such queries apart when it reads
none of these parts (`SameBut.compileAt_eq`). -/

namespace BoundSql

variable {α : Type}

namespace StepGroup

/-- Whether the steps of a group bind values. -/
def binds : StepGroup → Bool
  | .members | .predicates | .payload => true
  | _ => false

/-- The groups of the clauses of a block, and of the payload that keeps it from being a SELECT. -/
def block : List StepGroup :=
  [.tables, .select, .distinct, .groupBy, .order, .limit, .offset, .joins, .predicates, .payload]

/-- The groups of the clauses that trail combined rows. -/
def outer : List StepGroup := [.outerOrder, .outerLimit, .outerOffset]

/-- The groups of the clauses that shape the rows of a SELECT. -/
def shaping : List StepGroup :=
  .select :: .distinct :: .groupBy :: .order :: .limit :: .offset :: outer

end StepGroup

/-- The groups of steps that leave no trace in a statement. -/
def EntryPoint.unread : EntryPoint → List StepGroup
  | .statement .select | .count | .exists => [.onConflict, .returning]
  | .statement .insert => .onConflict :: .joins :: StepGroup.shaping
  | .statement .replace | .statement .upsert => .joins :: StepGroup.shaping
  | .statement .update | .statement .delete => .onConflict :: StepGroup.shaping

/-- What a query counts for as a member of another one. -/
structure Operand (α : Type) where
  refused : Option StepFault
  unfit : Option ShapeFault
  tree : Select Hole
  args : List α

namespace Query

def operand (q : Query α) : Operand α := ⟨q.firstFault?, q.selectFault?, q.tree, q.args⟩

def operands (q : Query α) : List (SetOp × Operand α) := q.members.map fun m => (m.1, m.2.operand)

/-- Two queries agree but in the parts that the steps of some groups write, and their members count
for the same. -/
structure SameBut (groups : List StepGroup) (q r : Query α) : Prop where
  same : ∀ g, g ≠ .members → g ∉ groups → q.SameIn r g
  operands : q.operands = r.operands
  args : q.args = r.args
  memberArgs : q.memberArgs = r.memberArgs
  fault : q.fault = r.fault

variable {groups : List StepGroup} {q r t : Query α}

theorem SameBut.refl (groups : List StepGroup) (q : Query α) : q.SameBut groups q :=
  ⟨fun g _ _ => .refl q g, rfl, rfl, rfl, rfl⟩

theorem SameBut.symm (h : q.SameBut groups r) : r.SameBut groups q :=
  ⟨fun g hg hgroups => (h.same g hg hgroups).symm, h.operands.symm, h.args.symm, h.memberArgs.symm,
    h.fault.symm⟩

theorem SameBut.trans (h : q.SameBut groups r) (h' : r.SameBut groups t) : q.SameBut groups t :=
  ⟨fun g hg hgroups => (h.same g hg hgroups).trans (h'.same g hg hgroups),
    h.operands.trans h'.operands, h.args.trans h'.args, h.memberArgs.trans h'.memberArgs,
    h.fault.trans h'.fault⟩

theorem SameBut.mono {more : List StepGroup} (h : q.SameBut groups r) (hmore : groups ⊆ more) :
    q.SameBut more r :=
  ⟨fun g hg hgroups => h.same g hg fun hmem => hgroups (hmore hmem), h.operands, h.args,
    h.memberArgs, h.fault⟩

/-! ### Steps -/

theorem args_foldl_bind (hargs : q.args = r.args) (hmemberArgs : q.memberArgs = r.memberArgs)
    (values : List α) : (values.foldl bind q).args = (values.foldl bind r).args := by
  induction values generalizing q r with
  | nil => exact hargs
  | cons a values ih =>
    refine ih ?_ hmemberArgs
    rw [bind, bind, hargs, hmemberArgs]

theorem args_filter (hargs : q.args = r.args) (hmemberArgs : q.memberArgs = r.memberArgs)
    (p : Predicate α) :
    (q.filter p).args = (r.filter p).args ∧ (q.filter p).memberArgs = (r.filter p).memberArgs := by
  constructor
  · rw [filter_eq_foldl_bind, filter_eq_foldl_bind]
    exact args_foldl_bind (q := q.pushFilter p.recorded) (r := r.pushFilter p.recorded) hargs
      hmemberArgs p.slots
  · obtain ⟨_, hq⟩ := q.exists_filter p
    obtain ⟨_, hr⟩ := r.exists_filter p
    rw [hq, hr]
    exact hmemberArgs

section Step

variable [HasNull α]

theorem args_carry (hpayload : q.payload = r.payload) (hargs : q.args = r.args)
    (hmemberArgs : q.memberArgs = r.memberArgs) (offered : Except StepFault (Payload α)) :
    (q.carry offered).args = (r.carry offered).args ∧
      (q.carry offered).memberArgs = (r.carry offered).memberArgs := by
  by_cases hkind : q.payload.kind = .empty
  · have hkind' : r.payload.kind = .empty := hpayload ▸ hkind
    cases offered with
    | ok payload =>
      rw [carry_ok hkind, carry_ok hkind', hargs]
      exact ⟨rfl, hmemberArgs⟩
    | error fault =>
      rw [carry_error hkind, carry_error hkind']
      exact ⟨hargs, hmemberArgs⟩
  · have hkind' : r.payload.kind ≠ .empty := hpayload ▸ hkind
    rw [carry_again hkind, carry_again hkind']
    exact ⟨hargs, hmemberArgs⟩

/-- The arguments that a step leaves depend on the arguments and the payload only. -/
theorem args_apply (hpayload : q.payload = r.payload) (hargs : q.args = r.args)
    (hmemberArgs : q.memberArgs = r.memberArgs) (s : Step α) :
    (q.apply s).args = (r.apply s).args ∧ (q.apply s).memberArgs = (r.apply s).memberArgs := by
  cases hs : s.offered? with
  | some offered =>
    rw [apply_of_offered hs, apply_of_offered hs]
    exact args_carry hpayload hargs hmemberArgs offered
  | none =>
    cases s with
    | rows | assignments | upsert => cases hs
    | filter p => exact args_filter hargs hmemberArgs p
    | filterText connective column operator a =>
      rw [apply, apply, filterText_eq, filterText_eq]
      cases Comparison.ofText? operator with
      | none => exact ⟨hargs, hmemberArgs⟩
      | some op => exact args_filter hargs hmemberArgs _
    | combine op members =>
      rw [apply, apply, combine_eq, combine_eq, hargs, hmemberArgs]
      exact ⟨rfl, rfl⟩
    | _ => exact ⟨hargs, hmemberArgs⟩

theorem operands_apply (q : Query α) (s : Step α) :
    (q.apply s).operands = q.operands ++ s.attached.map fun m => (m.1, m.2.operand) := by
  rw [operands, members_apply, List.map_append, operands]

/-- The same step on two queries. -/
theorem SameBut.apply (hgroups : ∀ g ∈ groups, g.binds = false) (h : q.SameBut groups r)
    (s : Step α) : (q.apply s).SameBut groups (r.apply s) := by
  have hread : ∀ {g : StepGroup}, g.binds → g ≠ .members → q.SameIn r g := fun hg hne =>
    h.same _ hne fun hmem => by simp [hgroups _ hmem] at hg
  obtain ⟨hargs, hmemberArgs⟩ :=
    args_apply (hread (g := .payload) rfl (by decide)) h.args h.memberArgs s
  -- The step does the same to the part of its own group, and nothing to the other parts.
  refine ⟨fun g hne hunread => ?_, ?_, hargs, hmemberArgs, ?_⟩
  · by_cases hg : g = s.group
    · subst hg
      exact (h.same _ hne hunread).apply
    · have hsame := h.same g hne hunread
      exact (q.sameIn_apply_of_ne hg).trans (hsame.trans (r.sameIn_apply_of_ne hg).symm)
  · rw [operands_apply, operands_apply, h.operands]
  · have hrefusal : q.stepRefusal? s = r.stepRefusal? s := by
      -- Only predicates and payloads are ever refused, and their parts agree.
      by_cases hs : s.group = .predicates ∨ s.group = .payload
      · refine SameIn.stepRefusal? ?_
        rcases hs with hs | hs <;> rw [hs] <;> exact hread rfl (by decide)
      · have hnone : ∀ p : Query α, p.stepRefusal? s = none := fun p =>
          Option.eq_none_iff_forall_ne_some.mpr fun fault hp => hs (group_of_refusal? hp)
        rw [hnone q, hnone r]
    rw [fault_apply, fault_apply, h.fault, hrefusal]

theorem SameBut.build (hgroups : ∀ g ∈ groups, g.binds = false) (h : q.SameBut groups r)
    (steps : List (Step α)) : (q.build steps).SameBut groups (r.build steps) := by
  induction steps generalizing q r with
  | nil => exact h
  | cons s steps ih => exact ih (h.apply hgroups s)

/-- A step that binds nothing writes the part of its group only. -/
theorem SameBut.of_apply {s : Step α} (hs : s.group ∈ groups) (hbinds : s.group.binds = false)
    (q : Query α) : (q.apply s).SameBut groups q := by
  have hleft : (q.apply s).members = q.members ∧ (q.apply s).args = q.args ∧
      (q.apply s).memberArgs = q.memberArgs ∧ (q.apply s).fault = q.fault := by
    cases s with
    | combine | filter | filterText | rows | assignments | upsert => cases hbinds
    | _ => exact ⟨rfl, rfl, rfl, rfl⟩
  obtain ⟨hmembers, hargs, hmemberArgs, hfault⟩ := hleft
  refine ⟨fun g _ hg => q.sameIn_apply_of_ne fun heq => hg (heq ▸ hs), ?_, hargs, hmemberArgs,
    hfault⟩
  rw [operands_apply, attached_of_group fun hs' => by rw [hs'] at hbinds; cases hbinds]
  exact List.append_nil _

end Step

/-! ### Statements -/

theorem firstFaultIn?_eq_operands (members : List (SetOp × Query α)) :
    firstFaultIn? members =
      (members.map fun m => (m.1, m.2.operand)).findSome? fun m => m.2.refused := by
  induction members with
  | nil => rfl
  | cons m rest ih =>
    rw [firstFaultIn?, ih, List.map_cons, List.findSome?_cons, operand]
    cases m.2.firstFault? <;> rfl

theorem selectFaultIn?_eq_operands (members : List (SetOp × Query α)) :
    selectFaultIn? members =
      (members.map fun m => (m.1, m.2.operand)).findSome? fun m => m.2.unfit := by
  induction members with
  | nil => rfl
  | cons m rest ih =>
    rw [selectFaultIn?_cons, ih, List.map_cons, List.findSome?_cons, operand]
    cases m.2.selectFault? <;> rfl

theorem trees_eq_operands (q : Query α) :
    (q.members.map fun m => (m.1, m.2.tree)) = q.operands.map fun m => (m.1, m.2.tree) := by
  rw [operands, List.map_map]
  rfl

namespace SameBut

theorem firstFault?_eq (h : q.SameBut groups r) : q.firstFault? = r.firstFault? := by
  have hoperands := h.operands
  rw [Query.operands, Query.operands] at hoperands
  rw [Query.firstFault?_eq, Query.firstFault?_eq, firstFaultIn?_eq_operands,
    firstFaultIn?_eq_operands, h.fault, hoperands]

theorem selectFaultIn?_eq (h : q.SameBut groups r) :
    selectFaultIn? q.members = selectFaultIn? r.members := by
  have hoperands := h.operands
  rw [Query.operands, Query.operands] at hoperands
  rw [selectFaultIn?_eq_operands, selectFaultIn?_eq_operands, hoperands]

theorem members_eq_nil_iff (h : q.SameBut groups r) : q.members = [] ↔ r.members = [] := by
  have hoperands := congrArg List.isEmpty h.operands
  rw [Query.operands, Query.operands, List.isEmpty_map, List.isEmpty_map] at hoperands
  rw [← List.isEmpty_iff, hoperands, List.isEmpty_iff]

theorem block_eq (h : q.SameBut groups r) (hblock : ∀ g ∈ StepGroup.block, g ∉ groups) :
    q.block = r.block ∧ q.tail = r.tail ∧ q.payload = r.payload := by
  have hsame : ∀ g ∈ StepGroup.block, q.SameIn r g := fun g hg =>
    h.same g (by rintro rfl; exact absurd hg (by decide)) (hblock g hg)
  have hdistinct : q.block.distinct = _ := hsame .distinct (by decide)
  have hcolumns : q.block.columns = _ := hsame .select (by decide)
  have htables : q.block.tables = _ := hsame .tables (by decide)
  have hjoins : q.block.joins = _ := hsame .joins (by decide)
  have hfilters : q.block.filters = _ := hsame .predicates (by decide)
  have hgroups : q.block.groups = _ := hsame .groupBy (by decide)
  have horder : q.tail.order = _ := hsame .order (by decide)
  have hlimit : q.tail.limit = _ := hsame .limit (by decide)
  have hoffset : q.tail.offset = _ := hsame .offset (by decide)
  refine ⟨?_, ?_, hsame .payload (by decide)⟩
  · show Block.mk .. = Block.mk ..
    rw [hdistinct, hcolumns, htables, hjoins, hfilters, hgroups]
  · show Tail.mk .. = Tail.mk ..
    rw [horder, hlimit, hoffset]

theorem outer_eq (h : q.SameBut groups r) (houter : ∀ g ∈ StepGroup.outer, g ∉ groups) :
    q.outer = r.outer := by
  have horder : q.outer.order = _ := h.same .outerOrder (by decide) (houter _ (by decide))
  have hlimit : q.outer.limit = _ := h.same .outerLimit (by decide) (houter _ (by decide))
  have hoffset : q.outer.offset = _ := h.same .outerOffset (by decide) (houter _ (by decide))
  show Tail.mk .. = Tail.mk ..
  rw [horder, hlimit, hoffset]

/-- The clauses that trail combined rows count only where there are members. -/
theorem operand_eq (h : q.SameBut groups r) (hblock : ∀ g ∈ StepGroup.block, g ∉ groups)
    (houter : q.members = [] ∨ ∀ g ∈ StepGroup.outer, g ∉ groups) : q.operand = r.operand := by
  obtain ⟨hown, htail, hpayload⟩ := h.block_eq hblock
  have hbody : q.body = r.body := congrArg Block.body hown
  have hfault : q.selectFault? = r.selectFault? := by
    rw [selectFault?_eq, selectFault?_eq, hbody, hpayload, h.selectFaultIn?_eq]
  have htree : q.tree = r.tree := by
    have htrees : (q.members.map fun m => (m.1, m.2.tree)) =
        r.members.map fun m => (m.1, m.2.tree) := by
      rw [trees_eq_operands, trees_eq_operands, h.operands]
    rw [tree_eq_ofMembers, tree_eq_ofMembers, ← htrees, hbody, htail]
    rcases houter with hmembers | houter
    · rw [hmembers]
      rfl
    · rw [h.outer_eq houter]
  rw [operand, operand, h.firstFault?_eq, hfault, htree, h.args]

/-- The three statements that read. -/
theorem reads_eq (h : q.SameBut groups r) (hblock : ∀ g ∈ StepGroup.block, g ∉ groups)
    (houter : q.members = [] ∨ ∀ g ∈ StepGroup.outer, g ∉ groups) :
    q.command .select = r.command .select ∧ q.countCommand = r.countCommand ∧
      q.existsCommand = r.existsCommand := by
  obtain ⟨hown, htail, _⟩ := h.block_eq hblock
  have hbody : q.body = r.body := congrArg Block.body hown
  have hoperand := h.operand_eq hblock houter
  have hfault : q.selectFault? = r.selectFault? := congrArg Operand.unfit hoperand
  have htree : q.tree = r.tree := congrArg Operand.tree hoperand
  have hplace : q.CountedInPlace ↔ r.CountedInPlace := by
    rw [CountedInPlace, CountedInPlace, hbody, htail, h.members_eq_nil_iff]
  have hcounting : q.counting = r.counting := by
    rw [counting, counting, hbody, htree]
    exact if_congr hplace rfl rfl
  rw [command_select_eq, command_select_eq, countCommand_eq, countCommand_eq, existsCommand_eq,
    existsCommand_eq, hfault, htree, hcounting]
  exact ⟨rfl, rfl, rfl⟩

/-- A statement that changes rows. -/
theorem command_eq {kind : StatementKind} (hkind : kind ≠ .select) (h : q.SameBut groups r)
    (hgroups : groups ⊆ .placeholder :: (EntryPoint.statement kind).unread) :
    q.command kind = r.command kind := by
  have hread : ∀ g, g ≠ .members → g ∉ StepGroup.placeholder :: (EntryPoint.statement kind).unread →
      q.SameIn r g := fun g hg hunread => h.same g hg fun hmem => hunread (hgroups hmem)
  have hmembers := h.members_eq_nil_iff
  have htables : q.body.tables = r.body.tables :=
    hread .tables (by decide) (by cases kind <;> decide)
  have hfilters : q.block.filters = _ := hread .predicates (by decide) (by cases kind <;> decide)
  have hpredicates : q.body.predicates = r.body.predicates :=
    congrArg (List.map Filter.predicate) hfilters
  have hpayload : q.payload = _ := hread .payload (by decide) (by cases kind <;> decide)
  have hreturning : q.returning = _ :=
    hread .returning (by decide) (by revert hkind; cases kind <;> decide)
  have hown : q.ownViolations kind = r.ownViolations kind ∧ q.assemble kind = r.assemble kind := by
    cases kind with
    | select => exact absurd rfl hkind
    | insert =>
      simp [ownViolations, assemble, insertCommand, firstTable, htables, hmembers, hpredicates,
        hpayload, hreturning]
    | replace | upsert =>
      have htarget : q.conflictTarget = _ := hread .onConflict (by decide) (by decide)
      simp [ownViolations, assemble, insertCommand, upsertCommand, firstTable, htables, hmembers,
        hpredicates, hpayload, hreturning, htarget]
    | update | delete =>
      have hjoins : q.body.joins = r.body.joins := hread .joins (by decide) (by decide)
      simp [ownViolations, assemble, updateCommand, deleteCommand, firstTable, htables, hmembers,
        hpredicates, hpayload, hreturning, hjoins]
  rw [Query.command_eq, Query.command_eq, head?_violations, head?_violations, hown.1, hown.2,
    h.selectFaultIn?_eq]

/-- Which command a query gives depends on the parts that are read. -/
theorem commandAt_eq {entry : EntryPoint} (h : q.SameBut groups r)
    (hgroups : groups ⊆ .placeholder :: entry.unread) : q.commandAt entry = r.commandAt entry := by
  have hreads := fun hunread : groups ⊆ [.placeholder, .onConflict, .returning] =>
    h.reads_eq
      (fun g hg hmem =>
        (by decide : ∀ g ∈ StepGroup.block, g ∉ [.placeholder, .onConflict, .returning]) g hg
          (hunread hmem))
      (.inr fun g hg hmem =>
        (by decide : ∀ g ∈ StepGroup.outer, g ∉ [.placeholder, .onConflict, .returning]) g hg
          (hunread hmem))
  rcases entry with kind | _ | _
  · by_cases hkind : kind = .select
    · subst hkind
      exact (hreads hgroups).1
    · exact h.command_eq hkind hgroups
  · exact (hreads hgroups).2.1
  · exact (hreads hgroups).2.2

theorem compileAt_eq_of_commandAt {entry : EntryPoint} (h : q.SameBut groups r)
    (hstyle : .placeholder ∉ groups) (hcommand : q.commandAt entry = r.commandAt entry) :
    q.compileAt entry = r.compileAt entry := by
  have hsame : q.style = r.style := h.same .placeholder (by decide) hstyle
  have hfinish : ∀ c, q.finish c = r.finish c := fun c => by
    rw [finish, finish, h.args, hsame]
  rw [Query.compileAt_eq, Query.compileAt_eq, compileWith, compileWith, h.firstFault?_eq, hcommand]
  cases r.firstFault? with
  | some fault => rfl
  | none =>
    cases r.commandAt entry with
    | error fault => rfl
    | ok c => exact hfinish c

/-- Two queries that differ only in parts that are not read have the same statement, or none for the
same reason. -/
theorem compileAt_eq {entry : EntryPoint} (h : q.SameBut entry.unread r) :
    q.compileAt entry = r.compileAt entry := by
  refine h.compileAt_eq_of_commandAt ?_ (h.commandAt_eq (List.subset_cons_self _ _))
  rcases entry with kind | _ | _
  · cases kind <;> decide
  · decide
  · decide

end SameBut

end Query

end BoundSql
