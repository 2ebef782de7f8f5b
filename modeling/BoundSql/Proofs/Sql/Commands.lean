import BoundSql.Proofs.Sql.Slots
import BoundSql.Sql.Render

/-! The slots of commands.  `Command.slots` lists what stands in the slots of a command, clause by
clause, and `Command.slots_fragment` says that the text has the same slots from left to right.
`Command.fragment_map` says that the text around the slots does not depend on what they hold. -/

namespace BoundSql

open Sql Sql.Fragment

variable {σ τ : Type}

/-! ### Conditions -/

@[simp]
theorem Condition.slots_fragment (c : Condition σ) : c.fragment.slots = c.slots := by
  cases c with
  | membership column negated xs => cases xs <;> simp [fragment, slots]
  | _ => simp [fragment, slots]

@[simp]
theorem Condition.fragment_map (f : σ → τ) (c : Condition σ) :
    (c.map f).fragment = c.fragment.map f := by
  cases c with
  | membership column negated xs => cases xs <;> simp [fragment, map]
  | _ => simp [fragment, map]

@[simp]
theorem slots_whereClause (ps : List (Predicate σ)) :
    (whereClause ps).slots = ps.flatMap Predicate.slots := by
  cases ps with
  | nil => rfl
  | cons p rest =>
    simp [whereClause, Predicate.continuation, List.flatMap_map]
    rfl

@[simp]
theorem whereClause_map (f : σ → τ) (ps : List (Predicate σ)) :
    whereClause (ps.map (Predicate.map f)) = (whereClause ps).map f := by
  cases ps with
  | nil => rfl
  | cons p rest =>
    simp [whereClause, Predicate.continuation, Predicate.map, Function.comp_def]

@[simp]
theorem slots_joinClauses (joins : List Join) : (joinClauses joins : Fragment σ).slots = [] := by
  simp [joinClauses, List.flatMap_map]

@[simp]
theorem map_joinClauses (f : σ → τ) (joins : List Join) :
    (joinClauses joins : Fragment σ).map f = joinClauses joins := by
  simp [joinClauses, Function.comp_def]

@[simp]
theorem slots_listClause (keyword : String) (items : List String) :
    (listClause keyword items : Fragment σ).slots = [] := by
  unfold listClause
  split <;> simp

@[simp]
theorem map_listClause (f : σ → τ) (keyword : String) (items : List String) :
    (listClause keyword items : Fragment σ).map f = listClause keyword items := by
  unfold listClause
  split <;> simp

@[simp]
theorem slots_countClause (keyword : String) (n : Nat) :
    (countClause keyword n : Fragment σ).slots = [] := by
  unfold countClause
  split <;> simp

@[simp]
theorem map_countClause (f : σ → τ) (keyword : String) (n : Nat) :
    (countClause keyword n : Fragment σ).map f = countClause keyword n := by
  unfold countClause
  split <;> simp

@[simp]
theorem Tail.slots_fragment (t : Tail) : (t.fragment : Fragment σ).slots = [] := by
  simp [Tail.fragment]

@[simp]
theorem Tail.map_fragment (f : σ → τ) (t : Tail) :
    (t.fragment : Fragment σ).map f = t.fragment := by
  simp [Tail.fragment]

/-! ### SELECT -/

/-- What stands in the slots of a block, from left to right. -/
def Body.slots (b : Body σ) : List σ := b.predicates.flatMap Predicate.slots

@[simp]
theorem Body.slots_projection (b : Body σ) : b.projection.slots = [] := by
  rw [projection, slots_append, slots_text]
  split <;> simp

@[simp]
theorem Body.projection_map (f : σ → τ) (b : Body σ) :
    (b.map f).projection = b.projection.map f := by
  unfold Body.projection
  by_cases h : b.columns.isEmpty <;> simp [Body.map, h] <;> rfl

@[simp]
theorem Body.slots_fragmentOver (b : Body σ) {projection : Fragment σ}
    (h : projection.slots = []) : (b.fragmentOver projection).slots = b.slots := by
  simp [fragmentOver, h, slots]

theorem Body.fragmentOver_map (f : σ → τ) (b : Body σ) (projection : Fragment σ) :
    (b.map f).fragmentOver (projection.map f) = (b.fragmentOver projection).map f := by
  simp [fragmentOver, Body.map]

@[simp]
theorem Body.slots_fragment (b : Body σ) : b.fragment.slots = b.slots :=
  b.slots_fragmentOver b.slots_projection

@[simp]
theorem Body.fragment_map (f : σ → τ) (b : Body σ) : (b.map f).fragment = b.fragment.map f := by
  rw [fragment, fragment, projection_map, fragmentOver_map]

theorem Body.slots_map (f : σ → τ) (b : Body σ) : (b.map f).slots = b.slots.map f := by
  rw [← slots_fragment, fragment_map, Fragment.slots_map, slots_fragment]

@[simp]
theorem slots_operand (bare : Bool) (a : Fragment σ) : (operand bare a).slots = a.slots := by
  unfold operand
  split <;> simp

@[simp]
theorem map_operand (f : σ → τ) (bare : Bool) (a : Fragment σ) :
    (operand bare a).map f = operand bare (a.map f) := by
  unfold operand
  split <;> simp

mutual

/-- What stands in the slots of a SELECT: the leading block's, then the members'. -/
def Select.slots : Select σ → List σ
  | .block body _ => body.slots
  | .combined lead _ members _ => lead.slots ++ Select.memberSlots members

/-- What stands in the slots of members, one member after the other. -/
def Select.memberSlots : List (SetOp × Select σ) → List σ
  | [] => []
  | (_, s) :: rest => s.slots ++ Select.memberSlots rest

end

mutual

@[simp]
theorem Select.slots_fragment : (s : Select σ) → s.fragment.slots = s.slots
  | .block body tail => by simp [Select.fragment, Select.slots]
  | .combined lead leadTail members tail => by
    simp [Select.fragment, Select.slots, Select.slots_memberFragments members]

theorem Select.slots_memberFragments : (members : List (SetOp × Select σ)) →
    (Select.memberFragments members).slots = Select.memberSlots members
  | [] => rfl
  | (op, s) :: rest => by
    simp [Select.memberFragments, Select.memberSlots, Select.slots_fragment s,
      Select.slots_memberFragments rest]

end

@[simp]
theorem Select.isBare_map (f : σ → τ) (s : Select σ) : (s.map f).isBare = s.isBare := by
  cases s <;> simp [Select.map, Select.isBare]

mutual

@[simp]
theorem Select.fragment_map (f : σ → τ) : (s : Select σ) → (s.map f).fragment = s.fragment.map f
  | .block body tail => by simp [Select.map, Select.fragment]
  | .combined lead leadTail members tail => by
    simp [Select.map, Select.fragment, Select.memberFragments_map f members]

theorem Select.memberFragments_map (f : σ → τ) : (members : List (SetOp × Select σ)) →
    Select.memberFragments (Select.mapMembers f members) = (Select.memberFragments members).map f
  | [] => rfl
  | (op, s) :: rest => by
    simp [Select.mapMembers, Select.memberFragments, Select.fragment_map f s,
      Select.memberFragments_map f rest]

end

theorem Select.slots_map (f : σ → τ) (s : Select σ) : (s.map f).slots = s.slots.map f := by
  rw [← slots_fragment, fragment_map, Fragment.slots_map, slots_fragment]

/-! ### Commands -/

def ConflictAction.map (f : σ → τ) : ConflictAction σ → ConflictAction τ
  | .nothing => .nothing
  | .overwrite columns => .overwrite columns
  | .assign assignments => .assign (assignments.map fun a => (a.1, f a.2))

/-- What stands in the slots of what an INSERT does with a colliding row. -/
def ConflictAction.slots : ConflictAction σ → List σ
  | .nothing | .overwrite _ => []
  | .assign assignments => assignments.map Prod.snd

def Conflict.map (f : σ → τ) (c : Conflict σ) : Conflict τ := ⟨c.target, c.action.map f⟩

namespace Command

def map (f : σ → τ) : Command σ → Command τ
  | .select s => .select (s.map f)
  | .countBlock body => .countBlock (body.map f)
  | .countRows s => .countRows (s.map f)
  | .anyRow s => .anyRow (s.map f)
  | .insert table columns rows conflict returning =>
    .insert table columns (rows.map (List.map f)) (conflict.map (Conflict.map f)) returning
  | .update table assignments predicates returning =>
    .update table (assignments.map fun a => (a.1, f a.2)) (predicates.map (Predicate.map f))
      returning
  | .delete table joins predicates returning =>
    .delete table joins (predicates.map (Predicate.map f)) returning

/-- What stands in the slots of a command: rows one after the other, assignments in their order,
and values before conditions. -/
def slots : Command σ → List σ
  | .select s | .countRows s | .anyRow s => s.slots
  | .countBlock body => body.slots
  | .insert _ _ rows conflict _ => rows.flatten ++ (conflict.elim [] fun c => c.action.slots)
  | .update _ assignments predicates _ =>
    assignments.map Prod.snd ++ predicates.flatMap Predicate.slots
  | .delete _ _ predicates _ => predicates.flatMap Predicate.slots

end Command

@[simp]
theorem slots_assignmentList (assignments : List (String × σ)) :
    (assignmentList assignments).slots = assignments.map Prod.snd := by
  simp only [assignmentList, slots_commaList, List.flatMap_map, slots_append, slots_text,
    slots_slot, List.nil_append]
  exact List.map_eq_flatMap.symm

@[simp]
theorem assignmentList_map (f : σ → τ) (assignments : List (String × σ)) :
    assignmentList (assignments.map fun a => (a.1, f a.2)) =
      (assignmentList assignments).map f := by
  simp [assignmentList, Function.comp_def]

@[simp]
theorem Conflict.slots_fragment (c : Conflict σ) : c.fragment.slots = c.action.slots := by
  obtain ⟨target, action⟩ := c
  cases action <;> simp [fragment, ConflictAction.slots]

@[simp]
theorem Conflict.fragment_map (f : σ → τ) (c : Conflict σ) :
    (c.map f).fragment = c.fragment.map f := by
  obtain ⟨target, action⟩ := c
  cases action <;> simp [fragment, Conflict.map, ConflictAction.map]

/-- The text of a command has the slots of the command, from left to right. -/
theorem Command.slots_fragment (c : Command σ) : c.fragment.slots = c.slots := by
  cases c with
  | insert table columns rows conflict returning =>
    cases conflict <;> simp [fragment, slots, List.flatMap_map]
  | _ => simp [fragment, slots]

/-- The text around the slots of a command does not depend on what they hold. -/
theorem Command.fragment_map (f : σ → τ) (c : Command σ) :
    (c.map f).fragment = c.fragment.map f := by
  cases c with
  | insert table columns rows conflict returning =>
    cases conflict <;> simp [fragment, map, Function.comp_def]
  | countBlock body => rw [fragment, map, fragment, ← Body.fragmentOver_map, map_text]
  | _ => simp [fragment, map]

end BoundSql
