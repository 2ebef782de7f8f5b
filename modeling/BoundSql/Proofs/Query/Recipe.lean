import BoundSql.Proofs.Query.Steps
import Mathlib.Algebra.GroupWithZero.Nat

/-! Recipes: the steps that build a query, where the members of a set operation are built by
recipes of their own.  The queries of recipes are the queries that a caller can build.
`everywhere_segments` shows that the query of a recipe, and of every recipe inside it, keeps its
arguments in three segments: the payload's values, the predicates' and the members'. -/

namespace BoundSql

variable {α : Type}

/-- The values that the statement of a payload asks for: the cells of rows, one row after the other,
each under the columns of the first and NULL where it lacks one; or those of assignments; or those
of an upsert, the inserted before the assigned. -/
def Payload.asked [HasNull α] : Payload α → List α
  | .empty | .rows [] => []
  | .rows (first :: rest) =>
    (first :: rest).flatMap fun r => first.columns.map fun c => (r.get? c).getD HasNull.null
  | .assignments record => record.fields.map Prod.snd
  | .upsert insert update => insert.fields.map Prod.snd ++ update.fields.map Prod.snd

theorem Payload.values_eq_asked [HasNull α] (payload : Payload α) :
    payload.values = payload.asked := by
  cases payload with
  | rows records => cases records <;> rfl
  | _ => rfl

/-- How a caller builds a query. -/
inductive Recipe (α : Type) where
  /-- A query over no table or one. -/
  | start (table : Option String)
  /-- A further step that attaches no members. -/
  | step (before : Recipe α) (step : Step α) (alone : step.attached = [])
  /-- Members, each built by a recipe of its own. -/
  | combine (before : Recipe α) (op : SetOp) (members : List (Recipe α))

namespace Recipe

mutual

def query [HasNull α] : Recipe α → Query α
  | start table => Query.start table
  | step before s _ => before.query.apply s
  | combine before op members => before.query.apply (.combine op (queries members))

def queries [HasNull α] : List (Recipe α) → List (Query α)
  | [] => []
  | r :: rest => r.query :: queries rest

end

/-- Induction over a recipe and the recipes of its members. -/
@[elab_as_elim]
theorem rec_members {motive : Recipe α → Prop} (hstart : ∀ table, motive (start table))
    (hstep : ∀ before s alone, motive before → motive (step before s alone))
    (hcombine : ∀ before op members, motive before → (∀ m ∈ members, motive m) →
      motive (combine before op members)) : ∀ r, motive r
  | start table => hstart table
  | step before s alone => hstep before s alone (rec_members hstart hstep hcombine before)
  | combine before op members =>
    hcombine before op members (rec_members hstart hstep hcombine before) fun m _ =>
      rec_members hstart hstep hcombine m

def table : Recipe α → Option String
  | start table => table
  | step before _ _ => before.table
  | combine before _ _ => before.table

/-- The members that a recipe attaches, in order. -/
def members : Recipe α → List (SetOp × Recipe α)
  | start _ => []
  | step before _ _ => before.members
  | combine before op members => before.members ++ members.map fun m => (op, m)

/-- Induction over the recipes of members alone. -/
@[elab_as_elim]
theorem members_induction {motive : Recipe α → Prop}
    (h : ∀ r, (∀ m ∈ r.members, motive m.2) → motive r) (r : Recipe α) : motive r := by
  refine h r ?_
  induction r using rec_members with
  | hstart table => exact fun m hm => nomatch hm
  | hstep before s alone ih => exact ih
  | hcombine before op members ih ihm =>
    intro m hm
    rcases List.mem_append.mp hm with hm | hm
    · exact ih m hm
    · obtain ⟨r, hr, rfl⟩ := List.mem_map.mp hm
      exact h r (ihm r hr)

section Query

variable [HasNull α]

theorem queries_eq_map (rs : List (Recipe α)) : queries rs = rs.map query := by
  induction rs with
  | nil => rfl
  | cons r rest ih => rw [queries, ih, List.map_cons]

/-- The steps of a recipe, the members given as the queries that their recipes build. -/
def steps : Recipe α → List (Step α)
  | start _ => []
  | step before s _ => before.steps ++ [s]
  | combine before op members => before.steps ++ [.combine op (members.map query)]

/-- A recipe builds its query by taking its steps in order. -/
theorem query_eq_build (r : Recipe α) : r.query = (Query.start r.table).build r.steps := by
  induction r using rec_members with
  | hstart table => rfl
  | hstep before s alone ih => rw [query, ih, steps, table, Query.build_concat]
  | hcombine before op members ih =>
    rw [query, ih, steps, table, queries_eq_map, Query.build_concat]

theorem attached_steps (r : Recipe α) :
    r.steps.flatMap Step.attached = r.members.map fun m => (m.1, m.2.query) := by
  induction r using rec_members with
  | hstart table => rfl
  | hstep before s alone ih => simp [steps, members, ih, alone]
  | hcombine before op members ih => simp [steps, Recipe.members, ih, Step.attached]

/-- The predicates that a recipe records, with the values in their slots. -/
def predicates (r : Recipe α) : List (Predicate α) := Predicate.ofSteps r.steps

/-- The payload that a recipe attaches. -/
def payload (r : Recipe α) : Payload α := Payload.ofSteps r.steps

theorem recorded (r : Recipe α) : Recorded r.steps r.query :=
  r.query_eq_build ▸ Recorded.build r.table r.steps

theorem payload_query (r : Recipe α) : r.query.payload = r.payload := r.recorded.payload

theorem filled_payload (r : Recipe α) (h : r.query.payload.kind ≠ .empty) :
    r.query.payload.Filled := by
  rw [payload_query] at h ⊢
  exact Payload.filled_ofSteps h

theorem predicates_query (r : Recipe α) :
    r.query.body.predicates = r.predicates.map Predicate.withHoles := r.recorded.predicates

theorem members_query (r : Recipe α) :
    r.query.members = r.members.map fun m => (m.1, m.2.query) :=
  r.recorded.members.trans r.attached_steps

theorem attachedArgs_query (r : Recipe α) :
    r.query.attachedArgs = r.members.flatMap fun m => m.2.query.args := by
  rw [Query.attachedArgs, r.members_query, List.flatMap_map]

/-- The arguments of the query of a recipe, segment by segment. -/
structure Segments (r : Recipe α) : Prop where
  payload : r.query.payload = r.payload
  members : r.query.members = r.members.map fun m => (m.1, m.2.query)
  args : r.query.args =
    r.payload.asked ++ r.predicates.flatMap Predicate.slots
      ++ r.members.flatMap fun m => m.2.query.args
  predicates : r.query.body.predicates = r.predicates.map Predicate.withHoles
  arities : r.query.block.filters.map Filter.arity = r.predicates.map Predicate.width
  slots : ∀ p ∈ r.predicates, p.slots.length = p.width
  memberArgs : r.query.memberArgs = (r.members.map fun m => m.2.query.args.length).sum
  /-- Whatever a further step has recorded and bound already, the place of its next value lies
  within the list. -/
  room : ∀ (block : Block) (bound : List α) (a : α),
    let q := bound.foldl Query.bind { r.query with block }
    q.memberArgs ≤ q.args.length ∧
      q.args.insert? (q.args.length - q.memberArgs) a = some (q.bind a).args

theorem segments (r : Recipe α) : r.Segments := by
  have h := r.recorded
  have hargs := h.args
  rw [h.payload, Payload.values_eq_asked] at hargs
  refine ⟨r.payload_query, r.members_query, ?_, r.predicates_query, ?_, fun p _ => p.length_slots,
    ?_, ?_⟩
  · rw [hargs, attachedArgs_query]
    rfl
  · rw [h.filters, List.map_map]
    rfl
  · rw [h.memberArgs, attachedArgs_query, List.length_flatMap]
  · intro block bound a
    have hbound := Query.foldl_bind (q := { r.query with block }) h.args h.memberArgs bound
    rw [hbound]
    simp only [Args.insert?, Query.bind, Args.insertBeforeLast, Nat.sub_le, if_true, and_true,
      h.memberArgs, List.length_append]
    omega

end Query

/-- A property of a recipe, of its members' recipes, of their members' recipes and so on. -/
inductive Everywhere (P : Recipe α → Prop) : Recipe α → Prop
  | intro {r : Recipe α} (here : P r) (inside : ∀ m ∈ r.members, Everywhere P m.2) : Everywhere P r

theorem everywhere {P : Recipe α → Prop} (h : ∀ r, P r) (r : Recipe α) : r.Everywhere P :=
  members_induction (fun r ih => ⟨h r, ih⟩) r

/-- The query of a recipe, and the queries of all recipes inside it, keep their arguments in
segments. -/
theorem everywhere_segments [HasNull α] (r : Recipe α) : r.Everywhere Segments :=
  r.everywhere segments

/-- The payload's value stands first and the member's last, whatever was refused and in whatever
order the rest was done. -/
example :
    let member : Recipe Value := .step (.start (some "b")) (.whereEq "y" (.int8 7)) rfl
    let refused : Recipe Value := .step (.start (some "a")) (.whereOp "x" "~" (.int8 0)) rfl
    let union : Recipe Value := .combine refused .union [member]
    let r : Recipe Value :=
      .step (.step (.step union (.inList "x" [.int8 1, .int8 2]) rfl)
        (.assignments (.ofList [("z", .int8 3)])) rfl) (.notBetween "x" (.int8 4) (.int8 5)) rfl
    r.query.args = [.int8 3, .int8 1, .int8 2, .int8 4, .int8 5, .int8 7] ∧
      r.query.block.filters =
        [⟨"x", .isIn, 2, .and⟩, ⟨"x", .notBetween, 2, .and⟩] ∧
      r.query.memberArgs = 1 := by
  decide +kernel

end Recipe

end BoundSql
