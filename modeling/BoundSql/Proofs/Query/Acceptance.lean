import BoundSql.Proofs.Query.Binding

/-! Which queries have a statement.  `Query.Fits` says what a kind of statement asks of a query and
the queries inside it.  The query of a recipe has a statement exactly when no step on it or inside
it was refused and it fits, and otherwise the error names the first refused step or the first part
that does not fit (`Recipe.compile_exact`). -/

namespace BoundSql

variable {α : Type}

namespace Query

mutual

/-- The first refused step of a query is found by going through the queries inside it. -/
theorem firstFault?_eq_findSome? : (q : Query α) → q.firstFault? = q.nodes.findSome? (·.fault)
  | ⟨_, _, members, _, _, _, _, _, _, _, fault⟩ => by
    rw [firstFault?_eq, nodes_eq, List.findSome?_cons, firstFaultIn?_eq_findSome? members]
    cases fault <;> rfl

theorem firstFaultIn?_eq_findSome? : (members : List (SetOp × Query α)) →
    firstFaultIn? members = (nodesIn members).findSome? (·.fault)
  | [] => rfl
  | (_, q) :: rest => by
    rw [firstFaultIn?, nodesIn, List.findSome?_append, firstFault?_eq_findSome? q,
      firstFaultIn?_eq_findSome? rest]

end

/-- The first refused step of a query or inside it, or else the first part that does not fit a kind
of statement. -/
def refusal? (q : Query α) (kind : StatementKind) : Option CompileError :=
  match q.nodes.findSome? (·.fault) with
  | some fault => some (.step fault)
  | none => (q.violations kind).head?.map .shape

end Query

namespace Recipe

variable [HasNull α]

/-- A member with a payload is no SELECT, but a refused operator inside it counts before that. -/
example :
    let member (operator : String) : Recipe Value :=
      .step (.step (.start (some "b")) (.whereOp "x" operator (.int8 1)) rfl)
        (.assignments (.ofList [("x", .int8 2)])) rfl
    let union (operator : String) : Recipe Value :=
      .combine (.start (some "a")) .union [member operator]
    (union "~").query.compile .select = .error (.step (.unsupportedOperator "~" "x")) ∧
      (union ">").query.compile .select = .error (.shape (.payload .select .assignments)) ∧
      (member ">").query.compile .update =
        .ok ⟨"UPDATE b SET x = $1 WHERE x > $2", [.int8 2, .int8 1]⟩ := by
  decide +kernel

end Recipe

end BoundSql
