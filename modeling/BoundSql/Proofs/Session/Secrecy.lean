import BoundSql.Proofs.Query.Values
import BoundSql.Proofs.Session.Protocol

/-! What shows of the values that a caller binds.  `Recipe.texts_without_values` says that they do
not reach the text of a statement, the error of a query without one, or the entry of the log before
a statement is sent: a caller with other values gets the same text, the same error and the same
entry, and its own values in the places of the others. -/

namespace BoundSql

variable {σ τ ρ δ α β γ : Type}

/-- Values with one more, which stands where no value was passed. -/
instance : HasNull (Option α) := ⟨none⟩

/-- What is bound for a value, or for a cell without one. -/
def bound [HasNull β] (f : α → β) (a : Option α) : β := (a.map f).getD HasNull.null

/-- The values of a payload that a caller passed, in the order of its slots, cell by cell under the
columns of the first row. -/
def Payload.given : Payload α → List (Option α)
  | .empty | .rows [] => []
  | .rows (first :: rest) => (first :: rest).flatMap fun r => first.columns.map r.get?
  | .assignments record => record.values.map some
  | .upsert insert update => (insert.values ++ update.values).map some

theorem Payload.asked_map_some (payload : Payload α) :
    (payload.map some).asked = payload.given := by
  have hcell : ∀ a : Option α, (a.map some).getD HasNull.null = a := by
    intro a
    cases a <;> rfl
  cases payload with
  | rows records =>
    cases records with
    | nil => rfl
    | cons first rest => simp [map, asked, given, hcell, List.flatMap_map]
  | _ => simp [map, asked, given, Record.map, Record.values, Function.comp_def]

namespace Recipe

/-- The values of the query of a recipe that a caller passed, in the order of its arguments, with
`none` where NULL fills a cell that a record lacks. -/
def given (r : Recipe α) : List (Option α) := (r.map some).query.args

/-- The values come from the payload, then from the predicates, then from the members; only cells
of rows can be without a value. -/
theorem given_eq [HasNull α] (r : Recipe α) :
    r.given = r.payload.given ++ (r.predicates.flatMap Predicate.slots).map some ++
      r.members.flatMap fun m => m.2.given := by
  have hslots : (r.predicates.flatMap Predicate.slots).map some =
      (r.predicates.map (Predicate.map some)).flatMap Predicate.slots := by
    rw [List.map_flatMap, List.flatMap_map]
    exact List.flatMap_congr fun p _ => (p.slots_map some).symm
  rw [given, (r.map some).segments.args, payload_map, Payload.asked_map_some, predicates_map,
    hslots, members_map]
  congr 1
  exact List.flatMap_map _ _ _

theorem map_bound [HasNull β] (f : α → β) (r : Recipe α) :
    (r.map some).map (bound f) = r.map f := r.map_map some (bound f)

theorem query_map_bound [HasNull β] (f : α → β) (r : Recipe α) :
    (r.map f).query = (r.map some).query.map (bound f) := by
  rw [← map_bound, query_map (g := bound f) rfl]

theorem query_bound [HasNull α] (r : Recipe α) :
    r.query = (r.map some).query.map (bound id) := by
  rw [← query_map_bound, map_id]

end Recipe

/-! ### Requests -/

namespace Request

/-- A request with other values in its records. -/
def map (f : α → β) : Request α ρ δ → Request β ρ δ
  | .getRows => .getRows
  | .getRow => .getRow
  | .fetchAll read => .fetchAll read
  | .fetchOne read => .fetchOne read
  | .fetchOpt read => .fetchOpt read
  | .count => .count
  | .exists => .exists
  | .insert records => .insert (records.map (Record.map f))
  | .insertGetId record idColumn => .insertGetId (record.map f) idColumn
  | .replace records => .replace (records.map (Record.map f))
  | .update record => .update (record.map f)
  | .insertUpdate row assigned => .insertUpdate (row.map f) (assigned.map f)
  | .delete => .delete

theorem map_map (f : α → β) (g : β → γ) (c : Request α ρ δ) : (c.map f).map g = c.map (g ∘ f) := by
  cases c <;> simp [map, Record.map_map]

theorem map_id (c : Request α ρ δ) : c.map id = c := by
  cases c with
  | insert records | replace records => rw [map, funext Record.map_id, List.map_id']
  | _ => simp only [map, Record.map_id]

theorem operation_map (f : α → β) (c : Request α ρ δ) : (c.map f).operation = c.operation := by
  cases c <;> rfl

theorem compiled_map [HasNull α] [HasNull β] {g : α → β} (hg : g HasNull.null = HasNull.null)
    (c : Request α ρ δ) (q : Query α) :
    (c.map g).compiled (q.map g) = (c.compiled q).map (Statement.map g) := by
  have hstep : ∀ (s : Step α) (kind : StatementKind),
      ((q.map g).apply (s.map g)).compile kind =
        ((q.apply s).compile kind).map (Statement.map g) := by
    intro s kind
    rw [← Query.apply_map hg]
    exact Query.compileAt_map g _ (.statement kind)
  -- Which of the two caps is set depends on whether there are members.
  have hfirst : (q.map g).firstRowOnly.compile .select =
      (q.firstRowOnly.compile .select).map (Statement.map g) := by
    rw [Query.firstRowOnly, Query.firstRowOnly, Query.members_map, List.isEmpty_map]
    split
    · exact hstep (.limit 1) .select
    · exact hstep (.outerLimit 1) .select
  cases c with
  | getRows | fetchAll | delete => exact Query.compileAt_map g q (.statement _)
  | getRow | fetchOne | fetchOpt => exact hfirst
  | count => exact Query.compileAt_map g q .count
  | «exists» => exact Query.compileAt_map g q .exists
  | insert records | replace records => exact hstep (.rows records) _
  | insertGetId record idColumn =>
    have hreturning := Query.apply_map hg q (.returning [idColumn])
    have hrows := Query.apply_map hg (q.apply (.returning [idColumn])) (.rows [record])
    rw [hreturning] at hrows
    refine Eq.trans ?_ (Query.compileAt_map g _ (.statement .insert))
    exact congrArg (Query.compile · .insert) hrows.symm
  | update record => exact hstep (.assignments record) _
  | insertUpdate row assigned => exact hstep (.upsert row assigned) _

theorem compiled_bound [HasNull β] (f : α → β) (c : Request α ρ δ) (r : Recipe α) :
    (c.map f).compiled (r.map f).query =
      ((c.map some).compiled (r.map some).query).map (Statement.map (bound f)) := by
  have hmap : (c.map some).map (bound f) = c.map f := c.map_map some (bound f)
  rw [← compiled_map (g := bound f) rfl, hmap, ← r.query_map_bound f]

end Request

/-! ### The log -/

def LogEvent.isStatement : LogEvent → Bool
  | .statement .. => true
  | .failure .. => false

/-- What is logged of statements before they are sent. -/
def Outcome.statements (o : Outcome σ β) : List LogEvent := o.log.filter LogEvent.isStatement

namespace Request

variable [HasNull α] [DriverRow ρ]

theorem statements_run (c : Request α ρ δ) (q : Query α) (client : Client σ α ρ)
    (state : σ) :
    (c.run q client state).statements =
      match c.compiled q with
      | .error _ => []
      | .ok s => [.statement c.operation s.args.length (loggedSql s.sql)] := by
  cases h : c.compiled q with
  | error e =>
    rw [run_error h]
    rfl
  | ok s =>
    rw [run_ok h]
    dsimp only
    rw [outcome]
    split <;> rfl

end Request

/-- Whatever a caller binds instead, also in members and records, every compilation fails for the
same reason, or gives the same text with the new values in the places of the old and NULL in the
cells without a value; and no operation logs a statement differently. -/
theorem Recipe.texts_without_values [HasNull α] [HasNull β] (f : α → β) (r : Recipe α) :
    (∀ pairs : List (String × α),
      (Record.ofList pairs).map f = Record.ofList (pairs.map fun p => (p.1, f p.2))) ∧
    (∀ entry : EntryPoint, match r.query.compileAt entry, (r.map f).query.compileAt entry with
      | .error e, .error e' => e' = e
      | .ok s, .ok s' =>
        s'.sql = s.sql ∧ s.args = r.given.map (bound id) ∧ s'.args = r.given.map (bound f)
      | _, _ => False) ∧
    ∀ {ρ δ σ τ : Type} [DriverRow ρ] (c : Request α ρ δ) (client : Client σ α ρ)
      (client' : Client τ β ρ) (state : σ) (state' : τ),
      ((c.map f).run (r.map f).query client' state').statements =
        (c.run r.query client state).statements := by
  refine ⟨Record.map_ofList f, fun entry => ?_, fun c client client' state state' => ?_⟩
  -- Both sides are images of one and the same, with the values of the caller marked by `some`.
  · rw [query_map_bound f, query_bound r, Query.compileAt_map, Query.compileAt_map]
    cases h : (r.map some).query.compileAt entry with
    | error e => rfl
    | ok s =>
      have hargs : s.args = r.given := by
        rw [Query.compileAt_eq, Query.compileWith_ok_iff] at h
        obtain ⟨_, c, _, hfinish⟩ := h
        obtain ⟨_, rfl⟩ := Query.finish_ok_iff.mp hfinish
        rfl
      exact ⟨rfl, congrArg _ hargs, congrArg _ hargs⟩
  · have hold := c.compiled_bound id r
    rw [Request.map_id, Recipe.map_id] at hold
    rw [Request.statements_run, Request.statements_run, Request.operation_map,
      Request.compiled_bound, hold]
    cases (c.map some).compiled (r.map some).query with
    | error e => rfl
    | ok s => simp [Except.map, Statement.map]

end BoundSql
