import BoundSql.Client.Recording
import BoundSql.Client.TypedRow
import BoundSql.Session

/-! What an operation does with its client.  A `Request` is an operation with what the caller
passes along, and `Request.run` runs it.  `Request.run_protocol` says for all of them what is sent,
what is logged around it, and what the caller gets for each answer of the client. -/

namespace BoundSql

variable {σ α β γ ρ : Type}

/-! ### Sending a statement -/

theorem issue_error (operation : Operation) (e : CompileError)
    (exchange : Statement α → σ → Except Error β × σ) (state : σ) :
    issue operation (.error e) exchange state = ⟨.error e.toError, state, []⟩ := rfl

/-- What shows outside of a statement that is sent. -/
def sentEvents (operation : Operation) (s : Statement α) : List Event :=
  [.log (.statement operation s.args.length (loggedSql s.sql)), .send]

/-- What shows outside of a statement that is sent and fails. -/
def failedEvents (operation : Operation) (s : Statement α) (e : Error) : List Event :=
  sentEvents operation s ++ [.log (.failure operation (loggedSql s.sql) e.message)]

theorem issue_ok (operation : Operation) (s : Statement α)
    (exchange : Statement α → σ → Except Error β × σ) (state : σ) :
    issue operation (.ok s) exchange state =
      match exchange s state with
      | (.ok x, after) => ⟨.ok x, after, sentEvents operation s⟩
      | (.error e, after) => ⟨.error (e.withSql s.sql), after, failedEvents operation s e⟩ := by
  cases h : exchange s state with
  | mk answer after =>
    have hsend : Run.send exchange s state = ⟨answer, after, [.send]⟩ := by rw [Run.send, h]
    have hissue : issue operation (.ok s) exchange state =
        Run.andThen (Run.log (.statement operation s.args.length (loggedSql s.sql)))
          (fun _ => Run.orElse (Run.send exchange s) fun e =>
            Run.andThen (Run.log (.failure operation (loggedSql s.sql) e.message)) fun _ =>
              Run.give (.error (e.withSql s.sql))) state := rfl
    cases answer <;> simp [hissue, Run.andThen, Run.orElse, Run.log, Run.give, hsend, sentEvents,
      failedEvents]

/-- Asking for one row fails like the client when there is none. -/
theorem issue_queryOne (operation : Operation) (s : Statement α) (client : Client σ α ρ)
    (state : σ) :
    issue operation (.ok s) client.queryOne state =
      match client.query s state with
      | (.error e, after) => ⟨.error (e.withSql s.sql), after, failedEvents operation s e⟩
      | (.ok [], after) =>
        ⟨.error (Error.noRow.withSql s.sql), after, failedEvents operation s .noRow⟩
      | (.ok (row :: _), after) => ⟨.ok row, after, sentEvents operation s⟩ := by
  rw [issue_ok, Client.queryOne]
  rcases client.query s state with ⟨_ | _ | _, after⟩ <;> rfl

theorem issue_queryOpt (operation : Operation) (s : Statement α) (client : Client σ α ρ)
    (state : σ) :
    issue operation (.ok s) client.queryOpt state =
      match client.query s state with
      | (.error e, after) => ⟨.error (e.withSql s.sql), after, failedEvents operation s e⟩
      | (.ok rows, after) => ⟨.ok rows.head?, after, sentEvents operation s⟩ := by
  rw [issue_ok, Client.queryOpt]
  rcases client.query s state with ⟨_ | _, after⟩ <;> rfl

/-! ### Requests -/

/-- An operation on a query, with what the caller passes along. -/
inductive Request (α ρ β : Type) where
  | getRows
  | getRow
  | fetchAll (read : ρ → Except Error β)
  | fetchOne (read : ρ → Except Error β)
  | fetchOpt (read : ρ → Except Error β)
  | count
  | exists
  | insert (records : List (Record α))
  | insertGetId (record : Record α) (idColumn : String)
  | replace (records : List (Record α))
  | update (record : Record α)
  | insertUpdate (row assigned : Record α)
  | delete

namespace Request

/-- What a caller gets when all goes well. -/
def Result : Request α ρ β → Type
  | .getRows => List ρ
  | .getRow => ρ
  | .fetchAll _ => List β
  | .fetchOne _ => β
  | .fetchOpt _ => Option β
  | .count | .insertGetId .. => Int64
  | .exists => Bool
  | .insert _ | .replace _ | .update _ | .insertUpdate .. | .delete => Nat

def run [HasNull α] [DriverRow ρ] (r : Request α ρ β) (q : Query α) (client : Client σ α ρ)
    (state : σ) : Outcome σ r.Result :=
  match r with
  | .getRows => q.getRows client state
  | .getRow => q.getRow client state
  | .fetchAll read => q.fetchAll client read state
  | .fetchOne read => q.fetchOne client read state
  | .fetchOpt read => q.fetchOpt client read state
  | .count => q.count client state
  | .exists => q.hasRow client state
  | .insert records => q.insert client records state
  | .insertGetId record idColumn => q.insertGetId client record idColumn state
  | .replace records => q.replace client records state
  | .update record => q.update client record state
  | .insertUpdate row assigned => q.insertUpdate client row assigned state
  | .delete => q.delete client state

/-- The name under which a request is logged. -/
def operation : Request α ρ β → Operation
  | .getRows | .fetchAll _ => .getRows
  | .getRow | .fetchOne _ => .getRow
  | .fetchOpt _ => .fetchOpt
  | .count => .count
  | .exists => .exists
  | .insert _ => .insert
  | .insertGetId .. => .insertGetId
  | .replace _ => .replace
  | .update _ => .update
  | .insertUpdate .. => .insertUpdate
  | .delete => .delete

/-- The statement of a request, or why there is none. -/
def compiled [HasNull α] (r : Request α ρ β) (q : Query α) : Except CompileError (Statement α) :=
  match r with
  | .getRows | .fetchAll _ => q.compile .select
  | .getRow | .fetchOne _ | .fetchOpt _ => q.firstRowOnly.compile .select
  | .count => q.compileCount
  | .exists => q.compileExists
  | .insert records => (q.apply (.rows records)).compile .insert
  | .insertGetId record idColumn =>
    (q.build [.returning [idColumn], .rows [record]]).compile .insert
  | .replace records => (q.apply (.rows records)).compile .replace
  | .update record => (q.apply (.assignments record)).compile .update
  | .insertUpdate row assigned => (q.apply (.upsert row assigned)).compile .upsert
  | .delete => q.compile .delete

/-- What a client answers to the statement of a request: rows, or how many it changed. -/
def Answer : Request α ρ β → Type
  | .getRows | .getRow | .fetchAll _ | .fetchOne _ | .fetchOpt _ | .count | .exists
  | .insertGetId .. => List ρ
  | .insert _ | .replace _ | .update _ | .insertUpdate .. | .delete => Nat

/-- How the statement of a request is handed to a client. -/
def exchange (client : Client σ α ρ) :
    (r : Request α ρ β) → Statement α → σ → Except Error r.Answer × σ
  | .getRows | .getRow | .fetchAll _ | .fetchOne _ | .fetchOpt _ | .count | .exists
  | .insertGetId .. => client.query
  | .insert _ | .replace _ | .update _ | .insertUpdate .. | .delete => client.execute

/-- Why an answer is a failure: the client failed, or the row is missing that a request reads. -/
def failure? : (r : Request α ρ β) → Except Error r.Answer → Option Error
  | .getRow, .ok [] | .fetchOne _, .ok [] | .count, .ok [] | .exists, .ok []
  | .insertGetId .., .ok [] => some .noRow
  | _, .ok _ => none
  | _, .error e => some e

/-- What a caller gets for an answer that is no failure. -/
def decode [DriverRow ρ] : (r : Request α ρ β) → r.Answer → Except Error r.Result
  | .getRows, rows => .ok rows
  | .getRow, rows => firstRow rows
  | .fetchAll read, rows => rows.mapM read
  | .fetchOne read, rows => firstRow rows >>= read
  | .fetchOpt _, [] => .ok none
  | .fetchOpt read, row :: _ => some <$> read row
  | .count, rows => firstRow rows >>= (DriverRow.int8.index · 0)
  | .exists, rows => firstRow rows >>= (DriverRow.bool.index · 0)
  | .insertGetId _ idColumn, rows => firstRow rows >>= (DriverRow.int8.column · idColumn)
  | .insert _, changed | .replace _, changed | .update _, changed | .insertUpdate .., changed
  | .delete, changed => .ok changed

/-- What a request comes to once its statement has been answered. -/
def outcome [DriverRow ρ] (r : Request α ρ β) (s : Statement α) (answer : Except Error r.Answer)
    (after : σ) : Outcome σ r.Result :=
  match r.failure? answer with
  | some e => ⟨.error (e.withSql s.sql), after, failedEvents r.operation s e⟩
  | none => ⟨answer >>= r.decode, after, sentEvents r.operation s⟩

variable [HasNull α] [DriverRow ρ]

theorem run_error {r : Request α ρ β} {q : Query α} {e : CompileError} (h : r.compiled q = .error e)
    (client : Client σ α ρ) (state : σ) : r.run q client state = ⟨.error e.toError, state, []⟩ := by
  cases r <;> rw [compiled] at h <;> simp only [run, Query.getRows, Query.getRow, Query.fetchAll,
    Query.fetchOne, Query.fetchOpt, Query.count, Query.hasRow, Query.insert, Query.insertGetId,
    Query.replace, Query.update, Query.insertUpdate, Query.delete, h, issue_error] <;> rfl

theorem run_ok {r : Request α ρ β} {q : Query α} {s : Statement α} (h : r.compiled q = .ok s)
    (client : Client σ α ρ) (state : σ) :
    r.run q client state =
      let (answer, after) := r.exchange client s state
      r.outcome s answer after := by
  -- The requests are grouped by how they hand their statement over.
  cases r with
  | getRows =>
    rw [compiled] at h
    simp only [run, Query.getRows, h, issue_ok, exchange]
    rcases client.query s state with ⟨_ | rows, after⟩ <;> rfl
  | fetchAll read =>
    rw [compiled] at h
    simp only [run, Query.fetchAll, Query.getRows, h, issue_ok, exchange,
      funext (readAll_eq_mapM _)]
    rcases client.query s state with ⟨_ | rows, after⟩ <;> rfl
  | fetchOpt read =>
    rw [compiled] at h
    simp only [run, Query.fetchOpt, h, issue_queryOpt, exchange]
    rcases client.query s state with ⟨_ | _ | _, after⟩ <;> rfl
  | getRow =>
    rw [compiled] at h
    show q.getRow client state = _
    rw [Query.getRow, h, issue_queryOne]
    simp only [exchange]
    rcases client.query s state with ⟨_ | _ | _, after⟩ <;> rfl
  | fetchOne read | count | «exists» | insertGetId row idColumn =>
    rw [compiled] at h
    simp only [run, Query.getRow, Query.fetchOne, Query.count, Query.hasRow, Query.insertGetId, h,
      issue_queryOne, exchange]
    rcases client.query s state with ⟨_ | _ | _, after⟩ <;> rfl
  | insert | replace | update | insertUpdate | delete =>
    rw [compiled] at h
    simp only [run, Query.insert, Query.replace, Query.update, Query.insertUpdate, Query.delete, h,
      issue_ok, exchange]
    rcases client.execute s state with ⟨_ | _, after⟩ <;> rfl

end Request

/-- A client that also keeps the statements it gets, in the order in which it gets them. -/
def Client.watched (client : Client σ α ρ) : Client (σ × List (Statement α)) α ρ where
  query s state :=
    let (answer, after) := client.query s state.1
    (answer, after, state.2 ++ [s])
  execute s state :=
    let (answer, after) := client.execute s state.1
    (answer, after, state.2 ++ [s])

namespace Request

theorem exchange_watched (r : Request α ρ β) (client : Client σ α ρ) (s : Statement α)
    (state : σ × List (Statement α)) :
    r.exchange client.watched s state =
      let (answer, after) := r.exchange client s state.1
      (answer, after, state.2 ++ [s]) := by
  cases r <;> rfl

theorem client_outcome [DriverRow ρ] (r : Request α ρ β) (s : Statement α)
    (answer : Except Error r.Answer) (after : σ) : (r.outcome s answer after).client = after := by
  rw [outcome]
  split <;> rfl

theorem failure?_error (r : Request α ρ β) (e : Error) : r.failure? (.error e) = some e := by
  cases r <;> rfl

variable [HasNull α] [DriverRow ρ]

/-- A request without a statement comes back with the reason, and nothing is sent or logged.  Any
other sends its statement, once, and logs it before.  An answer that is a failure is logged after
that and comes back with the statement's own text, and from any other the caller gets what it
asked for. -/
theorem run_protocol (r : Request α ρ β) (q : Query α) (client : Client σ α ρ) (state : σ) :
    let o := r.run q client state
    let sent := (r.run q client.watched (state, [])).client.2
    match r.compiled q with
    | .error e => o = ⟨.error e.toError, state, []⟩ ∧ sent = []
    | .ok s =>
      let (answer, after) := r.exchange client s state
      o.client = after ∧ sent = [s] ∧
        match r.failure? answer with
        | some e =>
          o.events =
              [.log (.statement r.operation s.args.length (loggedSql s.sql)), .send,
                .log (.failure r.operation (loggedSql s.sql) e.message)] ∧
            o.result = .error (match e with
              | .execution sql source => .execution sql source
              | e => .execution s.sql e)
        | none =>
          o.events =
              [.log (.statement r.operation s.args.length (loggedSql s.sql)), .send] ∧
            ∃ received, answer = .ok received ∧ o.result = r.decode received := by
  cases h : r.compiled q with
  | error e => simp only [run_error h, and_self]
  | ok s =>
    simp only [run_ok h, exchange_watched, client_outcome, List.nil_append, true_and]
    rcases r.exchange client s state with ⟨answer, after⟩
    cases hfailure : r.failure? answer with
    | some e =>
      simp only [outcome, hfailure]
      refine ⟨rfl, ?_⟩
      cases e <;> rfl
    | none =>
      simp only [outcome, hfailure]
      refine ⟨rfl, ?_⟩
      cases answer with
      | error e =>
        rw [failure?_error] at hfailure
        cases hfailure
      | ok received => exact ⟨received, rfl, rfl⟩

/-- A client without rows fails a request for one row, and not one for the number of changes. -/
example :
    let q : Query Value := (Query.ofTable "users").build [.whereEq "id" (.int8 9)]
    let client : Client _ Value TypedRow := .recording 2 none
    let select := "SELECT * FROM users WHERE id = $1 LIMIT 1"
    let delete := "DELETE FROM users WHERE id = $1"
    (Request.getRow : Request Value TypedRow Unit).run q client [] =
        ⟨.error (.execution select .noRow), [(.query, ⟨select, [.int8 9]⟩)],
          [.log (.statement .getRow 1 select), .send,
            .log (.failure .getRow select "Not found: Expected one row, got none")]⟩ ∧
      (Request.delete : Request Value TypedRow Unit).run q client [] =
        ⟨.ok (2 : Nat), [(.execute, ⟨delete, [.int8 9]⟩)],
          [.log (.statement .delete 1 delete), .send]⟩ :=
  ⟨rfl, rfl⟩

end Request

end BoundSql
