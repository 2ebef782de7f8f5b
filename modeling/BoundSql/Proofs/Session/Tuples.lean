import BoundSql.Client.TypedRow
import BoundSql.Proofs.Session.FirstRow

/-! Rows read as tuples.  A row decodes as a tuple if each of its first cells can be read, and else
fails at the first that cannot.  What the five operations that read rows give for one answer of a
client is determined by that, and they agree with each other (`Query.readsAlike`). -/

namespace BoundSql

variable {σ α β γ ρ : Type}

/-! ### Reading one after the other -/

section Traverse

variable {f : β → Except Error γ}

theorem mapM_cons_eq (f : β → Except Error γ) (x : β) (xs : List β) :
    (x :: xs).mapM f =
      match f x with
      | .error e => .error e
      | .ok y =>
        match xs.mapM f with
        | .error e => .error e
        | .ok ys => .ok (y :: ys) := by
  rw [List.mapM_cons]
  cases f x with
  | error e => rfl
  | ok y => cases xs.mapM f <;> rfl

theorem mapM_cons_ok_iff {x : β} {xs : List β} {ys : List γ} :
    (x :: xs).mapM f = .ok ys ↔ ∃ z zs, f x = .ok z ∧ xs.mapM f = .ok zs ∧ ys = z :: zs := by
  rw [mapM_cons_eq]
  cases f x with
  | error e => simp
  | ok z => cases xs.mapM f <;> simp [eq_comm]

theorem mapM_cons_error_iff {x : β} {xs : List β} {e : Error} :
    (x :: xs).mapM f = .error e ↔
      f x = .error e ∨ (∃ z, f x = .ok z) ∧ xs.mapM f = .error e := by
  rw [mapM_cons_eq]
  cases f x with
  | error e' => simp
  | ok z => cases xs.mapM f <;> simp

theorem mapM_ok_iff {xs : List β} {ys : List γ} :
    xs.mapM f = .ok ys ↔ List.Forall₂ (fun x y => f x = .ok y) xs ys := by
  induction xs generalizing ys with
  | nil =>
    rw [List.forall₂_nil_left_iff]
    exact ⟨fun h => (Except.ok.inj h).symm, fun h => h ▸ rfl⟩
  | cons x xs ih => simp only [mapM_cons_ok_iff, List.forall₂_cons_left_iff, ih]

/-- The first that fails decides, behind some that do not fail. -/
theorem mapM_error_iff {xs : List β} {e : Error} :
    xs.mapM f = .error e ↔ ∃ before x after, xs = before ++ x :: after ∧
      (∃ ys, before.mapM f = .ok ys) ∧ f x = .error e := by
  induction xs with
  | nil =>
    refine ⟨fun h => (by cases h), ?_⟩
    rintro ⟨before, x, after, h, -⟩
    cases before <;> cases h
  | cons y xs ih =>
    rw [mapM_cons_error_iff]
    constructor
    · rintro (hy | ⟨⟨z, hz⟩, hxs⟩)
      · exact ⟨[], y, xs, rfl, ⟨[], rfl⟩, hy⟩
      · obtain ⟨before, x, after, rfl, ⟨ys, hys⟩, hx⟩ := ih.mp hxs
        have hfront := mapM_cons_ok_iff.mpr ⟨z, ys, hz, hys, rfl⟩
        exact ⟨y :: before, x, after, rfl, ⟨z :: ys, hfront⟩, hx⟩
    · rintro ⟨_ | ⟨_, before⟩, x, after, h, ⟨ys, hys⟩, hx⟩ <;> cases h
      · exact .inl hx
      · obtain ⟨z, zs, hz, hzs, -⟩ := mapM_cons_ok_iff.mp hys
        exact .inr ⟨⟨z, hz⟩, ih.mpr ⟨before, x, after, rfl, ⟨zs, hzs⟩, hx⟩⟩

end Traverse

/-! ### Tuples -/

namespace Reading

variable {readings : List (Reading ρ β)} {row : ρ}

/-- The driver reads the first cells of a row, each by the reading of its position. -/
def Decodes (readings : List (Reading ρ β)) (row : ρ) (values : List β) : Prop :=
  List.Forall₂ (fun r x => r.1.get row r.2 = .ok x) readings.zipIdx values

/-- The driver does not read the cell at a position, and it reads those in front of it. -/
def FailsAt (readings : List (Reading ρ β)) (row : ρ) (i : Nat) (e : Error) : Prop :=
  ∃ before r after, readings = before ++ r :: after ∧ before.length = i ∧
    (∃ values, Decodes before row values) ∧
    ∃ d, r.get row i = .error d ∧ e = .decode (toString i) d.message

theorem index_ok_iff {r : Reading ρ β} {i : Nat} {x : β} :
    r.index row i = .ok x ↔ r.get row i = .ok x := by
  unfold index
  cases r.get row i <;> simp [Except.mapError_ok, Except.mapError_error]

theorem index_error_iff {r : Reading ρ β} {i : Nat} {e : Error} :
    r.index row i = .error e ↔
      ∃ d, r.get row i = .error d ∧ e = .decode (toString i) d.message := by
  unfold index
  cases r.get row i <;> simp [Except.mapError_ok, Except.mapError_error, eq_comm]

theorem go_eq_mapM (row : ρ) (position : Nat) (readings : List (Reading ρ β)) :
    tuple.go row position readings =
      (readings.zipIdx position).mapM fun r => r.1.index row r.2 := by
  induction readings generalizing position with
  | nil => rfl
  | cons r readings ih =>
    rw [List.zipIdx_cons, tuple.go, ih]
    exact (mapM_cons_eq (fun r => r.1.index row r.2) (r, position) _).symm

theorem tuple_ok_iff {values : List β} :
    tuple readings row = .ok values ↔ Decodes readings row values := by
  rw [tuple, go_eq_mapM, mapM_ok_iff, Decodes]
  simp only [index_ok_iff]

/-- A row that does not decode fails at one position. -/
theorem tuple_error_iff {e : Error} :
    tuple readings row = .error e ↔ ∃ i, FailsAt readings row i e := by
  rw [tuple, go_eq_mapM, mapM_error_iff]
  simp only [mapM_ok_iff, index_ok_iff, index_error_iff]
  constructor
  -- A front of the numbered readings is a front of the readings, numbered alike.
  · rintro ⟨front, x, back, h, hfront, he⟩
    obtain ⟨before, rest, rfl, rfl, hrest⟩ := List.zipIdx_eq_append_iff.mp h
    obtain ⟨r, after, rfl, rfl, -⟩ := List.zipIdx_eq_cons_iff.mp hrest.symm
    rw [Nat.zero_add] at he
    exact ⟨before.length, before, r, after, rfl, rfl, hfront, he⟩
  · rintro ⟨_, before, r, after, rfl, rfl, hbefore, he⟩
    refine ⟨before.zipIdx, (r, before.length), after.zipIdx (before.length + 1), ?_, hbefore, he⟩
    rw [List.zipIdx_append, List.zipIdx_cons, Nat.zero_add]

end Reading

/-! ### The operations that read rows -/

namespace Query

variable {q : Query α} {s t : Statement α} {readings : List (Reading ρ β)} {client : Client σ α ρ}
  {state : σ}

theorem bind_firstRow_congr {a b : Except Error (List ρ)}
    (h : a.map List.head? = b.map List.head?) : a.bind firstRow = b.bind firstRow := by
  have hfirst : ∀ c : Except Error (List ρ), c.bind firstRow =
      (c.map List.head?).bind fun row => row.elim (.error .noRow) .ok := by
    rintro (_ | _ | _) <;> rfl
  rw [hfirst, hfirst, h]

theorem ok_nil_congr {a b : Except Error (List ρ)} (h : a.map List.head? = b.map List.head?) :
    a = .ok [] ↔ b = .ok [] := by
  have hnil : ∀ c : Except Error (List ρ), c = .ok [] ↔ c.map List.head? = .ok none := by
    rintro (_ | _ | _) <;> simp [Except.map]
  rw [hnil, hnil, h]

theorem result_getRows (hs : q.compile .select = .ok s) (client : Client σ α ρ) (state : σ) :
    (q.getRows client state).result = (client.query s state).1.mapError (Error.withSql s.sql) := by
  rw [getRows, hs, issue_ok]
  rcases client.query s state with ⟨_ | _, _⟩ <;> rfl

theorem result_fetchAll (q : Query α) (read : ρ → Except Error β) (client : Client σ α ρ)
    (state : σ) :
    (q.fetchAll client read state).result =
      (q.getRows client state).result >>= fun rows => rows.mapM read := by
  rw [fetchAll, Outcome.andThen]
  exact congrArg _ (funext (readAll_eq_mapM read))

theorem fetchAll_ok_iff {tuples : List (List β)} :
    (q.fetchAll client (Reading.tuple readings) state).result = .ok tuples ↔
      ∃ rows, (q.getRows client state).result = .ok rows ∧
        List.Forall₂ (Reading.Decodes readings) rows tuples := by
  rw [result_fetchAll, Except.bind_ok_iff]
  simp only [mapM_ok_iff, Reading.tuple_ok_iff]

theorem fetchAll_error_iff {e : Error} :
    (q.fetchAll client (Reading.tuple readings) state).result = .error e ↔
      (q.getRows client state).result = .error e ∨
        ∃ before row after i, (q.getRows client state).result = .ok (before ++ row :: after) ∧
          (∃ tuples, List.Forall₂ (Reading.Decodes readings) before tuples) ∧
          Reading.FailsAt readings row i e := by
  rw [result_fetchAll, Except.bind_error_iff]
  simp only [mapM_error_iff, mapM_ok_iff, Reading.tuple_ok_iff, Reading.tuple_error_iff]
  refine or_congr_right ⟨?_, ?_⟩
  · rintro ⟨_, hrows, before, row, after, rfl, hbefore, i, hi⟩
    exact ⟨before, row, after, i, hrows, hbefore, hi⟩
  · rintro ⟨before, row, after, i, hrows, hbefore, hi⟩
    exact ⟨_, hrows, before, row, after, rfl, hbefore, i, hi⟩

variable [HasNull α]

theorem result_getRow (ht : q.firstRowOnly.compile .select = .ok t) (client : Client σ α ρ)
    (state : σ) :
    (q.getRow client state).result =
      ((client.query t state).1.bind firstRow).mapError (Error.withSql t.sql) := by
  rw [getRow, ht, issue_queryOne]
  rcases client.query t state with ⟨_ | _ | _, _⟩ <;> rfl

theorem result_fetchOne (q : Query α) (read : ρ → Except Error β) (client : Client σ α ρ)
    (state : σ) :
    (q.fetchOne client read state).result = (q.getRow client state).result >>= read := rfl

theorem result_fetchOpt (ht : q.firstRowOnly.compile .select = .ok t)
    (read : ρ → Except Error β) (client : Client σ α ρ) (state : σ) :
    ((client.query t state).1 = .ok [] → (q.fetchOpt client read state).result = .ok none) ∧
    ((client.query t state).1 ≠ .ok [] → (q.fetchOpt client read state).result =
      (q.fetchOne client read state).result.map some) := by
  rw [result_fetchOne, result_getRow ht, fetchOpt, ht, issue_queryOpt]
  rcases client.query t state with ⟨_ | _ | _, _⟩
  · exact ⟨fun h => (by cases h), fun _ => rfl⟩
  · exact ⟨fun _ => rfl, fun h => absurd rfl h⟩
  · exact ⟨fun h => (by cases h), fun _ => rfl⟩

theorem fetchOne_ok_iff {tuple : List β} :
    (q.fetchOne client (Reading.tuple readings) state).result = .ok tuple ↔
      ∃ row, (q.getRow client state).result = .ok row ∧ Reading.Decodes readings row tuple := by
  rw [result_fetchOne, Except.bind_ok_iff]
  simp only [Reading.tuple_ok_iff]

theorem fetchOne_error_iff {e : Error} :
    (q.fetchOne client (Reading.tuple readings) state).result = .error e ↔
      (q.getRow client state).result = .error e ∨
        ∃ row i, (q.getRow client state).result = .ok row ∧ Reading.FailsAt readings row i e := by
  rw [result_fetchOne, Except.bind_error_iff]
  simp only [Reading.tuple_error_iff, exists_and_left]

theorem compile_firstRowOnly_of_error {e : CompileError} (h : q.compile .select = .error e) :
    q.firstRowOnly.compile .select = .error e := by
  rw [firstRowOnly_eq]
  exact compile_withLastTail_of_error h _

/-- What the operations that read rows give for one answer of a client to the statement for all rows
and to the one for the first row. -/
structure ReadsAlike (q : Query α) (readings : List (Reading ρ β)) (client : Client σ α ρ)
    (state : σ) (s t : Statement α) (answer : Except Error (List ρ)) : Prop where
  getRows : (q.getRows client state).result = answer.mapError (Error.withSql s.sql)
  getRow : (q.getRow client state).result =
    (answer.bind firstRow).mapError (Error.withSql t.sql)
  /-- All rows decode. -/
  fetchAll_ok : ∀ tuples, (q.fetchAll client (Reading.tuple readings) state).result = .ok tuples ↔
    ∃ rows, (q.getRows client state).result = .ok rows ∧
      List.Forall₂ (Reading.Decodes readings) rows tuples
  /-- There are no rows, or the first that does not decode fails. -/
  fetchAll_error : ∀ e, (q.fetchAll client (Reading.tuple readings) state).result = .error e ↔
    (q.getRows client state).result = .error e ∨
      ∃ before row after i, (q.getRows client state).result = .ok (before ++ row :: after) ∧
        (∃ tuples, List.Forall₂ (Reading.Decodes readings) before tuples) ∧
        Reading.FailsAt readings row i e
  fetchOne_ok : ∀ tuple, (q.fetchOne client (Reading.tuple readings) state).result = .ok tuple ↔
    ∃ row, (q.getRow client state).result = .ok row ∧ Reading.Decodes readings row tuple
  fetchOne_error : ∀ e, (q.fetchOne client (Reading.tuple readings) state).result = .error e ↔
    (q.getRow client state).result = .error e ∨
      ∃ row i, (q.getRow client state).result = .ok row ∧ Reading.FailsAt readings row i e
  fetchOpt_some : ∀ tuple,
    (q.fetchOpt client (Reading.tuple readings) state).result = .ok (some tuple) ↔
      (q.fetchOne client (Reading.tuple readings) state).result = .ok tuple
  fetchOpt_none : (q.fetchOpt client (Reading.tuple readings) state).result = .ok none ↔
    answer = .ok [] ∧ (q.fetchOne client (Reading.tuple readings) state).result =
      .error (.execution t.sql .noRow)
  fetchOpt_error : ∀ e, (q.fetchOpt client (Reading.tuple readings) state).result = .error e ↔
    answer ≠ .ok [] ∧ (q.fetchOne client (Reading.tuple readings) state).result = .error e
  /-- Another answer with the same first row gives the same. -/
  first : ∀ {τ : Type} (other : Client τ α ρ) (elsewhere : τ),
    (other.query t elsewhere).1.map List.head? = answer.map List.head? →
      (q.getRow other elsewhere).result = (q.getRow client state).result ∧
      (q.fetchOne other (Reading.tuple readings) elsewhere).result =
        (q.fetchOne client (Reading.tuple readings) state).result ∧
      (q.fetchOpt other (Reading.tuple readings) elsewhere).result =
        (q.fetchOpt client (Reading.tuple readings) state).result

theorem readsAlike_of_answer (hs : q.compile .select = .ok s)
    (ht : q.firstRowOnly.compile .select = .ok t) (readings : List (Reading ρ β))
    {client : Client σ α ρ} {state : σ} {answer : Except Error (List ρ)}
    (hall : (client.query s state).1 = answer) (hfirst : (client.query t state).1 = answer) :
    q.ReadsAlike readings client state s t answer := by
  have hgetRow := result_getRow ht client state
  obtain ⟨hnone, hsome⟩ := result_fetchOpt ht (Reading.tuple readings) client state
  rw [hfirst] at hgetRow hnone hsome
  have hfetchOne : answer = .ok [] → (q.fetchOne client (Reading.tuple readings) state).result =
      .error (.execution t.sql .noRow) := by
    rintro rfl
    rw [result_fetchOne, hgetRow]
    rfl
  constructor
  case getRows => exact hall ▸ result_getRows hs client state
  case getRow => exact hgetRow
  case fetchAll_ok => exact fun _ => fetchAll_ok_iff
  case fetchAll_error => exact fun _ => fetchAll_error_iff
  case fetchOne_ok => exact fun _ => fetchOne_ok_iff
  case fetchOne_error => exact fun _ => fetchOne_error_iff
  case fetchOpt_some =>
    intro tuple
    by_cases hempty : answer = .ok []
    · simp [hnone hempty, hfetchOne hempty]
    · rw [hsome hempty]
      cases (q.fetchOne client (Reading.tuple readings) state).result <;> simp [Except.map]
  case fetchOpt_none =>
    by_cases hempty : answer = .ok []
    · exact ⟨fun _ => ⟨hempty, hfetchOne hempty⟩, fun _ => hnone hempty⟩
    · rw [hsome hempty]
      cases (q.fetchOne client (Reading.tuple readings) state).result <;> simp [Except.map, hempty]
  case fetchOpt_error =>
    intro e
    by_cases hempty : answer = .ok []
    · simp [hnone hempty, hempty]
    · rw [hsome hempty]
      cases (q.fetchOne client (Reading.tuple readings) state).result <;> simp [Except.map, hempty]
  case first =>
    intro τ other elsewhere hhead
    have hrow : (q.getRow other elsewhere).result = (q.getRow client state).result := by
      rw [result_getRow ht, hgetRow, bind_firstRow_congr hhead]
    have hone : (q.fetchOne other (Reading.tuple readings) elsewhere).result =
        (q.fetchOne client (Reading.tuple readings) state).result := by
      rw [result_fetchOne, result_fetchOne, hrow]
    refine ⟨hrow, hone, ?_⟩
    obtain ⟨hnone', hsome'⟩ := result_fetchOpt ht (Reading.tuple readings) other elsewhere
    rw [ok_nil_congr hhead] at hnone'
    rw [ne_eq, ok_nil_congr hhead, hone] at hsome'
    by_cases hempty : answer = .ok []
    · rw [hnone hempty, hnone' hempty]
    · rw [hsome hempty, hsome' hempty]

/-- The operations that read rows fail alike where the query has no statement, and agree with each
other on every answer of a client. -/
theorem readsAlike (q : Query α) (readings : List (Reading ρ β)) (client : Client σ α ρ)
    (state : σ) :
    match q.compile .select with
    | .error e =>
      (q.getRows client state).result = .error e.toError ∧
        (q.getRow client state).result = .error e.toError ∧
        (q.fetchAll client (Reading.tuple readings) state).result = .error e.toError ∧
        (q.fetchOne client (Reading.tuple readings) state).result = .error e.toError ∧
        (q.fetchOpt client (Reading.tuple readings) state).result = .error e.toError
    | .ok s => ∃ t, q.firstRowOnly.compile .select = .ok t ∧
        ∀ answer, (client.query s state).1 = answer → (client.query t state).1 = answer →
          q.ReadsAlike readings client state s t answer := by
  cases hq : q.compile .select with
  | error e =>
    have hfirst := compile_firstRowOnly_of_error hq
    have hgetRows : (q.getRows client state).result = .error e.toError := by
      rw [getRows, hq, issue_error]
    have hgetRow : (q.getRow client state).result = .error e.toError := by
      rw [getRow, hfirst, issue_error]
    refine ⟨hgetRows, hgetRow, ?_, ?_, ?_⟩
    · rw [result_fetchAll, hgetRows]
      rfl
    · rw [result_fetchOne, hgetRow]
      rfl
    · rw [fetchOpt, hfirst, issue_error]
      rfl
  | ok s =>
    have hfirst := compile_withLastTail hq q.lastTail.firstRow
    rw [← firstRowOnly_eq] at hfirst
    exact ⟨_, hfirst, fun _ => readsAlike_of_answer hq hfirst readings⟩

def twoColumns : List Column := [⟨"id", .int8⟩, ⟨"name", .text⟩]

def named : TypedRow := ⟨twoColumns, [.int8 1, .text "x"]⟩

def nameless : TypedRow := ⟨twoColumns, [.int8 2, .null]⟩

/-- A client with one answer to every statement. -/
def answering (rows : List ρ) : Client Unit Value ρ where
  query _ _ := (.ok rows, ())
  execute _ _ := (.ok 0, ())

def idAndName : List (Reading TypedRow (Int64 ⊕ String)) :=
  [CellReading.int8.reading.map .inl, CellReading.text.reading.map .inr]

theorem readsAlike_nameless :
    ((ofTable "a").fetchAll (answering [named, nameless]) (Reading.tuple idAndName) ()).result =
        .error (.decode "1" "error deserializing column 1") ∧
      ((ofTable "a").fetchOne (answering [named, nameless]) (Reading.tuple idAndName) ()).result =
        .ok [.inl 1, .inr "x"] ∧
      ((ofTable "a").fetchOpt (answering [named, nameless]) (Reading.tuple idAndName) ()).result =
        .ok (some [.inl 1, .inr "x"]) := by
  have hcompile : (ofTable "a" : Query Value).compile .select = .ok ⟨"SELECT * FROM a", []⟩ := by
    decide +kernel
  have hagree := readsAlike (ofTable "a") idAndName (answering [named, nameless]) ()
  rw [hcompile] at hagree
  obtain ⟨t, -, hagree⟩ := hagree
  have h := hagree (.ok [named, nameless]) rfl rfl
  have hnamed : Reading.Decodes idAndName named [.inl 1, .inr "x"] := .cons rfl (.cons rfl .nil)
  have hnameless : Reading.FailsAt idAndName nameless 1
      (.decode "1" "error deserializing column 1") :=
    ⟨[CellReading.int8.reading.map .inl], CellReading.text.reading.map .inr, [], rfl, rfl,
      ⟨[.inl 2], .cons rfl .nil⟩, _, rfl, rfl⟩
  have hone := (h.fetchOne_ok [.inl 1, .inr "x"]).mpr ⟨named, h.getRow, hnamed⟩
  refine ⟨?_, hone, (h.fetchOpt_some _).mpr hone⟩
  exact (h.fetchAll_error _).mpr
    (.inr ⟨[named], nameless, [], 1, h.getRows, ⟨_, .cons hnamed .nil⟩, hnameless⟩)

end Query

end BoundSql
