import BoundSql.Error
import Mathlib.Data.List.Chain

/-! Errors inside wrappers.  `Error.Transparent` says what is seen of an error through the wrappers
around it: all that callers branch on is that of the error inside, and so is what stands behind them
all.  `Error.wrapped_transparent` shows it for wrappers nested to any depth, and that attaching SQL
never puts a second wrapper around an error. -/

namespace BoundSql.Error

/-- An error without SQL around it. -/
def Bare (e : Error) : Prop := ∀ sql source, e ≠ .execution sql source

/-- An error inside wrappers with the given SQL, the outermost first. -/
def wrapped (r : Error) : List String → Error
  | [] => r
  | sql :: sqls => .execution sql (r.wrapped sqls)

/-- The errors inside the wrappers, from the outermost wrapper inwards. -/
def inside : Error → List Error
  | .execution _ source => source :: source.inside
  | _ => []

def depth : Error → Nat
  | .execution _ source => source.depth + 1
  | _ => 0

/-- Errors on which nothing but `withSql` has put SQL. -/
inductive Attached : Error → Prop
  | bare {r : Error} (h : r.Bare) : Attached r
  | withSql {e : Error} (h : Attached e) (sql : String) : Attached (e.withSql sql)

/-- Two errors on which callers branch alike. -/
structure SameKind (e r : Error) : Prop where
  unique : e.isUniqueViolation = r.isUniqueViolation
  notFound : e.isNotFound = r.isNotFound
  validation : e.isValidation = r.isValidation

/-- What is seen of `r` through wrappers. -/
structure Transparent (sqls : List String) (r e : Error) : Prop where
  root : e.root = r
  kind : SameKind e r
  sql : e.sql? = sqls.head?
  depth : e.depth = sqls.length
  count : e.inside.length = sqls.length
  chain : (e :: e.inside).IsChain fun outer inner => ∃ sql, outer = .execution sql inner
  innermost : (e :: e.inside).getLast? = some r
  /-- Behind the errors inside the wrappers there is what stands behind `r`. -/
  sources : e.sources = e.inside.map .error ++ r.sources
  message : e.message =
    r.message ++ String.join (sqls.reverse.map fun sql => " [sql: " ++ sql ++ "]")

theorem Bare.cases {r : Error} (h : r.Bare) :
    r.root = r ∧ r.sql? = none ∧ r.depth = 0 ∧ r.inside = [] := by
  cases r with
  | execution sql source => exact absurd rfl (h sql source)
  | _ => exact ⟨rfl, rfl, rfl, rfl⟩

/-- Without wrappers, only an error of the driver has something behind it. -/
theorem Bare.sources_eq_nil {r : Error} (h : r.Bare) (hdriver : ∀ d, r ≠ .query d) :
    r.sources = [] := by
  cases r with
  | execution sql source => exact absurd rfl (h sql source)
  | query d => exact absurd rfl (hdriver d)
  | _ => rfl

theorem SameKind.of_root {e r : Error} (h : e.root = r.root) : SameKind e r where
  unique := by rw [isUniqueViolation, isUniqueViolation, h]
  notFound := by rw [isNotFound, isNotFound, h]
  validation := by rw [isValidation, isValidation, h]

theorem Transparent.bare {r : Error} (h : r.Bare) : Transparent [] r r := by
  obtain ⟨hroot, hsql, hdepth, hinside⟩ := h.cases
  refine ⟨hroot, .of_root rfl, hsql, hdepth, ?_, ?_, ?_, ?_, String.append_empty.symm⟩
  · rw [hinside]
    rfl
  · rw [hinside]
    exact .singleton r
  · rw [hinside]
    rfl
  · rw [hinside]
    rfl

theorem Transparent.execution {sqls : List String} {r e : Error} (h : Transparent sqls r e)
    (sql : String) : Transparent (sql :: sqls) r (.execution sql e) where
  root := h.root
  kind := ⟨h.kind.unique, h.kind.notFound, h.kind.validation⟩
  sql := rfl
  depth := congrArg (· + 1) h.depth
  count := congrArg (· + 1) h.count
  chain := .cons_cons ⟨sql, rfl⟩ h.chain
  innermost := h.innermost
  sources := congrArg (Cause.error e :: ·) h.sources
  message := by
    show e.message ++ " [sql: " ++ sql ++ "]" = _
    rw [h.message, List.reverse_cons, List.map_append, String.join_append, List.map_singleton,
      String.join_cons, String.join_nil, String.append_empty]
    simp only [String.append_assoc]

/-- Where nothing stands behind the error inside the wrappers, it ends the chain. -/
theorem Transparent.getLast?_sources {sqls : List String} {r e : Error} (h : Transparent sqls r e)
    (hr : r.sources = []) (hsqls : sqls ≠ []) : e.sources.getLast? = some (.error r) := by
  have hinnermost := h.innermost
  have hcount := h.count
  have hsources := h.sources
  cases hinside : e.inside with
  | nil =>
    rw [hinside] at hcount
    exact absurd (List.length_eq_zero_iff.mp hcount.symm) hsqls
  | cons source rest =>
    rw [hinside, List.getLast?_cons_cons] at hinnermost
    rw [hsources, hr, hinside, List.append_nil, List.getLast?_map, hinnermost]
    rfl

theorem transparent_wrapped {r : Error} (h : r.Bare) (sqls : List String) :
    Transparent sqls r (r.wrapped sqls) := by
  induction sqls with
  | nil => exact .bare h
  | cons sql sqls ih => exact ih.execution sql

/-! ### Attaching SQL -/

theorem withSql_of_bare {e : Error} (h : e.Bare) (sql : String) :
    e.withSql sql = .execution sql e := by
  cases e with
  | execution inner source => exact absurd rfl (h inner source)
  | _ => rfl

theorem root_withSql (e : Error) (sql : String) : (e.withSql sql).root = e.root := by
  cases e <;> rfl

theorem withSql_withSql (e : Error) (sql other : String) :
    (e.withSql sql).withSql other = e.withSql sql := by
  cases e <;> rfl

theorem foldl_withSql (e : Error) (sql : String) (further : List String) :
    further.foldl (fun e sql => e.withSql sql) (e.withSql sql) = e.withSql sql := by
  induction further with
  | nil => rfl
  | cons other further ih => rw [List.foldl_cons, withSql_withSql, ih]

theorem Attached.depth_le {e : Error} (h : Attached e) : e.depth ≤ 1 := by
  induction h with
  | bare h =>
    obtain ⟨_, _, hdepth, _⟩ := h.cases
    omega
  | @withSql e _ sql ih =>
    cases e with
    | execution => exact ih
    | _ => exact Nat.le_refl 1

/-- Wrappers hide nothing of the error inside them, whatever their number: not its root, nor what
callers branch on, nor its text, to which each wrapper adds its SQL, the innermost first.  The SQL is
that of the outermost wrapper.  The chain behind an error leads through its wrappers to the error
inside them and ends there, unless that is an error of the driver, which the chain goes on with.
Attaching SQL wraps an error without SQL once and changes no other, so that errors wrapped in no
other way have one wrapper at most. -/
theorem wrapped_transparent {r : Error} (hr : r.Bare) (sqls : List String) :
    let e := r.wrapped sqls
    Transparent sqls r e ∧
    ((∀ d, r ≠ .query d) → e.sources.length = sqls.length ∧
      (sqls ≠ [] → e.sources.getLast? = some (.error r))) ∧
    (∀ d, r = .query d →
      e.sources = e.inside.map .error ++ .driver d.message :: d.causes.map .driver) ∧
    (∀ sql, (e.withSql sql).root = r ∧ SameKind (e.withSql sql) e ∧
      (0 < e.depth → e.withSql sql = e) ∧
      (e.depth = 0 → e.withSql sql = .execution sql e ∧ (e.withSql sql).depth = 1) ∧
      ∀ further : List String,
        further.foldl (fun e sql => e.withSql sql) (e.withSql sql) = e.withSql sql) ∧
    ∀ made, Attached made → made.depth ≤ 1 := by
  intro e
  have he : Transparent sqls r e := transparent_wrapped hr sqls
  have hlength := he.depth
  refine ⟨he, fun hdriver => ⟨?_, ?_⟩, fun d hd => ?_, fun sql => ⟨?_, ?_, fun h => ?_, fun h => ?_,
    foldl_withSql e sql⟩, fun made hmade => hmade.depth_le⟩
  · rw [he.sources, hr.sources_eq_nil hdriver, List.append_nil, List.length_map, he.count]
  · exact he.getLast?_sources (hr.sources_eq_nil hdriver)
  · rw [he.sources, hd]
    rfl
  · rw [root_withSql, he.root]
  · exact .of_root (root_withSql e sql)
  · rcases sqls with _ | ⟨outer, sqls⟩
    · rw [List.length_nil] at hlength
      omega
    · rfl
  · rcases sqls with _ | ⟨outer, sqls⟩
    · have hbare : e.withSql sql = .execution sql e := withSql_of_bare hr sql
      rw [hbare]
      exact ⟨rfl, congrArg (· + 1) h⟩
    · rw [List.length_cons] at hlength
      omega

/-- A row that was not found, in two wrappers. -/
def twiceWrapped : Error := (notFound "no rows").wrapped ["SELECT 2", "SELECT 1"]

/-- An error that the server reports and that is no violation of a constraint. -/
def deadlock : Error := .query ⟨"db error", ["ERROR: deadlock detected"]⟩

theorem wrapped_transparent_twice :
    (notFound "no rows").Bare ∧ twiceWrapped.root = .notFound "no rows" ∧
      twiceWrapped.isNotFound = true ∧ twiceWrapped.sql? = some "SELECT 2" ∧
      twiceWrapped.sources =
        [.error (.execution "SELECT 1" (.notFound "no rows")), .error (.notFound "no rows")] ∧
      twiceWrapped.sources.getLast? = some (.error (.notFound "no rows")) ∧
      twiceWrapped.message = "Not found: no rows [sql: SELECT 1] [sql: SELECT 2]" ∧
      twiceWrapped.withSql "SELECT 3" = twiceWrapped ∧
      (notFound "no rows").withSql "SELECT 3" = .execution "SELECT 3" (.notFound "no rows") ∧
      deadlock.Bare ∧ (deadlock.wrapped ["SELECT 1"]).sources =
        [.error deadlock, .driver "db error", .driver "ERROR: deadlock detected"] := by
  have hbare : (notFound "no rows").Bare := nofun
  have hplain : ∀ d, notFound "no rows" ≠ .query d := nofun
  have hdeadlock : deadlock.Bare := nofun
  obtain ⟨htwice, hends, _, hattach, _⟩ := wrapped_transparent hbare ["SELECT 2", "SELECT 1"]
  obtain ⟨_, _, _, honce, _⟩ := wrapped_transparent hbare []
  obtain ⟨_, _, hdriver, _, _⟩ := wrapped_transparent hdeadlock ["SELECT 1"]
  refine ⟨hbare, htwice.root, htwice.kind.notFound, htwice.sql, htwice.sources,
    (hends hplain).2 nofun, ?_, ?_, ?_, hdeadlock, hdriver _ rfl⟩
  · exact htwice.message.trans (by decide)
  · exact (hattach "SELECT 3").2.2.1 (by decide)
  · exact ((honce "SELECT 3").2.2.2.1 rfl).1

/-- The chain behind one wrapper is longer than one and does not end in the error inside it, when
that is an error of the driver; and no chain ends in an error without wrappers. -/
theorem sources_beyond_wrappers :
    deadlock.Bare ∧ (deadlock.wrapped ["SELECT 1"]).sources.length ≠ ["SELECT 1"].length ∧
      (deadlock.wrapped ["SELECT 1"]).sources.getLast? ≠ some (.error deadlock) ∧
      (notFound "x").Bare ∧
      ((notFound "x").wrapped []).sources.getLast? ≠ some (.error (.notFound "x")) :=
  ⟨nofun, by decide, by decide, nofun, by decide⟩

end BoundSql.Error
