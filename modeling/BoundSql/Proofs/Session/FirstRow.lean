import BoundSql.Proofs.Query.Reads
import BoundSql.Proofs.Session.Protocol

/-! The first row of a query.  `Select.trunk` is all of a SELECT but the clauses that trail it as a
whole, and the requests for one row replace the LIMIT among these clauses, and nothing else.  Over
every database this gives the first row, if any, of the query (`Recipe.firstRow_exact`). -/

namespace BoundSql

open Sql Sql.Fragment

variable {σ α β ι ρ : Type}

/-! ### Trailing clauses -/

/-- A keyword and a number, or nothing for the number 0. -/
def countText (keyword : String) (n : Nat) : String := if n = 0 then "" else keyword ++ toString n

namespace Sql.Fragment

theorem chars_countClause (style : PlaceholderStyle) (n : Nat) (keyword : String) (m : Nat) :
    (countClause keyword m : Fragment σ).chars style n = (countText keyword m).toList := by
  unfold countClause countText
  split <;> simp

end Sql.Fragment

namespace Tail

/-- The clauses without LIMIT and OFFSET. -/
def uncut (t : Tail) : Tail := { t with limit := 0, offset := 0 }

def firstRow (t : Tail) : Tail := { t with limit := 1 }

theorem chars_fragment (style : PlaceholderStyle) (n : Nat) (t : Tail) :
    (t.fragment : Fragment σ).chars style n =
      (t.uncut.fragment : Fragment σ).chars style n ++
        (countText " LIMIT " t.limit ++ countText " OFFSET " t.offset).toList := by
  simp [fragment, uncut, chars_countClause, countText]

theorem cut_firstRow (t : Tail) (rows : List ρ) :
    t.firstRow.cut rows = (t.cut rows).head?.toList := by
  have hcut : t.firstRow.cut rows = (rows.drop t.offset).take 1 := rfl
  rw [hcut, List.take_one, cut]
  split
  · rfl
  · rename_i hlimit
    rw [List.head?_take, if_neg hlimit]

end Tail

namespace Select

/-- The clauses that trail a SELECT as a whole. -/
def tail : Select σ → Tail
  | .block _ tail => tail
  | .combined _ _ _ tail => tail

def withTail (tail : Tail) : Select σ → Select σ
  | .block body _ => .block body tail
  | .combined lead leadTail members _ => .combined lead leadTail members tail

/-- A SELECT up to the clauses that trail it as a whole. -/
def trunk : Select σ → Fragment σ
  | .block body _ => body.fragment
  | .combined lead leadTail members _ =>
    operand leadTail.isEmpty (lead.fragment ++ leadTail.fragment) ++ memberFragments members

theorem fragment_withTail (s : Select σ) (tail : Tail) :
    (s.withTail tail).fragment = s.trunk ++ tail.fragment := by
  cases s with
  | block => rfl
  | combined => rw [withTail, fragment, trunk]

theorem withTail_tail (s : Select σ) : s.withTail s.tail = s := by
  cases s <;> rfl

theorem slotCount_withTail (s : Select σ) (tail : Tail) :
    (s.withTail tail).fragment.slotCount = s.fragment.slotCount := by
  have hs : s.fragment = s.trunk ++ s.tail.fragment := by
    rw [← fragment_withTail, withTail_tail]
  rw [hs, fragment_withTail]
  simp [Fragment.slotCount]

/-- LIMIT and OFFSET stand behind all else. -/
theorem render_withTail (style : PlaceholderStyle) (s : Select σ) (tail : Tail) :
    (s.withTail tail).fragment.render style =
      (s.withTail tail.uncut).fragment.render style ++ countText " LIMIT " tail.limit
        ++ countText " OFFSET " tail.offset := by
  apply String.toList_injective
  show (s.withTail tail).fragment.chars style 1 =
    String.toList ((s.withTail tail.uncut).fragment.render style ++ _ ++ _)
  rw [fragment_withTail, chars_append, tail.chars_fragment]
  simp only [String.toList_append, List.append_assoc]
  rw [← List.append_assoc, ← chars_append, ← fragment_withTail]
  rfl

end Select

namespace Database

variable [DecidableEq ρ] (db : Database α ι ρ)

theorem rows_firstRow (s : Select α) :
    db.rows (s.withTail s.tail.firstRow) = (db.rows s).head?.toList := by
  cases s with
  | block body tail =>
    rw [Select.withTail, rows, rows]
    exact tail.cut_firstRow _
  | combined lead leadTail members tail =>
    rw [Select.withTail, rows, rows]
    exact tail.cut_firstRow _

end Database

/-! ### Queries and requests for one row -/

namespace Query

/-- The clauses that trail a query as a whole: those of its block when it has no members. -/
def lastTail (q : Query α) : Tail := if q.members.isEmpty then q.tail else q.outer

def withLastTail (q : Query α) (tail : Tail) : Query α :=
  if q.members.isEmpty then { q with tail } else { q with outer := tail }

theorem tree_withLastTail (q : Query α) (tail : Tail) :
    (q.withLastTail tail).tree = q.tree.withTail tail := by
  obtain ⟨_, _, members, _⟩ := q
  cases members <;> rfl

theorem lastTail_eq (q : Query α) : q.lastTail = q.tree.tail := by
  obtain ⟨_, _, members, _⟩ := q
  cases members <;> rfl

theorem compile_select_ok_iff {q : Query α} {s : Statement α} :
    q.compile .select = .ok s ↔ q.firstFault? = none ∧ q.selectFault? = none ∧
      q.tree.fragment.slotCount = q.args.length ∧
      ⟨q.tree.fragment.render q.style, q.args⟩ = s := by
  refine compileWith_ok_iff.trans (and_congr_right fun _ => ?_)
  constructor
  · rintro ⟨c, hcommand, hfinish⟩
    obtain ⟨hfault, rfl⟩ := command_select_ok hcommand
    exact ⟨hfault, finish_ok_iff.mp hfinish⟩
  · rintro ⟨hfault, hfinish⟩
    refine ⟨.select q.tree, ?_, finish_ok_iff.mpr hfinish⟩
    rw [command_select_eq, hfault]

theorem same_withLastTail (q : Query α) (tail : Tail) :
    (q.withLastTail tail).firstFault? = q.firstFault? ∧
      (q.withLastTail tail).selectFault? = q.selectFault? ∧
      (q.withLastTail tail).args = q.args ∧ (q.withLastTail tail).style = q.style := by
  unfold withLastTail
  split <;> simp [firstFault?_eq, selectFault?_eq, body]

theorem compile_withLastTail {q : Query α} {s : Statement α} (h : q.compile .select = .ok s)
    (tail : Tail) :
    (q.withLastTail tail).compile .select =
      .ok ⟨(q.tree.withTail tail).fragment.render q.style, s.args⟩ := by
  obtain ⟨hrefused, hfault, hslots, rfl⟩ := compile_select_ok_iff.mp h
  have hcount : (q.tree.withTail tail).fragment.slotCount = q.args.length :=
    (q.tree.slotCount_withTail tail).trans hslots
  obtain ⟨hrefused', hfault', hargs, hstyle⟩ := q.same_withLastTail tail
  rw [compile_select_ok_iff, tree_withLastTail, hargs, hstyle]
  exact ⟨hrefused'.trans hrefused, hfault'.trans hfault, hcount, rfl⟩

/-- The clauses behind all else are never the reason why there is no statement. -/
theorem compile_withLastTail_of_error {q : Query α} {e : CompileError}
    (h : q.compile .select = .error e) (tail : Tail) :
    (q.withLastTail tail).compile .select = .error e := by
  obtain ⟨hrefused, hfault, hargs, -⟩ := q.same_withLastTail tail
  have hcount : (Command.select (q.tree.withTail tail)).fragment.slotCount =
      (Command.select q.tree).fragment.slotCount := q.tree.slotCount_withTail tail
  cases hq : q.firstFault? with
  | some fault =>
    rw [compile, compileWith, hq] at h
    rwa [compile, compileWith, hrefused, hq]
  | none =>
    rw [hq] at hrefused
    cases hselect : q.selectFault? with
    | some fault =>
      rw [hselect] at hfault
      rw [compile, compileWith, hq, (reads_of_selectFault? hselect).1] at h
      rwa [compile, compileWith, hrefused, (reads_of_selectFault? hfault).1]
    | none =>
      rw [hselect] at hfault
      rw [compile, compileWith_of_give hq (reads_of_no_selectFault? hselect).1, finish] at h
      rw [compile, compileWith_of_give hrefused (reads_of_no_selectFault? hfault).1, finish,
        tree_withLastTail]
      simp only [hcount, hargs]
      split at h
      · cases h
      · rename_i hne
        rwa [if_neg hne]

variable [HasNull α]

theorem firstRowOnly_eq (q : Query α) : q.firstRowOnly = q.withLastTail q.lastTail.firstRow := by
  rw [firstRowOnly, withLastTail, lastTail]
  split <;> rfl

end Query

namespace Recipe

variable [HasNull α]

/-- The recipe with a last step that asks for one row. -/
def firstRow (r : Recipe α) : Recipe α :=
  if r.query.members.isEmpty then .step r (.limit 1) rfl else .step r (.outerLimit 1) rfl

theorem query_firstRow (r : Recipe α) : r.firstRow.query = r.query.firstRowOnly := by
  rw [firstRow, Query.firstRowOnly]
  split <;> rfl

/-- A step that records no predicates leaves those of the SELECT and its members alone. -/
theorem tree_step (r : Recipe α) {s : Step α} (alone : s.attached = []) (hs : s.predicates = []) :
    (step r s alone).tree =
      .ofMembers ((r.query.apply s).body.withPredicates r.predicates) (r.query.apply s).tail
        (r.query.apply s).outer r.memberTrees := by
  have hpredicates : (step r s alone).predicates = r.predicates ++ s.predicates :=
    Predicate.ofSteps_concat r.steps s
  rw [tree, hpredicates, hs, List.append_nil]
  rfl

theorem tree_firstRow (r : Recipe α) : r.firstRow.tree = r.tree.withTail r.tree.tail.firstRow := by
  have hmembers : r.query.members.isEmpty = r.memberTrees.isEmpty := by
    rw [members_query, memberTrees_eq, List.isEmpty_map, List.isEmpty_map]
  cases htrees : r.memberTrees with
  | nil =>
    have htree : r.tree = .block r.body r.query.tail := by
      rw [tree, htrees]
      rfl
    rw [firstRow, hmembers, htrees, List.isEmpty_nil, if_pos rfl, tree_step r rfl rfl, htrees,
      htree]
    rfl
  | cons m rest =>
    have htree : r.tree = .combined r.body r.query.tail (m :: rest) r.query.outer := by
      rw [tree, htrees]
      rfl
    rw [firstRow, hmembers, htrees, List.isEmpty_cons, if_neg Bool.false_ne_true,
      tree_step r rfl rfl, htrees, htree]
    rfl

theorem spells_select {r : Recipe α} {s : Statement α} (h : r.query.compile .select = .ok s) :
    (Command.select r.tree).Spells r.query.style s := by
  obtain ⟨_, hfault, _, rfl⟩ := Query.compile_select_ok_iff.mp h
  have hat : r.query.commandAt (.statement .select) = .ok (.select r.query.tree) := by
    rw [Query.commandAt, Query.command_select_eq, hfault]
  exact spells hat

end Recipe

def Request.sent [HasNull α] [DriverRow ρ] (request : Request α ρ β) (q : Query α)
    (client : Client σ α ρ) (state : σ) : List (Statement α) :=
  (request.run q client.watched (state, [])).client.2

theorem Request.sent_of_compiled [HasNull α] [DriverRow ρ] {request : Request α ρ β} {q : Query α}
    {s : Statement α} (h : request.compiled q = .ok s) (client : Client σ α ρ) (state : σ) :
    request.sent q client state = [s] := by
  rw [sent, run_ok h, exchange_watched, client_outcome]
  rfl

/-- The requests for one row send the statement of the query with another LIMIT behind all else: its
block's own without members, and else the one behind the last member.  All before it stands as it
does in the statement that asks for no LIMIT and no OFFSET there.  The values are the same, and over
every database its rows are the first row, if any, of the query. -/
theorem Recipe.firstRow_exact [HasNull α] (r : Recipe α) {s : Statement α}
    (h : r.query.compile .select = .ok s) :
    ∃ t,
      (∀ {ρ β σ : Type} [DriverRow ρ] (read : ρ → Except Error β) (client : Client σ α ρ)
          (state : σ),
        (Request.getRows : Request α ρ β).sent r.query client state = [s] ∧
          ∀ request ∈ [Request.getRow, .fetchOne read, .fetchOpt read],
            request.sent r.query client state = [t]) ∧
      t.args = s.args ∧
      (∃ front, (r.query.withLastTail r.query.lastTail.uncut).compile .select =
            .ok ⟨front, s.args⟩ ∧
          s.sql = front ++ countText " LIMIT " r.query.lastTail.limit
            ++ countText " OFFSET " r.query.lastTail.offset ∧
          t.sql = front ++ " LIMIT 1" ++ countText " OFFSET " r.query.lastTail.offset) ∧
      (Command.select r.tree).Spells r.query.style s ∧
      (Command.select r.firstRow.tree).Spells r.query.style t ∧
      ∀ {ι ρ : Type} [DecidableEq ρ] (db : Database α ι ρ),
        db.rows r.firstRow.tree = (db.rows r.tree).head?.toList := by
  have hfirst := Query.compile_withLastTail h r.query.lastTail.firstRow
  rw [← Query.firstRowOnly_eq] at hfirst
  obtain ⟨_, _, _, hs⟩ := Query.compile_select_ok_iff.mp h
  have hsql : r.query.tree.fragment.render r.query.style = s.sql := congrArg Statement.sql hs
  refine ⟨⟨(r.query.tree.withTail r.query.lastTail.firstRow).fragment.render r.query.style, s.args⟩,
    fun {ρ β σ} _ read client state => ⟨?_, fun request hrequest => ?_⟩, rfl,
    ⟨_, Query.compile_withLastTail h _, ?_, ?_⟩, spells_select h, ?_, fun db => ?_⟩
  · have hrows : (Request.getRows : Request α ρ β).compiled r.query = .ok s := h
    exact Request.sent_of_compiled hrows client state
  · have hone : request.compiled r.query = r.query.firstRowOnly.compile .select := by
      simp only [List.mem_cons, List.not_mem_nil, or_false] at hrequest
      obtain rfl | rfl | rfl := hrequest <;> rfl
    exact Request.sent_of_compiled (hone.trans hfirst) client state
  · have htext := r.query.tree.render_withTail r.query.style r.query.tree.tail
    rwa [Select.withTail_tail, ← Query.lastTail_eq, hsql] at htext
  · have hlimit : countText " LIMIT " 1 = " LIMIT 1" := by decide
    have htext := r.query.tree.render_withTail r.query.style r.query.lastTail.firstRow
    rwa [Tail.firstRow, hlimit] at htext
  · rw [← query_firstRow] at hfirst
    have hspells := spells_select hfirst
    have hstyle : r.firstRow.query.style = r.query.style := by
      rw [firstRow]
      split <;> rfl
    rwa [hstyle] at hspells
  · rw [tree_firstRow, db.rows_firstRow]

namespace Recipe

/-- Clauses behind the leading block, behind a member and behind all. -/
def pagedUnion : Recipe Value :=
  let a : Recipe Value := .step (.step (.start (some "a")) (.limit 3) rfl) (.offset 2) rfl
  let b : Recipe Value := .step (.start (some "b")) (.filter ⟨.and, .compare "x" .gt (.int8 2)⟩) rfl
  .step (.step (.combine a .unionAll [.step b (.limit 4) rfl]) (.outerLimit 5) rfl) (.outerOffset 6)
    rfl

theorem firstRow_exact_pagedUnion :
    ∃ t front, front = "(SELECT * FROM a LIMIT 3 OFFSET 2) UNION ALL "
        ++ "(SELECT * FROM b WHERE x > $1 LIMIT 4)" ∧
      pagedUnion.query.compile .select = .ok ⟨front ++ " LIMIT 5 OFFSET 6", [.int8 2]⟩ ∧
      t = ⟨front ++ " LIMIT 1 OFFSET 6", [.int8 2]⟩ ∧
      (∀ {ρ σ : Type} [DriverRow ρ] (client : Client σ Value ρ) (state : σ),
        (Request.getRow : Request Value ρ Unit).sent pagedUnion.query client state = [t]) ∧
      (Command.select pagedUnion.firstRow.tree).Spells .dollar t ∧
      ∀ {ι ρ : Type} [DecidableEq ρ] (db : Database Value ι ρ),
        db.rows pagedUnion.firstRow.tree = (db.rows pagedUnion.tree).head?.toList := by
  have h : pagedUnion.query.compile .select = .ok
      ⟨"(SELECT * FROM a LIMIT 3 OFFSET 2) UNION ALL (SELECT * FROM b WHERE x > $1 LIMIT 4)"
        ++ " LIMIT 5 OFFSET 6", [.int8 2]⟩ := by
    decide +kernel
  obtain ⟨t, hsent, hargs, ⟨front, hfront, _, hsql⟩, _, hspells, hrows⟩ :=
    firstRow_exact pagedUnion h
  have hcompile : (pagedUnion.query.withLastTail pagedUnion.query.lastTail.uncut).compile .select =
      .ok ⟨"(SELECT * FROM a LIMIT 3 OFFSET 2) UNION ALL (SELECT * FROM b WHERE x > $1 LIMIT 4)",
        [.int8 2]⟩ := by
    decide +kernel
  cases hfront.symm.trans hcompile
  have hoffset : countText " OFFSET " pagedUnion.query.lastTail.offset = " OFFSET 6" := by
    decide +kernel
  refine ⟨t, _, rfl, h, ?_, fun client state => ?_, hspells, hrows⟩
  · obtain ⟨sql, args⟩ := t
    cases hargs
    rw [hoffset, String.append_assoc] at hsql
    exact congrArg (Statement.mk · _) hsql
  · exact (hsent (fun _ => .ok ()) client state).2 _ (by simp)

end Recipe

end BoundSql
