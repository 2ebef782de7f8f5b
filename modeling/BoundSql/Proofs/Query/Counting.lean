import BoundSql.Proofs.Query.Acceptance
import BoundSql.Proofs.Sql.Rows

/-! Counting the rows of a query.  A query that has a SELECT has a statement that counts, which
answers one number over every database.  It is the number of rows of the SELECT, unless the query is
counted in place and its columns take all rows together (`Recipe.counts_eq`). -/

namespace BoundSql

open Sql

variable {α ι ρ : Type}

/-- Whether a statement is the text of a command with its values in the order of its slots. -/
structure Command.Spells (c : Command α) (style : PlaceholderStyle) (s : Statement α) : Prop where
  sql : s.sql = c.fragment.render style
  args : s.args = c.slots

/-- A statement of the query of a recipe is the text of the inline command. -/
theorem Recipe.spells [HasNull α] {r : Recipe α} {entry : EntryPoint} {c : Command Hole}
    (h : r.query.commandAt entry = .ok c) :
    (r.inline c).Spells r.query.style ⟨c.fragment.render r.query.style, r.query.args⟩ := by
  have hbinds := binds h
  have htext := (r.inline c).fragment.render_map r.query.style fun _ => ()
  rw [← Command.fragment_map, hbinds.map] at htext
  exact ⟨htext, hbinds.slots.symm⟩

namespace Recipe

variable [HasNull α]

/-- The block of a recipe, with the caller's values. -/
def body (r : Recipe α) : Body α := r.query.body.withPredicates r.predicates

theorem tree_of_members {r : Recipe α} (h : r.query.members = []) :
    r.tree = .block r.body r.query.tail := by
  have hmembers : r.memberTrees = [] := by
    rw [members_query, List.map_eq_nil_iff] at h
    rw [memberTrees_eq, h, List.map_nil]
  rw [tree, hmembers, Select.ofMembers, body]

section Database

variable [DecidableEq ρ] (db : Database α ι ρ) {r : Recipe α} (h : r.query.CountedInPlace)

include h

theorem counts_of_inPlace :
    db.counts (r.inline (.countBlock r.query.body)) = [(db.source r.body).length] :=
  if_neg (not_not_intro h.1)

theorem length_rows_of_inPlace :
    (db.rows r.tree).length =
      if r.query.body.columns.any db.isAggregate then 1 else (db.source r.body).length := by
  obtain ⟨hgroups, hdistinct, hmembers, hlimit, hoffset⟩ := h
  have hblock : db.blockRows r.body =
      if r.query.body.columns.any db.isAggregate then
        [db.summarize r.query.body.columns (db.source r.body)]
      else (db.source r.body).map (db.project r.query.body.columns) := by
    simp only [Database.blockRows, body, Body.withPredicates, hgroups, hdistinct]
    rfl
  rw [tree_of_members hmembers, db.length_rows_block hlimit hoffset, hblock]
  split
  · rfl
  · exact List.length_map _

end Database

/-- The query of a recipe that has a SELECT has a statement that counts its rows, with the same
values, and over every database this answers one number: the number of rows of the SELECT.  Only
when the query is counted in place although a column takes all rows together, the number is that of
the rows which this column takes, while the SELECT has one row. -/
theorem counts_eq (r : Recipe α) {s : Statement α} (h : r.query.compile .select = .ok s) :
    (Command.select r.tree).Spells r.query.style s ∧
      ∃ t c, r.query.compileCount = .ok t ∧ t.args = s.args ∧ c.Spells r.query.style t ∧
        ∀ {ι ρ : Type} [DecidableEq ρ] (db : Database α ι ρ),
          let aggregates := r.query.CountedInPlace ∧ r.query.body.columns.any db.isAggregate
          ∃ n, db.counts c = [n] ∧ (¬ aggregates → n = (db.rows r.tree).length) ∧
            (aggregates → n = (db.source r.body).length ∧ (db.rows r.tree).length = 1) := by
  obtain ⟨hrefused, c, hc, hfinish⟩ := Query.compileWith_ok_iff.mp h
  obtain ⟨_, rfl⟩ := Query.finish_ok_iff.mp hfinish
  have hselect : r.query.commandAt (.statement .select) = .ok c := hc
  obtain ⟨hfault, rfl⟩ := Query.command_select_ok hc
  have hcommand : r.query.countCommand = .ok r.query.counting := by
    rw [Query.countCommand_eq, hfault]
  have hcount : r.query.commandAt .count = .ok _ := hcommand
  have hcompile := Query.compileWith_ok_iff.mpr
    ⟨hrefused, _, hcommand, Query.finish_ok_iff.mpr ⟨slotCount_of_commandAt hcount, rfl⟩⟩
  refine ⟨spells hselect, _, _, hcompile, rfl, spells hcount, fun db => ?_⟩
  rw [Query.counting]
  by_cases hplace : r.query.CountedInPlace
  · rw [if_pos hplace, counts_of_inPlace db hplace, length_rows_of_inPlace db hplace]
    refine ⟨_, rfl, fun hrows => ?_, fun haggregates => ?_⟩
    · rw [if_neg fun hcolumns => hrows ⟨hplace, hcolumns⟩]
    · rw [if_pos haggregates.2]
      exact ⟨rfl, rfl⟩
  · rw [if_neg hplace]
    exact ⟨_, rfl, fun _ => rfl, fun haggregates => absurd haggregates.1 hplace⟩

/-- Two groups at most, and the rows of a member with other values. -/
def groupedUnion : Recipe Value :=
  let a : Recipe Value := .step (.step (.start (some "a")) (.select ["x"]) rfl) (.groupBy ["x"]) rfl
  let b : Recipe Value := .step (.start (some "b")) (.filter ⟨.and, .compare "y" .lt (.int8 2)⟩) rfl
  let c : Recipe Value := .step (.step a (.filter ⟨.and, .compare "z" .eq (.int8 1)⟩) rfl) (.limit 2)
    rfl
  .combine c .union [b]

theorem counts_eq_groupedUnion :
    groupedUnion.query.compile .select = .ok
        ⟨"(SELECT x FROM a WHERE z = $1 GROUP BY x LIMIT 2) UNION SELECT * FROM b WHERE y < $2",
          [.int8 1, .int8 2]⟩ ∧
      ∃ t c, groupedUnion.query.compileCount = .ok t ∧ t.args = [.int8 1, .int8 2] ∧
        c.Spells groupedUnion.query.style t ∧
        ∀ {ι ρ : Type} [DecidableEq ρ] (db : Database Value ι ρ),
          db.counts c = [(db.rows groupedUnion.tree).length] := by
  have h : groupedUnion.query.compile .select = .ok
      ⟨"(SELECT x FROM a WHERE z = $1 GROUP BY x LIMIT 2) UNION SELECT * FROM b WHERE y < $2",
        [.int8 1, .int8 2]⟩ := by
    decide +kernel
  obtain ⟨_, t, c, hcompile, hargs, hspells, hcounts⟩ := counts_eq groupedUnion h
  refine ⟨h, t, c, hcompile, hargs, hspells, fun db => ?_⟩
  obtain ⟨n, hn, hrows, _⟩ := hcounts db
  rw [hn, hrows fun haggregates => absurd haggregates.1 (by decide)]

/-- A single column that takes all rows together. -/
def largest : Recipe Value := .step (.start (some "users")) (.select ["MAX(id)"]) rfl

/-- A table of two rows, in which `MAX(id)` is the larger one. -/
def twoUsers : Database Value Nat Nat where
  joined _ _ := [1, 2]
  holds _ _ := true
  holds_nil _ := rfl
  isAggregate column := column == "MAX(id)"
  project _ row := row
  summarize _ rows := rows.foldl max 0
  sort _ _ rows := rows
  sort_perm _ _ rows := .refl rows

/-- The SELECT has one row, and the statement that counts its rows answers two. -/
theorem counts_ne_largest :
    ∃ s t c, largest.query.compile .select = .ok s ∧ s.sql = "SELECT MAX(id) FROM users" ∧
      (Command.select largest.tree).Spells .dollar s ∧ twoUsers.rows largest.tree = [2] ∧
      largest.query.compileCount = .ok t ∧ t.sql = "SELECT COUNT(*) FROM users" ∧
      c.Spells .dollar t ∧ twoUsers.counts c = [2] := by
  refine ⟨⟨"SELECT MAX(id) FROM users", []⟩, ⟨"SELECT COUNT(*) FROM users", []⟩,
    .countBlock largest.body, ?_⟩
  refine ⟨by decide +kernel, rfl, ⟨by decide +kernel, rfl⟩, by decide +kernel, by decide +kernel,
    rfl, ⟨by decide +kernel, rfl⟩, rfl⟩

end Recipe

end BoundSql
