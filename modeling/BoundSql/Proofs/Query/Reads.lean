import BoundSql.Proofs.Query.Counting
import BoundSql.Proofs.Sql.Changes

/-! The statements that read.  Counting the rows of a query and asking whether it has one fail when
its SELECT does, for the same reason, and bind the same values.  Their texts have the SELECT inside,
but when the rows are counted in place: then the block from its FROM on (`Body.origin`) stands
behind another projection, and nothing behind it (`Query.reads_agree`). -/

namespace BoundSql

open Sql Sql.Fragment

variable {σ α : Type}

/-! ### Texts -/

/-- A block from its FROM on. -/
def Body.origin (b : Body σ) : Fragment σ :=
  text " FROM " ++ names b.tables ++ joinClauses b.joins ++ whereClause b.predicates
    ++ listClause " GROUP BY " b.groups

def columnsText (columns : List String) : String :=
  if columns = [] then "*" else ", ".intercalate columns

def orderText (keys : List SortKey) : String :=
  if keys = [] then "" else " ORDER BY " ++ ", ".intercalate (keys.map SortKey.text)

theorem Sql.Fragment.toList_render (style : PlaceholderStyle) (a : Fragment σ) :
    (a.render style).toList = a.chars style 1 := rfl

theorem Body.fragmentOver_eq (b : Body σ) (projection : Fragment σ) :
    b.fragmentOver projection = text "SELECT " ++ projection ++ b.origin := by
  simp only [fragmentOver, origin, append_assoc]

theorem Body.chars_projection (style : PlaceholderStyle) (n : Nat) {b : Body σ}
    (h : b.distinct = false) :
    b.projection.chars style n = (columnsText b.columns).toList := by
  rw [projection, columnsText, h]
  by_cases hcolumns : b.columns = []
  · simp [hcolumns]
  · simp [hcolumns, chars_names]

theorem Tail.chars_fragment_of_uncut (style : PlaceholderStyle) (n : Nat) {t : Tail}
    (hlimit : t.limit = 0) (hoffset : t.offset = 0) :
    (t.fragment : Fragment σ).chars style n = (orderText t.order).toList := by
  have hcount : ∀ keyword, (countClause keyword 0 : Fragment σ) = empty := fun _ => rfl
  rw [fragment, hlimit, hoffset, hcount, hcount, append_empty, append_empty, chars_listClause,
    orderText]
  simp only [List.map_eq_nil_iff]
  rfl

theorem Select.render_block_of_uncut (style : PlaceholderStyle) {b : Body σ} {t : Tail}
    (hdistinct : b.distinct = false) (hlimit : t.limit = 0) (hoffset : t.offset = 0) :
    (block b t).fragment.render style =
      "SELECT " ++ columnsText b.columns ++ b.origin.render style ++ orderText t.order := by
  apply String.toList_injective
  rw [toList_render, fragment, Body.fragment, Body.fragmentOver_eq]
  simp [b.chars_projection style _ hdistinct, t.chars_fragment_of_uncut style _ hlimit hoffset,
    toList_render]

namespace Command

variable (style : PlaceholderStyle)

theorem render_countBlock (b : Body σ) :
    (countBlock b).fragment.render style = "SELECT COUNT(*)" ++ b.origin.render style := by
  apply String.toList_injective
  rw [toList_render, fragment, Body.fragmentOver_eq]
  simp [toList_render]

theorem render_countRows (s : Select σ) :
    (countRows s).fragment.render style =
      "SELECT COUNT(*) FROM (" ++ s.fragment.render style ++ ") AS _count" := by
  apply String.toList_injective
  rw [toList_render, fragment]
  simp [toList_render]

theorem render_anyRow (s : Select σ) :
    (anyRow s).fragment.render style = "SELECT EXISTS(" ++ s.fragment.render style ++ ")" := by
  apply String.toList_injective
  rw [toList_render, fragment]
  simp [toList_render]

end Command

/-! ### Queries -/

namespace Query

theorem compileWith_of_give {q : Query α} {give : Query α → Except CompileError (Command Hole)}
    {c : Command Hole} (hrefused : q.firstFault? = none) (h : give q = .ok c) :
    q.compileWith give = q.finish c := by
  rw [compileWith, hrefused, h]

/-- A query that is no SELECT is neither counted nor asked for a row. -/
theorem reads_of_selectFault? {q : Query α} {fault : ShapeFault} (h : q.selectFault? = some fault) :
    q.command .select = .error (.shape fault) ∧ q.countCommand = .error (.shape fault) ∧
      q.existsCommand = .error (.shape fault) := by
  rw [command_select_eq, countCommand_eq, existsCommand_eq, h]
  exact ⟨rfl, rfl, rfl⟩

theorem reads_of_no_selectFault? {q : Query α} (h : q.selectFault? = none) :
    q.command .select = .ok (.select q.tree) ∧ q.countCommand = .ok q.counting ∧
      q.existsCommand = .ok (.anyRow q.tree) := by
  rw [command_select_eq, countCommand_eq, existsCommand_eq, h]
  exact ⟨rfl, rfl, rfl⟩

theorem tree_of_members {q : Query α} (h : q.members = []) : q.tree = .block q.body q.tail := by
  rw [tree_eq, h]

/-- The three texts have the same slots. -/
theorem slotCount_reads (q : Query α) :
    q.counting.fragment.slotCount = q.tree.fragment.slotCount ∧
      (Command.anyRow q.tree).fragment.slotCount = q.tree.fragment.slotCount := by
  refine ⟨?_, by simp [Command.fragment, slotCount]⟩
  rw [counting]
  split
  · rename_i hplace
    obtain ⟨_, _, hmembers, _⟩ := hplace
    rw [tree_of_members hmembers]
    simp [Command.fragment, Select.fragment, slotCount]
  · simp [Command.fragment, slotCount]

/-- The text that counts the rows of a query, beside the text of its SELECT. -/
theorem render_counting (q : Query α) :
    let counted := q.counting.fragment.render q.style
    let selected := q.tree.fragment.render q.style
    if q.body.groups ≠ [] ∨ q.body.distinct ∨ q.members ≠ [] ∨ 0 < q.tail.limit ∨
        0 < q.tail.offset then
      counted = "SELECT COUNT(*) FROM (" ++ selected ++ ") AS _count"
    else
      counted = "SELECT COUNT(*)" ++ q.body.origin.render q.style ∧
        selected = "SELECT " ++ columnsText q.body.columns ++ q.body.origin.render q.style
          ++ orderText q.tail.order := by
  intro counted selected
  split
  · rename_i hshaped
    have hplace : ¬ q.CountedInPlace := by
      rintro ⟨hgroups, hdistinct, hmembers, hlimit, hoffset⟩
      simp [hgroups, hdistinct, hmembers, hlimit, hoffset] at hshaped
    show q.counting.fragment.render q.style = _
    rw [counting, if_neg hplace, Command.render_countRows]
  · rename_i hplain
    simp only [not_or, ne_eq, not_not, Bool.not_eq_true, Nat.not_lt, Nat.le_zero] at hplain
    have hplace : q.CountedInPlace := hplain
    obtain ⟨_, hdistinct, hmembers, hlimit, hoffset⟩ := hplain
    constructor
    · show q.counting.fragment.render q.style = _
      rw [counting, if_pos hplace, Command.render_countBlock]
    · show q.tree.fragment.render q.style = _
      rw [tree_of_members hmembers, Select.render_block_of_uncut q.style hdistinct hlimit hoffset]

/-- The statement that counts the rows of a query, the one that asks whether it has a row, and its
SELECT all fail for one reason, or all bind the same values.  The text that asks for a row has the
text of the SELECT inside.  So has the text that counts when the rows are grouped, made distinct,
combined or cut; else both are the same text from FROM on, up to an ORDER BY behind the SELECT. -/
theorem reads_agree (q : Query α) :
    match q.compile .select, q.compileCount, q.compileExists with
    | .error e, .error e', .error e'' => e' = e ∧ e'' = e
    | .ok s, .ok t, .ok u =>
      t.args = s.args ∧ u.args = s.args ∧ u.sql = "SELECT EXISTS(" ++ s.sql ++ ")" ∧
        if q.body.groups ≠ [] ∨ q.body.distinct ∨ q.members ≠ [] ∨ 0 < q.tail.limit ∨
            0 < q.tail.offset then
          t.sql = "SELECT COUNT(*) FROM (" ++ s.sql ++ ") AS _count"
        else
          t.sql = "SELECT COUNT(*)" ++ q.body.origin.render q.style ∧
            s.sql = "SELECT " ++ columnsText q.body.columns ++ q.body.origin.render q.style
              ++ orderText q.tail.order
    | _, _, _ => False := by
  rw [compile, compileCount, compileExists]
  cases hrefused : q.firstFault? with
  | some fault => simp [compileWith, hrefused]
  | none =>
    cases hfault : q.selectFault? with
    | some fault =>
      obtain ⟨hselect, hcount, hexists⟩ := reads_of_selectFault? hfault
      simp [compileWith, hrefused, hselect, hcount, hexists]
    | none =>
      obtain ⟨hselect, hcount, hexists⟩ := reads_of_no_selectFault? hfault
      obtain ⟨hcounting, hany⟩ := q.slotCount_reads
      rw [compileWith_of_give hrefused hselect, compileWith_of_give hrefused hcount,
        compileWith_of_give hrefused hexists]
      by_cases hslots : q.tree.fragment.slotCount = q.args.length
      · have hfinish : ∀ {c : Command Hole},
            c.fragment.slotCount = q.tree.fragment.slotCount →
              q.finish c = .ok ⟨c.fragment.render q.style, q.args⟩ :=
          fun hc => finish_ok_iff.mpr ⟨hc.trans hslots, rfl⟩
        rw [hfinish rfl, hfinish hcounting, hfinish hany]
        exact ⟨rfl, rfl, Command.render_anyRow q.style q.tree, q.render_counting⟩
      · have hfinish : ∀ {c : Command Hole},
            c.fragment.slotCount = q.tree.fragment.slotCount →
              q.finish c = .error (.mismatch q.tree.fragment.slotCount q.args.length) := by
          intro c hc
          rw [finish, hc, if_neg hslots]
        rw [hfinish rfl, hfinish hcounting, hfinish hany]
        exact ⟨rfl, rfl⟩

end Query

end BoundSql
