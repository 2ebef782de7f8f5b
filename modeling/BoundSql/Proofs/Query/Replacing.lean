import BoundSql.Proofs.Query.Inserting

/-! REPLACE and the columns that statements name.  A REPLACE is the INSERT of the same query with an
ON CONFLICT clause in front of RETURNING, which overwrites the columns outside the conflict target,
and no statement names a column twice in one list (`Query.replace_exact`). -/

namespace BoundSql

open Sql

variable {σ α : Type}

def overwritten (target columns : List String) : List String :=
  columns.filter fun c => !target.contains c

theorem mem_overwritten {target columns : List String} {c : String} :
    c ∈ overwritten target columns ↔ c ∈ columns ∧ c ∉ target := by
  simp [overwritten]

theorem overwritten_eq_nil_iff {target columns : List String} :
    overwritten target columns = [] ↔ columns ⊆ target := by
  simp [overwritten, List.subset_def]

/-- What a REPLACE writes about colliding rows. -/
def replaceText (target columns : List String) : String :=
  if overwritten target columns = [] then " DO NOTHING"
  else " DO UPDATE SET " ++
    ", ".intercalate ((overwritten target columns).map fun c => c ++ " = EXCLUDED." ++ c)

theorem replaceText_eq_nothing_iff {target columns : List String} :
    replaceText target columns = " DO NOTHING" ↔ columns ⊆ target := by
  rw [← overwritten_eq_nil_iff, replaceText]
  split
  · rename_i h
    exact iff_of_true rfl h
  · rename_i h
    refine iff_of_false (fun htext => ?_) h
    have hchars := congrArg String.toList htext
    simp at hchars

namespace Query

theorem text_overwriteAction (style : PlaceholderStyle) (n : Nat) (target columns : List String) :
    (overwriteAction target columns).text style n = replaceText target columns := by
  rw [overwriteAction, replaceText, overwritten]
  cases columns.filter fun c => !target.contains c <;> rfl

theorem slots_overwriteAction (target columns : List String) :
    (overwriteAction target columns).slots = [] := by
  unfold overwriteAction
  split <;> rfl

/-- Two commands with equally many slots have statements for the same queries. -/
theorem finish_eq {q : Query α} {c d : Command Hole} {s : Statement α} (h : q.finish c = .ok s)
    (hslots : d.fragment.slotCount = c.fragment.slotCount) :
    q.finish d = .ok ⟨d.fragment.render q.style, s.args⟩ := by
  obtain ⟨hcount, rfl⟩ := finish_ok_iff.mp h
  exact finish_ok_iff.mpr ⟨hslots.trans hcount, rfl⟩

theorem compile_replace_ok {q : Query α} {s : Statement α} (h : q.compile .replace = .ok s) :
    ∃ table first rest, q.body.tables = [table] ∧ q.payload = .rows (first :: rest) ∧
      let head := insertText q.style table first.columns (rest.length + 1)
      q.compile .insert = .ok ⟨head ++ returningText q.returning, s.args⟩ ∧
      s.sql = head ++ conflictText q.conflictTarget (replaceText q.conflictTarget first.columns)
        ++ returningText q.returning := by
  obtain ⟨hrefused, c, hcommand, hfinish⟩ := compileWith_ok_iff.mp h
  obtain ⟨table, first, rest, htable, hmembers, hpredicates, hpayload, _, rfl⟩ :=
    command_replace_ok hcommand
  refine ⟨table, first, rest, htable, hpayload, ?_, ?_⟩
  · have hinsert := command_insert htable hmembers hpredicates hpayload
    have hstatement := finish_eq hfinish
      (d := .insert table first.columns (rowHoles first.columns (first :: rest)) none q.returning)
      (by simp [Sql.Fragment.slotCount, Command.slots_fragment, Command.slots,
        slots_overwriteAction])
    rw [render_rows, Option.elim_none, String.append_empty] at hstatement
    exact compileWith_ok_iff.mpr ⟨hrefused, _, hinsert, hstatement⟩
  · obtain ⟨_, rfl⟩ := finish_ok_iff.mp hfinish
    rw [render_rows, Option.elim_some, text_overwriteAction]

theorem compile_insert_ok {q : Query α} {s : Statement α} (h : q.compile .insert = .ok s) :
    ∃ table first rest, q.body.tables = [table] ∧ q.payload = .rows (first :: rest) ∧
      s.sql = insertText q.style table first.columns (rest.length + 1)
        ++ returningText q.returning := by
  obtain ⟨_, c, hcommand, hfinish⟩ := compileWith_ok_iff.mp h
  obtain ⟨table, first, rest, htable, _, _, hpayload, rfl⟩ := command_insert_ok hcommand
  obtain ⟨_, rfl⟩ := finish_ok_iff.mp hfinish
  refine ⟨table, first, rest, htable, hpayload, ?_⟩
  rw [render_rows, Option.elim_none, String.append_empty]

theorem compile_upsert_ok {q : Query α} {s : Statement α} (h : q.compile .upsert = .ok s) :
    ∃ table insert update, q.body.tables = [table] ∧ q.payload = .upsert insert update ∧
      s.sql = insertText q.style table insert.columns 1
        ++ conflictText q.conflictTarget
          (" DO UPDATE SET " ++ setText q.style (insert.columns.length + 1) update.columns)
        ++ returningText q.returning := by
  obtain ⟨_, c, hcommand, hfinish⟩ := compileWith_ok_iff.mp h
  obtain ⟨table, insert, update, htable, _, _, hpayload, _, rfl⟩ := command_upsert_ok hcommand
  obtain ⟨_, rfl⟩ := finish_ok_iff.mp hfinish
  refine ⟨table, insert, update, htable, hpayload, ?_⟩
  have htext := render_rows q.style table insert []
    (some ⟨q.conflictTarget, .assign (assignmentHoles update)⟩) q.returning
  rw [List.length_nil, Nat.zero_add, Nat.one_mul, Option.elim_some, ConflictAction.text_assign,
    map_fst_assignmentHoles] at htext
  exact htext

theorem compile_update_ok {q : Query α} {s : Statement α} (h : q.compile .update = .ok s) :
    ∃ table record, q.body.tables = [table] ∧ q.payload = .assignments record ∧
      s.sql = "UPDATE " ++ table ++ " SET " ++ setText q.style 1 record.columns
        ++ whereText q.style (record.columns.length + 1) q.body.predicates
        ++ returningText q.returning := by
  obtain ⟨_, c, hcommand, hfinish⟩ := compileWith_ok_iff.mp h
  obtain ⟨table, record, htable, _, _, hpayload, rfl⟩ := command_update_ok hcommand
  obtain ⟨_, rfl⟩ := finish_ok_iff.mp hfinish
  refine ⟨table, record, htable, hpayload, ?_⟩
  rw [Command.render_update, map_fst_assignmentHoles, assignmentHoles, List.length_map]

/-- A query with a REPLACE has an INSERT with the same values, and the REPLACE is this INSERT with a
conflict clause in front of RETURNING: it does nothing when every column of the first record is a
target, and otherwise overwrites the columns that are none, in their order.  In the statements that
write records every list of columns is that of a record, or what a REPLACE overwrites of one, and
names each column once. -/
theorem replace_exact (q : Query α) :
    (∀ s, q.compile .replace = .ok s →
      ∃ table first rest, q.body.tables = [table] ∧ q.payload = .rows (first :: rest) ∧
        let head := insertText q.style table first.columns (rest.length + 1)
        let overwritten := overwritten q.conflictTarget first.columns
        let action := replaceText q.conflictTarget first.columns
        q.compile .insert = .ok ⟨head ++ returningText q.returning, s.args⟩ ∧
        s.sql = head ++ conflictText q.conflictTarget action ++ returningText q.returning ∧
        (action = " DO NOTHING" ↔ first.columns ⊆ q.conflictTarget) ∧
        (¬ first.columns ⊆ q.conflictTarget → action = " DO UPDATE SET " ++
          ", ".intercalate (overwritten.map fun c => c ++ " = EXCLUDED." ++ c)) ∧
        (∀ c, c ∈ overwritten ↔ c ∈ first.columns ∧ c ∉ q.conflictTarget) ∧
        overwritten.Sublist first.columns ∧ overwritten.Nodup ∧ first.columns.Nodup) ∧
      (∀ s, q.compile .insert = .ok s →
        ∃ table first rest, q.body.tables = [table] ∧ q.payload = .rows (first :: rest) ∧
          s.sql = insertText q.style table first.columns (rest.length + 1)
            ++ returningText q.returning ∧
          first.columns.Nodup) ∧
      (∀ s, q.compile .upsert = .ok s →
        ∃ table insert update, q.body.tables = [table] ∧ q.payload = .upsert insert update ∧
          s.sql = insertText q.style table insert.columns 1
            ++ conflictText q.conflictTarget
              (" DO UPDATE SET " ++ setText q.style (insert.columns.length + 1) update.columns)
            ++ returningText q.returning ∧
          insert.columns.Nodup ∧ update.columns.Nodup) ∧
      ∀ s, q.compile .update = .ok s →
        ∃ table record, q.body.tables = [table] ∧ q.payload = .assignments record ∧
          s.sql = "UPDATE " ++ table ++ " SET " ++ setText q.style 1 record.columns
            ++ whereText q.style (record.columns.length + 1) q.body.predicates
            ++ returningText q.returning ∧
          record.columns.Nodup := by
  refine ⟨fun s hs => ?_, fun s hs => ?_, fun s hs => ?_, fun s hs => ?_⟩
  · obtain ⟨table, first, rest, htable, hpayload, hinsert, hreplace⟩ := compile_replace_ok hs
    refine ⟨table, first, rest, htable, hpayload, hinsert, hreplace, replaceText_eq_nothing_iff,
      fun hcolumns => if_neg (mt overwritten_eq_nil_iff.mp hcolumns), fun c => mem_overwritten,
      List.filter_sublist, first.columns_nodup.filter _, first.columns_nodup⟩
  · obtain ⟨table, first, rest, htable, hpayload, hsql⟩ := compile_insert_ok hs
    exact ⟨table, first, rest, htable, hpayload, hsql, first.columns_nodup⟩
  · obtain ⟨table, insert, update, htable, hpayload, hsql⟩ := compile_upsert_ok hs
    exact ⟨table, insert, update, htable, hpayload, hsql, insert.columns_nodup,
      update.columns_nodup⟩
  · obtain ⟨table, record, htable, hpayload, hsql⟩ := compile_update_ok hs
    exact ⟨table, record, htable, hpayload, hsql, record.columns_nodup⟩

/-- Two rows, with a target among their columns and another one that is none of them. -/
def replacedRows : Query Value :=
  let first := Record.ofList [("name", Value.text "a"), ("id", .int8 1), ("name", .text "b"),
    ("age", .int8 2)]
  let second := Record.ofList [("id", Value.int8 3), ("name", .text "c")]
  (ofTable "users").build
    [.onConflict ["id", "zip"], .returning ["id"], .rows [first, second]]

/-- A record in which a column was set twice, for the rows that match. -/
def assignedRow : Query Value :=
  (ofTable "users").build
    [.assignments (.ofList [("name", .text "a"), ("age", .int8 2), ("name", .text "b")]),
      .whereEq "id" (.int8 1)]

/-- An upsert whose two records have a column in common. -/
def mergedRow : Query Value :=
  (ofTable "users").build
    [.onConflict ["id"], .upsert (.ofList [("id", .int8 1), ("name", .text "a")])
      (.ofList [("name", .text "b")])]

theorem replace_exact_replacedRows :
    replacedRows.compile .replace = .ok
        ⟨"INSERT INTO users (name, id, age) VALUES ($1, $2, $3), ($4, $5, $6) ON CONFLICT (id, zip)"
            ++ " DO UPDATE SET name = EXCLUDED.name, age = EXCLUDED.age RETURNING id",
          [.text "b", .int8 1, .int8 2, .text "c", .int8 3, .null]⟩ ∧
      replacedRows.compile .insert = .ok
        ⟨"INSERT INTO users (name, id, age) VALUES ($1, $2, $3), ($4, $5, $6) RETURNING id",
          [.text "b", .int8 1, .int8 2, .text "c", .int8 3, .null]⟩ ∧
      (∃ record, assignedRow.payload = .assignments record ∧ record.columns = ["name", "age"] ∧
        record.columns.Nodup ∧ assignedRow.compile .update =
          .ok ⟨"UPDATE users SET name = $1, age = $2 WHERE id = $3",
            [.text "b", .int8 2, .int8 1]⟩) ∧
      ∃ insert update, mergedRow.payload = .upsert insert update ∧ insert.columns.Nodup ∧
        update.columns.Nodup ∧ mergedRow.compile .upsert =
          .ok ⟨"INSERT INTO users (id, name) VALUES ($1, $2) ON CONFLICT (id)"
            ++ " DO UPDATE SET name = $3", [.int8 1, .text "a", .text "b"]⟩ := by
  have hreplace : replacedRows.compile .replace = .ok
      ⟨"INSERT INTO users (name, id, age) VALUES ($1, $2, $3), ($4, $5, $6) ON CONFLICT (id, zip)"
          ++ " DO UPDATE SET name = EXCLUDED.name, age = EXCLUDED.age RETURNING id",
        [.text "b", .int8 1, .int8 2, .text "c", .int8 3, .null]⟩ := by
    decide +kernel
  have hupdate : assignedRow.compile .update = .ok
      ⟨"UPDATE users SET name = $1, age = $2 WHERE id = $3", [.text "b", .int8 2, .int8 1]⟩ := by
    decide +kernel
  have hupsert : mergedRow.compile .upsert = .ok
      ⟨"INSERT INTO users (id, name) VALUES ($1, $2) ON CONFLICT (id) DO UPDATE SET name = $3",
        [.int8 1, .text "a", .text "b"]⟩ := by
    decide +kernel
  obtain ⟨_, first, rest, htable, hpayload, hinsert, _⟩ := (replace_exact replacedRows).1 _ hreplace
  obtain ⟨_, record, _, hrecord, _, hcolumns⟩ := (replace_exact assignedRow).2.2.2 _ hupdate
  obtain ⟨_, insert, update, _, hrecords, _, hinserted, hassigned⟩ :=
    (replace_exact mergedRow).2.2.1 _ hupsert
  cases htable
  cases hpayload
  refine ⟨hreplace, hinsert.trans ?_, ⟨record, hrecord, ?_, hcolumns, hupdate⟩, insert, update,
    hrecords, hinserted, hassigned, hupsert⟩
  · decide +kernel
  · cases hrecord
    rfl

end Query

end BoundSql
