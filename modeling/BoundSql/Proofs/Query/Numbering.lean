import BoundSql.Proofs.Query.Binding
import BoundSql.Proofs.Query.Reading
import BoundSql.Proofs.Sql.Numbering

/-! The numbers in the text of a statement.  Reading the text from left to right gives the numbers
from 1 to the number of values, also across members and rows, and no digit follows a placeholder
(`Query.numbered`). -/

namespace BoundSql

open Sql

variable {σ α : Type}

theorem Select.memberTexts_eq (members : List (SetOp × Select σ)) :
    memberTexts members = members.flatMap fun m => m.2.texts := by
  induction members with
  | nil => rfl
  | cons m rest ih => rw [memberTexts, ih, List.flatMap_cons]

theorem Select.mem_texts_ofMembers {body : Body σ} {tail outer : Tail}
    {members : List (SetOp × Select σ)} {t : String}
    (h : t ∈ (ofMembers body tail outer members).texts) :
    t ∈ body.texts ++ tail.order.map SortKey.column ++ outer.order.map SortKey.column ∨
      ∃ m ∈ members, t ∈ m.2.texts := by
  cases members with
  | nil =>
    rw [ofMembers, texts] at h
    exact .inl (List.mem_append_left _ h)
  | cons m rest =>
    rw [ofMembers, texts, memberTexts_eq, List.mem_append, List.mem_append, List.mem_flatMap] at h
    rcases h with (h | h) | h
    · exact .inl (List.mem_append_left _ h)
    · exact .inr h
    · exact .inl (List.mem_append_right _ h)

/-- The column names that a payload brings into a statement. -/
def Payload.texts : Payload α → List String
  | .empty | .rows [] => []
  | .rows (first :: _) => first.columns
  | .assignments record => record.columns
  | .upsert insert update => insert.columns ++ update.columns

namespace Query

/-- All texts of a query, its members apart, that come from the caller. -/
def callerTexts (q : Query α) : List String :=
  q.texts ++ q.conflictTarget ++ q.returning ++ q.payload.texts

theorem mem_callerTexts {q : Query α} {t : String} (h : t ∈ q.texts) : t ∈ q.callerTexts :=
  List.mem_append_left _ (List.mem_append_left _ (List.mem_append_left _ h))

theorem self_mem_nodes (q : Query α) : q ∈ q.nodes := by
  rw [nodes_eq]
  exact List.mem_cons_self

/-- The texts of the SELECT of a query are texts of the query and of those inside it. -/
theorem exists_of_mem_texts_tree {q : Query α} {t : String} (h : t ∈ q.tree.texts) :
    ∃ n ∈ q.nodes, t ∈ n.callerTexts := by
  induction q using members_induction with
  | h q ih =>
    rw [tree_eq_ofMembers] at h
    rcases Select.mem_texts_ofMembers h with h | ⟨_, hmember, ht⟩
    · exact ⟨q, q.self_mem_nodes, mem_callerTexts h⟩
    · obtain ⟨m, hm, rfl⟩ := List.mem_map.mp hmember
      obtain ⟨n, hn, hnt⟩ := ih m hm ht
      refine ⟨n, ?_, hnt⟩
      rw [nodes_eq, nodesIn_eq]
      exact List.mem_cons_of_mem q (List.mem_flatMap.mpr ⟨m, hm, hn⟩)

theorem mem_of_mem_overwriteAction {target columns : List String} {t : String}
    (h : t ∈ (overwriteAction target columns).texts) : t ∈ columns := by
  unfold overwriteAction at h
  split at h
  · cases h
  · rename_i hfilter
    rw [ConflictAction.texts, ← hfilter] at h
    exact (List.mem_filter.mp h).1

/-- The texts of a command that changes rows are texts of the query alone. -/
theorem mem_callerTexts_of_command {q : Query α} {kind : StatementKind} (hkind : kind ≠ .select)
    {c : Command Hole} (h : q.command kind = .ok c) {t : String} (ht : t ∈ c.texts) :
    t ∈ q.callerTexts := by
  have htables : ∀ table, q.body.tables = [table] → table ∈ q.callerTexts := by
    intro table htable
    simp [callerTexts, texts, Body.texts, htable]
  have hpredicates : t ∈ q.body.predicates.map (fun p => p.condition.column) →
      t ∈ q.callerTexts := fun ht => by
    simp only [callerTexts, texts, Body.texts, List.mem_append, ht, true_or, or_true]
  have hjoins : t ∈ joinTexts q.body.joins → t ∈ q.callerTexts := fun ht => by
    rw [joinTexts] at ht
    simp only [callerTexts, texts, Body.texts, List.mem_append, ht, true_or, or_true]
  have htarget : t ∈ q.conflictTarget → t ∈ q.callerTexts := fun ht => by simp [callerTexts, ht]
  have hreturning : t ∈ q.returning → t ∈ q.callerTexts := fun ht => by simp [callerTexts, ht]
  have hpayload : t ∈ q.payload.texts → t ∈ q.callerTexts := fun ht => by simp [callerTexts, ht]
  cases kind with
  | select => exact absurd rfl hkind
  | insert =>
    obtain ⟨table, first, rest, htable, _, _, hrows, rfl⟩ := command_insert_ok h
    rw [hrows] at hpayload
    simp only [Command.texts, Option.elim_none, List.cons_append, List.append_nil, List.mem_cons,
      List.mem_append] at ht
    rcases ht with rfl | ht | ht
    · exact htables t htable
    · exact hpayload ht
    · exact hreturning ht
  | replace =>
    obtain ⟨table, first, rest, htable, _, _, hrows, _, rfl⟩ := command_replace_ok h
    rw [hrows] at hpayload
    simp only [Command.texts, Option.elim_some, List.cons_append, List.mem_cons,
      List.mem_append] at ht
    rcases ht with rfl | (ht | ht | ht) | ht
    · exact htables t htable
    · exact hpayload ht
    · exact htarget ht
    · exact hpayload (mem_of_mem_overwriteAction ht)
    · exact hreturning ht
  | upsert =>
    obtain ⟨table, insert, update, htable, _, _, hupsert, _, rfl⟩ := command_upsert_ok h
    rw [hupsert] at hpayload
    simp only [Command.texts, Option.elim_some, ConflictAction.texts, map_fst_assignmentHoles,
      List.cons_append, List.mem_cons, List.mem_append] at ht
    rcases ht with rfl | (ht | ht | ht) | ht
    · exact htables t htable
    · exact hpayload (List.mem_append_left _ ht)
    · exact htarget ht
    · exact hpayload (List.mem_append_right _ ht)
    · exact hreturning ht
  | update =>
    obtain ⟨table, record, htable, _, _, hassignments, rfl⟩ := command_update_ok h
    rw [hassignments] at hpayload
    simp only [Command.texts, map_fst_assignmentHoles, List.cons_append, List.mem_cons,
      List.mem_append] at ht
    rcases ht with rfl | (ht | ht) | ht
    · exact htables t htable
    · exact hpayload ht
    · exact hpredicates ht
    · exact hreturning ht
  | delete =>
    obtain ⟨table, htable, _, _, _, rfl⟩ := command_delete_ok h
    simp only [Command.texts, List.cons_append, List.mem_cons, List.mem_append] at ht
    rcases ht with rfl | (ht | ht) | ht
    · exact htables t htable
    · exact hjoins ht
    · exact hpredicates ht
    · exact hreturning ht

/-- The texts of a command are texts of the query and of those inside it. -/
theorem exists_of_mem_texts {q : Query α} {entry : EntryPoint} {c : Command Hole}
    (h : q.commandAt entry = .ok c) {t : String} (ht : t ∈ c.texts) :
    ∃ n ∈ q.nodes, t ∈ n.callerTexts := by
  rcases entry with kind | _ | _
  · by_cases hkind : kind = .select
    · subst hkind
      obtain ⟨_, rfl⟩ := command_select_ok h
      exact exists_of_mem_texts_tree ht
    · exact ⟨q, q.self_mem_nodes, mem_callerTexts_of_command hkind h ht⟩
  · obtain ⟨_, rfl | ⟨_, rfl⟩⟩ := countCommand_ok h
    · exact exists_of_mem_texts_tree ht
    · exact ⟨q, q.self_mem_nodes,
        mem_callerTexts (List.mem_append_left _ (List.mem_append_left _ ht))⟩
  · obtain ⟨_, rfl⟩ := existsCommand_ok h
    exact exists_of_mem_texts_tree ht

/-- Read from left to right, the text of a statement has the numbers from 1 to the number of its
values, each once, or as many question marks as values, unless a text of the caller has such signs
of its own.  Behind the placeholder of a slot there is no digit in any case. -/
theorem numbered {q : Query α} {entry : EntryPoint} {s : Statement α}
    (h : q.compileAt entry = .ok s) :
    (q.style = .dollar → (∀ n ∈ q.nodes, ∀ t ∈ n.callerTexts, '$' ∉ t.toList) →
      marks s.sql.toList = (List.range' 1 s.args.length).map fun i => (toString i).toList) ∧
    (q.style = .question → (∀ n ∈ q.nodes, ∀ t ∈ n.callerTexts, '?' ∉ t.toList) →
      s.sql.toList.count '?' = s.args.length ∧
        ∀ before after, s.sql.toList = before ++ '?' :: after →
          ∀ c ∈ after.head?, ¬ c.isDigit) ∧
    ∃ c, q.commandAt entry = .ok c ∧ s.sql = c.fragment.render q.style ∧
      ∀ front x back, c.fragment.symbols = front ++ .slot x :: back →
        ∃ after, s.sql.toList = renderSymbols q.style 1 front ++
            ((q.style.mark (front.countP Symbol.isSlot + 1)).toList ++ after) ∧
          ∀ d ∈ after.head?, ¬ d.isDigit := by
  rw [compileAt_eq, compileWith_ok_iff] at h
  obtain ⟨_, c, hc, hfinish⟩ := h
  obtain ⟨hcount, rfl⟩ := finish_ok_iff.mp hfinish
  have htext : ∀ style, (c.fragment.render style).toList =
      renderSymbols style 1 c.fragment.symbols := fun style => c.fragment.chars_eq style 1
  have hslots : c.fragment.symbols.countP Symbol.isSlot = q.args.length := by
    rw [Fragment.countP_symbols, hcount]
  have hfree : ∀ style : PlaceholderStyle,
      (∀ n ∈ q.nodes, ∀ t ∈ n.callerTexts, style.sign ∉ t.toList) →
        c.fragment.Spaced (some style) := by
    intro style hsigns
    refine Command.spaced fun t ht style' hstyle => ?_
    cases hstyle
    obtain ⟨n, hn, hnt⟩ := exists_of_mem_texts hc ht
    exact hsigns n hn t hnt
  -- For the last part no sign has to be kept out of the texts.
  refine ⟨fun hstyle hsigns => ?_, fun hstyle hsigns => ?_, c, hc, rfl, ?_⟩
  · have hspaced := hfree .dollar hsigns
    rw [hstyle, htext, marks_renderSymbols hspaced.chain (hspaced.free .dollar rfl), hslots]
  · have hspaced := hfree .question hsigns
    have hquestion := hspaced.free .question rfl
    rw [hstyle, htext]
    refine ⟨?_, fun before after hsplit => ?_⟩
    · rw [count_renderSymbols hquestion, hslots]
    · exact not_isDigit_of_question hspaced.chain hquestion hsplit
  · intro front x back hsymbols
    have hspaced : c.fragment.Spaced none := Command.spaced fun t _ => nofun
    have hchain := hspaced.chain
    rw [hsymbols, List.isChain_append] at hchain
    refine ⟨renderSymbols q.style (front.countP Symbol.isSlot + 1 + 1) back, ?_,
      not_isDigit_head q.style hchain.2.1 _⟩
    rw [htext, hsymbols, renderSymbols_append, renderSymbols, Nat.add_comm 1]

/-- A member whose slots are numbered with two digits, behind a list of nine, next to a value with
a sign of its own. -/
def twoDigits (style : PlaceholderStyle) : Query Value :=
  let list := (List.range 9).map fun i => Value.int8 (.ofNat i)
  let member : Query Value := (ofTable "b").build
    [.filter ⟨.and, .between "y" true (.int8 9) (.text "$1?")⟩, .limit 20]
  (ofTable "a").build
    [.placeholder style, .filter ⟨.and, .membership "x" false list⟩, .combine .unionAll [member]]

theorem numbered_twoDigits :
    (∃ s, (twoDigits .dollar).compileAt (.statement .select) = .ok s ∧
      s.sql = "SELECT * FROM a WHERE x IN ($1, $2, $3, $4, $5, $6, $7, $8, $9) UNION ALL "
        ++ "(SELECT * FROM b WHERE y NOT BETWEEN $10 AND $11 LIMIT 20)" ∧
      marks s.sql.toList = (List.range' 1 11).map fun i => (toString i).toList) ∧
    ∃ s, (twoDigits .question).compileAt .count = .ok s ∧
      s.sql = "SELECT COUNT(*) FROM (SELECT * FROM a WHERE x IN (?, ?, ?, ?, ?, ?, ?, ?, ?) "
        ++ "UNION ALL (SELECT * FROM b WHERE y NOT BETWEEN ? AND ? LIMIT 20)) AS _count" ∧
      s.sql.toList.count '?' = 11 := by
  have hdollar : (twoDigits .dollar).compileAt (.statement .select) = .ok
      ⟨"SELECT * FROM a WHERE x IN ($1, $2, $3, $4, $5, $6, $7, $8, $9) UNION ALL "
          ++ "(SELECT * FROM b WHERE y NOT BETWEEN $10 AND $11 LIMIT 20)",
        (twoDigits .dollar).args⟩ := by
    decide +kernel
  have hquestion : (twoDigits .question).compileAt .count = .ok
      ⟨"SELECT COUNT(*) FROM (SELECT * FROM a WHERE x IN (?, ?, ?, ?, ?, ?, ?, ?, ?) "
          ++ "UNION ALL (SELECT * FROM b WHERE y NOT BETWEEN ? AND ? LIMIT 20)) AS _count",
        (twoDigits .question).args⟩ := by
    decide +kernel
  exact ⟨⟨_, hdollar, rfl, (numbered hdollar).1 rfl (by decide +kernel)⟩,
    ⟨_, hquestion, rfl, ((numbered hquestion).2.1 rfl (by decide +kernel)).1⟩⟩

end Query

end BoundSql
