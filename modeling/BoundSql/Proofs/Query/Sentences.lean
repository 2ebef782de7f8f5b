import BoundSql.Proofs.Query.Numbering
import BoundSql.Proofs.Query.Recipe
import BoundSql.Proofs.Sql.Sentences

/-! Statements as sentences of PostgreSQL.  The text of a statement is a sentence of its kind when
the texts of the caller fit their places (`Recipe.spells_sentence`), except that a DELETE takes
joins, for which its syntax has no place (`Recipe.not_spells_deletion`). -/

namespace BoundSql

open Sql Syntax Sql.Fragment
open scoped Computability

variable {α : Type} {L : Vocabulary}

/-- The place of the tables of a query. -/
def StatementKind.tablePlace : StatementKind → Place
  | .select => .source
  | _ => .target

namespace Query

/-- The texts of a query, its members apart, with their places in a statement. -/
def placed (q : Query α) (kind : StatementKind) : List (Place × String) :=
  List.flatten
    [q.body.tables.map (kind.tablePlace, ·),
      q.body.columns.map (.item, ·),
      q.body.joins.flatMap fun j => [(.source, j.table), (.condition, j.on)],
      q.body.predicates.map fun p => (p.condition.place, p.condition.column),
      (q.body.groups ++ (q.tail.order ++ q.outer.order).map SortKey.column).map (.expression, ·),
      q.returning.map (.item, ·),
      (q.conflictTarget ++ q.payload.texts).map (.name, ·)]

/-- Whether the texts of a query fit their places. -/
def Admitted (L : Vocabulary) (kind : StatementKind) (q : Query α) : Prop :=
  ∀ t ∈ q.placed kind, Spells t.2 (L t.1)

namespace Admitted

variable {kind : StatementKind} {q : Query α} (h : q.Admitted L kind)

include h

theorem table {t : String} (ht : t ∈ q.body.tables) : Spells t (L kind.tablePlace) :=
  h _ (List.mem_flatten_of_mem (List.mem_of_getElem? (i := 0) rfl) (List.mem_map_of_mem ht))

theorem column {t : String} (ht : t ∈ q.body.columns) : Spells t (L .item) :=
  h _ (List.mem_flatten_of_mem (List.mem_of_getElem? (i := 1) rfl) (List.mem_map_of_mem ht))

theorem join {j : Join} (hj : j ∈ q.body.joins) :
    Spells j.table (L .source) ∧ Spells j.on (L .condition) := by
  have hmem : ∀ t ∈ [(Place.source, j.table), (.condition, j.on)], t ∈ q.placed kind :=
    fun t ht => List.mem_flatten_of_mem (List.mem_of_getElem? (i := 2) rfl)
      (List.mem_flatMap.mpr ⟨j, hj, ht⟩)
  exact ⟨h _ (hmem _ (.head _)), h _ (hmem _ (.tail _ (.head _)))⟩

theorem predicate {p : Predicate Hole} (hp : p ∈ q.body.predicates) :
    Spells p.condition.column (L p.condition.place) :=
  h _ (List.mem_flatten_of_mem (List.mem_of_getElem? (i := 3) rfl) (List.mem_map_of_mem hp))

theorem expression {t : String}
    (ht : t ∈ q.body.groups ++ (q.tail.order ++ q.outer.order).map SortKey.column) :
    Spells t (L .expression) :=
  h _ (List.mem_flatten_of_mem (List.mem_of_getElem? (i := 4) rfl) (List.mem_map_of_mem ht))

theorem returning {t : String} (ht : t ∈ q.returning) : Spells t (L .item) :=
  h _ (List.mem_flatten_of_mem (List.mem_of_getElem? (i := 5) rfl) (List.mem_map_of_mem ht))

theorem name {t : String} (ht : t ∈ q.conflictTarget ++ q.payload.texts) :
    Spells t (L .name) :=
  h _ (List.mem_flatten_of_mem (List.mem_of_getElem? (i := 6) rfl) (List.mem_map_of_mem ht))

theorem tail : q.tail.Admitted L := fun k hk =>
  h.expression (by simp [List.mem_map_of_mem hk])

theorem outer : q.outer.Admitted L := fun k hk =>
  h.expression (by simp [List.mem_map_of_mem hk])

end Admitted

theorem Admitted.body {q : Query α} (h : q.Admitted L .select) (htables : q.body.tables ≠ []) :
    q.body.Admitted L where
  tables := htables
  sources _ ht := h.table ht
  columns _ hc := h.column hc
  joins _ hj := h.join hj
  predicates _ hp := h.predicate hp
  groups _ hg := h.expression (by simp [hg])

/-- The SELECT of a query that has one. -/
theorem admitted_tree {q : Query α} (hfault : q.selectFault? = none)
    (h : ∀ m ∈ q.nodes, m.Admitted L .select) : q.tree.Admitted L := by
  induction q using members_induction with
  | h q ih =>
    obtain ⟨htables, _, hmembers⟩ := selectFault?_eq_none_iff.mp hfault
    have hown := h q q.self_mem_nodes
    have hbody := hown.body htables
    have htrees : ∀ m ∈ q.members.map (fun m => (m.1, m.2.tree)), Select.Admitted L m.2 :=
      List.forall_mem_map.mpr fun m hm => ih m hm (hmembers m hm) fun n hn => h n (by
        rw [nodes_eq, nodesIn_eq]
        exact List.mem_cons_of_mem q (List.mem_flatMap.mpr ⟨m, hm, hn⟩))
    rw [tree_eq_ofMembers]
    cases hq : q.members.map fun m => (m.1, m.2.tree) with
    | nil => exact .block hbody hown.tail
    | cons m rest => exact .combined hbody hown.tail (hq ▸ htrees) hown.outer

end Query

/-! ### A vocabulary -/

/-- Words that are no names of tables and columns. -/
def reservedWords : List String :=
  ["ALL", "AND", "AS", "ASC", "CASE", "DESC", "DISTINCT", "DO", "ELSE", "END", "FALSE", "FROM",
    "GROUP", "HAVING", "IN", "INNER", "INTO", "JOIN", "LEFT", "LIMIT", "NOT", "NULL", "OFFSET",
    "ON", "OR", "ORDER", "RETURNING", "RIGHT", "SELECT", "SET", "TABLE", "THEN", "TRUE", "UNION",
    "UPDATE", "USING", "VALUES", "WHEN", "WHERE", "WITH"]

def isName : Lexeme → Bool
  | .word s => s.toList.head?.any (fun c => c.isUpper || c == '_') && !reservedWords.contains s
  | .name _ => true
  | _ => false

/-- Whether lexemes are a name, or two names with an equals sign in the place of a condition. -/
def isPlain : Place → List Lexeme → Bool
  | .condition, [a, .sign '=', b] => isName a && isName b
  | .condition, _ => false
  | _, [a] => isName a
  | _, _ => false

def plainNames : Vocabulary := fun p => {ts | isPlain p ts}

theorem spells_plainNames_iff {s : String} {p : Place} :
    (scan s.toList).any (isPlain p) ↔ Spells s (plainNames p) := by
  cases hscan : scan s.toList with
  | none => simp [Spells, hscan]
  | some ts =>
    constructor
    · exact fun h => ⟨ts, h, hscan⟩
    · rintro ⟨us, hus, hscan'⟩
      cases hscan.symm.trans hscan'
      exact hus

instance (s : String) (p : Place) : Decidable (Spells s (plainNames p)) :=
  decidable_of_iff _ spells_plainNames_iff

instance (q : Query α) (kind : StatementKind) : Decidable (q.Admitted plainNames kind) :=
  inferInstanceAs (Decidable (∀ t ∈ q.placed kind, Spells t.2 (plainNames t.1)))

/-! ### Sentences -/

theorem admitted_overwriteAction {target columns : List String}
    (h : ∀ c ∈ columns, Spells c (L .name)) :
    (Query.overwriteAction target columns).Admitted L := by
  unfold Query.overwriteAction
  split
  · trivial
  · rename_i hfilter
    exact ⟨List.cons_ne_nil _ _, fun c hc => h c (List.mem_of_mem_filter (hfilter ▸ hc))⟩

theorem forall_assignmentHoles {record : Record α} (h : ∀ c ∈ record.columns, Spells c (L .name)) :
    ∀ a ∈ Query.assignmentHoles record, Spells a.1 (L .name) :=
  List.forall_mem_map.mpr h

theorem assignmentHoles_ne_nil {record : Record α} (h : record.columns ≠ []) :
    Query.assignmentHoles record ≠ [] := by
  simpa [Query.assignmentHoles] using h

/-- The text of a statement is a sentence of PostgreSQL when the texts of the caller fit their
places and a DELETE has no joins. -/
theorem Recipe.spells_sentence [HasNull α] {r : Recipe α} {kind : StatementKind} {s : Statement α}
    (h : r.query.compile kind = .ok s) (hstyle : r.query.style = .dollar)
    (htexts : ∀ q ∈ r.query.nodes, q.Admitted L kind)
    (hjoins : kind = .delete → r.query.body.joins = []) : Spells s.sql (sentences L kind) := by
  obtain ⟨_, c, hc, hfinish⟩ := Query.compileWith_ok_iff.mp h
  obtain ⟨_, rfl⟩ := Query.finish_ok_iff.mp hfinish
  suffices hreads : c.fragment.Reads (sentences L kind) by
    rw [hstyle]
    exact hreads 0
  have hown := htexts _ r.query.self_mem_nodes
  have hfilled := r.filled_payload
  have htable : ∀ table, r.query.body.tables = [table] → Spells table (L kind.tablePlace) :=
    fun table htable => hown.table (by simp [htable])
  have hreturning : ∀ t ∈ r.query.returning, Spells t (L .item) := fun t => hown.returning
  have hpredicates : ∀ p ∈ r.query.body.predicates,
      Spells p.condition.column (L p.condition.place) := fun p => hown.predicate
  have htarget : ∀ t ∈ r.query.conflictTarget, Spells t (L .name) := fun t ht =>
    hown.name (List.mem_append_left _ ht)
  have hpayload : ∀ t ∈ r.query.payload.texts, Spells t (L .name) := fun t ht =>
    hown.name (List.mem_append_right _ ht)
  cases kind with
  | select =>
    obtain ⟨hfault, rfl⟩ := Query.command_select_ok hc
    exact (Query.admitted_tree hfault htexts).reads.1
  | insert =>
    obtain ⟨table, first, rest, htables, _, _, hrows, rfl⟩ := Query.command_insert_ok hc
    rw [hrows] at hfilled hpayload
    exact reads_insert (htable table htables) (hfilled PayloadKind.noConfusion) hpayload
      (by simp [Query.rowHoles]) (by simp [Query.rowHoles]) (by simp) hreturning
  | replace =>
    obtain ⟨table, first, rest, htables, _, _, hrows, hne, rfl⟩ := Query.command_replace_ok hc
    rw [hrows] at hfilled hpayload
    have hconflict : Conflict.Admitted L
        ⟨r.query.conflictTarget, Query.overwriteAction r.query.conflictTarget first.columns⟩ :=
      ⟨hne, htarget, admitted_overwriteAction hpayload⟩
    exact reads_insert (htable table htables) (hfilled PayloadKind.noConfusion) hpayload
      (by simp [Query.rowHoles]) (by simp [Query.rowHoles]) (by simpa using hconflict) hreturning
  | upsert =>
    obtain ⟨table, insert, update, htables, _, _, hupsert, hne, rfl⟩ := Query.command_upsert_ok hc
    rw [hupsert] at hfilled hpayload
    obtain ⟨hinsert, hupdate⟩ := hfilled PayloadKind.noConfusion
    have hconflict : Conflict.Admitted L
        ⟨r.query.conflictTarget, .assign (Query.assignmentHoles update)⟩ :=
      ⟨hne, htarget, assignmentHoles_ne_nil hupdate,
        forall_assignmentHoles fun c hc => hpayload c (List.mem_append_right _ hc)⟩
    exact reads_insert (htable table htables) hinsert
      (fun c hc => hpayload c (List.mem_append_left _ hc)) (by simp [Query.rowHoles])
      (by simp [Query.rowHoles]) (by simpa using hconflict) hreturning
  | update =>
    obtain ⟨table, record, htables, _, _, hassignments, rfl⟩ := Query.command_update_ok hc
    rw [hassignments] at hfilled hpayload
    have hrecord : record.columns ≠ [] := hfilled PayloadKind.noConfusion
    exact reads_update (htable table htables) (assignmentHoles_ne_nil hrecord)
      (forall_assignmentHoles hpayload) hpredicates hreturning
  | delete =>
    obtain ⟨table, htables, _, _, _, rfl⟩ := Query.command_delete_ok hc
    refine reads_delete (htable table htables) ?_ hpredicates hreturning
    rw [hjoins rfl]
    exact .empty _

/-- A join, values and an ordered member. -/
def joinedUnion : Recipe Value :=
  let a : Recipe Value := .step (.start (some "a")) (.join ⟨.left, "b", "x = y"⟩) rfl
  let c : Recipe Value := .step (.start (some "c")) (.orderBy ⟨"z", .desc⟩) rfl
  .combine (.step a (.filter ⟨.and, .membership "x" true [.int8 1, .int8 2]⟩) rfl) .unionAll [c]

theorem spells_sentence_joinedUnion :
    ∃ s, joinedUnion.query.compile .select = .ok s ∧
      s.sql = "SELECT * FROM a LEFT JOIN b ON x = y WHERE x NOT IN ($1, $2) UNION ALL "
        ++ "(SELECT * FROM c ORDER BY z DESC)" ∧
      Spells s.sql (sentences plainNames .select) := by
  have h : joinedUnion.query.compile .select = .ok
      ⟨"SELECT * FROM a LEFT JOIN b ON x = y WHERE x NOT IN ($1, $2) UNION ALL "
        ++ "(SELECT * FROM c ORDER BY z DESC)", [.int8 1, .int8 2]⟩ := by
    decide +kernel
  exact ⟨_, h, rfl, Recipe.spells_sentence h (by decide) (by decide +kernel) nofun⟩

/-! ### DELETE with joins -/

section Deletion

variable {P Q : Language Lexeme} {starts : List Lexeme}

def startingWith (starts : List Lexeme) : Language Lexeme := {ts | ∃ t ∈ starts, ts.head? = some t}

theorem startingWith_mul_le : startingWith starts * P ≤ startingWith starts := by
  rintro _ ⟨ts, ⟨t, ht, hhead⟩, us, -, rfl⟩
  exact ⟨t, ht, by rw [List.head?_append, hhead, Option.some_or]⟩

theorem phrase_mul_le {k : String} {t : Lexeme} (ht : t ∈ starts)
    (hk : (scan k.toList).bind List.head? = some t) : phrase k * P ≤ startingWith starts := by
  have hphrase : phrase k ≤ startingWith starts := fun ks hks => ⟨t, ht, by
    rwa [show scan k.toList = some ks from hks, Option.bind_some] at hk⟩
  exact (mul_le_mul_left hphrase P).trans startingWith_mul_le

theorem optional_mul_le (hP : P ≤ startingWith starts) (hQ : Q ≤ optional (startingWith starts)) :
    optional P * Q ≤ optional (startingWith starts) := by
  rintro _ ⟨ts, hts | hts, us, hus, rfl⟩
  · cases (hts : ts = [])
    exact hQ hus
  · exact .inr (startingWith_mul_le (Language.append_mem_mul (hP hts) hus))

/-- The words that start a join. -/
def joinWords : List Lexeme := [.word "INNER", .word "LEFT", .word "RIGHT"]

/-- The words that start what can follow the table of a DELETE. -/
def deletionWords : List Lexeme := [.word "USING", .word "WHERE", .word "RETURNING"]

def clauseWords : List Lexeme := joinWords ++ deletionWords

theorem join_le : join L ≤ startingWith joinWords := by
  rw [join, add_mul, add_mul]
  refine add_le (add_le ?_ ?_) ?_
  · exact phrase_mul_le (t := .word "INNER") (by decide) (by decide)
  · exact phrase_mul_le (t := .word "LEFT") (by decide) (by decide)
  · exact phrase_mul_le (t := .word "RIGHT") (by decide) (by decide)

theorem deletionTail_le : optional (phrase "USING" * listOf (L .source))
      * (filtering L * Syntax.returning L) ≤ optional (startingWith deletionWords) := by
  refine optional_mul_le (phrase_mul_le (t := .word "USING") (by decide) (by decide)) ?_
  refine optional_mul_le (phrase_mul_le (t := .word "WHERE") (by decide) (by decide)) ?_
  refine add_le (fun _ => .inl) fun _ hts => .inr ?_
  exact phrase_mul_le (t := .word "RETURNING") (by decide) (by decide) hts

theorem startingWith_mono {others : List Lexeme} (h : starts ⊆ others) :
    startingWith starts ≤ startingWith others := by
  rintro ts ⟨t, ht, hhead⟩
  exact ⟨t, h ht, hhead⟩

/-- A table ends where the first word that starts a clause stands. -/
theorem takeWhile_append {ts us : List Lexeme} (hts : ∀ t ∈ ts, t ∉ clauseWords)
    (hus : us ∈ optional (startingWith clauseWords)) :
    (ts ++ us).takeWhile (· ∉ clauseWords) = ts := by
  rw [List.takeWhile_append_of_pos (by simpa using hts)]
  rcases hus with hus | ⟨t, ht, hhead⟩
  · cases (hus : us = [])
    simp
  · cases us with
    | nil => cases hhead
    | cons u us =>
      cases hhead
      simp [ht]

/-- The text of a DELETE with joins is no DELETE of PostgreSQL, as long as no table has a word in it
that starts a clause. -/
theorem Recipe.not_spells_deletion [HasNull α] {r : Recipe α} {s : Statement α}
    (h : r.query.compile .delete = .ok s) (hstyle : r.query.style = .dollar)
    (htexts : r.query.Admitted L .delete) (hjoins : r.query.body.joins ≠ [])
    (hwords : ∀ ts ∈ L .target, ∀ t ∈ ts, t ∉ clauseWords) :
    ¬ Spells s.sql (sentences L .delete) := by
  obtain ⟨_, c, hc, hfinish⟩ := Query.compileWith_ok_iff.mp h
  obtain ⟨_, rfl⟩ := Query.finish_ok_iff.mp hfinish
  obtain ⟨table, htables, _, _, _, rfl⟩ := Query.command_delete_ok hc
  have htable : Spells table (L .target) := htexts.table (by simp [htables])
  obtain ⟨j, joins, hjs⟩ := List.exists_cons_of_ne_nil hjoins
  have hclauses : (joinClauses r.query.body.joins : Fragment Hole).Continues
      (join L * (join L)∗) := by
    have hall : ∀ k ∈ j :: joins, Spells k.table (L .source) ∧ Spells k.on (L .condition) :=
      fun k hk => htexts.join (hjs ▸ hk)
    obtain ⟨hsource, hon⟩ := hall j (by simp)
    rw [hjs, joinClauses_cons]
    exact (Join.continues hsource hon).append
      (continues_joinClauses fun k hk => hall k (List.mem_cons_of_mem j hk))
  have hreads := reads_delete htable hclauses (fun p hp => htexts.predicate hp)
    fun t ht => htexts.returning ht
  obtain ⟨_, ⟨ds, hds, _, ⟨ts, hts, us, hus, rfl⟩, rfl⟩, hscan⟩ := hreads 0
  rintro ⟨_, ⟨ds', hds', _, ⟨ts', hts', us', hus', rfl⟩, rfl⟩, hscan'⟩
  -- Both readings are DELETE FROM, a table and what starts with a word that no table has.
  cases (show scan _ = _ from hds).symm.trans (show scan _ = _ from hds')
  rw [hstyle] at hscan'
  have heq : ts ++ us = ts' ++ us' :=
    List.append_cancel_left (Option.some.inj (hscan.symm.trans hscan'))
  have hjoin : us ∈ startingWith joinWords := by
    rw [mul_assoc] at hus
    exact startingWith_mul_le (mul_le_mul_left join_le _ hus)
  have htail : us' ∈ optional (startingWith deletionWords) := deletionTail_le hus'
  have hleft := takeWhile_append (hwords ts hts)
    (.inr (startingWith_mono (List.subset_append_left _ _) hjoin))
  have hright := takeWhile_append (hwords ts' hts')
    (htail.imp_right fun h => startingWith_mono (List.subset_append_right _ _) h)
  rw [heq, hright] at hleft
  rw [hleft] at heq
  obtain rfl := List.append_cancel_left heq
  obtain ⟨t, ht, hhead⟩ := hjoin
  rcases htail with hnil | ⟨t', ht', hhead'⟩
  · cases (hnil : us = [])
    cases hhead
  · have hdisjoint : ∀ t ∈ joinWords, t ∉ deletionWords := by decide
    cases hhead.symm.trans hhead'
    exact hdisjoint t ht ht'

/-- A DELETE over two tables. -/
def joinedDelete : Recipe Value :=
  .step (.step (.start (some "t")) (.join ⟨.inner, "u", "a = b"⟩) rfl)
    (.filter ⟨.and, .raw "c = d"⟩) rfl

theorem not_spells_joinedDelete :
    ∃ s, joinedDelete.query.compile .delete = .ok s ∧
      s.sql = "DELETE FROM t INNER JOIN u ON a = b WHERE c = d" ∧
      (∀ q ∈ joinedDelete.query.nodes, q.Admitted plainNames .delete) ∧
      ¬ Spells s.sql (sentences plainNames .delete) := by
  have h : joinedDelete.query.compile .delete = .ok
      ⟨"DELETE FROM t INNER JOIN u ON a = b WHERE c = d", []⟩ := by
    decide +kernel
  have htexts : ∀ q ∈ joinedDelete.query.nodes, q.Admitted plainNames .delete := by
    decide +kernel
  have hwords : ∀ ts ∈ plainNames .target, ∀ t ∈ ts, t ∉ clauseWords := by
    have hreserved : ∀ t ∈ clauseWords, isName t = false := by decide
    intro ts hts t ht hclause
    change isPlain .target ts at hts
    match ts with
    | [] => cases hts
    | [u] =>
      cases List.mem_singleton.mp ht
      exact Bool.false_ne_true ((hreserved t hclause).symm.trans hts)
    | _ :: _ :: _ => cases hts
  exact ⟨_, h, rfl, htexts, Recipe.not_spells_deletion h (by decide)
    (htexts _ (Query.self_mem_nodes _)) (by decide) hwords⟩

end Deletion

end BoundSql
