import BoundSql.Proofs.Sql.Statements

/-! The text of a command is a sentence when the texts in it fit their places.  `Fragment.Reads`
says so of a fragment, whatever number its slots are counted from, and `Fragment.Continues` also
that its first lexeme does not run into a text before it. -/

namespace BoundSql

open Sql Syntax
open scoped Computability

variable {σ : Type} {P Q K : Language Lexeme} {s : String}

theorem spells_phrase {k : String} (h : scan s.toList = scan k.toList ∧ (scan k.toList).isSome) :
    Spells s (phrase k) := by
  obtain ⟨ts, hts⟩ := Option.isSome_iff_exists.mp h.2
  exact ⟨ts, hts, h.1.trans hts⟩

theorem Spells.mono (h : Spells s P) (hle : P ≤ Q) : Spells s Q := by
  obtain ⟨ts, hts, hscan⟩ := h
  exact ⟨ts, hle hts, hscan⟩

theorem Spells.append {t : String} (hs : Spells s P) (ht : Spells t Q)
    (hseam : FreshEnd s.toList ∨ FreshStart t.toList) : Spells (s ++ t) (P * Q) := by
  obtain ⟨ts, hts, hscan⟩ := hs
  obtain ⟨us, hus, hscan'⟩ := ht
  refine ⟨_, Language.append_mem_mul hts hus, ?_⟩
  rw [String.toList_append]
  exact scan_append hscan hscan' hseam

namespace Sql.Fragment

variable {a b : Fragment σ}

/-- Whether the lexemes of a fragment's text are in a language. -/
def Reads (a : Fragment σ) (P : Language Lexeme) : Prop :=
  ∀ n, ∃ ts ∈ P, scan (a.chars .dollar (n + 1)) = some ts

/-- A fragment that can stand behind any text. -/
structure Continues (a : Fragment σ) (P : Language Lexeme) : Prop where
  reads : a.Reads P
  first : ∀ n, FreshStart (a.chars .dollar n)

theorem Reads.mono (h : a.Reads P) (hle : P ≤ Q) : a.Reads Q := fun n => by
  obtain ⟨ts, hts, hscan⟩ := h n
  exact ⟨ts, hle hts, hscan⟩

theorem Continues.mono (h : a.Continues P) (hle : P ≤ Q) : a.Continues Q :=
  ⟨h.reads.mono hle, h.first⟩

theorem Reads.text (h : Spells s P) : (text s : Fragment σ).Reads P := fun n => by
  obtain ⟨ts, hts, hscan⟩ := h
  exact ⟨ts, hts, by rwa [chars_text]⟩

theorem Reads.slot (x : σ) : (slot x).Reads placeholder := fun n =>
  ⟨_, ⟨n, rfl⟩, by rw [chars_slot, scan_mark]⟩

theorem Reads.append (ha : a.Reads P) (hb : b.Continues Q) : (a ++ b).Reads (P * Q) := fun n => by
  obtain ⟨ts, hts, hscan⟩ := ha n
  obtain ⟨us, hus, hscan'⟩ := hb.reads (n + a.slots.length)
  rw [Nat.add_right_comm] at hscan'
  refine ⟨_, Language.append_mem_mul hts hus, ?_⟩
  rw [chars_append]
  exact scan_append hscan hscan' (.inr (hb.first _))

theorem Continues.append (ha : a.Continues P) (hb : b.Continues Q) :
    (a ++ b).Continues (P * Q) :=
  ⟨ha.reads.append hb, fun n => by
    rw [chars_append]
    exact (ha.first n).append (hb.first _)⟩

/-- A text with an end that nothing goes on with. -/
theorem Reads.lead (hs : Spells s K) (hend : FreshEnd s.toList) (ha : a.Reads P) :
    (.text s ++ a).Reads (K * P) := fun n => by
  obtain ⟨ks, hks, hscan⟩ := hs
  obtain ⟨ts, hts, hscan'⟩ := ha n
  refine ⟨_, Language.append_mem_mul hks hts, ?_⟩
  rw [chars_append, chars_text, slots_text]
  exact scan_append hscan hscan' (.inl hend)

theorem Continues.lead (hs : Spells s K) (hgap : isGap s.toList) (ha : a.Reads P) :
    (.text s ++ a).Continues (K * P) :=
  ⟨.lead hs (.gap hgap) ha, fun n => by
    rw [chars_append, chars_text]
    exact .gap hgap _⟩

theorem Continues.text (hs : Spells s K) (hfirst : FreshStart s.toList) :
    (text s : Fragment σ).Continues K :=
  ⟨.text hs, fun n => by rwa [chars_text]⟩

theorem Continues.empty (P : Language Lexeme) : (empty : Fragment σ).Continues (optional P) :=
  ⟨fun _ => ⟨[], .inl rfl, rfl⟩, fun _ => nofun⟩

theorem Continues.optional (h : a.Continues P) : a.Continues (optional P) :=
  h.mono fun _ => .inr

theorem Reads.parenthesized (h : a.Reads P) : a.parenthesized.Reads (inParentheses P) := by
  have hclose : (.text ")" : Fragment σ).Continues (phrase ")") :=
    .text (spells_phrase (by decide)) (by decide)
  rw [Fragment.parenthesized, append_assoc]
  exact .lead (spells_phrase (by decide)) (by decide) (h.append hclose)

/-! ### Lists -/

theorem Reads.commaList {as : List (Fragment σ)} (h : ∀ b ∈ a :: as, b.Reads P) :
    (commaList (a :: as)).Reads (separated (phrase ",") P as.length) := by
  induction as generalizing a with
  | nil => exact h a (by simp)
  | cons b as ih =>
    have hrest := ih fun c hc => h c (List.mem_cons_of_mem a hc)
    rw [Fragment.commaList, append_assoc]
    exact (h a (by simp)).append (.lead (spells_phrase (by decide)) (by decide) hrest)

theorem Reads.listOf {as : List (Fragment σ)} (has : as ≠ []) (h : ∀ b ∈ as, b.Reads P) :
    (Fragment.commaList as).Reads (listOf P) := by
  obtain ⟨a, as, rfl⟩ := List.exists_cons_of_ne_nil has
  exact (Reads.commaList h).mono (le_iSup (separated (phrase ",") P) as.length)

theorem Reads.separatedNames {item : String} {items : List String}
    (h : ∀ s ∈ item :: items, Spells s P) :
    (Fragment.names (item :: items) : Fragment σ).Reads
      (separated (phrase ",") P items.length) := by
  have htexts : ∀ a ∈ (item :: items).map (Fragment.text (σ := σ)), a.Reads P := fun a ha => by
    obtain ⟨s, hs, rfl⟩ := List.mem_map.mp ha
    exact .text (h s hs)
  have hreads := Reads.commaList htexts
  rwa [List.length_map] at hreads

theorem Reads.separatedSlots (x : σ) (xs : List σ) :
    (Fragment.slotList (x :: xs)).Reads (separated (phrase ",") placeholder xs.length) := by
  have hslots : ∀ a ∈ (x :: xs).map Fragment.slot, a.Reads placeholder := fun a ha => by
    obtain ⟨y, _, rfl⟩ := List.mem_map.mp ha
    exact .slot y
  have hreads := Reads.commaList hslots
  rwa [List.length_map] at hreads

theorem Reads.names {items : List String} (hne : items ≠ []) (h : ∀ s ∈ items, Spells s P) :
    (names items : Fragment σ).Reads (Syntax.listOf P) := by
  obtain ⟨item, items, rfl⟩ := List.exists_cons_of_ne_nil hne
  exact (Reads.separatedNames h).mono (le_iSup (separated (phrase ",") P) items.length)

end Sql.Fragment

open Fragment

theorem continues_listClause {keyword k : String} {items : List String}
    (hk : Spells keyword (phrase k)) (hgap : isGap keyword.toList)
    (h : ∀ s ∈ items, Spells s P) :
    (listClause keyword items : Fragment σ).Continues (optional (phrase k * listOf P)) := by
  unfold listClause
  split
  · exact .empty _
  · rename_i hne
    exact (Continues.lead hk hgap
      (.names (by simpa using hne) h)).optional

theorem continues_countClause {keyword k : String}
    (hk : Spells keyword (phrase k)) (hgap : isGap keyword.toList) (n : Nat) :
    (countClause keyword n : Fragment σ).Continues (optional (phrase k * numeral)) := by
  unfold countClause
  split
  · exact .empty _
  · have htext : (.text (keyword ++ toString n) : Fragment σ) =
        .text keyword ++ .text (toString n) := ext_symbols (by simp)
    have hnumber : Spells (toString n) numeral := ⟨_, ⟨n, rfl⟩, scan_toString n⟩
    rw [htext]
    exact (Continues.lead hk hgap (.text hnumber)).optional

/-! ### Conditions -/

/-- The place of the text of a raw condition, or of the column of any other. -/
def Condition.place : Condition σ → Place
  | .raw _ => .condition
  | _ => .expression

section Conditions

variable {L : Vocabulary}

theorem slotLexemes_mem (n : Nat) (x : σ) (xs : List σ) :
    slotLexemes .dollar (n + 1) (x :: xs) ∈ separated (phrase ",") placeholder xs.length := by
  induction xs generalizing n x with
  | nil => exact ⟨n, rfl⟩
  | cons y xs ih =>
    have hmark : [.mark .dollar (n + 1)] ∈ placeholder := ⟨n, rfl⟩
    have hcomma : [.sign ','] ∈ phrase "," := by decide
    exact Language.append_mem_mul hmark (Language.append_mem_mul hcomma (ih (n + 1) y))

theorem Comparison.lexemes_mem (op : Comparison) : op.lexemes ∈ operator := by
  refine ⟨op.sql, ?_, ?_⟩ <;> cases op <;> decide

theorem negation_mem (negated : Bool) : negation negated ∈ optional (phrase "NOT") := by
  have hnot : [.word "NOT"] ∈ phrase "NOT" := by decide
  cases negated
  · exact .inl rfl
  · exact .inr hnot

theorem Condition.lexemes_mem {c : Condition σ} {ts : List Lexeme} (h : ts ∈ L c.place) (n : Nat) :
    c.lexemes .dollar (n + 1) ts ∈ term L := by
  have hmark : ∀ m, [.mark .dollar (m + 1)] ∈ placeholder := fun m => ⟨m, rfl⟩
  have htest : ∀ {us}, us ∈ test → ts ∈ L .expression → ts ++ us ∈ term L := fun hus hts =>
    .inl (.inr (Language.append_mem_mul hts hus))
  cases c with
  | raw expression => exact .inl (.inl h)
  | compare column op x =>
    exact htest (.inl (.inl (.inl (Language.append_mem_mul op.lexemes_mem (hmark n))))) h
  | between column negated low high =>
    have hbetween : [.word "BETWEEN"] ∈ phrase "BETWEEN" := by decide
    have hand : [.word "AND"] ∈ phrase "AND" := by decide
    have hrange := Language.append_mem_mul hbetween (Language.append_mem_mul (hmark n)
      (Language.append_mem_mul hand (hmark (n + 1))))
    exact htest (.inl (.inl (.inr (Language.append_mem_mul (negation_mem negated) hrange)))) h
  | membership column negated xs =>
    cases xs with
    | nil =>
      have hnumeral : ∀ m, [.number m] ∈ numeral := fun m => ⟨m, rfl⟩
      have hequals : [.sign '='] ∈ phrase "=" := by decide
      have hconstant := fun m => Language.append_mem_mul (hnumeral 1)
        (Language.append_mem_mul hequals (hnumeral m))
      cases negated
      · exact .inr (hconstant 0)
      · exact .inr (hconstant 1)
    | cons x xs =>
      have hin : [.word "IN"] ∈ phrase "IN" := by decide
      have hopen : [.sign '('] ∈ phrase "(" := by decide
      have hclose : [.sign ')'] ∈ phrase ")" := by decide
      have hslots : slotLexemes .dollar (n + 1) (x :: xs) ∈ listOf placeholder :=
        Language.mem_iSup.mpr ⟨xs.length, slotLexemes_mem n x xs⟩
      have hlist := Language.append_mem_mul hin (Language.append_mem_mul hopen
        (Language.append_mem_mul hslots hclose))
      exact htest (.inl (.inr (Language.append_mem_mul (negation_mem negated) hlist))) h
  | nullness column negated =>
    have his : [.word "IS"] ∈ phrase "IS" := by decide
    have hnull : [.word "NULL"] ∈ phrase "NULL" := by decide
    exact htest (.inr (Language.append_mem_mul his
      (Language.append_mem_mul (negation_mem negated) hnull))) h

theorem Condition.reads {c : Condition σ} (h : Spells c.column (L c.place)) :
    c.fragment.Reads (term L) := fun n => by
  obtain ⟨ts, hts, hscan⟩ := h
  exact ⟨_, lexemes_mem hts n, scan_fragment hscan (n + 1)⟩

theorem reads_chain {p : Predicate σ} {rest : List (Predicate σ)}
    (h : ∀ q ∈ p :: rest, Spells q.condition.column (L q.condition.place)) :
    (p.condition.fragment ++ Fragment.concat (rest.map Predicate.continuation)).Reads
      (separated (phrase "AND" + phrase "OR") (term L) rest.length) := by
  have hp := Condition.reads (h p (by simp))
  induction rest generalizing p with
  | nil =>
    rw [List.map_nil, Fragment.concat, List.foldr_nil, append_empty]
    exact hp
  | cons q rest ih =>
    have hrest : ∀ r ∈ q :: rest, Spells r.condition.column (L r.condition.place) := fun r hr =>
      h r (List.mem_cons_of_mem p hr)
    have hconnective : Spells (" " ++ q.connective.sql ++ " ") (phrase "AND" + phrase "OR") := by
      cases q.connective
      · exact (spells_phrase (by decide)).mono fun _ => .inl
      · exact (spells_phrase (by decide)).mono fun _ => .inr
    rw [concat_continuation_cons]
    exact hp.append (.lead hconnective (by cases q.connective <;> decide)
      (ih hrest (Condition.reads (hrest q (by simp)))))

theorem continues_whereClause {ps : List (Predicate σ)}
    (h : ∀ p ∈ ps, Spells p.condition.column (L p.condition.place)) :
    (whereClause ps).Continues (filtering L) := by
  cases ps with
  | nil => exact .empty _
  | cons p rest =>
    have hchain := (reads_chain h).mono
      (le_iSup (separated (phrase "AND" + phrase "OR") (term L)) rest.length)
    rw [whereClause, append_assoc]
    exact (Continues.lead (spells_phrase (by decide)) (by decide) hchain).optional

/-! ### SELECT -/

/-- One join, with its texts apart. -/
def Join.fragment (j : Join) : Fragment σ :=
  .text (" " ++ j.kind.sql ++ " ") ++ (.text j.table ++ (.text " ON " ++ .text j.on))

theorem joinClauses_cons (j : Join) (joins : List Join) :
    (joinClauses (j :: joins) : Fragment σ) = j.fragment ++ joinClauses joins :=
  ext_symbols (by simp [joinClauses, Fragment.concat, Join.fragment])

theorem Join.continues {j : Join} (htable : Spells j.table (L .source))
    (hon : Spells j.on (L .condition)) : (j.fragment : Fragment σ).Continues (Syntax.join L) := by
  have hkind : Spells (" " ++ j.kind.sql ++ " ")
      (phrase "INNER JOIN" + phrase "LEFT JOIN" + phrase "RIGHT JOIN") := by
    cases j.kind
    · exact (spells_phrase (by decide)).mono fun _ h => .inl (.inl h)
    · exact (spells_phrase (by decide)).mono fun _ h => .inl (.inr h)
    · exact (spells_phrase (by decide)).mono fun _ => .inr
  have hcondition : Spells " ON " (phrase "ON") := spells_phrase (by decide)
  exact .lead hkind (by cases j.kind <;> decide)
    ((Reads.text htable).append (.lead hcondition (by decide) (.text hon)))

theorem continues_joinClauses {joins : List Join}
    (h : ∀ j ∈ joins, Spells j.table (L .source) ∧ Spells j.on (L .condition)) :
    (joinClauses joins : Fragment σ).Continues (Syntax.join L)∗ := by
  induction joins with
  | nil => exact ⟨fun _ => ⟨[], Language.nil_mem_kstar _, rfl⟩, fun _ => nofun⟩
  | cons j joins ih =>
    obtain ⟨htable, hon⟩ := h j (by simp)
    have hrest := ih fun k hk => h k (List.mem_cons_of_mem j hk)
    rw [joinClauses_cons]
    exact ((Join.continues htable hon).append hrest).mono mul_kstar_le_kstar

end Conditions

section Select

variable {L : Vocabulary}

/-- The texts of a block fit their places. -/
structure Body.Admitted (L : Vocabulary) (b : Body σ) : Prop where
  tables : b.tables ≠ []
  sources : ∀ t ∈ b.tables, Spells t (L .source)
  columns : ∀ c ∈ b.columns, Spells c (L .item)
  joins : ∀ j ∈ b.joins, Spells j.table (L .source) ∧ Spells j.on (L .condition)
  predicates : ∀ p ∈ b.predicates, Spells p.condition.column (L p.condition.place)
  groups : ∀ g ∈ b.groups, Spells g (L .expression)

theorem Body.Admitted.reads {b : Body σ} (h : b.Admitted L) : b.fragment.Reads (block L) := by
  have hgroups : (listClause " GROUP BY " b.groups : Fragment σ).Continues
      (optional (phrase "GROUP BY" * listOf (L .expression))) :=
    continues_listClause (spells_phrase (by decide)) (by decide) h.groups
  have hclauses := (continues_joinClauses h.joins).append
    ((continues_whereClause h.predicates).append hgroups)
  have hfrom : Spells " FROM " (phrase "FROM") := spells_phrase (by decide)
  have hrest := Continues.lead hfrom (by decide) ((Reads.names h.tables h.sources).append hclauses)
  have hcolumns : Reads (if b.columns.isEmpty then .text "*" else .names b.columns : Fragment σ)
      (phrase "*" + listOf (L .item)) := by
    split
    · exact (Reads.text (spells_phrase (by decide))).mono fun _ => .inl
    · rename_i hne
      exact (Reads.names (by simpa using hne) h.columns).mono fun _ => .inr
  have hdistinct : Spells (if b.distinct then "DISTINCT " else "")
      (optional (phrase "DISTINCT")) := by
    cases b.distinct
    · exact ⟨[], .inl rfl, rfl⟩
    · exact (spells_phrase (by decide)).mono fun _ => .inr
  have hselect : Spells "SELECT " (phrase "SELECT") := spells_phrase (by decide)
  rw [fragment, fragmentOver, projection]
  simp only [append_assoc]
  exact .lead hselect (by decide)
    (.lead hdistinct (by cases b.distinct <;> decide) (hcolumns.append hrest))

theorem SortKey.spells {k : SortKey} (h : Spells k.column (L .expression)) :
    Spells (k.column ++ " " ++ k.direction.sql)
      (L .expression * (phrase "ASC" + phrase "DESC")) := by
  have hdirection : Spells (" " ++ k.direction.sql) (phrase "ASC" + phrase "DESC") := by
    cases k.direction
    · exact (spells_phrase (by decide)).mono fun _ => .inl
    · exact (spells_phrase (by decide)).mono fun _ => .inr
  rw [String.append_assoc]
  exact h.append hdirection (.inr (by cases k.direction <;> decide))

def Tail.Admitted (L : Vocabulary) (t : Tail) : Prop :=
  ∀ k ∈ t.order, Spells k.column (L .expression)

theorem Tail.Admitted.continues {t : Tail} (h : t.Admitted L) :
    (t.fragment : Fragment σ).Continues (trailing L) := by
  have horder : (listClause " ORDER BY " (t.order.map fun k => k.column ++ " " ++ k.direction.sql) :
      Fragment σ).Continues
        (optional (phrase "ORDER BY" * listOf (L .expression * (phrase "ASC" + phrase "DESC")))) :=
    continues_listClause (spells_phrase (by decide)) (by decide)
      (List.forall_mem_map.mpr fun k hk => SortKey.spells (h k hk))
  have hlimit : (countClause " LIMIT " t.limit : Fragment σ).Continues
      (optional (phrase "LIMIT" * numeral)) :=
    continues_countClause (spells_phrase (by decide)) (by decide) t.limit
  have hoffset : (countClause " OFFSET " t.offset : Fragment σ).Continues
      (optional (phrase "OFFSET" * numeral)) :=
    continues_countClause (spells_phrase (by decide)) (by decide) t.offset
  rw [fragment, append_assoc]
  exact horder.append (hlimit.append hoffset)

/-- The texts of a SELECT fit their places. -/
inductive Select.Admitted (L : Vocabulary) : Select σ → Prop
  | block {body : Body σ} {tail : Tail} (hbody : body.Admitted L) (htail : tail.Admitted L) :
    Admitted L (.block body tail)
  | combined {lead : Body σ} {leadTail tail : Tail} {members : List (SetOp × Select σ)}
    (hlead : lead.Admitted L) (hleadTail : leadTail.Admitted L)
    (hmembers : ∀ m ∈ members, Admitted L m.2) (htail : tail.Admitted L) :
    Admitted L (.combined lead leadTail members tail)

theorem mul_trailing_le : part L .operands * trailing L ≤ part L .query := by
  rintro _ ⟨ts, hts, us, hus, rfl⟩
  exact .query hts hus

theorem inParentheses_query_le : inParentheses (part L .query) ≤ part L .operand := by
  rintro _ ⟨_, hopen, _, ⟨ts, hts, _, hclose, rfl⟩, rfl⟩
  cases (by decide : scan "(".toList = some [.sign '(']).symm.trans hopen
  cases (by decide : scan ")".toList = some [.sign ')']).symm.trans hclose
  exact .parenthesized hts

theorem mul_operand_le : part L .operands *
    (phrase "UNION" * optional (phrase "ALL") * part L .operand) ≤ part L .operands := by
  rintro _ ⟨ts, hts, _, ⟨op, hop, us, hus, rfl⟩, rfl⟩
  exact .combined hts hop hus

theorem reads_block {body : Body σ} {tail : Tail} (hbody : body.Admitted L)
    (htail : tail.Admitted L) : (body.fragment ++ tail.fragment).Reads (part L .query) :=
  ((hbody.reads.mono fun _ h => .single (.block h)).append htail.continues).mono mul_trailing_le

theorem reads_operand {a : Fragment σ} {bare : Bool} (hquery : a.Reads (part L .query))
    (hbare : bare → a.Reads (part L .operand)) : (operand bare a).Reads (part L .operand) := by
  unfold operand
  split
  · exact hbare ‹_›
  · exact hquery.parenthesized.mono inParentheses_query_le

/-- A block that nothing trails is an operand as it stands. -/
theorem reads_bareBlock {body : Body σ} {tail : Tail} (hbody : body.Admitted L)
    (h : tail.isEmpty) : (body.fragment ++ tail.fragment).Reads (part L .operand) := by
  simp only [Tail.isEmpty, Bool.and_eq_true, List.isEmpty_iff, beq_iff_eq] at h
  obtain ⟨⟨horder, hlimit⟩, hoffset⟩ := h
  have hfragment : (tail.fragment : Fragment σ) = .empty := by
    simp [Tail.fragment, listClause, countClause, horder, hlimit, hoffset]
  rw [hfragment, append_empty]
  exact hbody.reads.mono fun _ => .block

/-- Members go on with what has been read so far, whatever it is. -/
theorem reads_memberFragments {members : List (SetOp × Select σ)} {a : Fragment σ}
    (ha : a.Reads (part L .operands))
    (h : ∀ m ∈ members, (operand m.2.isBare m.2.fragment).Reads (part L .operand)) :
    (a ++ Select.memberFragments members).Reads (part L .operands) := by
  induction members generalizing a with
  | nil => rwa [Select.memberFragments, append_empty]
  | cons m members ih =>
    obtain ⟨op, s⟩ := m
    have hop : Spells (" " ++ op.sql ++ " ") (phrase "UNION" * optional (phrase "ALL")) := by
      cases op
      · exact ⟨[.word "UNION"] ++ [], Language.append_mem_mul (by decide) (.inl rfl), by decide⟩
      · have hall : [.word "ALL"] ∈ phrase "ALL" := by decide
        exact ⟨[.word "UNION"] ++ [.word "ALL"],
          Language.append_mem_mul (by decide) (.inr hall), by decide⟩
    have hmember := Continues.lead hop (by cases op <;> decide) (h (op, s) (by simp))
    have hrest := ih ((ha.append hmember).mono mul_operand_le) fun m hm =>
      h m (List.mem_cons_of_mem _ hm)
    rwa [Select.memberFragments, ← append_assoc, ← append_assoc, append_assoc a]

theorem Select.Admitted.reads {s : Select σ} (h : s.Admitted L) :
    s.fragment.Reads (part L .query) ∧
      (operand s.isBare s.fragment).Reads (part L .operand) := by
  induction h with
  | block hbody htail =>
    have hquery := reads_block hbody htail
    exact ⟨hquery, reads_operand hquery fun hbare => reads_bareBlock hbody hbare⟩
  | combined hlead hleadTail _ htail ih =>
    have hfirst := reads_operand (reads_block hlead hleadTail) fun hbare =>
      reads_bareBlock hlead hbare
    have hmembers := reads_memberFragments (hfirst.mono fun _ => .single) fun m hm => (ih m hm).2
    have hquery := (hmembers.append htail.continues).mono mul_trailing_le
    exact ⟨hquery, reads_operand hquery nofun⟩

end Select

/-! ### Statements that change rows -/

section Changes

variable {L : Vocabulary}

theorem continues_returning {items : List String} (h : ∀ s ∈ items, Spells s (L .item)) :
    (listClause " RETURNING " items : Fragment σ).Continues (Syntax.returning L) :=
  continues_listClause (spells_phrase (by decide)) (by decide) h

theorem reads_assignment {column : String} (h : Spells column (L .name)) (x : σ) :
    (.text (column ++ " = ") ++ .slot x : Fragment σ).Reads (assignment L placeholder) := by
  have hequals : Spells " = " (phrase "=") := spells_phrase (by decide)
  have hfragment : (.text (column ++ " = ") ++ .slot x : Fragment σ) =
      .text column ++ (.text " = " ++ .slot x) := ext_symbols (by simp)
  rw [hfragment]
  exact (Reads.text h).append (.lead hequals (by decide) (.slot x))

theorem assignment_mono {P Q : Language Lexeme} (h : P ≤ Q) :
    assignment L P ≤ assignment L Q :=
  mul_le_mul_right (mul_le_mul_right h _) _

theorem reads_assignmentList {assignments : List (String × σ)} (hne : assignments ≠ [])
    (h : ∀ a ∈ assignments, Spells a.1 (L .name)) (hle : placeholder ≤ P) :
    (assignmentList assignments).Reads (listOf (assignment L P)) := by
  refine .listOf (by simpa using hne) (List.forall_mem_map.mpr fun a ha => ?_)
  exact (reads_assignment (h a ha) a.2).mono (assignment_mono hle)

/-- A column that takes the value of the row that was to be inserted. -/
theorem spells_excluded {column : String} (h : Spells column (L .name)) :
    Spells (column ++ " = EXCLUDED." ++ column)
      (assignment L (placeholder + phrase "EXCLUDED." * L .name)) := by
  have hexcluded : Spells " = EXCLUDED." (phrase "=" * phrase "EXCLUDED.") :=
    ⟨[.sign '='] ++ [.word "EXCLUDED", .sign '.'],
      Language.append_mem_mul (by decide) (by decide), by decide⟩
  have hspells := h.append (hexcluded.append h (.inl (by decide)))
    (.inr (by rw [String.toList_append]; exact .gap (by decide) _))
  rw [← String.append_assoc, mul_assoc (phrase "=")] at hspells
  exact hspells.mono (assignment_mono fun _ => .inr)

/-- The columns of an action fit their places, and it has some. -/
def ConflictAction.Admitted (L : Vocabulary) : ConflictAction σ → Prop
  | .nothing => True
  | .overwrite columns => columns ≠ [] ∧ ∀ c ∈ columns, Spells c (L .name)
  | .assign assignments => assignments ≠ [] ∧ ∀ a ∈ assignments, Spells a.1 (L .name)

structure Conflict.Admitted (L : Vocabulary) (c : Conflict σ) : Prop where
  target : c.target ≠ []
  names : ∀ s ∈ c.target, Spells s (L .name)
  action : c.action.Admitted L

theorem continues_collision {target : List String} (hne : target ≠ [])
    (h : ∀ s ∈ target, Spells s (L .name)) {a : Fragment σ} (ha : a.Reads (resolution L)) :
    (.text " ON CONFLICT (" ++ .names target ++ .text ")" ++ a).Continues (collision L) := by
  have hconflict : Spells " ON CONFLICT (" (phrase "ON CONFLICT" * phrase "(") :=
    ⟨[.word "ON", .word "CONFLICT"] ++ [.sign '('],
      Language.append_mem_mul (by decide) (by decide), by decide⟩
  have hclose : Spells ")" (phrase ")") := spells_phrase (by decide)
  have htarget := (Reads.names hne h).append (Continues.lead hclose (by decide) ha)
  have hreads := Continues.lead hconflict (by decide) htarget
  simpa only [collision, inParentheses, append_assoc, mul_assoc] using hreads

theorem Conflict.Admitted.continues {c : Conflict σ} (h : c.Admitted L) :
    c.fragment.Continues (collision L) := by
  obtain ⟨target, action⟩ := c
  obtain ⟨htarget, hnames, haction⟩ := h
  have hset : Spells " DO UPDATE SET " (phrase "DO UPDATE SET") := spells_phrase (by decide)
  rw [fragment]
  refine continues_collision htarget hnames ?_
  cases action with
  | nothing => exact (Reads.text (spells_phrase (by decide))).mono fun _ => .inl
  | overwrite columns =>
    obtain ⟨hne, hcolumns⟩ := haction
    have hlist : (Fragment.names (columns.map fun c => c ++ " = EXCLUDED." ++ c) : Fragment σ).Reads
        (listOf (assignment L (placeholder + phrase "EXCLUDED." * L .name))) :=
      .names (by simpa using hne)
        (List.forall_mem_map.mpr fun c hc => spells_excluded (hcolumns c hc))
    exact (Reads.lead hset (by decide) hlist).mono fun _ => .inr
  | assign assignments =>
    obtain ⟨hne, hcolumns⟩ := haction
    have hlist := reads_assignmentList (L := L) hne hcolumns
      (fun _ => .inl : placeholder ≤ placeholder + phrase "EXCLUDED." * L .name)
    exact (Reads.lead hset (by decide) hlist).mono fun _ => .inr

theorem reads_rows {row : List σ} {rows : List (List σ)} {n : Nat}
    (h : ∀ r ∈ row :: rows, r.length = n + 1) :
    (commaList ((row :: rows).map fun r => (slotList r).parenthesized)).Reads
      (listOf (inParentheses (separated (phrase ",") placeholder n))) := by
  refine .listOf (by simp) (List.forall_mem_map.mpr fun r hr => ?_)
  obtain ⟨x, xs, rfl⟩ := List.exists_cons_of_length_eq_add_one (h r hr)
  have hlength : xs.length = n := by simpa using h _ hr
  exact (hlength ▸ Reads.separatedSlots x xs).parenthesized

theorem reads_insert {table : String} {columns : List String} {rows : List (List σ)}
    {conflict : Option (Conflict σ)} {returning : List String}
    (htable : Spells table (L .target)) (hcolumns : columns ≠ [])
    (hnames : ∀ c ∈ columns, Spells c (L .name)) (hrows : rows ≠ [])
    (hwidth : ∀ r ∈ rows, r.length = columns.length)
    (hconflict : ∀ c ∈ conflict, c.Admitted L) (hreturning : ∀ s ∈ returning, Spells s (L .item)) :
    (Command.insert table columns rows conflict returning).fragment.Reads (insertion L) := by
  obtain ⟨column, columns, rfl⟩ := List.exists_cons_of_ne_nil hcolumns
  obtain ⟨row, rows, rfl⟩ := List.exists_cons_of_ne_nil hrows
  have hinto : Spells "INSERT INTO " (phrase "INSERT INTO") := spells_phrase (by decide)
  have hopen : Spells " (" (phrase "(") := spells_phrase (by decide)
  have hvalues : Spells ") VALUES " (phrase ")" * phrase "VALUES") :=
    ⟨[.sign ')'] ++ [.word "VALUES"], Language.append_mem_mul (by decide) (by decide), by decide⟩
  have hcollision : (conflict.elim empty Conflict.fragment).Continues (optional (collision L)) := by
    cases conflict with
    | none => exact .empty _
    | some c => exact (hconflict c rfl).continues.optional
  have hlist := Reads.separatedNames (σ := σ) hnames
  have hend := (reads_rows hwidth).append (hcollision.append (continues_returning hreturning))
  have hrest := (Reads.text htable).append (Continues.lead hopen (by decide)
    (hlist.append (Continues.lead hvalues (by decide) hend)))
  have hreads := Reads.lead hinto (by decide) hrest
  have hfragment : (Command.insert table (column :: columns) (row :: rows) conflict
      returning).fragment = .text "INSERT INTO " ++ (.text table ++ (.text " (" ++
        (names (column :: columns) ++ (.text ") VALUES " ++
          (commaList ((row :: rows).map fun r => (slotList r).parenthesized) ++
            (conflict.elim empty Conflict.fragment ++ listClause " RETURNING " returning)))))) :=
    ext_symbols (by simp [Command.fragment])
  rw [hfragment]
  refine hreads.mono (le_iSup_of_le columns.length ?_)
  simp only [inParentheses, mul_assoc, le_refl]

theorem reads_update {table : String} {assignments : List (String × σ)}
    {predicates : List (Predicate σ)} {returning : List String}
    (htable : Spells table (L .target)) (hne : assignments ≠ [])
    (hassignments : ∀ a ∈ assignments, Spells a.1 (L .name))
    (hpredicates : ∀ p ∈ predicates, Spells p.condition.column (L p.condition.place))
    (hreturning : ∀ s ∈ returning, Spells s (L .item)) :
    (Command.update table assignments predicates returning).fragment.Reads (modification L) := by
  have hupdate : Spells "UPDATE " (phrase "UPDATE") := spells_phrase (by decide)
  have hset : Spells " SET " (phrase "SET") := spells_phrase (by decide)
  have hend := (reads_assignmentList hne hassignments le_rfl).append
    ((continues_whereClause hpredicates).append (continues_returning hreturning))
  have hreads := Reads.lead hupdate (by decide)
    ((Reads.text htable).append (Continues.lead hset (by decide) hend))
  have hfragment : (Command.update table assignments predicates returning).fragment =
      .text "UPDATE " ++ (.text table ++ (.text " SET " ++ (assignmentList assignments ++
        (whereClause predicates ++ listClause " RETURNING " returning)))) :=
    ext_symbols (by simp [Command.fragment])
  rw [hfragment]
  exact hreads

/-- Joins stand where the syntax of DELETE has USING. -/
theorem reads_delete {table : String} {joins : List Join} {predicates : List (Predicate σ)}
    {returning : List String} {J : Language Lexeme} (htable : Spells table (L .target))
    (hjoins : (joinClauses joins : Fragment σ).Continues J)
    (hpredicates : ∀ p ∈ predicates, Spells p.condition.column (L p.condition.place))
    (hreturning : ∀ s ∈ returning, Spells s (L .item)) :
    (Command.delete table joins predicates returning).fragment.Reads
      (phrase "DELETE FROM" * (L .target * (J * (filtering L * Syntax.returning L)))) := by
  have hdelete : Spells "DELETE FROM " (phrase "DELETE FROM") := spells_phrase (by decide)
  have hend := hjoins.append
    ((continues_whereClause hpredicates).append (continues_returning hreturning))
  have hreads := Reads.lead hdelete (by decide) ((Reads.text htable).append hend)
  have hfragment : (Command.delete table joins predicates returning).fragment =
      .text "DELETE FROM " ++ (.text table ++ (joinClauses joins ++ (whereClause predicates ++
        listClause " RETURNING " returning))) :=
    ext_symbols (by simp [Command.fragment])
  rw [hfragment]
  exact hreads

end Changes

end BoundSql
