import BoundSql.Proofs.Sql.Commands
import BoundSql.Proofs.Sql.Grammar

/-! The tokens of the texts of clauses.  When the texts that a caller gave are atomic, the body of a
block is SELECT and items (`Body.exists_items`), and the text of trailing clauses has their tokens
(`Tail.lex_fragment`), from whichever number the slots are counted. -/

namespace BoundSql

open Sql

variable {σ : Type}

namespace Sql

theorem renderFrom_glue (style : PlaceholderStyle) (n : Nat) (xs ys : List (Piece σ)) :
    renderFrom style n (glue xs ys) =
      renderFrom style n xs ++ renderFrom style (n + (xs.filterMap Piece.slot?).length) ys := by
  fun_induction glue xs ys generalizing n with
  | case1 ys => simp [renderFrom]
  | case2 s t ys => simp [renderFrom, List.filterMap_cons, Piece.slot?, String.append_assoc]
  | case3 x xs ys _ ih =>
    cases x with
    | text s => simp [renderFrom, List.filterMap_cons, Piece.slot?, ih, String.append_assoc]
    | slot x =>
      simp [renderFrom, Piece.slot?, ih, String.append_assoc, Nat.add_assoc, Nat.add_comm 1]

namespace Fragment

/-- The text of a fragment whose first slot has a given number. -/
def chars (style : PlaceholderStyle) (n : Nat) (a : Fragment σ) : List Char :=
  (renderFrom style n a.pieces).toList

@[simp]
theorem chars_append (style : PlaceholderStyle) (n : Nat) (a b : Fragment σ) :
    (a ++ b).chars style n = a.chars style n ++ b.chars style (n + a.slots.length) := by
  rw [chars, chars, chars, ← String.toList_append]
  exact congrArg String.toList (renderFrom_glue style n a.pieces b.pieces)

@[simp]
theorem chars_empty (style : PlaceholderStyle) (n : Nat) :
    (empty : Fragment σ).chars style n = [] := rfl

@[simp]
theorem chars_text (style : PlaceholderStyle) (n : Nat) (s : String) :
    (text s : Fragment σ).chars style n = s.toList := by
  unfold text
  split
  · rename_i h
    rw [h]
    rfl
  · simp [chars, renderFrom]

@[simp]
theorem chars_slot (style : PlaceholderStyle) (n : Nat) (x : σ) :
    (slot x).chars style n = (style.mark n).toList := by
  simp [chars, slot, renderFrom]

end Fragment

/-- A text of items. -/
def Calm (cs : List Char) : Prop := Items (lex cs)

/-- Whether a text has a first and a last character that are part of no word. -/
def isSeam (cs : List Char) : Bool :=
  cs.head?.any (!inWord ·) && cs.getLast?.any (!inWord ·)

theorem noWordFirst_seam {d : List Char} (h : isSeam d) (cs : List Char) :
    NoWordFirst (d ++ cs) := by
  cases d with
  | nil => cases h
  | cons c d =>
    intro e he
    cases he
    simp only [isSeam, Bool.and_eq_true] at h
    simpa using h.1

theorem noWordLast_seam {d : List Char} (h : isSeam d) : NoWordLast d := by
  intro c hc
  simp only [isSeam, Bool.and_eq_true, Option.mem_def.mp hc] at h
  simpa using h.2

/-- No word runs into a seam or out of it. -/
theorem lex_seam {d : List Char} (h : isSeam d) (a b : List Char) :
    lex (a ++ (d ++ b)) = lex a ++ (lex d ++ lex b) := by
  rw [lex_append (.inr (noWordFirst_seam h b)), lex_append (.inl (noWordLast_seam h))]

theorem Atomic.calm {s : String} (h : Atomic s) : Calm s.toList := .of_plain h

theorem Calm.append {a b : List Char} (ha : Calm a) (hb : Calm b)
    (h : NoWordLast a ∨ NoWordFirst b) : Calm (a ++ b) := by
  rw [Calm, lex_append h]
  exact Items.append ha hb

/-- Two texts of items with a seam between them. -/
theorem Calm.join {a b d : List Char} (ha : Calm a) (hb : Calm b) (hseam : isSeam d)
    (hd : ∀ t ∈ lex d, t.isPlain) : Calm (a ++ (d ++ b)) := by
  rw [Calm, lex_seam hseam]
  exact Items.append ha ((Items.of_plain hd).append hb)

/-- A text of items in parentheses, after another one. -/
theorem Calm.group {a d inside : List Char} (ha : Calm a) (words : List Token)
    (hinside : Calm inside) (hseam : isSeam d) (hd : lex d = words ++ [.left])
    (hwords : ∀ t ∈ words, t.isPlain) : Calm (a ++ (d ++ (inside ++ [')']))) := by
  have hclose : lex (inside ++ [')']) = lex inside ++ [.right] :=
    lex_append (.inr (noWordFirst_seam (d := [')']) rfl []))
  rw [Calm, lex_seam hseam, hclose, hd, List.append_assoc]
  exact Items.append ha ((Items.of_plain hwords).append (.group hinside .nil))

theorem calm_mark (style : PlaceholderStyle) (n : Nat) : Calm (style.mark n).toList :=
  (atomic_mark style n).calm

theorem calm_commaList {style : PlaceholderStyle} (as : List (Fragment σ))
    (h : ∀ a ∈ as, ∀ n, Calm (a.chars style n)) (n : Nat) :
    Calm ((Fragment.commaList as).chars style n) := by
  fun_induction Fragment.commaList as generalizing n with
  | case1 => exact .nil
  | case2 a => exact h a (by simp) n
  | case3 a b rest ih =>
    have hrest : ∀ c ∈ b :: rest, ∀ n, Calm (c.chars style n) := fun c hc =>
      h c (List.mem_cons_of_mem a hc)
    rw [Fragment.chars_append, Fragment.chars_append, Fragment.chars_text, List.append_assoc]
    exact (h a (by simp) n).join (ih hrest _) (by decide) (by decide)

theorem calm_names {style : PlaceholderStyle} {items : List String} (h : ∀ s ∈ items, Atomic s)
    (n : Nat) : Calm ((Fragment.names items : Fragment σ).chars style n) := by
  refine calm_commaList _ (fun a ha n => ?_) n
  obtain ⟨s, hs, rfl⟩ := List.mem_map.mp ha
  rw [Fragment.chars_text]
  exact (h s hs).calm

theorem calm_slotList (style : PlaceholderStyle) (xs : List σ) (n : Nat) :
    Calm ((Fragment.slotList xs).chars style n) := by
  refine calm_commaList _ (fun a ha n => ?_) n
  obtain ⟨x, _, rfl⟩ := List.mem_map.mp ha
  rw [Fragment.chars_slot]
  exact calm_mark style n

namespace Fragment

variable {style : PlaceholderStyle}

/-- A fragment of items in front of which a word can end. -/
structure Apart (style : PlaceholderStyle) (a : Fragment σ) : Prop where
  calm : ∀ n, Calm (a.chars style n)
  first : ∀ n, NoWordFirst (a.chars style n)

theorem Apart.empty : Apart style (empty : Fragment σ) :=
  ⟨fun _ => .nil, fun _ => nofun⟩

theorem Apart.append {a b : Fragment σ} (ha : a.Apart style) (hb : b.Apart style) :
    (a ++ b).Apart style := by
  constructor <;> intro n <;> rw [chars_append]
  · exact (ha.calm n).append (hb.calm _) (.inr (hb.first _))
  · exact (ha.first n).append (hb.first _)

/-- Items after a seam. -/
theorem Apart.text_append {s : String} (hs : Atomic s) (hseam : isSeam s.toList)
    {a : Fragment σ} (ha : ∀ n, Calm (a.chars style n)) : (.text s ++ a).Apart style := by
  constructor <;> intro n <;> rw [chars_append, chars_text]
  · exact hs.calm.append (ha _) (.inl (noWordLast_seam hseam))
  · exact noWordFirst_seam hseam _

theorem Apart.concat {fragments : List (Fragment σ)}
    (h : ∀ a ∈ fragments, a.Apart style) : (concat fragments).Apart style := by
  induction fragments with
  | nil => exact .empty
  | cons a rest ih =>
    exact (h a (by simp)).append (ih fun b hb => h b (by simp [hb]))

end Fragment

end Sql

/-! ### Bodies -/

section Bodies

variable {style : PlaceholderStyle}

theorem Condition.calm_fragment {c : Condition σ} (h : Atomic c.column) (n : Nat) :
    Calm (c.fragment.chars style n) := by
  have hcolumn : Calm c.column.toList := h.calm
  cases c with
  | raw expression => simpa [fragment, Condition.column] using hcolumn
  | compare column op x =>
    have hcalm := hcolumn.join (d := (" " ++ op.sql ++ " ").toList) (calm_mark style n)
      (by cases op <;> decide) (by cases op <;> decide)
    simpa [fragment, Condition.column, String.append_assoc] using hcalm
  | between column negated low high =>
    have hrange := (calm_mark style n).join (d := " AND ".toList) (calm_mark style (n + 1))
      (by decide) (by decide)
    have hcalm := hcolumn.join
      (d := (if negated then " NOT BETWEEN " else " BETWEEN ").toList) hrange
      (by cases negated <;> decide) (by cases negated <;> decide)
    simpa [fragment, Condition.column, String.append_assoc] using hcalm
  | membership column negated xs =>
    cases xs with
    | nil =>
      have hcalm : Calm (if negated then "1=1" else "1=0").toList := by
        cases negated <;> exact (by decide : Atomic _).calm
      simpa [fragment] using hcalm
    | cons x xs =>
      have hslots := calm_slotList style (x :: xs) n
      have hcalm := hcolumn.group (d := (if negated then " NOT IN (" else " IN (").toList)
        (if negated then [.word "NOT", .word "IN"] else [.word "IN"]) hslots
        (by cases negated <;> decide) (by cases negated <;> decide) (by cases negated <;> decide)
      simpa [fragment, Condition.column] using hcalm
  | nullness column negated =>
    have htest : Atomic (if negated then "IS NOT NULL" else "IS NULL") := by
      cases negated <;> decide
    have hcalm := hcolumn.join (d := [' ']) htest.calm (by decide) (by decide)
    cases negated <;> simpa [fragment, Condition.column] using hcalm

theorem apart_joinClauses {joins : List Join} (h : ∀ j ∈ joins, Atomic j.table ∧ Atomic j.on) :
    (joinClauses joins : Fragment σ).Apart style := by
  refine .concat fun a ha => ?_
  obtain ⟨j, hj, rfl⟩ := List.mem_map.mp ha
  obtain ⟨htable, hon⟩ := h j hj
  have hcalm := htable.calm.join (d := " ON ".toList) hon.calm (by decide) (by decide)
  have happart : (.text (" " ++ j.kind.sql ++ " ") ++ .text (j.table ++ " ON " ++ j.on) :
      Fragment σ).Apart style :=
    .text_append (by cases j.kind <;> decide) (by cases j.kind <;> decide) fun n => by
      simpa using hcalm
  have heq : (.text (" " ++ j.kind.sql ++ " ") ++ .text (j.table ++ " ON " ++ j.on) : Fragment σ) =
      .text (" " ++ j.kind.sql ++ " " ++ j.table ++ " ON " ++ j.on) :=
    Fragment.ext_symbols (by simp)
  rwa [heq] at happart

theorem apart_whereClause {ps : List (Predicate σ)} (h : ∀ p ∈ ps, Atomic p.condition.column) :
    (whereClause ps).Apart style := by
  cases ps with
  | nil => exact .empty
  | cons p rest =>
    refine .append (.text_append (by decide) (by decide) ?_) (.concat fun a ha => ?_)
    · exact Condition.calm_fragment (h p (by simp))
    · obtain ⟨q, hq, rfl⟩ := List.mem_map.mp ha
      refine .text_append ?_ ?_ (Condition.calm_fragment (h q (by simp [hq])))
      · cases q.connective <;> decide
      · cases q.connective <;> decide

theorem apart_listClause (keyword : String) (hkeyword : Atomic keyword)
    (hseam : isSeam keyword.toList) {items : List String} (h : ∀ s ∈ items, Atomic s) :
    (listClause keyword items : Fragment σ).Apart style := by
  unfold listClause
  split
  · exact .empty
  · exact .text_append hkeyword hseam (calm_names h)

end Bodies

/-- The texts of a body that come from the caller. -/
def Body.texts (b : Body σ) : List String :=
  b.columns ++ b.tables ++ b.joins.flatMap (fun j => [j.table, j.on])
    ++ b.predicates.map (fun p => p.condition.column) ++ b.groups

theorem Body.calm_projection {style : PlaceholderStyle} {b : Body σ}
    (h : ∀ s ∈ b.columns, Atomic s) (n : Nat) : Calm (b.projection.chars style n) := by
  have hcolumns : ∀ m, Calm (Fragment.chars style m
      (if b.columns.isEmpty then .text "*" else .names b.columns : Fragment σ)) := fun m => by
    split
    · simpa using (by decide : Atomic "*").calm
    · exact calm_names h m
  have hdistinct : Calm (if b.distinct then "DISTINCT " else "").toList := by
    cases b.distinct <;> exact (by decide : Atomic _).calm
  rw [projection, Fragment.chars_append, Fragment.chars_text]
  refine hdistinct.append (hcolumns _) (.inl ?_)
  cases b.distinct
  · exact (by decide : NoWordLast "".toList)
  · exact (by decide : NoWordLast "DISTINCT ".toList)

/-- The body of a block is SELECT and items. -/
theorem Body.exists_items (style : PlaceholderStyle) {b : Body σ} (h : ∀ s ∈ b.texts, Atomic s)
    (n : Nat) : ∃ items, lex (b.fragment.chars style n) = .select :: items ∧ Items items := by
  have hcolumns : ∀ s ∈ b.columns, Atomic s := fun s hs => h s (by simp [texts, hs])
  have htables : ∀ s ∈ b.tables, Atomic s := fun s hs => h s (by simp [texts, hs])
  have hgroups : ∀ s ∈ b.groups, Atomic s := fun s hs => h s (by simp [texts, hs])
  have hpredicates : ∀ p ∈ b.predicates, Atomic p.condition.column := fun p hp =>
    h _ (by simp only [texts, List.mem_append, List.mem_map]; exact .inl (.inr ⟨p, hp, rfl⟩))
  have hjoins : ∀ j ∈ b.joins, Atomic j.table ∧ Atomic j.on := fun j hj => by
    have hmem : ∀ s ∈ [j.table, j.on], s ∈ b.texts := fun s hs => by
      simp only [texts, List.mem_append, List.mem_flatMap]
      exact .inl (.inl (.inr ⟨j, hj, hs⟩))
    exact ⟨h _ (hmem _ (by simp)), h _ (hmem _ (by simp))⟩
  have hfrom : ∀ m, Calm ((b.projection ++ (.text " FROM " ++ .names b.tables)).chars style m) :=
    fun m => by
      rw [Fragment.chars_append, Fragment.chars_append, Fragment.chars_text]
      exact (calm_projection hcolumns m).join (calm_names htables _) (by decide) (by decide)
  have hclauses : (joinClauses b.joins ++ whereClause b.predicates ++
      listClause " GROUP BY " b.groups).Apart style :=
    ((apart_joinClauses hjoins).append (apart_whereClause hpredicates)).append
      (apart_listClause " GROUP BY " (by decide) (by decide) hgroups)
  have heq : b.fragment = .text "SELECT " ++
      ((b.projection ++ (.text " FROM " ++ .names b.tables)) ++
        (joinClauses b.joins ++ whereClause b.predicates ++ listClause " GROUP BY " b.groups)) := by
    simp only [fragment, fragmentOver, Fragment.append_assoc]
  rw [heq, Fragment.chars_append, Fragment.chars_text, lex_append (.inl (by decide))]
  refine ⟨_, rfl, ?_⟩
  rw [Fragment.chars_append]
  exact (hfrom _).append (hclauses.calm _) (.inr (hclauses.first _))

/-! ### Trailing clauses -/

/-- The tokens of texts with commas between them. -/
def listTokens (items : List String) : List Token :=
  List.intercalate [.word ","] (items.map fun s => lex s.toList)

theorem lex_names (style : PlaceholderStyle) (items : List String) (n : Nat) :
    lex ((Fragment.names items : Fragment σ).chars style n) = listTokens items := by
  induction items generalizing n with
  | nil => rfl
  | cons s items ih =>
    cases items with
    | nil => simp [Fragment.names, Fragment.commaList, listTokens, List.intercalate]
    | cons t items =>
      have hnames : (Fragment.names (s :: t :: items) : Fragment σ) =
          .text s ++ .text ", " ++ .names (t :: items) := rfl
      have htokens : listTokens (s :: t :: items) =
          lex s.toList ++ ([.word ","] ++ listTokens (t :: items)) := by
        simp [listTokens, List.intercalate]
      rw [hnames, htokens, ← ih, Fragment.chars_append, Fragment.chars_append, Fragment.chars_text,
        Fragment.chars_text, List.append_assoc, lex_seam (by decide)]
      rfl

def SortKey.text (k : SortKey) : String := k.column ++ " " ++ k.direction.sql

/-- The clauses that trail a query. -/
def Tail.clauses (t : Tail) : List Clause :=
  (if t.order = [] then [] else [⟨.order, listTokens (t.order.map SortKey.text)⟩])
    ++ (if t.limit = 0 then [] else [⟨.limit, lex (toString t.limit).toList⟩])
    ++ (if t.offset = 0 then [] else [⟨.offset, lex (toString t.offset).toList⟩])

theorem lex_countClause (style : PlaceholderStyle) {keyword : String} (kind : ClauseKind)
    (hlast : NoWordLast keyword.toList) (hkeyword : lex keyword.toList = kind.tokens) (n m : Nat) :
    lex ((countClause keyword m : Fragment σ).chars style n) =
      (if m = 0 then [] else [⟨kind, lex (toString m).toList⟩]).flatMap Clause.tokens := by
  unfold countClause
  split
  · rfl
  · rw [Fragment.chars_text, String.toList_append, lex_append (.inl hlast), hkeyword]
    simp [Clause.tokens]

theorem noWordFirst_countClause (style : PlaceholderStyle) (keyword : String)
    (hseam : isSeam keyword.toList) (n m : Nat) :
    NoWordFirst ((countClause keyword m : Fragment σ).chars style n) := by
  unfold countClause
  split
  · exact nofun
  · rw [Fragment.chars_text, String.toList_append]
    exact noWordFirst_seam hseam _

theorem noWordFirst_listClause (style : PlaceholderStyle) (keyword : String)
    (hseam : isSeam keyword.toList) (n : Nat) (items : List String) :
    NoWordFirst ((listClause keyword items : Fragment σ).chars style n) := by
  unfold listClause
  split
  · exact nofun
  · rw [Fragment.chars_append, Fragment.chars_text]
    exact noWordFirst_seam hseam _

theorem lex_orderClause (style : PlaceholderStyle) (n : Nat) (keys : List SortKey) :
    lex ((listClause " ORDER BY " (keys.map SortKey.text) : Fragment σ).chars style n) =
      (if keys = [] then [] else
        [⟨.order, listTokens (keys.map SortKey.text)⟩] : List Clause).flatMap Clause.tokens := by
  unfold listClause
  by_cases hkeys : keys = []
  · simp [hkeys]
  · have hlast : NoWordLast " ORDER BY ".toList := by decide
    simp only [List.isEmpty_iff, List.map_eq_nil_iff, hkeys, if_false]
    rw [Fragment.chars_append, Fragment.chars_text, lex_append (.inl hlast), lex_names]
    simp [Clause.tokens]
    rfl

theorem Tail.noWordFirst_fragment (style : PlaceholderStyle) (n : Nat) (t : Tail) :
    NoWordFirst ((t.fragment : Fragment σ).chars style n) := by
  rw [Tail.fragment, Fragment.chars_append, Fragment.chars_append]
  exact ((noWordFirst_listClause style _ (by decide) _ _).append
    (noWordFirst_countClause style _ (by decide) _ _)).append
    (noWordFirst_countClause style _ (by decide) _ _)

/-- The text of trailing clauses has their tokens. -/
theorem Tail.lex_fragment (style : PlaceholderStyle) (n : Nat) (t : Tail) :
    lex ((t.fragment : Fragment σ).chars style n) = t.clauses.flatMap Clause.tokens := by
  rw [Tail.fragment, Fragment.chars_append, Fragment.chars_append,
    lex_append (.inr (noWordFirst_countClause style _ (by decide) _ _)),
    lex_append (.inr (noWordFirst_countClause style _ (by decide) _ _)),
    lex_countClause style .limit (by decide) (by decide),
    lex_countClause style .offset (by decide) (by decide), clauses, List.flatMap_append,
    List.flatMap_append]
  exact congrArg (· ++ _ ++ _) (lex_orderClause style n t.order)

theorem items_listTokens {items : List String} (h : ∀ s ∈ items, Atomic s) :
    Items (listTokens items) := by
  have hcalm : Calm ((Fragment.names items : Fragment Hole).chars .dollar 1) := calm_names h 1
  rwa [Calm, lex_names] at hcalm

theorem SortKey.atomic_text {k : SortKey} (h : Atomic k.column) : Atomic k.text := by
  have hdirection : Atomic (" " ++ k.direction.sql) := by cases k.direction <;> decide
  have hfirst : NoWordFirst (" " ++ k.direction.sql).toList := by cases k.direction <;> decide
  intro t ht
  rw [text, String.append_assoc, String.toList_append, lex_append (.inr hfirst)] at ht
  rcases List.mem_append.mp ht with ht | ht
  · exact h t ht
  · exact hdirection t ht

theorem items_of_mem_ite {absent : Prop} [Decidable absent] {c d : Clause}
    (hc : c ∈ if absent then [] else [d]) (hd : Items d.items) : Items c.items := by
  split at hc
  · cases hc
  · rwa [List.mem_singleton.mp hc]

theorem Tail.items_of_mem_clauses {t : Tail} (h : ∀ k ∈ t.order, Atomic k.column) {c : Clause}
    (hc : c ∈ t.clauses) : Items c.items := by
  simp only [clauses, List.mem_append] at hc
  obtain (hc | hc) | hc := hc
  · refine items_of_mem_ite hc (items_listTokens fun s hs => ?_)
    obtain ⟨k, hk, rfl⟩ := List.mem_map.mp hs
    exact SortKey.atomic_text (h k hk)
  · exact items_of_mem_ite hc (atomic_toString _).calm
  · exact items_of_mem_ite hc (atomic_toString _).calm

/-- The clauses of a query come in an order in which they can trail it. -/
theorem Tail.trailing_clauses {t : Tail} (h : ∀ k ∈ t.order, Atomic k.column) :
    Trailing t.clauses := by
  refine ⟨fun c => items_of_mem_clauses h, .inl ?_⟩
  by_cases horder : t.order = [] <;> by_cases hlimit : t.limit = 0 <;>
    by_cases hoffset : t.offset = 0 <;> simp [clauses, horder, hlimit, hoffset]

end BoundSql
