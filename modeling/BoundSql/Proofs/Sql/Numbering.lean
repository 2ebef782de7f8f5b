import BoundSql.Proofs.Sql.Texts
import Mathlib.Data.List.Chain

/-! The numbers of the slots in the text of a command.  In a `Spaced` fragment no digit stands
directly behind a slot, so a number read off the text is the number of a slot, with no digit of
something else (`marks_renderSymbols`).  Every command is spaced (`Command.spaced`), and a
placeholder sign that is in none of its texts always stands for a slot. -/

namespace BoundSql

open Sql

variable {σ : Type}

namespace Sql

/-! ### Reading numbers off a text -/

/-- The runs of digits directly behind the dollar signs of a text, from left to right. -/
def marks : List Char → List (List Char)
  | [] => []
  | c :: cs => if c = '$' then cs.takeWhile Char.isDigit :: marks cs else marks cs

theorem marks_append {cs : List Char} (h : '$' ∉ cs) (rest : List Char) :
    marks (cs ++ rest) = marks rest := by
  induction cs with
  | nil => rfl
  | cons c cs ih =>
    have hc : ¬ c = '$' := fun hc => h (hc ▸ List.mem_cons_self)
    have hcs : '$' ∉ cs := fun hcs => h (List.mem_cons_of_mem c hcs)
    rw [List.cons_append, marks, if_neg hc, ih hcs]

namespace Symbol

def isSlot : Symbol σ → Bool
  | .char _ => false
  | .slot _ => true

def isDigit : Symbol σ → Bool
  | .char c => c.isDigit
  | .slot _ => false

/-- Whether a symbol may stand directly in front of another: a slot not in front of a digit. -/
def Before (x y : Symbol σ) : Prop := x.isSlot → ¬ y.isDigit

end Symbol

/-- The text of symbols whose first slot has a given number. -/
def renderSymbols (style : PlaceholderStyle) : Nat → List (Symbol σ) → List Char
  | _, [] => []
  | n, .char c :: rest => c :: renderSymbols style n rest
  | n, .slot _ :: rest => (style.mark n).toList ++ renderSymbols style (n + 1) rest

theorem countP_chars (cs : List Char) :
    (cs.map (Symbol.char : Char → Symbol σ)).countP Symbol.isSlot = 0 := by
  simp [List.countP_eq_zero, Symbol.isSlot]

theorem renderSymbols_append (style : PlaceholderStyle) (n : Nat) (xs ys : List (Symbol σ)) :
    renderSymbols style n (xs ++ ys) =
      renderSymbols style n xs ++ renderSymbols style (n + xs.countP Symbol.isSlot) ys := by
  induction xs generalizing n with
  | nil => rfl
  | cons x xs ih =>
    cases x with
    | char c => simp [renderSymbols, ih, Symbol.isSlot]
    | slot x =>
      simp [renderSymbols, ih, List.countP_cons, Symbol.isSlot, Nat.add_assoc, Nat.add_comm 1]

theorem renderSymbols_dollar (n : Nat) (x : σ) (xs : List (Symbol σ)) :
    renderSymbols .dollar n (.slot x :: xs) =
      '$' :: ((toString n).toList ++ renderSymbols .dollar (n + 1) xs) := by
  simp [renderSymbols, PlaceholderStyle.mark]

theorem renderSymbols_question (n : Nat) (x : σ) (xs : List (Symbol σ)) :
    renderSymbols .question n (.slot x :: xs) = '?' :: renderSymbols .question (n + 1) xs := by
  simp [renderSymbols, PlaceholderStyle.mark]

theorem renderSymbols_char (style : PlaceholderStyle) (n : Nat) (cs : List Char) :
    renderSymbols style n (cs.map (Symbol.char : Char → Symbol σ)) = cs := by
  induction cs with
  | nil => rfl
  | cons c cs ih => rw [List.map_cons, renderSymbols, ih]

namespace Fragment

/-- The text of a fragment is the text of its symbols. -/
theorem chars_eq (style : PlaceholderStyle) (n : Nat) (a : Fragment σ) :
    a.chars style n = renderSymbols style n a.symbols := by
  have h : ∀ pieces : List (Piece σ), (renderFrom style n pieces).toList =
      renderSymbols style n (pieces.flatMap Piece.symbols) := by
    intro pieces
    induction pieces generalizing n with
    | nil => rfl
    | cons p pieces ih =>
      cases p with
      | text s =>
        rw [renderFrom, String.toList_append, ih, List.flatMap_cons, renderSymbols_append,
          Piece.symbols, renderSymbols_char, countP_chars, Nat.add_zero]
      | slot x =>
        rw [renderFrom, String.toList_append, ih]
        rfl
  exact h a.pieces

theorem countP_symbols (a : Fragment σ) : a.symbols.countP Symbol.isSlot = a.slotCount := by
  have h : ∀ pieces : List (Piece σ), (pieces.flatMap Piece.symbols).countP Symbol.isSlot =
      (pieces.filterMap Piece.slot?).length := by
    intro pieces
    induction pieces with
    | nil => rfl
    | cons p pieces ih =>
      cases p with
      | text s =>
        rw [List.flatMap_cons, List.countP_append, ih, Piece.symbols, countP_chars, Nat.zero_add]
        rfl
      | slot x => simp [Piece.symbols, Piece.slot?, List.countP_cons, ih, Symbol.isSlot]
  rw [slotCount, slots_eq]
  exact h a.pieces

end Fragment

section Scan

variable {xs : List (Symbol σ)}

/-- No digit follows the placeholder of a slot. -/
theorem not_isDigit_head (style : PlaceholderStyle) {x : σ}
    (h : (.slot x :: xs).IsChain Symbol.Before) (n : Nat) :
    ∀ c ∈ (renderSymbols style n xs).head?, ¬ c.isDigit := by
  intro c hc
  cases xs with
  | nil => cases hc
  | cons y ys =>
    cases y with
    | char d =>
      cases hc
      exact (List.isChain_cons_cons.mp h).1 rfl
    | slot y =>
      cases style with
      | dollar =>
        rw [renderSymbols_dollar] at hc
        cases hc
        decide
      | question =>
        rw [renderSymbols_question] at hc
        cases hc
        decide

theorem marks_renderSymbols (h : xs.IsChain Symbol.Before) (hfree : .char '$' ∉ xs) (n : Nat) :
    marks (renderSymbols .dollar n xs) =
      (List.range' n (xs.countP Symbol.isSlot)).map fun i => (toString i).toList := by
  induction xs generalizing n with
  | nil => rfl
  | cons x xs ih =>
    have hrest : .char '$' ∉ xs := fun hmem => hfree (List.mem_cons_of_mem x hmem)
    cases x with
    | char c =>
      have hc : ¬ c = '$' := fun hc => hfree (hc ▸ List.mem_cons_self)
      rw [renderSymbols, marks, if_neg hc, ih h.tail hrest]
      rfl
    | slot x =>
      have hdigits : ∀ c ∈ (toString n).toList, c.isDigit := fun c => Text.isDigit_of_mem_toString
      -- The run of digits is the number, since what follows it starts with no digit.
      have hend : (renderSymbols .dollar (n + 1) xs).takeWhile Char.isDigit = [] := by
        have hhead := not_isDigit_head .dollar h (n + 1)
        cases hxs : renderSymbols .dollar (n + 1) xs with
        | nil => rfl
        | cons c cs =>
          rw [hxs] at hhead
          rw [List.takeWhile_cons, if_neg (hhead c rfl)]
      have hdollar : '$' ∉ (toString n).toList := fun hmem => by
        have hdigit := hdigits '$' hmem
        exact absurd hdigit (by decide)
      rw [renderSymbols_dollar, marks, if_pos rfl, List.takeWhile_append_of_pos hdigits, hend,
        List.append_nil, marks_append hdollar, ih h.tail hrest]
      simp [List.countP_cons, Symbol.isSlot, List.range'_succ]

theorem count_renderSymbols (hfree : .char '?' ∉ xs) (n : Nat) :
    (renderSymbols .question n xs).count '?' = xs.countP Symbol.isSlot := by
  induction xs generalizing n with
  | nil => rfl
  | cons x xs ih =>
    have hrest : .char '?' ∉ xs := fun hmem => hfree (List.mem_cons_of_mem x hmem)
    cases x with
    | char c =>
      have hc : c ≠ '?' := fun hc => hfree (hc ▸ List.mem_cons_self)
      rw [renderSymbols, List.count_cons_of_ne hc, ih hrest]
      rfl
    | slot x =>
      rw [renderSymbols_question, List.count_cons_self, ih hrest, List.countP_cons_of_pos rfl]

/-- A question mark that only slots are written with is followed by no digit. -/
theorem not_isDigit_of_question (h : xs.IsChain Symbol.Before) (hfree : .char '?' ∉ xs) {n : Nat}
    {before after : List Char} (hxs : renderSymbols .question n xs = before ++ '?' :: after) :
    ∀ c ∈ after.head?, ¬ c.isDigit := by
  induction xs generalizing n before with
  | nil => simp [renderSymbols] at hxs
  | cons x xs ih =>
    have hrest : .char '?' ∉ xs := fun hmem => hfree (List.mem_cons_of_mem x hmem)
    cases x with
    | char c =>
      have hc : c ≠ '?' := fun hc => hfree (hc ▸ List.mem_cons_self)
      cases before with
      | nil => exact absurd (List.cons.inj hxs).1 hc
      | cons b before => exact ih h.tail hrest (List.cons.inj hxs).2
    | slot x =>
      rw [renderSymbols_question] at hxs
      cases before with
      | nil =>
        rw [← (List.cons.inj hxs).2]
        exact not_isDigit_head .question h (n + 1)
      | cons b before => exact ih h.tail hrest (List.cons.inj hxs).2

end Scan

/-! ### Fragments -/

/-- The sign that slots are written with. -/
def PlaceholderStyle.sign : PlaceholderStyle → Char
  | .dollar => '$'
  | .question => '?'

/-- Whether the sign of a placeholder style is not in a text; without a style, any text will do. -/
def Free (style? : Option PlaceholderStyle) (s : String) : Prop :=
  ∀ style ∈ style?, style.sign ∉ s.toList

/-- Whether a text has no sign of any placeholder style. -/
def isWording (s : String) : Bool := !s.toList.contains '$' && !s.toList.contains '?'

variable {style? : Option PlaceholderStyle}

theorem Free.of_wording {s : String} (h : isWording s) : Free style? s := by
  intro style _
  simp only [isWording, Bool.and_eq_true, Bool.not_eq_true', List.contains_eq_mem,
    decide_eq_false_iff_not] at h
  cases style with
  | dollar => exact h.1
  | question => exact h.2

theorem Free.append {s t : String} (hs : Free style? s) (ht : Free style? t) :
    Free style? (s ++ t) := by
  intro style hstyle
  rw [String.toList_append, List.mem_append]
  exact not_or.mpr ⟨hs style hstyle, ht style hstyle⟩

theorem Free.toString (n : Nat) : Free style? (toString n) := by
  intro style _ hmem
  have hdigit := Text.isDigit_of_mem_toString hmem
  cases style <;> exact absurd hdigit (by decide)

namespace Fragment

/-- No digit stands directly behind a slot, and the sign of a placeholder style is in no text. -/
structure Spaced (style? : Option PlaceholderStyle) (a : Fragment σ) : Prop where
  chain : a.symbols.IsChain Symbol.Before
  free : ∀ style ∈ style?, .char style.sign ∉ a.symbols

/-- A spaced fragment that can stand directly behind a slot. -/
structure Fenced (style? : Option PlaceholderStyle) (a : Fragment σ) : Prop
    extends a.Spaced style? where
  first : ∀ x ∈ a.symbols.head?, ¬ x.isDigit

/-- Whether a text has a first character, which is no digit. -/
def isFence (s : String) : Bool := s.toList.head?.any (!·.isDigit)

theorem isFence_append {s : String} (h : isFence s) (t : String) : isFence (s ++ t) := by
  cases hs : s.toList with
  | nil => simp [isFence, hs] at h
  | cons c cs =>
    simpa [isFence, hs] using h

theorem Fenced.empty : (empty : Fragment σ).Fenced style? :=
  ⟨⟨.nil, fun _ _ => List.not_mem_nil⟩, nofun⟩

theorem isChain_chars (cs : List Char) :
    (cs.map (Symbol.char : Char → Symbol σ)).IsChain Symbol.Before := by
  rw [List.isChain_map]
  exact (List.pairwise_of_forall fun _ _ => nofun).isChain

theorem Spaced.text {s : String} (h : Free style? s) : (text s : Fragment σ).Spaced style? := by
  constructor
  · rw [symbols_text]
    exact isChain_chars s.toList
  · intro style hstyle
    rw [symbols_text]
    simpa using h style hstyle

theorem Spaced.slot (x : σ) : (slot x).Spaced style? :=
  ⟨.singleton _, fun _ _ => by simp⟩

theorem free_append {a b : Fragment σ} (ha : ∀ style ∈ style?, .char style.sign ∉ a.symbols)
    (hb : ∀ style ∈ style?, .char style.sign ∉ b.symbols) :
    ∀ style ∈ style?, .char style.sign ∉ (a ++ b).symbols := by
  intro style hstyle
  rw [symbols_append, List.mem_append]
  exact not_or.mpr ⟨ha style hstyle, hb style hstyle⟩

theorem Spaced.append {a b : Fragment σ} (ha : a.Spaced style?) (hb : b.Fenced style?) :
    (a ++ b).Spaced style? := by
  refine ⟨?_, free_append ha.free hb.free⟩
  rw [symbols_append, List.isChain_append]
  exact ⟨ha.chain, hb.chain, fun _ _ y hy _ => hb.first y hy⟩

/-- Nothing that follows a text stands behind a slot of it. -/
theorem Spaced.text_append {s : String} {a : Fragment σ} (hs : Free style? s)
    (ha : a.Spaced style?) : (.text s ++ a).Spaced style? := by
  have htext := Spaced.text (σ := σ) hs
  refine ⟨?_, free_append htext.free ha.free⟩
  rw [symbols_append, List.isChain_append]
  refine ⟨htext.chain, ha.chain, fun x hx y _ hslot => ?_⟩
  rw [symbols_text] at hx
  obtain ⟨c, _, rfl⟩ := List.mem_map.mp (List.mem_of_mem_getLast? hx)
  cases hslot

theorem Fenced.text_append {s : String} {a : Fragment σ} (hs : Free style? s) (hfence : isFence s)
    (ha : a.Spaced style?) : (.text s ++ a).Fenced style? := by
  refine ⟨.text_append hs ha, fun x hx => ?_⟩
  rw [symbols_append, symbols_text] at hx
  cases hchars : s.toList with
  | nil => simp [isFence, hchars] at hfence
  | cons c cs =>
    rw [hchars] at hx
    cases hx
    simpa [isFence, hchars, Symbol.isDigit] using hfence

theorem Fenced.append {a b : Fragment σ} (ha : a.Fenced style?) (hb : b.Fenced style?) :
    (a ++ b).Fenced style? := by
  refine ⟨ha.toSpaced.append hb, fun x hx => ?_⟩
  rw [symbols_append, List.head?_append] at hx
  rcases Option.or_eq_some_iff.mp hx with hx | ⟨_, hx⟩
  · exact ha.first x hx
  · exact hb.first x hx

theorem Fenced.text {s : String} (hs : Free style? s) (hfence : isFence s) :
    (text s : Fragment σ).Fenced style? := by
  have h := Fenced.text_append (σ := σ) hs hfence Fenced.empty.toSpaced
  rwa [append_empty] at h

theorem Fenced.concat {fragments : List (Fragment σ)} (h : ∀ a ∈ fragments, a.Fenced style?) :
    (concat fragments).Fenced style? := by
  induction fragments with
  | nil => exact .empty
  | cons a rest ih => exact (h a (by simp)).append (ih fun b hb => h b (by simp [hb]))

theorem Spaced.commaList {as : List (Fragment σ)} (h : ∀ a ∈ as, a.Spaced style?) :
    (commaList as).Spaced style? := by
  fun_induction Fragment.commaList as with
  | case1 => exact Fenced.empty.toSpaced
  | case2 a => exact h a (by simp)
  | case3 a b rest ih =>
    rw [append_assoc]
    exact (h a (by simp)).append (.text_append (.of_wording (by decide)) (by decide)
      (ih fun c hc => h c (List.mem_cons_of_mem a hc)))

theorem Spaced.names {items : List String} (h : ∀ s ∈ items, Free style? s) :
    (names items : Fragment σ).Spaced style? := by
  refine .commaList fun a ha => ?_
  obtain ⟨s, hs, rfl⟩ := List.mem_map.mp ha
  exact .text (h s hs)

theorem Spaced.slotList (xs : List σ) : (slotList xs).Spaced style? := by
  refine .commaList fun a ha => ?_
  obtain ⟨x, _, rfl⟩ := List.mem_map.mp ha
  exact .slot x

theorem Spaced.parenthesized {a : Fragment σ} (h : a.Spaced style?) :
    a.parenthesized.Spaced style? := by
  rw [Fragment.parenthesized, append_assoc]
  exact .text_append (.of_wording (by decide))
    (h.append (.text (.of_wording (by decide)) (by decide)))

end Fragment

end Sql

/-! ### Commands -/

/-- The texts of joins that come from the caller. -/
def joinTexts (joins : List Join) : List String := joins.flatMap fun j => [j.table, j.on]

mutual

/-- The texts of a SELECT that come from the caller. -/
def Select.texts : Select σ → List String
  | .block body tail => body.texts ++ tail.order.map SortKey.column
  | .combined lead leadTail members tail =>
    lead.texts ++ leadTail.order.map SortKey.column ++ Select.memberTexts members
      ++ tail.order.map SortKey.column

def Select.memberTexts : List (SetOp × Select σ) → List String
  | [] => []
  | (_, s) :: rest => s.texts ++ Select.memberTexts rest

end

def ConflictAction.texts : ConflictAction σ → List String
  | .nothing => []
  | .overwrite columns => columns
  | .assign assignments => assignments.map Prod.fst

/-- The texts of a command that come from the caller. -/
def Command.texts : Command σ → List String
  | .select s | .countRows s | .anyRow s => s.texts
  | .countBlock body => body.texts
  | .insert table columns _ conflict returning =>
    table :: columns ++ (conflict.elim [] fun c => c.target ++ c.action.texts) ++ returning
  | .update table assignments predicates returning =>
    table :: assignments.map Prod.fst ++ predicates.map (fun p => p.condition.column) ++ returning
  | .delete table joins predicates returning =>
    table :: joinTexts joins ++ predicates.map (fun p => p.condition.column) ++ returning

section Walk

variable {style? : Option PlaceholderStyle}

theorem Condition.spaced {c : Condition σ} (h : Free style? c.column) :
    c.fragment.Spaced style? := by
  cases c with
  | raw expression => exact .text h
  | compare column op x =>
    have hop : isWording op.sql := by cases op <;> decide
    refine .text_append (.append (.append (.append h ?_) (.of_wording hop)) ?_) (.slot x)
    · exact .of_wording (by decide)
    · exact .of_wording (by decide)
  | between column negated low high =>
    have hrange : isWording (if negated then " NOT BETWEEN " else " BETWEEN ") := by
      cases negated <;> decide
    rw [fragment, Fragment.append_assoc, Fragment.append_assoc]
    refine .text_append (.append h (.of_wording hrange)) (.append (.slot low) ?_)
    exact .text_append (.of_wording (by decide)) (by decide) (.slot high)
  | membership column negated xs =>
    cases xs with
    | nil =>
      have hconstant : isWording (if negated then "1=1" else "1=0") := by
        cases negated <;> decide
      exact .text (.of_wording hconstant)
    | cons x xs =>
      have hin : isWording (if negated then " NOT IN (" else " IN (") := by
        cases negated <;> decide
      rw [fragment, Fragment.append_assoc]
      refine .text_append (.append h (.of_wording hin)) (.append (.slotList (x :: xs)) ?_)
      exact .text (.of_wording (by decide)) (by decide)
  | nullness column negated =>
    have htest : isWording (if negated then " IS NOT NULL" else " IS NULL") := by
      cases negated <;> decide
    exact .text (.append h (.of_wording htest))

theorem fenced_whereClause {ps : List (Predicate σ)}
    (h : ∀ p ∈ ps, Free style? p.condition.column) : (whereClause ps).Fenced style? := by
  cases ps with
  | nil => exact .empty
  | cons p rest =>
    refine .append ?_ (.concat fun a ha => ?_)
    · exact .text_append (.of_wording (by decide)) (by decide) (Condition.spaced (h p (by simp)))
    · obtain ⟨q, hq, rfl⟩ := List.mem_map.mp ha
      have hconnective : isWording (" " ++ q.connective.sql ++ " ") ∧
          Fragment.isFence (" " ++ q.connective.sql ++ " ") := by
        cases q.connective <;> decide
      exact .text_append (.of_wording hconnective.1) hconnective.2
        (Condition.spaced (h q (by simp [hq])))

theorem fenced_joinClauses {joins : List Join} (h : ∀ t ∈ joinTexts joins, Free style? t) :
    (joinClauses joins : Fragment σ).Fenced style? := by
  refine .concat fun a ha => ?_
  obtain ⟨j, hj, rfl⟩ := List.mem_map.mp ha
  have htexts : Free style? j.table ∧ Free style? j.on := by
    constructor <;> exact h _ (List.mem_flatMap.mpr ⟨j, hj, by simp⟩)
  have hkind : isWording (" " ++ j.kind.sql ++ " ") ∧
      Fragment.isFence (" " ++ j.kind.sql ++ " ") := by
    cases j.kind <;> decide
  have hon : Free style? (j.table ++ " ON " ++ j.on) :=
    .append (.append htexts.1 (.of_wording (by decide))) htexts.2
  have htext := Fragment.Fenced.text (σ := σ) (.append (.of_wording hkind.1) hon)
    (Fragment.isFence_append hkind.2 _)
  rwa [← String.append_assoc, ← String.append_assoc] at htext

theorem fenced_listClause (keyword : String) (hkeyword : isWording keyword)
    (hfence : Fragment.isFence keyword) {items : List String} (h : ∀ s ∈ items, Free style? s) :
    (listClause keyword items : Fragment σ).Fenced style? := by
  unfold listClause
  split
  · exact .empty
  · exact .text_append (.of_wording hkeyword) hfence (.names h)

theorem fenced_countClause (keyword : String) (hkeyword : isWording keyword)
    (hfence : Fragment.isFence keyword) (n : Nat) :
    (countClause keyword n : Fragment σ).Fenced style? := by
  unfold countClause
  split
  · exact .empty
  · exact .text (.append (.of_wording hkeyword) (.toString n)) (Fragment.isFence_append hfence _)

theorem Tail.fenced {t : Tail} (h : ∀ s ∈ t.order.map SortKey.column, Free style? s) :
    (t.fragment : Fragment σ).Fenced style? := by
  refine .append (.append (fenced_listClause _ (by decide) (by decide) fun s hs => ?_) ?_) ?_
  · obtain ⟨k, hk, rfl⟩ := List.mem_map.mp hs
    have hdirection : isWording (" " ++ k.direction.sql) := by cases k.direction <;> decide
    rw [String.append_assoc]
    exact .append (h _ (List.mem_map_of_mem hk)) (.of_wording hdirection)
  · exact fenced_countClause _ (by decide) (by decide) t.limit
  · exact fenced_countClause _ (by decide) (by decide) t.offset

theorem Body.spaced_projection {b : Body σ} (h : ∀ t ∈ b.columns, Free style? t) :
    b.projection.Spaced style? := by
  have hdistinct : isWording (if b.distinct then "DISTINCT " else "") := by
    cases b.distinct <;> decide
  refine .text_append (.of_wording hdistinct) ?_
  split
  · exact .text (.of_wording (by decide))
  · exact .names h

/-- A body whose texts are free, over a projection of its own or another one. -/
theorem Body.spaced_fragmentOver {b : Body σ} (h : ∀ t ∈ b.texts, Free style? t)
    {projection : Fragment σ} (hprojection : projection.Spaced style?) :
    (b.fragmentOver projection).Spaced style? := by
  simp only [texts, List.mem_append] at h
  have hpredicates : ∀ p ∈ b.predicates, Free style? p.condition.column := fun p hp =>
    h _ (.inl (.inr (List.mem_map_of_mem hp)))
  -- The clauses behind the tables can follow any slot, since each of them starts with a blank.
  have hclauses : (joinClauses b.joins ++ whereClause b.predicates ++
      listClause " GROUP BY " b.groups).Fenced style? :=
    .append (.append (fenced_joinClauses fun t ht => h t (.inl (.inl (.inr ht))))
      (fenced_whereClause hpredicates))
      (fenced_listClause _ (by decide) (by decide) fun t ht => h t (.inr ht))
  have htables : (Fragment.names b.tables : Fragment σ).Spaced style? :=
    .names fun t ht => h t (.inl (.inl (.inl (.inr ht))))
  have heq : b.fragmentOver projection = .text "SELECT " ++ (projection ++ (.text " FROM " ++
      (.names b.tables ++ (joinClauses b.joins ++ whereClause b.predicates ++
        listClause " GROUP BY " b.groups)))) := by
    simp only [fragmentOver, Fragment.append_assoc]
  rw [heq]
  refine .text_append (.of_wording (by decide)) (hprojection.append ?_)
  exact .text_append (.of_wording (by decide)) (by decide) (htables.append hclauses)

theorem Body.spaced {b : Body σ} (h : ∀ t ∈ b.texts, Free style? t) :
    b.fragment.Spaced style? := by
  refine spaced_fragmentOver h (spaced_projection fun t ht => h t ?_)
  simp [texts, ht]

theorem spaced_operand {a : Fragment σ} (h : a.Spaced style?) (bare : Bool) :
    (operand bare a).Spaced style? := by
  unfold operand
  split
  · exact h
  · exact h.parenthesized

mutual

theorem Select.spaced : (s : Select σ) → (∀ t ∈ s.texts, Free style? t) →
    s.fragment.Spaced style?
  | .block body tail, h => by
    simp only [texts, List.mem_append] at h
    exact (Body.spaced fun t ht => h t (.inl ht)).append (Tail.fenced fun t ht => h t (.inr ht))
  | .combined lead leadTail members tail, h => by
    simp only [texts, List.mem_append] at h
    have hlead : (lead.fragment ++ leadTail.fragment).Spaced style? :=
      (Body.spaced fun t ht => h t (.inl (.inl (.inl ht)))).append
        (Tail.fenced fun t ht => h t (.inl (.inl (.inr ht))))
    have hmembers := fenced_memberFragments members fun t ht => h t (.inl (.inr ht))
    exact ((spaced_operand hlead _).append hmembers).append (Tail.fenced fun t ht => h t (.inr ht))

theorem Select.fenced_memberFragments : (members : List (SetOp × Select σ)) →
    (∀ t ∈ memberTexts members, Free style? t) → (memberFragments members).Fenced style?
  | [], _ => .empty
  | (op, s) :: rest, h => by
    simp only [memberTexts, List.mem_append] at h
    have hop : isWording (" " ++ op.sql ++ " ") ∧ Fragment.isFence (" " ++ op.sql ++ " ") := by
      cases op <;> decide
    have hmember := spaced_operand (Select.spaced s fun t ht => h t (.inl ht)) s.isBare
    exact .append (.text_append (.of_wording hop.1) hop.2 hmember)
      (fenced_memberFragments rest fun t ht => h t (.inr ht))

end

theorem spaced_assignmentList {assignments : List (String × σ)}
    (h : ∀ t ∈ assignments.map Prod.fst, Free style? t) :
    (assignmentList assignments).Spaced style? := by
  refine .commaList fun a ha => ?_
  obtain ⟨⟨column, x⟩, hx, rfl⟩ := List.mem_map.mp ha
  exact .text_append (.append (h column (List.mem_map_of_mem hx)) (.of_wording (by decide)))
    (.slot x)

theorem Conflict.fenced {c : Conflict σ} (htarget : ∀ t ∈ c.target, Free style? t)
    (haction : ∀ t ∈ c.action.texts, Free style? t) : c.fragment.Fenced style? := by
  rw [fragment, Fragment.append_assoc, Fragment.append_assoc]
  refine .text_append (.of_wording (by decide)) (by decide) (.append (.names htarget) ?_)
  refine .text_append (.of_wording (by decide)) (by decide) ?_
  cases hc : c.action with
  | nothing => exact .text (.of_wording (by decide))
  | overwrite columns =>
    rw [hc] at haction
    refine .text_append (.of_wording (by decide)) (.names fun t ht => ?_)
    obtain ⟨column, hcolumn, rfl⟩ := List.mem_map.mp ht
    exact .append (.append (haction column hcolumn) (.of_wording (by decide)))
      (haction column hcolumn)
  | assign assignments =>
    rw [hc] at haction
    exact .text_append (.of_wording (by decide)) (spaced_assignmentList haction)

/-- No digit stands directly behind a slot of a command, and no sign of a style that is in none of
its texts is in it. -/
theorem Command.spaced {c : Command σ} (h : ∀ t ∈ c.texts, Free style? t) :
    c.fragment.Spaced style? := by
  cases c with
  | select s => exact s.spaced h
  | countBlock body =>
    exact Body.spaced_fragmentOver h (.text (.of_wording (by decide)))
  | countRows s =>
    rw [fragment, Fragment.append_assoc]
    exact .text_append (.of_wording (by decide))
      ((s.spaced h).append (.text (.of_wording (by decide)) (by decide)))
  | anyRow s =>
    rw [fragment, Fragment.append_assoc]
    exact .text_append (.of_wording (by decide))
      ((s.spaced h).append (.text (.of_wording (by decide)) (by decide)))
  | insert table columns rows conflict returning =>
    simp only [texts, List.cons_append, List.mem_cons, List.mem_append] at h
    have htable : Free style? ("INSERT INTO " ++ table ++ " (") :=
      .append (.append (.of_wording (by decide)) (h table (.inl rfl))) (.of_wording (by decide))
    have hrows : (Fragment.commaList (rows.map fun row =>
        (Fragment.slotList row).parenthesized)).Spaced style? := by
      refine .commaList fun a ha => ?_
      obtain ⟨row, _, rfl⟩ := List.mem_map.mp ha
      exact (Fragment.Spaced.slotList row).parenthesized
    have hconflict : (conflict.elim .empty Conflict.fragment).Fenced style? := by
      cases conflict with
      | none => exact .empty
      | some c =>
        simp only [Option.elim_some, List.mem_append] at h
        exact Conflict.fenced (fun t ht => h t (.inr (.inl (.inr (.inl ht)))))
          (fun t ht => h t (.inr (.inl (.inr (.inr ht)))))
    have hreturning := fenced_listClause (σ := σ) " RETURNING " (by decide)
      (by decide) fun t ht => h t (.inr (.inr ht))
    simp only [fragment, Fragment.append_assoc]
    refine .text_append htable (.append (.names fun t ht => h t (.inr (.inl (.inl ht)))) ?_)
    exact .text_append (.of_wording (by decide)) (by decide)
      (hrows.append (hconflict.append hreturning))
  | update table assignments predicates returning =>
    simp only [texts, List.cons_append, List.mem_cons, List.mem_append] at h
    have hassignments := spaced_assignmentList fun t ht => h t (.inr (.inl (.inl ht)))
    have hwhere := fenced_whereClause fun p hp => h _ (.inr (.inl (.inr (List.mem_map_of_mem hp))))
    have hreturning := fenced_listClause (σ := σ) " RETURNING " (by decide)
      (by decide) fun t ht => h t (.inr (.inr ht))
    simp only [fragment, Fragment.append_assoc]
    refine .text_append ?_ (hassignments.append (hwhere.append hreturning))
    exact .append (.append (.of_wording (by decide)) (h table (.inl rfl))) (.of_wording (by decide))
  | delete table joins predicates returning =>
    simp only [texts, List.cons_append, List.mem_cons, List.mem_append] at h
    have hjoins := fenced_joinClauses (σ := σ) fun t ht => h t (.inr (.inl (.inl ht)))
    have hwhere := fenced_whereClause fun p hp => h _ (.inr (.inl (.inr (List.mem_map_of_mem hp))))
    have hreturning := fenced_listClause (σ := σ) " RETURNING " (by decide)
      (by decide) fun t ht => h t (.inr (.inr ht))
    simp only [fragment, Fragment.append_assoc]
    refine .text_append ?_ (hjoins.append (hwhere.append hreturning)).toSpaced
    exact .append (.of_wording (by decide)) (h table (.inl rfl))

end Walk

end BoundSql
